import StepShell.Proofs.Command.Draining
import StepShell.Proofs.Compilation.Supply
import StepShell.Proofs.Machine.Dispatch
import StepShell.Proofs.Machine.Moments
import StepShell.Proofs.Machine.Pipeline
import StepShell.Proofs.Machine.Redirection
import StepShell.Proofs.Script.Alternation

/-! What a plain command prints stays written until something flushes it: nothing of it is on the
screen when the command is through. What goes through its pipes is not printed at all. -/

namespace StepShell

namespace Node

def isRedirect : Node → Bool
  | .redirect .. => true
  | _ => false

/-- A simple command without redirects. -/
def isBare : Node → Bool
  | .command parts _ => parts.all fun part => !part.isRedirect
  | _ => false

/-- Such a command, or some with pipes between them. -/
def isPlain : Node → Bool
  | .pipeline stages _ => stages.all fun stage => stage.isPipe || stage.isBare
  | node => node.isBare

end Node

namespace Sandbox

/-- Nothing was printed, and what there was to read is there still, or all of it was read. -/
structure Withholds (before after : Sandbox) : Prop where
  screen : after.screen = before.screen
  input : after.io.input = before.io.input ∨ after.io.input = ""

theorem Withholds.trans {first second third : Sandbox} (before : first.Withholds second)
    (after : second.Withholds third) : first.Withholds third := by
  refine ⟨after.screen.trans before.screen, ?_⟩
  rcases after.input with same | read
  · rw [same]
    exact before.input
  · exact .inr read

theorem Withholds.of_eq {before after : Sandbox} (screen : after.screen = before.screen)
    (io : after.io = before.io) : before.Withholds after :=
  ⟨screen, .inl (congrArg Socket.input io)⟩

/-- Nothing was printed. -/
def SameScreen (before after : Sandbox) : Prop :=
  after.screen = before.screen

theorem Drains.withholds {before after : Sandbox} (drains : before.Drains after) :
    before.Withholds after :=
  ⟨drains.screen, drains.input⟩

theorem write_withholds (sandbox : Sandbox) (text : String) :
    sandbox.Withholds (sandbox.write text) :=
  ⟨rfl, .inl rfl⟩

@[simp] theorem flush_output (sandbox : Sandbox) : sandbox.flush.io.output = "" := by
  unfold flush
  split
  · exact String.isEmpty_iff.mp ‹_›
  · rfl

theorem raise_io {sandbox : Sandbox} {scope : Scope} {scopes : List Scope}
    (lowered : sandbox.scopes = scope :: scopes) : sandbox.raise.io = scope.io := by
  rw [raise, lowered]

end Sandbox

theorem Redirects.collect_bare {parts : List Node}
    (bare : ∀ part ∈ parts, part.isRedirect = false) : collect parts = .ok .none := by
  have general : ∀ (pairs : List (Node × Nat)) (before : Redirects),
      (∀ pair ∈ pairs, pair.1.isRedirect = false) → pairs.foldlM add before = .ok before := by
    intro pairs before each
    induction pairs with
    | nil => rfl
    | cons pair rest ih =>
      obtain ⟨here, later⟩ := List.forall_mem_cons.mp each
      have skipped : add before pair = .ok before := by
        obtain ⟨part, index⟩ := pair
        cases part with
        | redirect => cases here
        | _ => rfl
      rw [List.foldlM_cons, skipped]
      exact ih later
  refine general _ _ fun pair member => bare pair.1 ?_
  exact List.mem_of_getElem? (List.mk_mem_zipIdx_iff_getElem?.mp member)

namespace Compilation

theorem substitutions_bare {parts : List Node} (bare : ∀ part ∈ parts, part.isRedirect = false)
    (slot : Nat) : substitutions slot parts .targets = [] := by
  refine List.flatMap_eq_nil_iff.mpr fun pair member => ?_
  have here := bare pair.1 (List.mem_of_getElem? (List.mk_mem_zipIdx_iff_getElem?.mp member))
  obtain ⟨part, index⟩ := pair
  cases part with
  | redirect => cases here
  | _ => rfl

section
variable {ω : Type} [Operator ω] {setting : Setting} {before after : Compilation ω}
  {actions : List Action}

/-- A command without redirects is compiled to nothing but what it does itself. -/
theorem compile_bare_eq_ok {command : Node} (bare : command.isBare = true)
    (made : (command.compile setting).run before = (.ok actions, after)) :
    ∃ slot source parts, slot < after.slots.size ∧ actions = innerActions slot source parts := by
  cases command with
  | command parts span =>
    have each : ∀ part ∈ parts, part.isRedirect = false := by simpa [Node.isBare] using bare
    obtain ⟨redirects, collected, rfl, rfl⟩ := compile_command_eq_ok made
    cases (Redirects.collect_bare each).symm.trans collected
    refine ⟨before.slots.size, (Node.command parts span).shell, parts, ?_, ?_⟩
    · rw [Array.size_push]
      exact Nat.lt_succ_self _
    · rw [commandActions_eq, substitutions_bare each]
      simp [Redirects.opening, Redirects.closing, Redirects.none]
  | _ => cases bare

theorem compileEach_size_le {sign : Node → Option Action} {lead : List Action}
    {parts : List Node}
    (made : (Node.compileEach sign lead setting parts).run before = (.ok actions, after)) :
    before.slots.size ≤ after.slots.size := by
  have grown : Grown (fun _ => True) before
      ((Node.compileEach sign lead setting parts : Compile ω (List Action)).run before).2 :=
    compileEach_preserves (fun part _ _ => compile_preserves part (fun _ _ => trivial) _)
      (.refl _ _)
  rw [made] at grown
  exact Extends.size_le grown.slots

/-- A part that is no sign is compiled before the others. -/
theorem compileEach_cons_eq_ok {sign : Node → Option Action} {lead : List Action} {part : Node}
    {rest : List Node} (ordinary : sign part = none)
    (made : (Node.compileEach sign lead setting (part :: rest)).run before =
      (.ok actions, after)) :
    ∃ early middle late, (part.compile setting).run before = (.ok early, middle) ∧
      (Node.compileEach sign lead setting rest).run middle = (.ok late, after) ∧
      actions = lead ++ early ++ late := by
  rw [Node.compileEach, ordinary] at made
  obtain ⟨early, middle, one, made⟩ := run_bind_eq_ok.mp made
  obtain ⟨late, _, others, made⟩ := run_bind_eq_ok.mp made
  obtain ⟨rfl, rfl⟩ := run_pure_eq_ok.mp made
  exact ⟨early, middle, late, one, others, rfl⟩

theorem compileEach_sign_eq_ok {sign : Node → Option Action} {lead : List Action} {part : Node}
    {rest : List Node} {action : Action} (signs : sign part = some action)
    (made : (Node.compileEach sign lead setting (part :: rest)).run before =
      (.ok actions, after)) :
    ∃ late, (Node.compileEach sign lead setting rest).run before = (.ok late, after) ∧
      actions = action :: late := by
  rw [Node.compileEach, signs] at made
  obtain ⟨late, _, others, made⟩ := run_bind_eq_ok.mp made
  obtain ⟨rfl, rfl⟩ := run_pure_eq_ok.mp made
  exact ⟨late, others, rfl⟩

theorem compileEach_nil_eq_ok {sign : Node → Option Action} {lead : List Action}
    (made : (Node.compileEach sign lead setting []).run before = (.ok actions, after)) :
    actions = [] ∧ after = before := by
  rw [Node.compileEach] at made
  exact run_pure_eq_ok.mp made

end

end Compilation

namespace Machine

variable {ω η : Type} [Operator ω] [Host η]

omit [Host η] in
/-- The command in a slot has no name, or is one that the sandbox knows, or the operator skips
it. -/
def isUsual (machine : Machine ω η) (index : Nat) : Bool :=
  match machine.slots[index]? with
  | none => true
  | some parts =>
    match words machine.sandbox.vars parts with
    | [] => true
    | name :: _ =>
      (machine.sandbox.functions.get? name).isNone && name != "bash" && name != "sh" &&
        ((machine.commands.get? name).isSome ||
          (Operator.command (commandLine parts) machine.operator).1 == .skip)

/-- If a command in one of the first so many slots has its turn, it is a usual one. -/
def nextUsual (machine : Machine ω η) (bound : Nat) : Bool :=
  match machine.pending.head?.map Action.operation with
  | some (.run index) => !decide (index < bound) || machine.isUsual index
  | _ => true

/-- Nothing was printed since the start, and nothing put first. -/
structure Quiet (start now : Machine ω η) : Prop where
  sandbox : start.sandbox.Withholds now.sandbox
  pending : now.pending = start.pending

section
variable {machine after : Machine ω η} {value : Unit}

omit [Operator ω] [Host η] in
theorem Quiet.refl (machine : Machine ω η) : Quiet machine machine :=
  ⟨.of_eq rfl rfl, rfl⟩

omit [Operator ω] [Host η] in
theorem runKnown_quiet {command : Command ω} {args : List String} (drains : command.Drains)
    (done : (runKnown command args).run machine = (.ok value, after)) : Quiet machine after := by
  unfold runKnown at done
  rw [run_get_bind] at done
  have drained := (drains args machine.sandbox machine.operator).withholds
  rcases answer : command args machine.sandbox machine.operator with ⟨result, sandbox, operator⟩
  rw [answer] at done drained
  obtain ⟨_, middle, noted, printing⟩ := run_bind_eq_ok.mp done
  obtain rfl := run_set_eq_ok.mp noted
  obtain ⟨printed, _, lifted, changed⟩ := run_bind_eq_ok.mp printing
  obtain ⟨_, rfl⟩ := run_lift_eq_ok.mp lifted
  rw [run_modify_eq_ok.mp changed]
  exact ⟨(drained.trans (Sandbox.write_withholds _ _)).trans (Sandbox.write_withholds _ _), rfl⟩

/-- A usual command prints nothing before it is flushed. -/
theorem run_quiet {index : Nat} (standard : machine.commands = Command.standard)
    (usual : machine.isUsual index = true)
    (done : (execute (.run index)).run machine = (.ok value, after)) : Quiet machine after := by
  obtain ⟨parts, before, looked, ran⟩ := run_bind_eq_ok.mp done
  obtain ⟨held, rfl⟩ := slot_eq_ok looked
  rw [isUsual, held] at usual
  dsimp only at usual
  cases named : words before.sandbox.vars parts with
  | nil =>
    rw [runParts_nameless named] at ran
    cases ran
    exact .refl _
  | cons name args =>
    rw [named] at usual
    simp only [Bool.and_eq_true, Bool.or_eq_true, Option.isNone_iff_eq_none, bne_iff_ne,
      beq_iff_eq] at usual
    obtain ⟨⟨⟨undefined, other⟩, another⟩, way⟩ := usual
    have plain : ¬(name = "bash" ∨ name = "sh") := by
      rintro (same | same)
      · exact other same
      · exact another same
    cases known : before.commands.get? name with
    | some command =>
      rw [runParts_known named undefined plain known] at ran
      rw [standard] at known
      exact runKnown_quiet (Command.standard_drains known) ran
    | none =>
      rw [known] at way
      have skips := way.resolve_left (by simp)
      rw [runParts_unfound named undefined plain known] at ran
      rcases answer : Operator.command (commandLine parts) before.operator with ⟨_, operator⟩
      rw [answer] at skips ran
      cases skips
      cases ran
      exact ⟨.of_eq rfl rfl, rfl⟩

omit [Operator ω] [Host η] in
theorem assignParts_quiet {start : Machine ω η} {parts : List Node} :
    Preserves (Quiet start) machine (assignParts parts) := by
  induction parts generalizing machine with
  | nil => exact .pure
  | cons part rest ih =>
    cases part with
    | assignment text inner span =>
      unfold assignParts
      split
      · exact .bind (.modify fun quiet => ⟨quiet.sandbox.trans (.of_eq rfl rfl), quiet.pending⟩)
          fun _ _ _ => ih
      · exact .throw
    | _ => exact ih

theorem assign_quiet {index : Nat}
    (done : (execute (.assign index)).run machine = (.ok value, after)) : Quiet machine after := by
  obtain ⟨parts, before, looked, ran⟩ := run_bind_eq_ok.mp done
  obtain ⟨_, rfl⟩ := slot_eq_ok looked
  have kept : Quiet before ((assignParts parts).run before).2 := assignParts_quiet (.refl before)
  rw [ran] at kept
  exact kept

end

/-- A moment of the run of what is pending. -/
def Reaches (start moment : Machine ω η) : Prop :=
  ∃ count, start.inched count = moment

section
variable {start machine after : Machine ω η}

theorem Reaches.inch {more : Bool} (reaches : Reaches start machine)
    (inched : Machine.inch.run machine = (.ok more, after)) : Reaches start after := by
  obtain ⟨count, rfl⟩ := reaches
  exact ⟨count + 1, congrArg Prod.snd inched⟩

theorem Reaches.runs {rest : List Action} (reaches : Reaches start machine)
    (runs : Runs rest machine after) : Reaches start after := by
  obtain ⟨count, rfl⟩ := reaches
  obtain ⟨more, rfl⟩ := runs.inched
  exact ⟨count + more, inched_add start count more⟩

end

/-- Wherever the block runs since the start, the sandbox behind it stands in this relation to the
one before. -/
structure Leaves (start : Machine ω η) (relation : Sandbox → Sandbox → Prop)
    (actions : List Action) : Prop where
  block : Block actions
  relates : ∀ rest machine after, Reaches start machine → machine.Sound →
    Runs rest machine after → machine.pending = actions ++ rest →
    relation machine.sandbox after.sandbox

section
variable {start : Machine ω η} {first second relation : Sandbox → Sandbox → Prop}

theorem Leaves.nil (same : ∀ sandbox, relation sandbox sandbox) : Leaves start relation [] := by
  refine ⟨.nil, fun rest machine after _ _ runs pending => ?_⟩
  rw [runs.ended pending]
  exact same _

theorem Leaves.append {early late : List Action} (before : Leaves start first early)
    (behind : Leaves start second late)
    (whole : ∀ {one other last}, first one other → second other last → relation one last) :
    Leaves start relation (early ++ late) := by
  refine ⟨before.block.append behind.block, fun rest machine after reaches sound runs pending => ?_⟩
  rw [List.append_assoc] at pending
  obtain ⟨middle, one, other⟩ := runs.split pending
  exact whole (before.relates _ _ _ reaches sound one pending)
    (behind.relates _ _ _ (reaches.runs one) (one.sound sound before.block pending) other
      one.pending)

theorem Leaves.single {action : Action} (block : Block [action])
    (does : ∀ rest machine executed, Reaches start machine → machine.Sound →
      machine.pending = action :: rest →
      (execute action.operation).run { machine with pending := rest, ticks := machine.ticks + 1 } =
        (.ok (), executed) →
      executed.pending = rest ∧ relation machine.sandbox executed.sandbox) :
    Leaves start relation [action] := by
  refine ⟨block, fun rest machine after reaches sound runs pending => ?_⟩
  obtain ⟨executed, done, later⟩ := runs.first pending
  obtain ⟨same, relates⟩ := does _ _ _ reaches sound pending done
  rw [later.ended ((settle_frame executed).1.trans same), (settle_frame executed).2.1]
  exact relates

theorem Leaves.imp {actions : List Action} (leaves : Leaves start first actions)
    (weaker : ∀ {one other}, first one other → relation one other) :
    Leaves start relation actions :=
  ⟨leaves.block, fun _ _ _ reaches sound runs pending =>
    weaker (leaves.relates _ _ _ reaches sound runs pending)⟩

/-- An action that may be left out. -/
theorem Leaves.optional {action : Action} {choice : Bool} (here : Leaves start relation [action])
    (same : ∀ sandbox, relation sandbox sandbox) :
    Leaves start relation (if choice then [action] else []) := by
  cases choice with
  | false => exact .nil same
  | true => exact here

theorem Leaves.tidies {action : Action} {alter : Sandbox → Sandbox} (block : Block [action])
    (does : (execute action.operation : Step ω η Unit) = Machine.change alter)
    (relates : ∀ sandbox, relation sandbox (alter sandbox)) : Leaves start relation [action] := by
  refine .single block fun rest machine executed _ _ _ done => ?_
  rw [does] at done
  rw [run_modify_eq_ok.mp done]
  exact ⟨rfl, relates _⟩

/-- The command of a substitution is given what there is to read, and takes nothing of it away. -/
theorem GivesBack.socket {enter leave : Action} {index word : Nat} {part : Span}
    (enters : enter.operation = .enterSubstitution index word part)
    (leaves : leave.operation = .leaveSubstitution index word part) :
    GivesBack ω η Sandbox.io [enter, leave] := by
  have opens : enter.operation.move = .opens .scope := by rw [enters]; rfl
  have closes : leave.operation.move = .closes .scope := by rw [leaves]; rfl
  refine ⟨Block.nil.wrap opens closes, fun rest machine after sound runs pending => ?_⟩
  have left : machine.pending = enter :: [leave] ++ rest := pending
  obtain ⟨lowered, done, step, entered, later⟩ := runs.opening sound opens left
  obtain ⟨put, added, block⟩ := step.pending
  rw [enters] at done
  obtain ⟨_, _, _, _, _, rfl⟩ := enterSubstitution_eq_ok done
  obtain ⟨samePending, sameSandbox, _⟩ := settle_frame _
  obtain ⟨middle, raised, keeps, leaving, _, rfl⟩ :=
    later.closing (settle_sound entered) block closes (samePending.trans added)
  rw [leaves] at leaving
  rw [sameSandbox] at keeps
  obtain ⟨scope, scopes, put, saved⟩ : ∃ scope scopes, middle.sandbox.scopes = scope :: scopes ∧
      scope.io = machine.sandbox.io := ⟨_, _, keeps.scopes, rfl⟩
  have emptied : { middle.sandbox.clearOutput with screen := "" }.scopes = scope :: scopes := put
  rw [(settle_frame raised).2.1, leaveSubstitution_sandbox leaving, Sandbox.raise_io emptied, saved]

theorem Leaves.substitutions (slot : Nat) (parts : List Node) (pass : Compilation.Pass) :
    Leaves start Sandbox.Withholds (Compilation.substitutions slot parts pass) := by
  have socket : GivesBack ω η Sandbox.io (Compilation.substitutions slot parts pass) :=
    .substitutions .socket slot parts pass
  have silent : Silent ω η (Compilation.substitutions slot parts pass) :=
    .substitutions slot parts pass
  exact ⟨socket.block, fun _ _ _ _ sound runs pending => .of_eq
    (silent.screen _ _ _ sound runs pending) (socket.same _ _ _ sound runs pending)⟩

/-- Where nothing is written that could be printed, the sandbox stands in this relation to what it
was. -/
def Unwritten (relation : Sandbox → Sandbox → Prop) (before after : Sandbox) : Prop :=
  before.io.output = "" → relation before after

/-- A command without redirects prints nothing before it is flushed, if nothing is left to be
flushed when it starts. -/
theorem bare_leaves {bound : Nat} {setting : Compilation.Setting} {command : Node}
    {actions : List Action} {before after : Compilation ω}
    (usual : ∀ moment, Reaches start moment → moment.nextUsual bound = true)
    (bare : command.isBare = true) (within : after.slots.size ≤ bound)
    (made : (command.compile setting).run before = (.ok actions, after)) :
    Leaves start (Unwritten Sandbox.Withholds) actions := by
  obtain ⟨slot, source, parts, below, rfl⟩ := Compilation.compile_bare_eq_ok bare made
  have flushes : Leaves start (Unwritten Eq)
      [.plain .flush ("Entering Assignment Node: " ++ source)] :=
    .tidies (.single rfl trivial) rfl fun sandbox unwritten =>
      (sandbox.flush_of_unwritten unwritten).symm
  have assigns : Leaves start Sandbox.Withholds
      [⟨.assign slot, "Variable Assignment", some source⟩] :=
    .single (.single rfl trivial) fun _ _ _ _ _ _ done =>
      ⟨(assign_quiet done).pending, (assign_quiet done).sandbox⟩
  have runs : Leaves start Sandbox.Withholds
      [⟨.run slot, "Command node: " ++ Compilation.commandName parts, some source⟩] := by
    refine .single (.single rfl trivial) fun rest machine _ reaches sound pending done => ?_
    have turn := usual machine reaches
    rw [nextUsual, pending] at turn
    have here : machine.isUsual slot = true := by
      simpa [Nat.lt_of_lt_of_le below within] using turn
    have standard : { machine with pending := rest, ticks := machine.ticks + 1 }.commands =
        Command.standard := sound.commands
    have quiet := run_quiet standard here done
    exact ⟨quiet.pending, quiet.sandbox⟩
  have still : ∀ sandbox : Sandbox, sandbox.Withholds sandbox := fun _ => .of_eq rfl rfl
  have both : ∀ {one other last : Sandbox}, one.Withholds other → other.Withholds last →
      one.Withholds last := .trans
  rw [Compilation.innerActions]
  refine (flushes.optional fun _ _ => rfl).append (.append (.substitutions slot parts .words)
    (.append (assigns.optional still) (runs.optional still) both) both) ?_
  exact fun same withholds unwritten => same unwritten ▸ withholds

omit [Operator ω] [Host η] in
theorem pipeSign_eq_none {stage : Node} (ordinary : stage.isPipe = false) :
    stage.pipeSign = none := by
  cases stage with
  | pipe => cases ordinary
  | _ => rfl

omit [Operator ω] [Host η] in
theorem pipeSign_eq_some {stage : Node} (sign : stage.isPipe = true) :
    stage.pipeSign = some (.plain .pipe "pipeline transfer") := by
  cases stage with
  | pipe => rfl
  | _ => cases sign

/-- What goes through a pipe is not printed. -/
theorem stages_leave {bound : Nat} {setting : Compilation.Setting} {stages : List Node}
    {actions : List Action} {before after : Compilation ω}
    (usual : ∀ moment, Reaches start moment → moment.nextUsual bound = true)
    (chained : Node.Chained Node.isPipe stages)
    (plain : ∀ stage ∈ stages, stage.isPipe = true ∨ stage.isBare = true)
    (within : after.slots.size ≤ bound)
    (made : (Node.compileEach Node.pipeSign [] setting stages).run before = (.ok actions, after)) :
    Leaves start (Unwritten Sandbox.SameScreen) actions := by
  have stage : ∀ {command : Node} {rest : List Node} {early : List Action}
      {middle : Compilation ω} {before : Compilation ω}, command.isPipe = false →
      (∀ stage ∈ command :: rest, stage.isPipe = true ∨ stage.isBare = true) →
      middle.slots.size ≤ bound → (command.compile setting).run before = (.ok early, middle) →
      Leaves start (Unwritten Sandbox.Withholds) early := by
    intro command rest early middle before ordinary plain within made
    refine bare_leaves usual ?_ within made
    refine (plain _ List.mem_cons_self).resolve_left ?_
    rw [ordinary]
    nofun
  induction chained generalizing before actions with
  | last ordinary =>
    obtain ⟨early, middle, late, one, others, rfl⟩ :=
      Compilation.compileEach_cons_eq_ok (pipeSign_eq_none ordinary) made
    obtain ⟨rfl, rfl⟩ := Compilation.compileEach_nil_eq_ok others
    rw [List.nil_append, List.append_nil]
    exact (stage ordinary plain within one).imp fun withholds unwritten =>
      (withholds unwritten).screen
  | more ordinary between _ ih =>
    obtain ⟨early, middle, late, one, others, rfl⟩ :=
      Compilation.compileEach_cons_eq_ok (pipeSign_eq_none ordinary) made
    have first := stage ordinary plain
      (Nat.le_trans (Compilation.compileEach_size_le others) within) one
    obtain ⟨late, behind, rfl⟩ :=
      Compilation.compileEach_sign_eq_ok (pipeSign_eq_some between) others
    have later := ih (fun stage member => plain stage (.tail _ (.tail _ member))) behind
    -- after the pipe nothing is written, so the next stage has nothing to flush either
    have piped : Leaves start (fun before after : Sandbox =>
        before.SameScreen after ∧ after.io.output = "") [.plain .pipe "pipeline transfer"] :=
      .tidies (.single rfl trivial) rfl fun _ => ⟨rfl, rfl⟩
    have onward : Leaves start Sandbox.SameScreen _ :=
      piped.append later fun moved rest => (rest moved.2).trans moved.1
    exact first.append onward fun withholds rest unwritten =>
      rest.trans (withholds unwritten).screen

/-- So a plain command prints nothing before it is flushed. -/
theorem plain_leaves {bound : Nat} {setting : Compilation.Setting} {command : Node}
    {actions : List Action} {before after : Compilation ω}
    (usual : ∀ moment, Reaches start moment → moment.nextUsual bound = true)
    (plain : command.isPlain = true) (alternates : command.Alternates)
    (within : after.slots.size ≤ bound)
    (made : (command.compile setting).run before = (.ok actions, after)) :
    Leaves start (Unwritten Sandbox.SameScreen) actions := by
  cases command with
  | pipeline stages span =>
    rw [Node.compile, Node.compilePipeline_eq] at made
    exact stages_leave usual (alternates.pipelines _ _ .self)
      (by simpa [Node.isPlain] using plain) within made
  | command parts span =>
    have bare : (Node.command parts span).isBare = true := plain
    exact (bare_leaves usual bare within made).imp fun withholds unwritten =>
      (withholds unwritten).screen
  | _ => cases plain

end

end Machine

end StepShell

import StepShell.Proofs.Compilation.Provision
import StepShell.Proofs.Compilation.Resolution
import StepShell.Proofs.Machine.Discipline
import StepShell.Proofs.Machine.Loop

/-! No action fails because of something that went wrong inside: what it was compiled for is still
there when it is executed, whatever was built, executed, dropped or refused before. -/

namespace StepShell

/-- A failure of a command that was put together wrongly, or an action that does not find what it
was compiled for. Unknown commands, limits, and words in which the place of an output is not found
are none. -/
def Failure.Internal : Failure → Prop
  | .structural _ => True
  | .execution error =>
    match error with
    | .substitutionUnmarked _ | .substitutionUnbalanced _ | .command _ => False
    | _ => True
  | _ => False

/-- The functions of the sandbox, also those that it will have when its scopes are raised, are those
of parsed scripts. -/
structure Sandbox.Known (sandbox : Sandbox) : Prop where
  functions : sandbox.functions.Sound
  scopes : ∀ scope ∈ sandbox.scopes, scope.functions.Sound

namespace Sandbox.Known

variable {before after : Sandbox}

theorem keeps (known : before.Known) (keeps : before.Keeps after) : after.Known :=
  ⟨keeps.functions known.functions, fun scope member => known.scopes scope (keeps.scopes ▸ member)⟩

theorem lower (known : before.Known) : before.lower.Known :=
  ⟨known.functions, List.forall_mem_cons.mpr ⟨known.functions, known.scopes⟩⟩

theorem raise (known : before.Known) : before.raise.Known := by
  unfold Sandbox.raise
  split
  · exact known
  · rename_i scope scopes lowered
    have each := known.scopes
    rw [lowered] at each
    obtain ⟨first, later⟩ := List.forall_mem_cons.mp each
    exact ⟨first, later⟩

theorem endCapture (known : before.Known) : before.endCapture.Known := by
  unfold Sandbox.endCapture
  split
  · exact known
  · exact ⟨known.functions, known.scopes⟩

end Sandbox.Known

namespace Command

variable {ω : Type}

/-- The command never fails; what goes wrong is printed. -/
def Prints (command : Command ω) : Prop :=
  ∀ args sandbox operator, ∃ printed, (command args sandbox operator).1 = .ok printed

theorem ofPrinted_prints (run : List String → Printed) : Prints (ofPrinted run : Command ω) :=
  fun args _ _ => ⟨run args, rfl⟩

theorem ofSandbox_prints (run : List String → Sandbox → Printed × Sandbox) :
    Prints (ofSandbox run : Command ω) :=
  fun args sandbox _ => ⟨(run args sandbox).1, rfl⟩

section
variable [Operator ω]

theorem wget_prints : Prints (wget : Command ω) := by
  intro args sandbox operator
  unfold wget
  split
  · exact ⟨_, rfl⟩
  · split
    · exact ⟨_, rfl⟩
    · split <;> exact ⟨_, rfl⟩

theorem curl_prints : Prints (curl : Command ω) := by
  intro args sandbox operator
  unfold curl
  split
  · exact ⟨_, rfl⟩
  · split
    · exact ⟨_, rfl⟩
    · split <;> exact ⟨_, rfl⟩

theorem standard_prints {name : String} {command : Command ω}
    (found : (standard : Table (Command ω)).get? name = some command) : Prints command := by
  have member := Table.mem_of_get?_ofList found
  simp only [standardList, List.mem_cons, Prod.mk.injEq, List.not_mem_nil, or_false] at member
  rcases member with ⟨_, rfl⟩ | ⟨_, rfl⟩ | ⟨_, rfl⟩ | ⟨_, rfl⟩ | ⟨_, rfl⟩ | ⟨_, rfl⟩ | ⟨_, rfl⟩ |
    ⟨_, rfl⟩ | ⟨_, rfl⟩ | ⟨_, rfl⟩ | ⟨_, rfl⟩ | ⟨_, rfl⟩ | ⟨_, rfl⟩ | ⟨_, rfl⟩ | ⟨_, rfl⟩ | ⟨_, rfl⟩
  all_goals first
    | exact ofPrinted_prints _
    | exact ofSandbox_prints _
    | exact wget_prints
    | exact curl_prints

end

end Command

namespace Machine

variable {ω η α β : Type} [Operator ω]

/-- What pending actions will look for is there, each substitution is still to be resolved where its
turn comes, and whatever will be compiled is of a parsed script. A reset brings back `origin`. -/
structure Intact (origin : Sandbox) (machine : Machine ω η) : Prop where
  commands : machine.commands = Command.standard
  sandbox : machine.sandbox.Known
  initial : machine.initial = origin ∧ origin.Known
  pending : Supplies #[] machine.slots machine.pending

/-- From this machine, if it is intact, the step leaves an intact one in every outcome, and does not
fail from within. -/
def Sustains (origin : Sandbox) (before : Machine ω η) (step : Step ω η α) : Prop :=
  before.Intact origin → ∀ result after, step.run before = (result, after) →
    after.Intact origin ∧ ∀ failure, result = .error failure → ¬ failure.Internal

variable {origin : Sandbox}

namespace Sustains

variable {before : Machine ω η}

theorem bind {first : Step ω η α} {next : α → Step ω η β} (start : Sustains origin before first)
    (rest : ∀ value middle, first.run before = (.ok value, middle) →
      Sustains origin middle (next value)) :
    Sustains origin before (first >>= next) := by
  intro intact result after done
  rcases made : first.run before with ⟨failure | value, middle⟩
  · rw [run_bind_of_error made] at done
    cases done
    obtain ⟨kept, outer⟩ := start intact _ _ made
    refine ⟨kept, ?_⟩
    rintro _ ⟨⟩
    exact outer failure rfl
  · rw [run_bind_of_ok made] at done
    exact rest value middle made (start intact _ _ made).1 result after done

theorem get {next : Machine ω η → Step ω η α} (rest : Sustains origin before (next before)) :
    Sustains origin before (MonadState.get >>= next) :=
  rest

theorem pure {value : α} : Sustains origin before (pure value : Step ω η α) := by
  intro intact result after done
  cases done
  exact ⟨intact, nofun⟩

theorem throw {failure : Failure} (outer : ¬ failure.Internal) :
    Sustains origin before (throw failure : Step ω η α) := by
  intro intact result after done
  cases done
  refine ⟨intact, ?_⟩
  rintro _ ⟨⟩
  exact outer

theorem lift {result : Except Failure α}
    (outer : ∀ failure, result = .error failure → ¬ failure.Internal) :
    Sustains origin before (liftM result : Step ω η α) := by
  intro intact result after done
  cases done
  exact ⟨intact, outer⟩

theorem modify {change : Machine ω η → Machine ω η}
    (kept : before.Intact origin → (change before).Intact origin) :
    Sustains origin before (modify change : Step ω η PUnit) := by
  intro intact result after done
  cases done
  exact ⟨kept intact, nofun⟩

theorem set {state : Machine ω η} (kept : before.Intact origin → state.Intact origin) :
    Sustains origin before (set state : Step ω η PUnit) := by
  intro intact result after done
  cases done
  exact ⟨kept intact, nofun⟩

theorem change {alter : Sandbox → Sandbox}
    (known : before.sandbox.Known → (alter before.sandbox).Known) :
    Sustains origin before (Machine.change alter : Step ω η Unit) :=
  .modify fun intact =>
    ⟨intact.commands, known intact.sandbox, intact.initial, intact.pending⟩

/-- A change that puts nothing aside and defines nothing. -/
theorem keeping {alter : Sandbox → Sandbox}
    (keeps : before.sandbox.Keeps (alter before.sandbox)) :
    Sustains origin before (Machine.change alter : Step ω η Unit) :=
  .change fun known => known.keeps keeps

/-- Put down what became of the operator. -/
theorem answered {operator : ω} {next : Step ω η α}
    (rest : Sustains origin { before with operator } next) :
    Sustains origin before (do MonadState.set { before with operator }; next) := by
  refine .bind (.set fun intact => ⟨intact.commands, intact.sandbox, intact.initial, intact.pending⟩)
    fun _ middle done => ?_
  rw [run_set_eq_ok.mp done]
  exact rest

theorem putFirst {actions : List Action}
    (supplies : Supplies #[] before.slots (actions ++ before.pending)) :
    Sustains origin before (Machine.putFirst actions : Step ω η Unit) :=
  .modify fun intact => ⟨intact.commands, intact.sandbox, intact.initial, supplies⟩

/-- What is compiled can be put before what is pending. -/
theorem compiling {compile : Compilation.Setting → Compile ω (List Action)}
    {next : List Action → Step ω η β}
    (provides : ∀ setting start, Compilation.Provides start (compile setting)
      fun slots actions => Supplies start.slots slots actions)
    (rest : ∀ actions middle, Supplies #[] middle.slots (actions ++ middle.pending) →
      Sustains origin middle (next actions)) :
    Sustains origin before (Machine.compiling compile >>= next) := by
  intro intact result after done
  rcases made : (Machine.compiling compile : Step ω η (List Action)).run before with
    ⟨outcome, middle⟩
  obtain ⟨compiled, compiles, rfl⟩ := compiling_eq.mp made
  obtain ⟨known, grown, fares⟩ := provides _ _ intact.sandbox.functions _ _ compiles
  have kept : (before.withCompilation compiled).Intact origin :=
    ⟨intact.commands, ⟨known, intact.sandbox.scopes⟩, intact.initial, intact.pending.grow grown⟩
  cases outcome with
  | error failure =>
    rw [run_bind_of_error made] at done
    cases done
    obtain ⟨limit, rfl⟩ := fares
    refine ⟨kept, ?_⟩
    rintro _ ⟨⟩
    exact id
  | ok actions =>
    rw [run_bind_of_ok made] at done
    have supplies : Supplies before.slots compiled.slots actions := fares
    have pending : Supplies #[] compiled.slots (actions ++ before.pending) :=
      intact.pending.behind supplies (.ofEmpty _) grown
    exact rest actions _ pending kept result after done

end Sustains

section
variable {before : Machine ω η}

theorem slot_sustains {index : Nat} {parts : List Node} (held : before.slots[index]? = some parts) :
    Sustains origin before (slot index : Step ω η (List Node)) := by
  refine .get ?_
  rw [held]
  exact .pure

/-- The operators that a list may have are those that are judged. -/
theorem judgeResult_known {op : String} {status : Option Nat} {continuing : Bool}
    (known : op ∈ Grammar.separators) :
    ∃ judged, judgeResult op status continuing = .ok judged := by
  simp only [Grammar.separators, List.mem_cons, List.not_mem_nil, or_false] at known
  rcases known with rfl | rfl | rfl | rfl | rfl <;> exact ⟨_, rfl⟩

theorem separate_sustains {op : String} (known : op ∈ Grammar.separators) :
    Sustains origin before (separate op : Step ω η Unit) := by
  refine .get (.bind (.keeping (.of_eq rfl rfl rfl rfl)) fun _ middle _ => .get ?_)
  refine .bind (.lift fun failure failed => ?_) fun _ _ _ => .modify fun intact =>
    ⟨intact.commands, intact.sandbox, intact.initial, intact.pending⟩
  obtain ⟨judged, fine⟩ := judgeResult_known known
  rw [fine] at failed
  cases failed

theorem redirectPath_sustains {index place : Nat}
    (supplied : (Operation.readRedirect index place).Supplied before.slots) :
    Sustains origin before (redirectPath index place : Step ω η String) := by
  obtain ⟨parts, kind, text, inner, quoted, span, whole, held, leads⟩ := supplied
  refine .bind (slot_sustains held) fun found middle done => ?_
  obtain ⟨there, rfl⟩ := slot_eq_ok done
  cases held.symm.trans there
  rw [leads]
  exact .get .pure

theorem readRedirect_sustains {path : String} :
    Sustains origin before (readRedirect path : Step ω η Unit) := by
  refine .get ?_
  split
  · exact .keeping (.of_eq rfl rfl rfl rfl)
  · exact .answered (.keeping (.of_eq rfl rfl rfl rfl))

/-- Actions that need nothing may stand around those that were compiled. -/
theorem putAround_sustains {compile : Compilation.Setting → Compile ω (List Action)}
    {opening : Action} {trail : List Action}
    (provides : ∀ setting start, Compilation.Provides start (compile setting)
      fun slots actions => Supplies start.slots slots actions)
    (opens : ∀ slots, opening.Idle slots)
    (trails : ∀ slots, ∀ action ∈ trail, action.Idle slots) :
    Sustains origin before (do
      let actions ← compiling compile
      putFirst (opening :: actions ++ trail) : Step ω η Unit) := by
  refine .compiling provides fun actions middle supplies => .putFirst ?_
  have around := (supplies.amid (trails _)).cons (opens _)
  simpa using around

theorem call_sustains {name : String} {args : List String} {body : Node}
    (formed : Formed .command body) :
    Sustains origin before (call name args body : Step ω η Unit) :=
  putAround_sustains (Compilation.compile_provides formed) (fun _ => ⟨trivial, rfl⟩)
    (fun _ => List.forall_mem_singleton.mpr (by exact ⟨trivial, rfl⟩))

theorem nestedActions_provides {setting : Compilation.Setting} {start : Compilation ω}
    {nodes : List Node} (each : ∀ node ∈ nodes, Formed .command node) :
    Compilation.Provides start (nestedActions setting nodes) fun slots actions =>
      Supplies start.slots slots actions := by
  induction nodes generalizing start with
  | nil => exact .pure .nil
  | cons node rest ih =>
    obtain ⟨formed, later⟩ := List.forall_mem_cons.mp each
    refine (Compilation.compile_provides formed setting start).bind fun actions middle grown early =>
      (ih later).bind fun after last growing late => .pure ?_
    exact (early.cons (by exact ⟨trivial, rfl⟩)).trans late grown growing

theorem runNested_sustains {name script : String} :
    Sustains origin before (runNested name script : Step ω η Unit) := by
  unfold runNested
  split
  · exact .keeping (Sandbox.write_keeps _ _)
  · rename_i nodes parsed
    exact putAround_sustains (fun _ _ => nestedActions_provides (Script.parse_formed parsed))
      (fun _ => ⟨trivial, rfl⟩)
      (fun _ => List.forall_mem_singleton.mpr (by exact ⟨trivial, rfl⟩))

theorem nestedShell_sustains {name : String} {args : List String} :
    Sustains origin before (nestedShell name args : Step ω η Unit) := by
  unfold nestedShell
  split
  · exact .pure
  · split
    · split
      · exact runNested_sustains
      · exact .keeping (Sandbox.write_keeps _ _)
    · refine .get ?_
      dsimp only
      split
      · exact runNested_sustains
      · exact .keeping (Sandbox.write_keeps _ _)

theorem runKnown_sustains {command : Command ω} {args : List String} (keeps : command.Keeps)
    (prints : command.Prints) : Sustains origin before (runKnown command args : Step ω η Unit) := by
  refine .get ?_
  refine .bind (.set fun intact => ?_) fun _ middle done => .bind (.lift ?_) fun printed last _ => ?_
  · exact ⟨intact.commands, intact.sandbox.keeps (keeps args _ _), intact.initial, intact.pending⟩
  · obtain ⟨printed, fine⟩ := prints args before.sandbox before.operator
    intro failure failed
    rw [fine] at failed
    cases failed
  · exact .keeping ((Sandbox.write_keeps _ _).trans (Sandbox.write_keeps _ _))

theorem leaveToOperator_sustains [Host η] {name : String} {parts : List Node} :
    Sustains origin before (leaveToOperator name parts : Step ω η Unit) := by
  refine .get (.answered ?_)
  split
  · exact .pure
  · exact .modify fun intact => ⟨intact.commands,
      intact.sandbox.keeps (Sandbox.write_keeps _ _), intact.initial, intact.pending⟩
  · exact .throw id

theorem runParts_sustains [Host η] {parts : List Node} :
    Sustains origin before (runParts parts : Step ω η Unit) := by
  intro intact
  refine Sustains.get ?_ intact
  split
  · exact .pure
  · split
    · rename_i body found
      exact call_sustains (intact.sandbox.functions _ body found)
    · split
      · exact nestedShell_sustains
      · split
        · rename_i command found
          rw [intact.commands] at found
          exact runKnown_sustains (Command.standard_keeps found) (Command.standard_prints found)
        · exact leaveToOperator_sustains

theorem assignParts_sustains {parts : List Node} (each : ∀ part ∈ parts, part.Assigns) :
    Sustains origin before (assignParts parts : Step ω η Unit) := by
  induction parts generalizing before with
  | nil => exact .pure
  | cons part rest ih =>
    obtain ⟨first, later⟩ := List.forall_mem_cons.mp each
    unfold assignParts
    split
    · cases ‹_›
    · rename_i text _ _ _ same
      cases same
      split
      · exact .bind (.keeping (.of_eq rfl rfl rfl rfl)) fun _ _ _ => ih later
      · rename_i unsplit
        obtain ⟨halves, split⟩ := first.split
        cases split.symm.trans unsplit
    · rename_i same
      cases same
      exact ih later

theorem decideCondition_sustains {condition : String} {node : Node}
    (formed : Formed .command node) :
    Sustains origin before (decideCondition condition node : Step ω η Unit) := by
  refine .get ?_
  split
  · refine .answered ?_
    split
    · exact .keeping (.of_eq rfl rfl rfl rfl)
    · exact .keeping (.of_eq rfl rfl rfl rfl)
    · exact putAround_sustains (Compilation.compile_provides formed) (fun _ => ⟨trivial, rfl⟩)
        (fun _ => List.forall_mem_cons.mpr ⟨by exact ⟨trivial, rfl⟩,
          List.forall_mem_singleton.mpr (by exact ⟨trivial, rfl⟩)⟩)
  · exact .pure

theorem chooseBody_sustains {condition : Option String} {earlier : List String} {body : Node}
    (formed : Formed .command body) :
    Sustains origin before (chooseBody condition earlier body : Step ω η Unit) := by
  refine .get ?_
  split
  · exact putAround_sustains (Compilation.compile_provides formed) (fun _ => ⟨trivial, rfl⟩)
      (fun _ => List.forall_mem_singleton.mpr (by exact ⟨trivial, rfl⟩))
  · exact .pure

theorem checkDepth_sustains : Sustains origin before (checkDepth : Step ω η Unit) := by
  refine .get (.lift fun failure failed => ?_)
  unfold Limits.checkDepth at failed
  split at failed <;> cases failed
  exact id

theorem enterSubstitution_sustains {index word : Nat} {part : Span}
    (supplied : (Operation.enterSubstitution index word part).Supplied before.slots) :
    Sustains origin before (enterSubstitution index word part : Step ω η Unit) := by
  obtain ⟨inner, there, formed⟩ := supplied
  obtain ⟨parts, node, own, held, picked, owned, found⟩ := substitutedIn?_eq_some.mp there
  refine .bind (slot_sustains held) fun others middle done => ?_
  obtain ⟨same, rfl⟩ := slot_eq_ok done
  cases held.symm.trans same
  dsimp only
  rw [picked, Option.bind_some, owned]
  dsimp only
  rw [found]
  refine .compiling (Compilation.compile_provides formed) fun actions last supplies => ?_
  refine .bind checkDepth_sustains fun _ checked passed => ?_
  obtain rfl := checkDepth_eq_ok passed
  refine .bind (.change fun known => ?_) fun _ lowered changed => ?_
  · exact known.lower.keeps (Sandbox.clearOutput_keeps _)
  · rw [run_modify_eq_ok.mp changed]
    exact .putFirst supplies

theorem leaveSubstitution_sustains {index word : Nat} {part : Span}
    (supplied : (Operation.leaveSubstitution index word part).Supplied before.slots)
    (turn : ∀ action ∈ before.pending,
      (Operation.leaveSubstitution index word part).Before action.operation) :
    Sustains origin before (leaveSubstitution index word part : Step ω η Unit) := by
  obtain ⟨inner, found, formed⟩ := supplied
  obtain ⟨parts, node, own, held, picked, owned, found⟩ := substitutedIn?_eq_some.mp found
  refine .get (.bind (.change fun known => ?_) fun _ raised changed => ?_)
  · exact Sandbox.Known.raise ⟨known.functions, known.scopes⟩
  · rw [run_modify_eq_ok.mp changed]
    refine .get ?_
    dsimp only [withSandbox]
    rw [held, Option.bind_some, picked]
    dsimp only
    rcases made : node.spliceTarget part _ with error | spliced
    · refine .bind (.lift fun failure failed => ?_) fun _ _ done => ?_
      · obtain ⟨text, rfl | rfl⟩ := Node.spliceTarget_eq_error owned found made
        · cases failed
          exact id
        · cases failed
          exact id
      · cases done
    · refine .bind (.lift fun failure failed => ?_) fun value middle done => ?_
      · cases failed
      · obtain ⟨same, rfl⟩ := run_lift_eq_ok.mp done
        cases same
        refine .set fun intact => ⟨intact.commands, intact.sandbox, intact.initial, ?_⟩
        have change := Node.spliceTarget_spliced made
        refine ⟨fun action member => ?_, intact.pending.turns, fun _ _ _ _ => Nat.zero_le _⟩
        exact (intact.pending.each action member).spliced held picked change
          (turn action member _ _ _ rfl)

/-- Executing an operation that finds what it will look for, in its turn. -/
theorem execute_sustains [Host η] {operation : Operation}
    (supplied : operation.Supplied before.slots)
    (turn : ∀ action ∈ before.pending, operation.Before action.operation) :
    Sustains origin before (execute operation : Step ω η Unit) := by
  have lowering : ∀ lower : Sandbox → Sandbox,
      (before.sandbox.Known → (lower before.sandbox).Known) →
      Sustains origin before (do checkDepth; change lower : Step ω η Unit) := by
    intro lower known
    refine .bind checkDepth_sustains fun _ checked passed => ?_
    obtain rfl := checkDepth_eq_ok passed
    exact .change known
  cases operation with
  | resetIo =>
    exact .keeping ((Sandbox.clearOutput_keeps _).trans (Sandbox.clearInput_keeps _))
  | cleanUp => exact .keeping ((Sandbox.flush_keeps _).trans (Sandbox.clearInput_keeps _))
  | flush => exact .keeping (Sandbox.flush_keeps _)
  | pipe => exact .keeping (.of_eq rfl rfl rfl rfl)
  | separator op => exact separate_sustains supplied
  | beginCapture => exact .change fun known => ⟨known.functions, known.scopes⟩
  | endCapture => exact .change Sandbox.Known.endCapture
  | readRedirect index place =>
    exact .bind (redirectPath_sustains supplied) fun _ _ _ => readRedirect_sustains
  | writeRedirect index place append =>
    exact .bind (redirectPath_sustains supplied) fun _ _ _ => .keeping (.of_eq rfl rfl rfl rfl)
  | bindLoop name value => exact .keeping (.of_eq rfl rfl rfl rfl)
  | unbindLoop name => exact .keeping (Sandbox.unset_keeps _ _)
  | run index =>
    obtain ⟨parts, held⟩ := supplied
    exact .bind (slot_sustains held) fun _ _ _ => runParts_sustains
  | assign index =>
    obtain ⟨parts, held, each⟩ := supplied
    refine .bind (slot_sustains held) fun found middle done => ?_
    obtain ⟨there, rfl⟩ := slot_eq_ok done
    cases held.symm.trans there
    exact assignParts_sustains each
  | enterSubstitution index word part => exact enterSubstitution_sustains supplied
  | leaveSubstitution index word part => exact leaveSubstitution_sustains supplied turn
  | decide condition node => exact decideCondition_sustains supplied
  | judge condition => exact .keeping (.of_eq rfl rfl rfl rfl)
  | choose condition earlier body => exact chooseBody_sustains supplied
  | lower => exact lowering _ Sandbox.Known.lower
  | raise => exact .change fun known => (known.keeps (Sandbox.flush_keeps _)).raise
  | enterFunction name args =>
    exact lowering _ fun known => ⟨known.lower.functions, known.lower.scopes⟩
  | leaveFunction => exact .change fun known => (known.keeps (Sandbox.flush_keeps _)).raise
  | enterSubshell => exact lowering _ fun known => ⟨known.lower.functions, known.lower.scopes⟩
  | nothing => exact .pure

theorem Intact.clear {machine : Machine ω η} (intact : machine.Intact origin) :
    machine.clear.Intact origin :=
  ⟨intact.commands, intact.sandbox, intact.initial, .nil⟩

theorem Intact.settle {machine : Machine ω η} (intact : machine.Intact origin) :
    machine.settle.Intact origin := by
  unfold Machine.settle
  split
  · rename_i ended
    refine ⟨intact.commands, intact.sandbox, intact.initial, ?_⟩
    change Supplies #[] #[] machine.pending
    rw [List.isEmpty_iff.mp ended]
    exact .nil
  · exact intact

/-- Without its first action a machine is still intact. -/
theorem Intact.rest {machine : Machine ω η} {action : Action} {rest : List Action}
    (intact : machine.Intact origin) (pending : machine.pending = action :: rest) (ticks : Nat) :
    Intact origin { machine with pending := rest, ticks } := by
  have supplies := intact.pending
  rw [pending] at supplies
  exact ⟨intact.commands, intact.sandbox, intact.initial, supplies.tail⟩

theorem Intact.pop {machine : Machine ω η} (intact : machine.Intact origin) :
    machine.pop.2.Intact origin := by
  refine Intact.settle ?_
  cases pending : machine.pending with
  | nil => exact ⟨intact.commands, intact.sandbox, intact.initial, .nil⟩
  | cons action rest => exact intact.rest pending machine.ticks

theorem Intact.reset {machine : Machine ω η} (intact : machine.Intact origin) :
    machine.reset.Intact origin := by
  obtain ⟨same, known⟩ := intact.initial
  have first : machine.initial.Known := by rwa [same]
  exact ⟨intact.commands, first, ⟨same, known⟩, .nil⟩

/-- A build that fails takes back all but what the operator was asked, and only a loop makes it
fail. -/
theorem build_intact {node : Node} {append : Bool} {machine after : Machine ω η}
    {result : Except Failure Unit} (formed : Formed .command node) (intact : machine.Intact origin)
    (done : (build node append).run machine = (result, after)) :
    after.Intact origin ∧
      ∀ failure, result = .error failure → ∃ limit, failure = .limit (.loop limit) := by
  cases result with
  | error failure =>
    obtain ⟨compiled, made, rfl⟩ := build_eq_error done
    obtain ⟨_, ⟨added, grown⟩, fares⟩ := Compilation.compile_provides formed _ _
      intact.sandbox.functions _ _ made
    refine ⟨⟨intact.commands, intact.sandbox, intact.initial, ?_⟩, ?_⟩
    · cases append with
      | false => exact intact.pending
      | true =>
        have same : compiled.slots.take machine.slots.size = machine.slots := by
          rw [grown]
          simp
        change Supplies #[] (compiled.slots.take machine.slots.size) machine.pending
        rw [same]
        exact intact.pending
    · rintro _ ⟨⟩
      exact fares
  | ok value =>
    obtain ⟨actions, compiled, made, rfl⟩ := build_eq_ok done
    obtain ⟨known, grown, supplies⟩ := Compilation.compile_provides formed _ _
      intact.sandbox.functions _ _ made
    refine ⟨⟨intact.commands, ⟨known, intact.sandbox.scopes⟩, intact.initial, ?_⟩, nofun⟩
    have wrapped : Supplies (if append then machine.slots else #[]) compiled.slots
        (wrapped actions) :=
      (Supplies.cons (by exact ⟨trivial, rfl⟩) supplies).followed
        (List.forall_mem_singleton.mpr (by exact ⟨trivial, rfl⟩))
    cases append with
    | false => exact wrapped
    | true => exact intact.pending.trans wrapped (.ofEmpty _) grown

variable [Host η]

theorem inch_sustains : Sustains origin before (inch : Step ω η Bool) := by
  intro intact result after done
  have executed : ∀ {action : Action} {rest : List Action} {outcome : Except Failure Unit}
      {later : Machine ω η}, before.pending = action :: rest →
      (execute action.operation).run { before with pending := rest, ticks := before.ticks + 1 } =
        (outcome, later) →
      later.Intact origin ∧ ∀ failure, outcome = .error failure → ¬ failure.Internal := by
    intro action rest outcome later pending ran
    have supplies := intact.pending
    rw [pending] at supplies
    have sustains : Sustains origin { before with pending := rest, ticks := before.ticks + 1 }
        (execute action.operation : Step ω η Unit) :=
      execute_sustains (supplies.each action (.head _)) (List.pairwise_cons.mp supplies.turns).1
    exact sustains (intact.rest pending _) _ _ ran
  cases inched_of_eq done with
  | idle ended => exact ⟨intact, nofun⟩
  | refused pending spent =>
    refine ⟨⟨intact.commands, intact.sandbox, intact.initial, intact.pending⟩, ?_⟩
    rintro _ ⟨⟩
    exact id
  | executed pending allowed ran => exact ⟨(executed pending ran).1.settle, nofun⟩
  | failed pending allowed ran =>
    obtain ⟨kept, outer⟩ := executed pending ran
    refine ⟨kept.settle, ?_⟩
    rintro _ ⟨⟩
    exact outer _ rfl

theorem inches_sustains (count : Nat) : Sustains origin before (inches count : Step ω η Unit) := by
  induction count generalizing before with
  | zero => exact .pure
  | succ count ih =>
    refine .bind inch_sustains fun more middle _ => ?_
    split
    · exact ih
    · exact .pure

theorem drain_sustains : Sustains origin before (drain : Step ω η Unit) :=
  .bind (.modify fun intact => ⟨intact.commands, intact.sandbox, intact.initial, intact.pending⟩)
    fun _ _ _ => .get (inches_sustains _)

theorem run_sustains {node : Node} (formed : Formed .command node) :
    Sustains origin before (run node : Step ω η Unit) := by
  refine .bind (fun intact result after done => ?_) fun _ _ _ => drain_sustains
  obtain ⟨kept, limited⟩ := build_intact formed intact done
  refine ⟨kept, fun failure failed => ?_⟩
  obtain ⟨limit, rfl⟩ := limited failure failed
  exact id

theorem runAll_sustains {nodes : List Node} (each : ∀ node ∈ nodes, Formed .command node) :
    Sustains origin before (runAll nodes : Step ω η Unit) := by
  induction nodes generalizing before with
  | nil => exact .pure
  | cons node rest ih =>
    obtain ⟨first, later⟩ := List.forall_mem_cons.mp each
    exact .bind (run_sustains first) fun _ _ _ => ih later

theorem runText_sustains {script : String} :
    Sustains origin before (runText script : Step ω η Unit) := by
  unfold runText
  split
  · exact runAll_sustains (Script.parse_formed ‹_›)
  · exact .throw id

end

end Machine

end StepShell

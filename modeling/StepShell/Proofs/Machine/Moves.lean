import StepShell.Machine.Execute
import StepShell.Proofs.Command.Frame

/-! What executing one operation does to a machine: it makes its move on what is put aside, and puts
nothing but a block before what is pending. -/

namespace StepShell

namespace Node

theorem mem_of_resolved {place : Span} {output text after : String} {parts rest : List Node}
    {start : Nat} (done : resolved place output text parts start = .ok (after, rest)) :
    ∀ part ∈ rest, part ∈ parts := by
  unfold resolved at done
  split at done
  · cases done
  · obtain ⟨replaced, _, done⟩ := except_bind_eq_ok.mp done
    cases done
    exact fun part => List.mem_of_mem_eraseIdx

/-- Resolving a substitution leaves a word with some of its parts. -/
theorem SoundParts.splice {place : Span} {output : String} {node spliced : Node}
    (sound : node.SoundParts) (done : node.splice place output = .ok spliced) :
    spliced.SoundParts ∧ spliced.owner = spliced := by
  unfold Node.splice at done
  split at done
  · obtain ⟨⟨text, parts⟩, made, done⟩ := except_bind_eq_ok.mp done
    cases done
    refine ⟨fun own same inner span member => ?_, rfl⟩
    cases same
    exact sound _ rfl inner span (mem_of_resolved made _ member)
  · obtain ⟨⟨text, parts⟩, made, done⟩ := except_bind_eq_ok.mp done
    cases done
    refine ⟨fun own same inner span member => ?_, rfl⟩
    cases same
    exact sound _ rfl inner span (mem_of_resolved made _ member)
  · cases done

theorem Resolvable.spliceTarget {place : Span} {output : String} {node spliced : Node}
    (resolvable : node.Resolvable) (done : node.spliceTarget place output = .ok spliced) :
    spliced.Resolvable := by
  unfold Node.spliceTarget at done
  split at done
  · obtain ⟨target, made, done⟩ := except_bind_eq_ok.mp done
    cases done
    exact (SoundParts.splice resolvable made).1
  · unfold Resolvable at resolvable
    rename_i other
    have owned : node.owner = node := by
      cases node <;> first | rfl | exact absurd rfl (other _ _ _)
    rw [owned] at resolvable
    obtain ⟨sound, same⟩ := resolvable.splice done
    rw [Resolvable, same]
    exact sound

end Node

theorem SoundSlots.set {slots : Array (List Node)} {index : Nat} {parts : List Node}
    (sound : SoundSlots slots) (each : ∀ node ∈ parts, node.Resolvable) :
    SoundSlots (slots.setIfInBounds index parts) := by
  intro other found look
  rw [Array.getElem?_setIfInBounds] at look
  split at look
  · split at look
    · cases look
      exact each
    · cases look
  · exact sound other found look

namespace Machine

variable {ω η α β : Type}

/-- The machine knows its commands, and holds nothing to compile but what scripts are parsed to. -/
structure Sound [Operator ω] (machine : Machine ω η) : Prop where
  commands : machine.commands = Command.standard
  functions : machine.sandbox.functions.Sound
  slots : SoundSlots machine.slots

/-- What executing an operation with this move changes. -/
structure Executed (move : Move) (before after : Machine ω η) : Prop where
  commands : after.commands = before.commands
  limits : after.limits = before.limits
  ticks : after.ticks = before.ticks
  slots : SoundSlots after.slots
  pending : ∃ first, after.pending = first ++ before.pending ∧ Block first
  closed : ∀ bracket, move = .closes bracket → after.pending = before.pending
  sandbox : Sandbox.Moves move before.sandbox after.sandbox

/-- A step that leaves everything as it is but the sandbox, the operator and the host. -/
theorem Executed.of_sandbox {move : Move} {before after : Machine ω η}
    (commands : after.commands = before.commands) (limits : after.limits = before.limits)
    (ticks : after.ticks = before.ticks) (slots : after.slots = before.slots)
    (pending : after.pending = before.pending) (sound : SoundSlots before.slots)
    (sandbox : Sandbox.Moves move before.sandbox after.sandbox) : Executed move before after :=
  ⟨commands, limits, ticks, slots ▸ sound, ⟨[], pending, Block.nil⟩, fun _ _ => pending, sandbox⟩

section
variable {before middle after : Machine ω η}

theorem Executed.trans (first : Executed .stay before middle)
    (second : Executed .stay middle after) :
    Executed .stay before after := by
  obtain ⟨early, put, earlier⟩ := first.pending
  obtain ⟨late, added, later⟩ := second.pending
  refine ⟨second.commands.trans first.commands, second.limits.trans first.limits,
    second.ticks.trans first.ticks, second.slots, ⟨late ++ early, ?_, later.append earlier⟩,
    nofun, first.sandbox.trans second.sandbox⟩
  rw [added, put, List.append_assoc]

variable [Operator ω]

theorem Executed.sound (executed : Executed .stay before after) (sound : before.Sound) :
    after.Sound :=
  ⟨executed.commands.trans sound.commands, executed.sandbox.functions sound.functions,
    executed.slots⟩

/-- If this machine is sound and the step succeeds from it, it puts nothing aside and brings nothing
back. -/
def Stays (before : Machine ω η) (step : Step ω η α) : Prop :=
  before.Sound → ∀ value after, step.run before = (.ok value, after) → Executed .stay before after

theorem Stays.bind {first : Step ω η α} {next : α → Step ω η β} (start : Stays before first)
    (rest : ∀ value middle, first.run before = (.ok value, middle) → Stays middle (next value)) :
    Stays before (first >>= next) := by
  intro sound result after done
  obtain ⟨value, middle, made, done⟩ := run_bind_eq_ok.mp done
  have early := start sound value middle made
  exact early.trans (rest value middle made (early.sound sound) result after done)

theorem Stays.get {next : Machine ω η → Step ω η α} (rest : Stays before (next before)) :
    Stays before (get >>= next) := by
  intro sound result after done
  obtain ⟨value, middle, got, done⟩ := run_bind_eq_ok.mp done
  obtain ⟨rfl, rfl⟩ := run_get_eq_ok.mp got
  exact rest sound result after done

theorem Stays.still {step : Step ω η α}
    (same : ∀ value after, step.run before = (.ok value, after) → after = before) :
    Stays before step := by
  intro sound value after done
  rw [same value after done]
  exact .of_sandbox rfl rfl rfl rfl rfl sound.slots (.refl _)

theorem Stays.pure {value : α} : Stays before (pure value : Step ω η α) :=
  .still fun _ _ done => (run_pure_eq_ok.mp done).2

theorem Stays.throw {failure : Failure} : Stays before (throw failure : Step ω η α) :=
  fun _ _ _ done => absurd done run_throw_eq_ok

theorem Stays.lift {result : Except Failure α} : Stays before (liftM result : Step ω η α) :=
  .still fun _ _ done => (run_lift_eq_ok.mp done).2

theorem Stays.change {alter : Sandbox → Sandbox}
    (keeps : before.sandbox.Keeps (alter before.sandbox)) :
    Stays before (Machine.change alter : Step ω η Unit) := by
  intro sound _ after done
  rw [run_modify_eq_ok.mp done]
  exact .of_sandbox rfl rfl rfl rfl rfl sound.slots keeps

/-- Put down what became of the operator. -/
theorem Stays.answered {operator : ω} {next : Step ω η α}
    (rest : Stays { before with operator } next) :
    Stays before (do set { before with operator }; next) := by
  refine Stays.bind ?_ fun _ middle done => ?_
  · intro sound _ after done
    rw [run_set_eq_ok.mp done]
    exact .of_sandbox rfl rfl rfl rfl rfl sound.slots (.refl _)
  · rw [run_set_eq_ok.mp done]
    exact rest

theorem Stays.putFirst {actions : List Action} (block : Block actions) :
    Stays before (putFirst actions : Step ω η Unit) := by
  intro sound _ after done
  rw [run_modify_eq_ok.mp done]
  exact ⟨rfl, rfl, rfl, sound.slots, ⟨actions, rfl, block⟩, nofun, .refl _⟩

omit [Operator ω] in
theorem slot_eq_ok {index : Nat} {parts : List Node}
    (done : (slot index : Step ω η (List Node)).run before = (.ok parts, after)) :
    before.slots[index]? = some parts ∧ after = before := by
  obtain ⟨machine, middle, got, picked⟩ := run_bind_eq_ok.mp done
  obtain ⟨rfl, rfl⟩ := run_get_eq_ok.mp got
  split at picked
  · obtain ⟨rfl, rfl⟩ := run_pure_eq_ok.mp picked
    exact ⟨‹_›, rfl⟩
  · exact absurd picked run_throw_eq_ok

theorem slot_stays {index : Nat} : Stays before (slot index : Step ω η (List Node)) :=
  .still fun _ _ done => (slot_eq_ok done).2

/-- Machine after compiling. -/
def withCompilation (machine : Machine ω η) (compilation : Compilation ω) : Machine ω η :=
  { machine with
    sandbox := { machine.sandbox with functions := compilation.functions }
    slots := compilation.slots
    operator := compilation.operator }

omit [Operator ω] in
theorem compiling_eq {compile : Compilation.Setting → Compile ω α} {result : Except Failure α} :
    (compiling compile : Step ω η α).run before = (result, after) ↔
      ∃ compiled, (compile before.setting).run
          ⟨before.sandbox.functions, before.slots, before.operator⟩ = (result, compiled) ∧
        after = before.withCompilation compiled := by
  have whole : (compiling compile : Step ω η α).run before =
      (let made := (compile before.setting).run
        ⟨before.sandbox.functions, before.slots, before.operator⟩
      (made.1, before.withCompilation made.2)) := rfl
  rw [whole, Prod.mk.injEq]
  constructor
  · rintro ⟨made, rfl⟩
    exact ⟨_, Prod.ext made rfl, rfl⟩
  · rintro ⟨compiled, made, rfl⟩
    rw [made]
    exact ⟨rfl, rfl⟩

/-- What is compiled meanwhile is good, and the functions and slots stay sound. -/
theorem compiling_makes {compile : Compilation.Setting → Compile ω α} {good : α → Prop} {value : α}
    (makes : ∀ setting, Compilation.Makes (compile setting) good) (sound : before.Sound)
    (done : (compiling compile : Step ω η α).run before = (.ok value, after)) :
    good value ∧ Executed .stay before after := by
  obtain ⟨compiled, made, rfl⟩ := compiling_eq.mp done
  obtain ⟨holds, compiled⟩ := makes _ _ _ _ ⟨sound.functions, sound.slots⟩ made
  refine ⟨holds, rfl, rfl, rfl, compiled.slots, ⟨[], rfl, Block.nil⟩, nofun, rfl, rfl, ⟨"", ?_⟩, ?_⟩
  · rw [String.append_empty]
    rfl
  · exact fun _ => compiled.functions

/-- Actions made of a compiled block are put first. -/
theorem Stays.compiling {compile : Compilation.Setting → Compile ω (List Action)}
    {next : List Action → Step ω η β}
    (makes : ∀ setting, Compilation.Makes (compile setting) Block)
    (rest : ∀ actions middle, Block actions → Stays middle (next actions)) :
    Stays before (Machine.compiling compile >>= next) := by
  intro sound result after done
  obtain ⟨actions, middle, made, done⟩ := run_bind_eq_ok.mp done
  obtain ⟨block, early⟩ := compiling_makes makes sound made
  exact early.trans (rest actions middle block (early.sound sound) result after done)

theorem nestedActions_makes {setting : Compilation.Setting} {nodes : List Node}
    (each : ∀ node ∈ nodes, Formed .command node) :
    Compilation.Makes (nestedActions setting nodes : Compile ω (List Action)) Block := by
  induction nodes with
  | nil => exact Compilation.Makes.pure Block.nil
  | cons node rest ih =>
    obtain ⟨formed, later⟩ := List.forall_mem_cons.mp each
    refine (Compilation.compile_makes formed setting).bind fun actions inside =>
      (ih later).bind fun after block => Compilation.Makes.pure ?_
    exact (inside.cons rfl (by trivial)).append block

theorem separate_stays {op : String} : Stays before (separate op : Step ω η Unit) := by
  refine .get (.bind (.change (.of_eq rfl rfl rfl rfl)) fun _ middle _ => .get ?_)
  refine .bind .lift fun continuing last _ => ?_
  intro sound _ after done
  rw [run_modify_eq_ok.mp done]
  exact .of_sandbox rfl rfl rfl rfl rfl sound.slots (.refl _)

theorem redirectPath_stays {index place : Nat} :
    Stays before (redirectPath index place : Step ω η String) := by
  refine .bind slot_stays fun parts middle _ => ?_
  split
  · exact .get .pure
  · exact .throw
  · exact .throw

theorem readRedirect_stays {path : String} : Stays before (readRedirect path : Step ω η Unit) := by
  refine .get ?_
  split
  · exact .change (.of_eq rfl rfl rfl rfl)
  · exact .answered (.change (.of_eq rfl rfl rfl rfl))

theorem call_stays {name : String} {args : List String} {body : Node}
    (formed : Formed .command body) : Stays before (call name args body : Step ω η Unit) :=
  .compiling (Compilation.compile_makes formed) fun _ _ block =>
    .putFirst (block.wrap rfl rfl)

theorem runNested_stays {name script : String} :
    Stays before (runNested name script : Step ω η Unit) := by
  unfold runNested
  split
  · exact .change (Sandbox.write_keeps _ _)
  · rename_i nodes parsed
    refine .compiling (fun setting => nestedActions_makes (Script.parse_formed parsed)) ?_
    exact fun _ _ block => .putFirst (block.wrap rfl rfl)

theorem nestedShell_stays {name : String} {args : List String} :
    Stays before (nestedShell name args : Step ω η Unit) := by
  unfold nestedShell
  split
  · exact .pure
  · split
    · split
      · exact runNested_stays
      · exact .change (Sandbox.write_keeps _ _)
    · refine .get ?_
      dsimp only
      split
      · exact runNested_stays
      · exact .change (Sandbox.write_keeps _ _)

theorem runKnown_stays {command : Command ω} {args : List String} (keeps : command.Keeps) :
    Stays before (runKnown command args : Step ω η Unit) := by
  refine .get ?_
  refine .bind ?_ fun _ middle done => .bind .lift fun printed last _ => ?_
  · intro sound _ after done
    rw [run_set_eq_ok.mp done]
    exact .of_sandbox rfl rfl rfl rfl rfl sound.slots (keeps args _ _)
  · exact .change ((Sandbox.write_keeps _ _).trans (Sandbox.write_keeps _ _))

theorem leaveToOperator_stays [Host η] {name : String} {parts : List Node} :
    Stays before (leaveToOperator name parts : Step ω η Unit) := by
  refine .get (.answered ?_)
  split
  · exact .pure
  · intro sound _ after done
    rw [run_modify_eq_ok.mp done]
    exact .of_sandbox rfl rfl rfl rfl rfl sound.slots (Sandbox.write_keeps _ _)
  · exact .throw

theorem runParts_stays [Host η] {parts : List Node} :
    Stays before (runParts parts : Step ω η Unit) := by
  intro sound
  refine Stays.get ?_ sound
  split
  · exact .pure
  · split
    · rename_i body found
      exact call_stays (sound.functions _ body found)
    · split
      · exact nestedShell_stays
      · split
        · rename_i command found
          rw [sound.commands] at found
          exact runKnown_stays (Command.standard_keeps found)
        · exact leaveToOperator_stays

theorem assignParts_stays {parts : List Node} :
    Stays before (assignParts parts : Step ω η Unit) := by
  induction parts generalizing before with
  | nil => exact .pure
  | cons part rest ih =>
    unfold assignParts
    split
    · cases ‹_›
    · rename_i same
      cases same
      split
      · exact .bind (.change (.of_eq rfl rfl rfl rfl)) fun _ _ _ => ih
      · exact .throw
    · rename_i same
      cases same
      exact ih

theorem decideCondition_stays {condition : String} {node : Node} (formed : Formed .command node) :
    Stays before (decideCondition condition node : Step ω η Unit) := by
  refine .get ?_
  split
  · refine .answered ?_
    split
    · exact .change (.of_eq rfl rfl rfl rfl)
    · exact .change (.of_eq rfl rfl rfl rfl)
    · refine .compiling (Compilation.compile_makes formed) fun actions _ block => .putFirst ?_
      have judged : Block [.plain (.judge condition) "Determine if boolean execution is true"] :=
        Block.single rfl (by trivial)
      have whole : Block (.plain .beginCapture "Capture boolean execution output" ::
          (actions ++ _) ++ [.plain .endCapture "Release boolean execution output"]) :=
        (block.append judged).wrap rfl rfl
      simpa using whole
  · exact .pure

theorem chooseBody_stays {condition : Option String} {earlier : List String} {body : Node}
    (formed : Formed .command body) :
    Stays before (chooseBody condition earlier body : Step ω η Unit) := by
  refine .get ?_
  split
  · refine .compiling (Compilation.compile_makes formed) fun _ _ block => .putFirst ?_
    exact (block.cons rfl (by trivial)).append (Block.single rfl (by trivial))
  · exact .pure

end

section
variable {before middle after : Machine ω η}

theorem checkDepth_eq_ok {value : Unit}
    (done : (checkDepth : Step ω η Unit).run before = (.ok value, after)) : after = before := by
  obtain ⟨machine, middle, got, checked⟩ := run_bind_eq_ok.mp done
  obtain ⟨rfl, rfl⟩ := run_get_eq_ok.mp got
  exact (run_lift_eq_ok.mp checked).2

/-- A change of the sandbox, whatever its move. -/
theorem change_moves {move : Move} {alter : Sandbox → Sandbox} {value : Unit}
    (done : (change alter : Step ω η Unit).run before = (.ok value, after))
    (sound : SoundSlots before.slots)
    (moves : Sandbox.Moves move before.sandbox (alter before.sandbox)) :
    Executed move before after := by
  rw [run_modify_eq_ok.mp done]
  exact .of_sandbox rfl rfl rfl rfl rfl sound moves

theorem lowering_eq_ok {lower : Sandbox → Sandbox} {value : Unit}
    (done : (do checkDepth; change lower : Step ω η Unit).run before = (.ok value, after)) :
    after = before.withSandbox lower := by
  obtain ⟨_, middle, checked, lowered⟩ := run_bind_eq_ok.mp done
  obtain rfl := checkDepth_eq_ok checked
  exact run_modify_eq_ok.mp lowered

/-- Lowering a scope, once the depth is checked. -/
theorem lowering_moves {lower : Sandbox → Sandbox} {value : Unit}
    (done : (do checkDepth; change lower : Step ω η Unit).run before = (.ok value, after))
    (sound : SoundSlots before.slots)
    (scopes : (lower before.sandbox).scopes = before.sandbox.lower.scopes)
    (captures : (lower before.sandbox).captures = before.sandbox.captures)
    (functions : (lower before.sandbox).functions = before.sandbox.functions) :
    Executed (.opens .scope) before after := by
  rw [lowering_eq_ok done]
  exact .of_sandbox rfl rfl rfl rfl rfl sound (Sandbox.moves_lower scopes captures functions)

/-- The command of a substitution that is still to be resolved. -/
def substituted? (machine : Machine ω η) (index word : Nat) (part : Span) : Option Node :=
  ((machine.slots[index]?.bind (·[word]?)).bind fun node => node.owner.ownParts?).bind
    (Node.substitutedAt? part)

theorem formed_of_substituted? {index word : Nat} {part : Span} {inner : Node}
    (sound : SoundSlots before.slots) (found : before.substituted? index word part = some inner) :
    Formed .command inner := by
  obtain ⟨parts, owned, found⟩ := Option.bind_eq_some_iff.mp found
  obtain ⟨node, picked, own⟩ := Option.bind_eq_some_iff.mp owned
  obtain ⟨slotted, held, inSlot⟩ := Option.bind_eq_some_iff.mp picked
  obtain ⟨child, member, same⟩ := List.exists_of_findSome?_eq_some found
  have sound := sound index slotted held node (List.mem_of_getElem? inSlot) parts own
  split at same
  · split at same
    · cases same
      exact sound inner _ member
    · cases same
  · cases same

variable [Operator ω]

/-- The command of a substitution is compiled, then a scope is lowered for it. -/
theorem enterSubstitution_eq_ok {index word : Nat} {part : Span} {value : Unit}
    (done : (enterSubstitution index word part : Step ω η Unit).run before = (.ok value, after)) :
    ∃ inner actions compiled, before.substituted? index word part = some inner ∧
      (inner.compile before.setting).run
        ⟨before.sandbox.functions, before.slots, before.operator⟩ = (.ok actions, compiled) ∧
      after = ((before.withCompilation compiled).withSandbox fun sandbox =>
        sandbox.lower.clearOutput).withFirst actions := by
  obtain ⟨slotted, middle, looked, found⟩ := run_bind_eq_ok.mp done
  obtain ⟨held, rfl⟩ := slot_eq_ok looked
  dsimp only at found
  split at found
  · exact absurd found run_throw_eq_ok
  · rename_i parts owned
    split at found
    · exact absurd found run_throw_eq_ok
    · rename_i inner substituted
      obtain ⟨actions, _, made, entered⟩ := run_bind_eq_ok.mp found
      obtain ⟨compiled, compiles, rfl⟩ := compiling_eq.mp made
      obtain ⟨_, _, checked, lowered⟩ := run_bind_eq_ok.mp entered
      obtain rfl := checkDepth_eq_ok checked
      obtain ⟨_, _, changed, put⟩ := run_bind_eq_ok.mp lowered
      refine ⟨inner, actions, compiled, ?_, compiles, ?_⟩
      · rw [substituted?, held, Option.bind_some, owned, Option.bind_some]
        exact substituted
      · rw [run_modify_eq_ok.mp put, run_modify_eq_ok.mp changed]

theorem enterSubstitution_moves {index word : Nat} {part : Span} {value : Unit}
    (sound : before.Sound)
    (done : (enterSubstitution index word part : Step ω η Unit).run before = (.ok value, after)) :
    Executed (.opens .scope) before after := by
  obtain ⟨inner, actions, compiled, found, made, rfl⟩ := enterSubstitution_eq_ok done
  have formed := formed_of_substituted? sound.slots found
  have compiles : (compiling inner.compile : Step ω η (List Action)).run before =
      (.ok actions, before.withCompilation compiled) := compiling_eq.mpr ⟨compiled, made, rfl⟩
  obtain ⟨block, early⟩ := compiling_makes (Compilation.compile_makes formed) sound compiles
  exact ⟨rfl, rfl, rfl, early.slots, ⟨actions, rfl, block⟩, nofun, _, early.sandbox, rfl, rfl, rfl,
    rfl, rfl⟩

omit [Operator ω] in
/-- Splicing leaves the sandbox as raising the scope has made it. -/
theorem leaveSubstitution_sandbox {index word : Nat} {part : Span} {value : Unit}
    (done : (leaveSubstitution index word part : Step ω η Unit).run before = (.ok value, after)) :
    after.sandbox = { before.sandbox.clearOutput with screen := "" }.raise := by
  obtain ⟨_, _, got, raising⟩ := run_bind_eq_ok.mp done
  obtain ⟨rfl, rfl⟩ := run_get_eq_ok.mp got
  obtain ⟨_, raised, changed, finding⟩ := run_bind_eq_ok.mp raising
  obtain rfl := run_modify_eq_ok.mp changed
  obtain ⟨_, _, found, splicing⟩ := run_bind_eq_ok.mp finding
  obtain ⟨rfl, rfl⟩ := run_get_eq_ok.mp found
  split at splicing
  · obtain ⟨spliced, _, lifted, put⟩ := run_bind_eq_ok.mp splicing
    obtain ⟨_, rfl⟩ := run_lift_eq_ok.mp lifted
    rw [run_set_eq_ok.mp put]
    rfl
  · exact absurd splicing run_throw_eq_ok

omit [Operator ω] in
/-- The output goes where the substitution stood once the scope is raised. -/
theorem leaveSubstitution_moves {index word : Nat} {part : Span} {value : Unit}
    (sound : SoundSlots before.slots)
    (done : (leaveSubstitution index word part : Step ω η Unit).run before = (.ok value, after)) :
    Executed (.closes .scope) before after := by
  obtain ⟨machine, _, got, raising⟩ := run_bind_eq_ok.mp done
  obtain ⟨rfl, rfl⟩ := run_get_eq_ok.mp got
  obtain ⟨_, raised, changed, finding⟩ := run_bind_eq_ok.mp raising
  obtain ⟨current, _, found, splicing⟩ := run_bind_eq_ok.mp finding
  obtain ⟨rfl, rfl⟩ := run_get_eq_ok.mp found
  have early : Executed (.closes .scope) _ _ :=
    change_moves changed sound (Sandbox.moves_raise rfl rfl)
  split at splicing
  · rename_i parts target held picked
    obtain ⟨spliced, _, lifted, put⟩ := run_bind_eq_ok.mp splicing
    obtain ⟨made, rfl⟩ := run_lift_eq_ok.mp lifted
    rw [run_set_eq_ok.mp put]
    refine ⟨early.commands, early.limits, early.ticks, early.slots.set ?_, early.pending,
      early.closed, early.sandbox⟩
    intro node member
    have before := early.slots index parts held
    rcases List.mem_or_eq_of_mem_set member with old | rfl
    · exact before node old
    · rw [held, Option.bind_some] at picked
      exact (before target (List.mem_of_getElem? picked)).spliceTarget (mapError_eq_ok.mp made)
  · exact absurd splicing run_throw_eq_ok

/-- What executing an operation of a script does to a sound machine. -/
theorem execute_moves [Host η] {operation : Operation} {value : Unit} (sound : before.Sound)
    (formed : operation.Sound)
    (done : (execute operation : Step ω η Unit).run before = (.ok value, after)) :
    Executed operation.move before after := by
  cases operation with
  | resetIo =>
    refine Stays.change ?_ sound _ _ done
    exact (Sandbox.clearOutput_keeps _).trans (Sandbox.clearInput_keeps _)
  | cleanUp =>
    refine Stays.change ?_ sound _ _ done
    exact (Sandbox.flush_keeps _).trans (Sandbox.clearInput_keeps _)
  | flush => exact Stays.change (Sandbox.flush_keeps _) sound _ _ done
  | pipe => exact Stays.change (.of_eq rfl rfl rfl rfl) sound _ _ done
  | separator op => exact separate_stays sound _ _ done
  | beginCapture =>
    exact change_moves done sound.slots ⟨before.sandbox, .refl _, rfl, rfl, rfl⟩
  | endCapture => exact change_moves done sound.slots (Sandbox.moves_endCapture _)
  | readRedirect index place =>
    exact Stays.bind redirectPath_stays (fun _ _ _ => readRedirect_stays) sound _ _ done
  | writeRedirect index place append =>
    exact Stays.bind redirectPath_stays
      (fun _ _ _ => .change (.of_eq rfl rfl rfl rfl)) sound _ _ done
  | bindLoop name value => exact Stays.change (.of_eq rfl rfl rfl rfl) sound _ _ done
  | unbindLoop name => exact Stays.change (Sandbox.unset_keeps _ _) sound _ _ done
  | run index =>
    exact Stays.bind slot_stays (fun _ _ _ => runParts_stays) sound _ _ done
  | assign index =>
    exact Stays.bind slot_stays (fun _ _ _ => assignParts_stays) sound _ _ done
  | enterSubstitution index word part => exact enterSubstitution_moves sound done
  | leaveSubstitution index word part => exact leaveSubstitution_moves sound.slots done
  | decide condition node => exact decideCondition_stays formed sound _ _ done
  | judge condition => exact Stays.change (.of_eq rfl rfl rfl rfl) sound _ _ done
  | choose condition earlier body => exact chooseBody_stays formed sound _ _ done
  | lower => exact lowering_moves done sound.slots rfl rfl rfl
  | raise =>
    exact change_moves done sound.slots
      (Sandbox.moves_raise (Sandbox.flush_keeps _).scopes (Sandbox.flush_keeps _).captures)
  | enterFunction name args => exact lowering_moves done sound.slots rfl rfl rfl
  | leaveFunction =>
    exact change_moves done sound.slots
      (Sandbox.moves_raise (Sandbox.flush_keeps _).scopes (Sandbox.flush_keeps _).captures)
  | enterSubshell => exact lowering_moves done sound.slots rfl rfl rfl
  | nothing => exact Stays.pure sound _ _ done

end

end Machine

end StepShell

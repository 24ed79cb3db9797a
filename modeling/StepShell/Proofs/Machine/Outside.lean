import StepShell.Proofs.Command.Frame
import StepShell.Proofs.Compilation.Residue
import StepShell.Proofs.Machine.Moves

/-! What a machine brings about outside the sandbox. The operator is asked and the host runs texts,
in a course of events, and one operation brings about at most answers that have nothing run, or one
answer that has a command run and its run. -/

namespace StepShell

/-- What happens outside the sandbox: the operator answers a question, or the host runs a text. -/
inductive Event where
  | condition (text : String) (answer : ConditionAnswer)
  | command (text : String) (answer : CommandAnswer)
  | input (path : String) (answer : Option String)
  | fetch (address : String) (answer : Option String)
  | items (item : String) (answer : Option String)
  | ran (text : String) (given : Option String) (output : String)
  deriving DecidableEq, Repr

namespace Event

variable {ω η : Type} [Operator ω] [Host η]

/-- The event leads from this operator and host to those, and one of them is the same. -/
def Happens : Event → ω × η → ω × η → Prop
  | .condition text answer, before, after =>
    Operator.condition text before.1 = (answer, after.1) ∧ after.2 = before.2
  | .command text answer, before, after =>
    Operator.command text before.1 = (answer, after.1) ∧ after.2 = before.2
  | .input path answer, before, after =>
    Operator.input path before.1 = (answer, after.1) ∧ after.2 = before.2
  | .fetch address answer, before, after =>
    Operator.fetch address before.1 = (answer, after.1) ∧ after.2 = before.2
  | .items item answer, before, after =>
    Operator.items item before.1 = (answer, after.1) ∧ after.2 = before.2
  | .ran text given output, before, after =>
    Host.run text given before.2 = (output, after.2) ∧ after.1 = before.1

/-- The answer to have an unknown command run on the host. -/
def allows : Event → Bool
  | .command _ .execute => true
  | _ => false

/-- An answer that has nothing run. -/
def isPeaceful : Event → Bool
  | .command _ .execute | .ran .. => false
  | _ => true

def isItems : Event → Bool
  | .items .. => true
  | _ => false

theorem isPeaceful_of_isItems {event : Event} (asks : event.isItems = true) :
    event.isPeaceful = true := by
  cases event <;> simp_all [isItems, isPeaceful]

theorem Happens.host_eq {event : Event} {before after : ω × η}
    (happens : event.Happens before after) (peaceful : event.isPeaceful = true) :
    after.2 = before.2 := by
  cases event with
  | ran => cases peaceful
  | condition | command | input | fetch | items => exact happens.2

end Event

section
variable {ω η : Type} [Operator ω] [Host η] {before middle after : ω × η}

/-- These events, one after the other, lead from this operator and host to those. -/
inductive Course : ω × η → List Event → ω × η → Prop where
  | ended (outside : ω × η) : Course outside [] outside
  | next {before middle after : ω × η} {event : Event} {later : List Event}
      (happens : event.Happens before middle) (rest : Course middle later after) :
      Course before (event :: later) after

namespace Course

theorem single {event : Event} (happens : event.Happens before after) :
    Course before [event] after :=
  .next happens (.ended after)

theorem append {earlier later : List Event} (first : Course before earlier middle)
    (second : Course middle later after) : Course before (earlier ++ later) after := by
  induction first with
  | ended => exact second
  | next happens _ ih => exact .next happens (ih second)

theorem host_eq {events : List Event} (course : Course before events after)
    (peaceful : ∀ event ∈ events, event.isPeaceful = true) : after.2 = before.2 := by
  induction course with
  | ended => rfl
  | next happens _ ih =>
    obtain ⟨first, rest⟩ := List.forall_mem_cons.mp peaceful
    exact (ih rest).trans (happens.host_eq first)

theorem ofItems (asked : List String) (operator : ω) (host : η) :
    ∃ events, (∀ event ∈ events, event.isItems = true) ∧
      Course (operator, host) events (Operator.itemsAsked operator asked, host) := by
  induction asked generalizing operator with
  | nil => exact ⟨[], by simp, .ended _⟩
  | cons item rest ih =>
    obtain ⟨events, items, course⟩ := ih (Operator.items item operator).2
    have asking : (Event.items item (Operator.items item operator).1).Happens (operator, host)
        ((Operator.items item operator).2, host) := ⟨rfl, rfl⟩
    exact ⟨_, List.forall_mem_cons.mpr ⟨rfl, items⟩, .next asking course⟩

end Course

/-- Each answer that has a command run is followed at once by its run, with what the references in
it stand for. Nothing else is run. -/
inductive Obeys : List Event → Prop where
  | ended : Obeys []
  | passed {event : Event} {later : List Event} (peaceful : event.isPeaceful = true)
      (rest : Obeys later) : Obeys (event :: later)
  | ran (text : String) (vars : Variables) (input output : String) {later : List Event}
      (rest : Obeys later) :
      Obeys (.command text .execute :: .ran (vars.replaceReferences text) (some input) output ::
        later)

namespace Obeys

theorem append {earlier later : List Event} (first : Obeys earlier) (second : Obeys later) :
    Obeys (earlier ++ later) := by
  induction first with
  | ended => exact second
  | passed peaceful _ ih => exact .passed peaceful ih
  | ran text vars input output _ ih => exact .ran text vars input output ih

theorem ofPeaceful {events : List Event} (peaceful : ∀ event ∈ events, event.isPeaceful = true) :
    Obeys events := by
  induction events with
  | nil => exact .ended
  | cons event later ih =>
    obtain ⟨first, rest⟩ := List.forall_mem_cons.mp peaceful
    exact .passed first (ih rest)

theorem peaceful {events : List Event} (obeys : Obeys events)
    (never : ∀ event ∈ events, event.allows = false) :
    ∀ event ∈ events, event.isPeaceful = true := by
  induction obeys with
  | ended => simp
  | passed peaceful _ ih =>
    exact List.forall_mem_cons.mpr ⟨peaceful, ih (List.forall_mem_cons.mp never).2⟩
  | ran => cases (List.forall_mem_cons.mp never).1

end Obeys

end

/-- What one action may bring about: answers that have nothing run, or one that has a command run
with the variables and the input of the moment. -/
inductive Sandbox.Permits (sandbox : Sandbox) : List Event → Prop where
  | asked {events : List Event} (peaceful : ∀ event ∈ events, event.isPeaceful = true) :
      sandbox.Permits events
  | ran (text output : String) : sandbox.Permits
      [.command text .execute,
        .ran (sandbox.vars.replaceReferences text) (some sandbox.io.input) output]

theorem Sandbox.Permits.obeys {sandbox : Sandbox} {events : List Event}
    (permits : sandbox.Permits events) : Obeys events := by
  cases permits with
  | asked peaceful => exact .ofPeaceful peaceful
  | ran text output => exact .ran text sandbox.vars sandbox.io.input output .ended

namespace Command

variable {ω : Type} [Operator ω]

/-- The command asks the operator for one download at most. -/
def Fetches (command : Command ω) : Prop :=
  ∀ args sandbox operator, (command args sandbox operator).2.2 = operator ∨
    ∃ address, (command args sandbox operator).2.2 = (Operator.fetch address operator).2

theorem ofPrinted_fetches (run : List String → Printed) :
    Fetches (ofPrinted run : Command ω) :=
  fun _ _ _ => .inl rfl

theorem ofSandbox_fetches (run : List String → Sandbox → Printed × Sandbox) :
    Fetches (ofSandbox run : Command ω) :=
  fun _ _ _ => .inl rfl

theorem wget_fetches : Fetches (wget : Command ω) := by
  intro args sandbox operator
  unfold wget
  split
  · exact .inl rfl
  · split
    · exact .inl rfl
    · rename_i url _
      split <;> rename_i fetched <;> exact .inr ⟨url.text, (congrArg Prod.snd fetched).symm⟩

theorem curl_fetches : Fetches (curl : Command ω) := by
  intro args sandbox operator
  unfold curl
  split
  · exact .inl rfl
  · split
    · exact .inl rfl
    · rename_i url _
      split <;> rename_i fetched <;> exact .inr ⟨url.text, (congrArg Prod.snd fetched).symm⟩

theorem standard_fetches {name : String} {command : Command ω}
    (found : (standard : Table (Command ω)).get? name = some command) : Fetches command := by
  have each : ∀ entry ∈ (standardList : List (String × Command ω)), Fetches entry.2 := by
    simp only [standardList, List.forall_mem_cons, List.not_mem_nil, false_implies, implies_true,
      ofPrinted_fetches, ofSandbox_fetches, wget_fetches, curl_fetches, and_self]
  exact each _ (Table.mem_of_get?_ofList found)

end Command

namespace Machine

variable {ω η α β : Type}

/-- The operator and the host. -/
def outside (machine : Machine ω η) : ω × η := (machine.operator, machine.host)

theorem settle_outside (machine : Machine ω η) : machine.settle.outside = machine.outside := by
  unfold settle
  split <;> rfl

section
variable [Operator ω] [Host η] {origin before : Machine ω η}

/-- Since the origin the operator was asked at most, and the host was let alone. -/
structure Asked (origin now : Machine ω η) : Prop where
  commands : now.commands = origin.commands
  course : ∃ events, (∀ event ∈ events, event.isPeaceful = true) ∧
    Course origin.outside events now.outside

theorem Asked.refl (machine : Machine ω η) : machine.Asked machine :=
  ⟨rfl, [], by simp, .ended _⟩

/-- All but the commands, the operator and the host may change. -/
theorem Asked.beside {after : Machine ω η} (asked : Asked origin before)
    (commands : after.commands = before.commands) (outside : after.outside = before.outside) :
    Asked origin after := by
  refine ⟨commands.trans asked.commands, ?_⟩
  rw [outside]
  exact asked.course

theorem Asked.more {after : Machine ω η} {events : List Event} (asked : Asked origin before)
    (commands : after.commands = before.commands)
    (peaceful : ∀ event ∈ events, event.isPeaceful = true)
    (course : Course before.outside events after.outside) : Asked origin after := by
  obtain ⟨earlier, calm, first⟩ := asked.course
  refine ⟨commands.trans asked.commands, earlier ++ events, ?_, first.append course⟩
  exact List.forall_mem_append.mpr ⟨calm, peaceful⟩

theorem Asked.answered {after : Machine ω η} {event : Event} (asked : Asked origin before)
    (happens : event.Happens before.outside after.outside)
    (commands : after.commands = before.commands) (peaceful : event.isPeaceful = true) :
    Asked origin after :=
  asked.more commands (List.forall_mem_singleton.mpr peaceful) (.single happens)

theorem change_asked {alter : Sandbox → Sandbox} :
    Preserves (Asked origin) before (change alter) :=
  .modify fun asked => asked.beside rfl rfl

theorem putFirst_asked {actions : List Action} :
    Preserves (Asked origin) before (putFirst actions) :=
  .modify fun asked => asked.beside rfl rfl

omit [Operator ω] [Host η] in
theorem slot_still {index : Nat} {machine : Machine ω η} :
    ((slot index).run machine).2 = machine := by
  unfold slot
  rw [run_get_bind]
  split <;> rfl

theorem slot_asked {index : Nat} : Preserves (Asked origin) before (slot index) :=
  .still slot_still

theorem checkDepth_asked : Preserves (Asked origin) before checkDepth :=
  .get .lift

theorem separate_asked {op : String} : Preserves (Asked origin) before (separate op) :=
  .get (.bind change_asked fun _ _ _ => .get (.bind .lift fun _ _ _ =>
    .modify fun asked => asked.beside rfl rfl))

theorem redirectPath_asked {index place : Nat} :
    Preserves (Asked origin) before (redirectPath index place) := by
  refine .bind slot_asked fun _ _ _ => ?_
  split
  · exact .get .pure
  · exact .throw
  · exact .throw

/-- Compiling asks about the items of loops. -/
def AsksItems (compile : Compilation.Setting → Compile ω α) : Prop :=
  ∀ setting start, ∃ asked,
    ((compile setting).run start).2.operator = Operator.itemsAsked start.operator asked

omit [Host η] in
theorem compile_asksItems (node : Node) : AsksItems (ω := ω) node.compile := by
  intro setting start
  obtain ⟨asked, _, same⟩ := (Compilation.compile_grown node setting start).operator
  exact ⟨asked, same⟩

omit [Host η] in
theorem nestedActions_grown (nodes : List Node) (setting : Compilation.Setting)
    (start : Compilation ω) : Compilation.Grown (fun _ => True) start
      ((nestedActions setting nodes : Compile ω (List Action)).run start).2 := by
  have grows : ∀ before, Preserves (Compilation.Grown (fun _ => True) start) before
      (nestedActions setting nodes : Compile ω (List Action)) := by
    induction nodes with
    | nil => exact fun _ => .pure
    | cons node rest ih =>
      exact fun before => .bind (Compilation.compile_preserves node (fun _ _ => trivial) before)
        fun _ middle _ => .bind (ih middle) fun _ _ _ => .pure
  exact grows start (.refl _ start)

omit [Host η] in
theorem nestedActions_asksItems (nodes : List Node) :
    AsksItems (ω := ω) fun setting => nestedActions setting nodes := by
  intro setting start
  obtain ⟨asked, _, same⟩ := (nestedActions_grown nodes setting start).operator
  exact ⟨asked, same⟩

theorem compiling_asked {compile : Compilation.Setting → Compile ω α} (asks : AsksItems compile) :
    Preserves (Asked origin) before (compiling compile) := by
  intro asked
  obtain ⟨texts, same⟩ := asks before.setting
    ⟨before.sandbox.functions, before.slots, before.operator⟩
  obtain ⟨events, items, course⟩ := Course.ofItems texts before.operator before.host
  refine asked.more rfl (fun event member => Event.isPeaceful_of_isItems (items event member)) ?_
  rw [← same] at course
  exact course

/-- Compile, then put the actions of a block first. -/
theorem compiled_asked {compile : Compilation.Setting → Compile ω (List Action)}
    {block : List Action → List Action} (asks : AsksItems compile) :
    Preserves (Asked origin) before (do
      let actions ← compiling compile
      putFirst (block actions)) :=
  .bind (compiling_asked asks) fun _ _ _ => putFirst_asked

theorem readRedirect_asked {path : String} :
    Preserves (Asked origin) before (readRedirect path) := by
  refine .get ?_
  split
  · exact change_asked
  · have asking : (Event.input path (Operator.input path before.operator).1).Happens before.outside
        ((Operator.input path before.operator).2, before.host) := ⟨rfl, rfl⟩
    exact .bind (.set fun asked => asked.answered asking rfl rfl) fun _ _ _ => change_asked

theorem runNested_asked {name script : String} :
    Preserves (Asked origin) before (runNested name script) := by
  unfold runNested
  split
  · exact change_asked
  · exact compiled_asked (nestedActions_asksItems _)

theorem nestedShell_asked {name : String} {args : List String} :
    Preserves (Asked origin) before (nestedShell name args) := by
  unfold nestedShell
  split
  · exact .pure
  · split
    · split
      · exact runNested_asked
      · exact change_asked
    · refine .get ?_
      dsimp only
      split
      · exact runNested_asked
      · exact change_asked

theorem runKnown_asked {command : Command ω} {args : List String} (fetches : command.Fetches) :
    Preserves (Asked origin) before (runKnown command args) := by
  refine .get (.bind (.set fun asked => ?_) fun _ _ _ => .bind .lift fun _ _ _ => change_asked)
  rcases fetches args before.sandbox before.operator with same | ⟨address, same⟩
  · exact asked.beside rfl (congrArg (·, before.host) same)
  · have asking : (Event.fetch address (Operator.fetch address before.operator).1).Happens
        before.outside ((command args before.sandbox before.operator).2.2, before.host) :=
      ⟨Prod.ext rfl same.symm, rfl⟩
    exact asked.answered asking rfl rfl

theorem assignParts_asked {parts : List Node} :
    Preserves (Asked origin) before (assignParts parts) := by
  induction parts generalizing before with
  | nil => exact .pure
  | cons part rest ih =>
    cases part with
    | assignment text inner span =>
      unfold assignParts
      split
      · exact .bind change_asked fun _ _ _ => ih
      · exact .throw
    | _ => exact ih

theorem enterSubstitution_asked {index word : Nat} {part : Span} :
    Preserves (Asked origin) before (enterSubstitution index word part) := by
  refine .bind slot_asked fun _ _ _ => ?_
  dsimp only
  split
  · exact .throw
  · split
    · exact .throw
    · exact .bind (compiling_asked (compile_asksItems _)) fun _ _ _ =>
        .bind checkDepth_asked fun _ _ _ => .bind change_asked fun _ _ _ => putFirst_asked

theorem leaveSubstitution_asked {index word : Nat} {part : Span} :
    Preserves (Asked origin) before (leaveSubstitution index word part) := by
  refine .get (.bind change_asked fun _ _ _ => .get ?_)
  split
  · exact .bind .lift fun _ _ lifted => .set fun asked => by
      obtain ⟨_, rfl⟩ := run_lift_eq_ok.mp lifted
      exact asked.beside rfl rfl
  · exact .throw

theorem decideCondition_asked {condition : String} {node : Node} :
    Preserves (Asked origin) before (decideCondition condition node) := by
  refine .get ?_
  split
  · have asking : (Event.condition condition
        (Operator.condition condition before.operator).1).Happens before.outside
        ((Operator.condition condition before.operator).2, before.host) := ⟨rfl, rfl⟩
    refine .bind (.set fun asked => asked.answered asking rfl rfl) fun _ _ _ => ?_
    split
    · exact change_asked
    · exact change_asked
    · exact compiled_asked (compile_asksItems node)
  · exact .pure

theorem chooseBody_asked {condition : Option String} {earlier : List String} {body : Node} :
    Preserves (Asked origin) before (chooseBody condition earlier body) := by
  refine .get ?_
  split
  · exact compiled_asked (compile_asksItems body)
  · exact .pure

/-- Since the origin the outside went through what an action may bring about there. -/
structure Dealt (origin now : Machine ω η) : Prop where
  commands : now.commands = origin.commands
  course : ∃ events, origin.sandbox.Permits events ∧ Course origin.outside events now.outside

theorem Asked.dealt {now : Machine ω η} (asked : Asked origin now) : Dealt origin now := by
  obtain ⟨events, peaceful, course⟩ := asked.course
  exact ⟨asked.commands, events, .asked peaceful, course⟩

/-- Only here the host is run, and only where the operator says so. -/
theorem leaveToOperator_dealt (machine : Machine ω η) (name : String) (parts : List Node) :
    Dealt machine ((leaveToOperator name parts).run machine).2 := by
  have asking : (Event.command (commandLine parts)
      (Operator.command (commandLine parts) machine.operator).1).Happens machine.outside
      ((Operator.command (commandLine parts) machine.operator).2, machine.host) := ⟨rfl, rfl⟩
  unfold leaveToOperator
  rw [run_get_bind]
  rcases answered : Operator.command (commandLine parts) machine.operator with ⟨answer, operator⟩
  rw [answered] at asking
  cases answer with
  | skip | abort =>
    have asked : Asked machine { machine with operator } :=
      (Asked.refl machine).answered asking rfl rfl
    exact asked.dealt
  | execute =>
    let text := machine.sandbox.vars.replaceReferences (commandLine parts)
    let input := some machine.sandbox.io.input
    have running : (Event.ran text input (Host.run text input machine.host).1).Happens
        (operator, machine.host) (operator, (Host.run text input machine.host).2) := ⟨rfl, rfl⟩
    exact ⟨rfl, _, .ran (commandLine parts) _, .next asking (.single running)⟩

theorem runParts_dealt {machine : Machine ω η} (standard : machine.commands = Command.standard)
    (parts : List Node) : Dealt machine ((runParts parts).run machine).2 := by
  have start := Asked.refl machine
  unfold runParts
  rw [run_get_bind]
  split
  · exact start.dealt
  · split
    · rename_i body _
      exact (compiled_asked (compile_asksItems body) start).dealt
    · split
      · exact (nestedShell_asked start).dealt
      · split
        · rename_i known
          rw [standard] at known
          exact (runKnown_asked (Command.standard_fetches known) start).dealt
        · exact leaveToOperator_dealt machine _ parts

/-- Whatever becomes of an operation, outside there happens no more than it permits. -/
theorem execute_dealt (machine : Machine ω η) (standard : machine.commands = Command.standard)
    (operation : Operation) : Dealt machine ((execute operation).run machine).2 := by
  have start := Asked.refl machine
  cases operation with
  | run index =>
    have still : ((slot index).run machine).2 = machine := slot_still
    rw [execute]
    rcases made : (slot index).run machine with ⟨failure | parts, middle⟩
    · rw [run_bind_of_error made]
      rw [made] at still
      obtain rfl : middle = machine := still
      exact start.dealt
    · rw [run_bind_of_ok made]
      rw [made] at still
      obtain rfl : middle = machine := still
      exact runParts_dealt standard parts
  | separator op => exact (separate_asked start).dealt
  | readRedirect index place =>
    exact (Preserves.bind redirectPath_asked (fun _ _ _ => readRedirect_asked) start).dealt
  | writeRedirect index place append =>
    exact (Preserves.bind redirectPath_asked (fun _ _ _ => change_asked) start).dealt
  | assign index =>
    exact (Preserves.bind slot_asked (fun _ _ _ => assignParts_asked) start).dealt
  | enterSubstitution index word part => exact (enterSubstitution_asked start).dealt
  | leaveSubstitution index word part => exact (leaveSubstitution_asked start).dealt
  | decide condition node => exact (decideCondition_asked start).dealt
  | choose condition earlier body => exact (chooseBody_asked start).dealt
  | lower | enterFunction | enterSubshell =>
    exact (Preserves.bind checkDepth_asked (fun _ _ _ => change_asked) start).dealt
  | nothing => exact start.dealt
  | resetIo | cleanUp | flush | pipe | beginCapture | endCapture | bindLoop | unbindLoop | judge
  | raise | leaveFunction => exact (change_asked start).dealt

end

end Machine

end StepShell

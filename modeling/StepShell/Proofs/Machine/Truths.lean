import StepShell.Proofs.Machine.Bounds
import StepShell.Proofs.Machine.Confinement
import StepShell.Proofs.Machine.Obedience

/-! Truths are stable. A condition that is decided stays as it was decided, unless it is being
executed meanwhile: the action that will judge its output is then still pending, and it stores what
it finds over an answer that was given in between. -/

namespace StepShell

/-- What an operator notes of the questions about one condition: no other question changes it. -/
structure Operator.Notes {ω γ : Type} [Operator ω] (condition : String) (note : ω → γ) : Prop where
  condition : ∀ text operator, text ≠ condition →
    note (Operator.condition text operator).2 = note operator
  command : ∀ text operator, note (Operator.command text operator).2 = note operator
  input : ∀ path operator, note (Operator.input path operator).2 = note operator
  fetch : ∀ address operator, note (Operator.fetch address operator).2 = note operator
  items : ∀ item operator, note (Operator.items item operator).2 = note operator

section
variable {ω η γ : Type} [Operator ω] [Host η] {condition : String} {note : ω → γ}

theorem Event.Happens.notes {event : Event} {before after : ω × η}
    (happens : event.Happens before after) (notes : Operator.Notes condition note)
    (apart : event.asksAbout condition = false) : note after.1 = note before.1 := by
  cases event with
  | condition text answer =>
    have kept := notes.condition text before.1 (beq_eq_false_iff_ne.mp apart)
    rwa [happens.1] at kept
  | command text answer =>
    have kept := notes.command text before.1
    rwa [happens.1] at kept
  | input path answer =>
    have kept := notes.input path before.1
    rwa [happens.1] at kept
  | fetch address answer =>
    have kept := notes.fetch address before.1
    rwa [happens.1] at kept
  | items item answer =>
    have kept := notes.items item before.1
    rwa [happens.1] at kept
  | ran => exact congrArg note happens.2

/-- A course in which nobody asks about the condition leaves what is noted of it. -/
theorem Course.notes {before after : ω × η} {events : List Event}
    (course : Course before events after) (notes : Operator.Notes condition note)
    (apart : ∀ event ∈ events, event.asksAbout condition = false) :
    note after.1 = note before.1 := by
  induction course with
  | ended => rfl
  | next happens _ ih =>
    obtain ⟨first, later⟩ := List.forall_mem_cons.mp apart
    exact (ih later).trans (happens.notes notes first)

end

namespace Machine

variable {ω η : Type} [Operator ω] [Host η] {condition : String} {value : Bool}
  {start before : Machine ω η}

/-- The condition has this truth, and nothing that is pending will store another one. -/
structure Settled (condition : String) (value : Bool) (machine : Machine ω η) : Prop where
  truth : machine.sandbox.truth? condition = some value
  pending : ∀ action ∈ machine.pending, action.operation ≠ .judge condition

/-- The condition is settled, and since the start nobody was asked about it. -/
structure Stable (condition : String) (value : Bool) (start now : Machine ω η) : Prop where
  commands : now.commands = Command.standard
  settled : Settled condition value now
  course : ∃ events, StepShell.Course start.outside events now.outside ∧
    ∀ event ∈ events, event.asksAbout condition = false

/-- What an operation does without bearing on the condition. -/
theorem Stable.confined {spared : Option (Nat × Nat)} {after : Machine ω η}
    (stable : Stable condition value start before)
    (confined : Confined condition spared before after) :
    Stable condition value start after := by
  obtain ⟨events, course, apart⟩ := stable.course
  obtain ⟨first, put, spares⟩ := confined.pending
  obtain ⟨later, calm, onward⟩ := confined.course
  refine ⟨confined.commands.trans stable.commands, ⟨?_, ?_⟩, events ++ later,
    course.append onward, List.forall_mem_append.mpr ⟨apart, calm⟩⟩
  · exact confined.truth.trans stable.settled.truth
  · rw [put]
    exact List.forall_mem_append.mpr
      ⟨fun action member => (spares action member).judges, stable.settled.pending⟩

theorem Stable.settle (stable : Stable condition value start before) :
    Stable condition value start before.settle := by
  obtain ⟨pending, sandbox, _, _⟩ := settle_frame before
  refine ⟨(settle_commands before).trans stable.commands, ⟨?_, ?_⟩, ?_⟩
  · rw [sandbox]
    exact stable.settled.truth
  · rw [pending]
    exact stable.settled.pending
  · rw [settle_outside]
    exact stable.course

theorem execute_stable {operation : Operation} (judges : operation ≠ .judge condition) :
    Preserves (Stable condition value start) before (execute operation) := by
  intro stable
  refine stable.confined (execute_confined stable.commands judges fun _ _ => ?_)
  rw [stable.settled.truth]
  rfl

/-- Whatever an inch comes to. -/
theorem inch_stable : Preserves (Stable condition value start) before inch := by
  intro stable
  have started : ∀ action rest, before.pending = action :: rest →
      action.operation ≠ .judge condition ∧ Stable condition value start
        { before with pending := rest, ticks := before.ticks + 1 } := by
    intro action rest pending
    have each := stable.settled.pending
    rw [pending] at each
    obtain ⟨first, later⟩ := List.forall_mem_cons.mp each
    exact ⟨first, stable.commands, ⟨stable.settled.truth, later⟩, stable.course⟩
  rcases inched : inch.run before with ⟨result, after⟩
  cases inched_of_eq inched with
  | idle => exact stable
  | refused => exact ⟨stable.commands, ⟨stable.settled.truth, stable.settled.pending⟩, stable.course⟩
  | @executed action rest after pending allowed ran
  | @failed action rest _ after pending allowed ran =>
    obtain ⟨judges, starting⟩ := started action rest pending
    have kept := execute_stable judges starting
    rw [ran] at kept
    exact kept.settle

theorem build_stable {node : Node} {append : Bool} :
    Preserves (Stable condition value start) before (build node append) := by
  intro stable
  obtain ⟨events, course, apart⟩ := stable.course
  obtain ⟨commands, asked, same⟩ := build_outside node append before
  obtain ⟨later, items, onward⟩ := StepShell.Course.ofItems asked before.operator before.host
  have settled : Settled condition value ((build node append).run before).2 := by
    rcases built : (build node append).run before with ⟨failure | _, after⟩
    · obtain ⟨_, _, rfl⟩ := build_eq_error built
      exact ⟨stable.settled.truth, stable.settled.pending⟩
    · obtain ⟨actions, compiled, made, rfl⟩ := build_eq_ok built
      have fresh : AllFresh 0 (wrapped actions) :=
        (AllFresh.cons (by trivial) (Compilation.compile_fresh node _ _ _ (Nat.zero_le _) made).2
          ).append (.single (by trivial))
      refine ⟨stable.settled.truth, List.forall_mem_append.mpr ⟨fun action member => ?_, ?_⟩⟩
      · split at member
        · exact stable.settled.pending action member
        · cases member
      · exact fun action member => (fresh action member).ne_judge condition
  refine ⟨commands.trans stable.commands, settled, events ++ later, ?_, ?_⟩
  · rw [same]
    exact course.append onward
  · exact List.forall_mem_append.mpr
      ⟨apart, fun event member => Event.asksAbout_of_isItems (items event member)⟩

theorem inches_stable {count : Nat} :
    Preserves (Stable condition value start) before (inches count) := by
  induction count generalizing before with
  | zero => exact .pure
  | succ count ih =>
    refine .bind inch_stable fun more _ _ => ?_
    split
    · exact ih
    · exact .pure

theorem recounted_stable (stable : Stable condition value start before) :
    Stable condition value start { before with ticks := 0 } :=
  ⟨stable.commands, ⟨stable.settled.truth, stable.settled.pending⟩, stable.course⟩

theorem drain_stable : Preserves (Stable condition value start) before drain :=
  .bind (.modify recounted_stable) fun _ _ _ => .get inches_stable

theorem Passes.stable {moment : Machine ω η} (passes : Passes start moment)
    (stable : Stable condition value start start) : Stable condition value start moment := by
  induction passes with
  | start => exact stable
  | built _ _ _ ih => exact build_stable ih
  | inched _ ih => exact inch_stable ih
  | draining _ ih => exact recounted_stable ih
  | drained _ ih => exact drain_stable ih
  | ran _ _ ih => exact Preserves.bind build_stable (fun _ _ _ => drain_stable) ih

/-- An action that raises a scope leaves all truths, also those that were found inside. -/
theorem raising_truths {machine : Machine ω η} (standard : machine.commands = Command.standard)
    {operation : Operation} (raises : operation.move = .closes .scope) :
    ((execute operation).run machine).2.sandbox.truths = machine.sandbox.truths := by
  refine Table.ext_get? fun condition => ?_
  have confined : Confined condition operation.place? machine ((execute operation).run machine).2 :=
    execute_confined standard (by rintro rfl; cases raises) (by rintro node rfl; cases raises)
  exact confined.truth

/-- Once a condition is settled, it keeps its truth at every moment that a machine with the standard
commands comes to by building, inching, draining and running, and nobody is asked about it again: not
in the course of events, and so that nothing an operator notes of such questions changes. Raising a
scope takes no truth away. -/
theorem truths_stable {moment : Machine ω η} (standard : start.commands = Command.standard)
    (settled : Settled condition value start) (passes : Passes start moment) :
    Settled condition value moment ∧
      (∃ events, StepShell.Course start.outside events moment.outside ∧
        ∀ event ∈ events, event.asksAbout condition = false) ∧
      (∀ {γ : Type} (note : ω → γ), Operator.Notes condition note →
        note moment.operator = note start.operator) ∧
      ∀ operation, operation.move = .closes .scope →
        ((execute operation).run moment).2.sandbox.truths = moment.sandbox.truths := by
  have stable := passes.stable ⟨standard, settled, [], .ended _, by simp⟩
  obtain ⟨events, course, apart⟩ := stable.course
  refine ⟨stable.settled, ⟨events, course, apart⟩, fun note notes => ?_, fun operation raises => ?_⟩
  · exact course.notes notes apart
  · exact raising_truths stable.commands raises

/-- A scripted operator writes down how often it is asked about a condition. -/
theorem scripted_notes (condition : String) : Operator.Notes condition fun operator : Scripted =>
    operator.asked.count ("truth: " ++ condition) := by
  have other : ∀ (operator : Scripted) (question : String), question ≠ "truth: " ++ condition →
      (operator.ask question).asked.count ("truth: " ++ condition) =
        operator.asked.count ("truth: " ++ condition) :=
    fun operator question different => Array.count_push_of_ne different
  have apart : ∀ kind text : String, ¬ "truth: ".toList <+: kind.toList ++ text.toList →
      kind ++ text ≠ "truth: " ++ condition := by
    intro kind text different same
    refine different ⟨condition.toList, ?_⟩
    rw [← String.toList_append, ← same, String.toList_append]
  refine ⟨fun text operator different => ?_, fun text operator => ?_, fun path operator => ?_,
    fun address operator => ?_, fun item operator => ?_⟩
  · have same := other operator ("truth: " ++ text) fun same =>
      different ((String.append_right_inj _).mp same)
    unfold Operator.condition instOperatorScripted
    dsimp only
    split <;> exact same
  · have same := other operator ("command: " ++ text) (apart _ _ (by simp))
    unfold Operator.command instOperatorScripted
    dsimp only
    split <;> exact same
  · have same := other operator ("input: " ++ path) (apart _ _ (by simp))
    unfold Operator.input instOperatorScripted
    dsimp only
    split <;> exact same
  · have same := other operator ("fetch: " ++ address) (apart _ _ (by simp))
    unfold Operator.fetch instOperatorScripted
    dsimp only
    split <;> exact same
  · have same := other operator ("loop: " ++ item) (apart _ _ (by simp))
    unfold Operator.items instOperatorScripted
    dsimp only
    split <;> exact same

/-- A machine with an operator who has the first condition executed, and says that the second one
holds. -/
def probing : Machine Scripted HostRecord :=
  create (Sandbox.startingIn "/root") Command.standard {}
    ⟨[.execute, .holds], [], [], [], [], #[]⟩ ⟨[], #[]⟩

/-- The condition was executed, and wrote nothing. -/
def probed : Machine Scripted HostRecord :=
  probing.called (.runText "if probe; then echo on; fi")

theorem probed_standard : probed.commands = Command.standard := by
  have heeds : Heeds probing probed := called_heeds _ ⟨rfl, [], .started⟩
  exact heeds.1

theorem probed_ended : probed.pending.isEmpty = true ∧
    probed.sandbox.truth? "probe" = some false ∧
    probed.operator.asked.count "truth: probe" = 1 := by
  decide +kernel

/-- A function in a group, and a nested shell meet the condition again. -/
theorem truths_stable_probed :
    let node := (Script.nodes ("(f() { if probe; then echo on; else echo off; fi; }; f); " ++
      "bash -c 'if probe; then echo on; fi'")).headD default
    let moment := ((run node).run probed).2
    probed.commands = Command.standard ∧ Settled "probe" false probed ∧ Passes probed moment ∧
      moment.sandbox.screen = "off\n" ∧ Settled "probe" false moment ∧
      moment.operator.asked.count "truth: probe" = 1 := by
  intro node moment
  obtain ⟨ended, truth, once⟩ := probed_ended
  have settled : Settled "probe" false probed := by
    refine ⟨truth, ?_⟩
    rw [List.isEmpty_iff.mp ended]
    nofun
  have passes : Passes probed moment := .ran node .start
  obtain ⟨kept, _, unasked, _⟩ := truths_stable probed_standard settled passes
  have count := unasked _ (scripted_notes "probe")
  exact ⟨probed_standard, settled, passes, by decide +kernel, kept, count.trans once⟩

end Machine

end StepShell

import StepShell.Proofs.Machine.Discipline
import StepShell.Proofs.Machine.Loop
import StepShell.Proofs.Machine.Outcome

/-! The limits hold over every run, however its calls follow each other and whether they succeed or
fail. -/

namespace StepShell.Machine

variable {ω η : Type} [Operator ω]

/-- The machine knows its commands, has these limits and does not exceed the one on scopes. -/
structure Shallow (bounds : Limits) (machine : Machine ω η) : Prop where
  commands : machine.commands = Command.standard
  limits : machine.limits = bounds
  depth : machine.sandbox.depth ≤ bounds.depth

section
variable {bounds : Limits} {machine after : Machine ω η}

/-- Only the commands, the limits and the depth matter. -/
theorem Shallow.of_same (shallow : Shallow bounds machine)
    (commands : after.commands = machine.commands) (limits : after.limits = machine.limits)
    (depth : after.sandbox.depth = machine.sandbox.depth) : Shallow bounds after := by
  refine ⟨commands.trans shallow.commands, limits.trans shallow.limits, ?_⟩
  rw [depth]
  exact shallow.depth

theorem Shallow.settle (shallow : Shallow bounds machine) : Shallow bounds machine.settle := by
  unfold Machine.settle
  split
  · exact shallow.of_same rfl rfl rfl
  · exact shallow

theorem build_shallow (node : Node) (append : Bool) :
    Preserves (Shallow bounds) machine (build node append) := by
  intro shallow
  rcases built : (build node append).run machine with ⟨failure | value, after⟩
  · obtain ⟨compiled, _, rfl⟩ := build_eq_error built
    exact shallow.of_same rfl rfl rfl
  · obtain ⟨actions, compiled, _, rfl⟩ := build_eq_ok built
    exact shallow.of_same rfl rfl rfl

variable [Host η]

theorem execute_shallow (operation : Operation) :
    Preserves (Shallow bounds) machine (execute operation) := by
  intro shallow
  obtain ⟨first, middle, retains, left, _⟩ := execute_retains operation machine
  have keeps : ∀ name command, machine.commands.get? name = some command → command.Keeps := by
    intro name command found
    rw [shallow.commands] at found
    exact Command.standard_keeps found
  have bounded := retains.depth keeps
  rw [shallow.limits] at bounded
  rw [left]
  refine ⟨retains.commands.trans shallow.commands, retains.limits.trans shallow.limits, ?_⟩
  exact Nat.le_trans bounded (Nat.max_le.mpr ⟨shallow.depth, Nat.le_refl _⟩)

/-- One action keeps the depth within the limit, whatever its outcome. -/
theorem Inched.shallow {result : Except Failure Bool} (inched : Inched machine result after)
    (shallow : Shallow bounds machine) : Shallow bounds after := by
  have started : ∀ rest, Shallow bounds
      { machine with pending := rest, ticks := machine.ticks + 1 } :=
    fun _ => shallow.of_same rfl rfl rfl
  cases inched with
  | idle => exact shallow
  | refused => exact shallow.of_same rfl rfl rfl
  | @executed action rest after pending allowed ran =>
    have kept := execute_shallow action.operation (started rest)
    rw [ran] at kept
    exact kept.settle
  | @failed action rest failure after pending allowed ran =>
    have kept := execute_shallow action.operation (started rest)
    rw [ran] at kept
    exact kept.settle

theorem Loops.shallow {executed : List Action} {result : Except Failure Unit}
    (loops : Loops machine executed result after) (shallow : Shallow bounds machine) :
    Shallow bounds after := by
  induction loops with
  | ends inched => exact (inched_of_eq inched).shallow shallow
  | fails inched => exact (inched_of_eq inched).shallow shallow
  | goes inched _ ih => exact ih ((inched_of_eq inched).shallow shallow)

theorem drain_shallow : Preserves (Shallow bounds) machine drain := by
  intro shallow
  obtain ⟨executed, loops, _⟩ := drain_loops machine
  exact Loops.shallow loops (shallow.of_same rfl rfl rfl)

theorem run_shallow (node : Node) : Preserves (Shallow bounds) machine (run node) :=
  .bind (build_shallow node false) fun _ _ _ => drain_shallow

end

section
variable [Host η]

/-- The moments that a machine comes to by building, inching, draining and running in any order,
whatever the outcome. A drain starts by setting the count back, and passes through the moment after
each of its actions. -/
inductive Passes (start : Machine ω η) : Machine ω η → Prop where
  | start : Passes start start
  | built {moment : Machine ω η} (node : Node) (append : Bool) (earlier : Passes start moment) :
      Passes start ((build node append).run moment).2
  | inched {moment : Machine ω η} (earlier : Passes start moment) :
      Passes start (inch.run moment).2
  | draining {moment : Machine ω η} (earlier : Passes start moment) :
      Passes start { moment with ticks := 0 }
  | drained {moment : Machine ω η} (earlier : Passes start moment) :
      Passes start (drain.run moment).2
  | ran {moment : Machine ω η} (node : Node) (earlier : Passes start moment) :
      Passes start ((run node).run moment).2

variable {start moment : Machine ω η}

theorem Passes.shallow {bounds : Limits} (passes : Passes start moment)
    (shallow : Shallow bounds start) : Shallow bounds moment := by
  induction passes with
  | start => exact shallow
  | built node append _ ih => exact build_shallow node append ih
  | inched _ ih => exact (inch_inched _).shallow ih
  | draining _ ih => exact ih.of_same rfl rfl rfl
  | drained _ ih => exact drain_shallow ih
  | ran node _ ih => exact run_shallow node ih

/-- At every moment of every sequence of calls the depth is within the limit on scopes, and a drain
would come to its end within the limit on actions. -/
theorem passes_bounded (commands : start.commands = Command.standard)
    (shallow : start.sandbox.depth ≤ start.limits.depth) (passes : Passes start moment) :
    moment.sandbox.depth ≤ start.limits.depth ∧
      ∃ executed, moment.Drains executed ∧ executed.length ≤ start.limits.actions := by
  have kept := passes.shallow ⟨commands, rfl, shallow⟩
  obtain ⟨executed, drains, bounded⟩ := drain_loops moment
  rw [kept.limits] at bounded
  exact ⟨kept.depth, executed, drains, bounded⟩

end

/-- A machine on which two scopes may be lowered and a loop may go round once. -/
def tight : Machine Absent Disabled :=
  create (Sandbox.startingIn "/root") Command.standard
    { actions := 40, depth := 2, loop := 1 } {} {}

/-- A function that calls itself fails as deep as it may go, and is built again behind what is
left. -/
theorem passes_bounded_recursion :
    let node := (Script.nodes "f() { f; }; f").headD default
    let moment := ((build node true).run ((run node).run tight).2).2
    ((run node).run tight).1.isOk = false ∧ moment.sandbox.depth = 2 ∧
      tight.commands = Command.standard ∧ tight.sandbox.depth ≤ tight.limits.depth ∧
      Passes tight moment ∧ moment.sandbox.depth ≤ tight.limits.depth ∧
      ∃ executed, moment.Drains executed ∧ executed.length ≤ tight.limits.actions := by
  intro node moment
  have failed : ((run node).run tight).1.isOk = false := by decide +kernel
  have deep : moment.sandbox.depth = 2 := by decide +kernel
  have passes : Passes tight moment := .built node true (.ran node .start)
  exact ⟨failed, deep, rfl, by decide, passes, passes_bounded rfl (by decide) passes⟩

end StepShell.Machine

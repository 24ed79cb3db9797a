import StepShell.Operator.Scripted
import StepShell.Proofs.Compilation.Residue
import StepShell.Proofs.Machine.Bounds
import StepShell.Proofs.Machine.Pausing

/-! What a failure leaves behind. A build that fails takes everything back but the questions that
were asked; an action that fails is gone, unless the limit on actions refused it. -/

namespace StepShell.Machine

variable {ω η : Type} [Operator ω] {machine after : Machine ω η}

/-- A build that fails changes nothing but that the operator was asked about items of loops. -/
theorem build_withdrawn {node : Node} {append : Bool} {failure : Failure}
    (failed : (build node append).run machine = (.error failure, after)) :
    ∃ asked, (∀ text ∈ asked, node.AsksAbout text) ∧
      after = { machine with operator := Operator.itemsAsked machine.operator asked } := by
  obtain ⟨compiled, made, rfl⟩ := build_eq_error failed
  have grown := Compilation.compile_grown node machine.setting
    ⟨machine.sandbox.functions, if append then machine.slots else #[], machine.operator⟩
  rw [made] at grown
  obtain ⟨asked, each, operator⟩ := grown.operator
  obtain ⟨added, slots⟩ := grown.slots
  refine ⟨asked, each, ?_⟩
  dsimp only at operator slots
  rw [operator]
  cases append with
  | false => rfl
  | true =>
    -- slots were only added behind the old ones, so what is cut off is what compiling added
    have kept : compiled.slots.take machine.slots.size = machine.slots := by
      rw [slots]
      simp
    rw [if_pos rfl, kept]

/-- A machine with a function and a command that is built, whose operator is there to be asked. -/
def asking : Machine Scripted Disabled :=
  let start := create (Sandbox.startingIn "/root") Command.standard {} default {}
  ((build ((Script.nodes "f() { echo b; }; echo a").headD default) false).run start).2

/-- The function anew, a loop that the operator is asked about, and then a word that has no
place. -/
def misplacing : Node :=
  .list (Script.nodes "f() { echo a; }\nfor i in $(f); do echo $i; done" ++
    [.word "stray" [] false ⟨0, 5⟩]) ⟨0, 5⟩

theorem build_withdrawn_misplacing :
    ∃ failure after asked, (build misplacing true).run asking = (.error failure, after) ∧
      after.operator.asked.size = 1 ∧ (∀ text ∈ asked, misplacing.AsksAbout text) ∧
      after = { asking with operator := Operator.itemsAsked asking.operator asked } := by
  obtain ⟨failure, failed⟩ := run_eq_of_not_isOk
    (by decide +kernel : ((build misplacing true).run asking).1.isOk = false)
  have questions : ((build misplacing true).run asking).2.operator.asked.size = 1 := by
    decide +kernel
  obtain ⟨asked, each, same⟩ := build_withdrawn failed
  exact ⟨failure, _, asked, failed, questions, each, same⟩

section
variable [Host η]

/-- The refusal cannot be told from what it left: the sandbox and what is pending are as before, and
once the limits are raised an inch goes on from it as it does from the machine before. -/
structure Unseen (machine after : Machine ω η) : Prop where
  sandbox : after.sandbox = machine.sandbox
  pending : after.pending = machine.pending
  resumes : ∀ limits : Limits, after.ticks < limits.actions →
    inch.run { after with limits } =
      ((inch.run { machine with limits }).1,
        (inch.run { machine with limits }).2.paced (after.ticks + 1) limits.actions)

/-- Where an action is executed, an inch does the same at every pace. -/
theorem inch_paced {action : Action} {rest : List Action} {ticks actions : Nat}
    (pending : machine.pending = action :: rest) (allowed : machine.ticks < machine.limits.actions)
    (also : ticks < actions) :
    inch.run (machine.paced ticks actions) =
      ((inch.run machine).1, (inch.run machine).2.paced (ticks + 1) actions) := by
  have hurried : inch.run (machine.paced ticks actions) =
      (let done := (execute action.operation).run
        (paced (ticks + 1) actions { machine with pending := rest, ticks := machine.ticks + 1 })
      (done.1.map fun _ => true, done.2.settle)) := inch_of_allowed pending also
  rw [hurried, execute_paced, inch_of_allowed pending allowed]
  dsimp only
  rw [paced_settle]

/-- An action that fails was taken away before, and nothing was put in its place. -/
theorem failed_pending {failure : Failure} (failed : inch.run machine = (.error failure, after))
    (allowed : machine.ticks < machine.limits.actions) :
    after.pending = machine.pending.tail ∧ machine.pending ≠ [] := by
  cases inched_of_eq failed with
  | refused _ spent => exact absurd allowed (Nat.not_lt.mpr spent)
  | @failed action rest _ after pending _ ran =>
    obtain ⟨first, middle, retains, left, empty⟩ := execute_retains action.operation
      { machine with pending := rest, ticks := machine.ticks + 1 }
    rw [ran] at left empty
    obtain rfl := empty (by simp [Except.isOk, Except.toBool])
    constructor
    · rw [(settle_frame after).1, pending]
      exact (congrArg Machine.pending left).trans retains.pending
    · rw [pending]
      exact List.cons_ne_nil action rest

/-- What the limit on actions leaves cannot be told from what was there. -/
theorem unseen_of_spent {failure : Failure} (failed : inch.run machine = (.error failure, after))
    (spent : machine.limits.actions ≤ machine.ticks) : Unseen machine after := by
  cases inched_of_eq failed with
  | @refused action rest pending _ =>
    refine ⟨rfl, rfl, fun limits allowed => ?_⟩
    have standing : Machine.pending { machine with limits } = action :: rest := pending
    exact inch_paced standing (Nat.lt_of_succ_lt allowed) allowed
  | failed _ allowed => exact absurd spent (Nat.not_le.mpr allowed)

/-- A refusal is unseen just where the limit on actions refuses. Where executing the action runs
into the limit on scopes or on loops, the action is lost. -/
theorem refused_unseen_iff {exceeded : ExceededLimit}
    (refused : inch.run machine = (.error (.limit exceeded), after)) :
    (Unseen machine after ↔ machine.limits.actions ≤ machine.ticks) ∧
      (machine.ticks < machine.limits.actions → after.pending = machine.pending.tail) := by
  refine ⟨⟨fun unseen => ?_, unseen_of_spent refused⟩,
    fun allowed => (failed_pending refused allowed).1⟩
  refine Nat.le_of_not_lt fun allowed => ?_
  obtain ⟨lost, nonempty⟩ := failed_pending refused allowed
  have shorter := congrArg List.length (unseen.pending.symm.trans lost)
  rw [List.length_tail] at shorter
  have longer := List.length_pos_iff.mpr nonempty
  omega

end

/-- The limit that a failure reports. -/
def exceeded? {α : Type} : Except Failure α → Option ExceededLimit
  | .error (.limit exceeded) => some exceeded
  | _ => none

theorem eq_of_exceeded? {α : Type} {result : Except Failure α} {exceeded : ExceededLimit}
    (reported : exceeded? result = some exceeded) : result = .error (.limit exceeded) := by
  unfold exceeded? at reported
  split at reported
  · cases reported
    rfl
  · cases reported

/-- Two actions of a loop that is built were executed, and no more are allowed. -/
theorem refused_unseen_counted :
    ∃ after, inch.run (looping.paced 2 2) = (.error (.limit (.actions 2)), after) ∧
      Unseen (looping.paced 2 2) after := by
  have refused : inch.run (looping.paced 2 2) =
      (.error (.limit (.actions 2)), (inch.run (looping.paced 2 2)).2) :=
    Prod.ext (eq_of_exceeded? (by decide +kernel)) rfl
  exact ⟨_, refused, (refused_unseen_iff refused).1.mpr (Nat.le_refl 2)⟩

/-- The next action of this machine chooses a body that defines a function and then has a loop over
more values than are allowed. -/
def choosing : Machine Absent Disabled :=
  let node := (Script.nodes "if c; then f() { echo a; }; for i in a b; do echo $i; done; fi").headD
    default
  let start := tight.withSandbox fun sandbox => sandbox.withTruth "c" true
  (inch.run (inch.run ((build node false).run start).2).2).2

/-- The limit on loops refuses the body. The action that chose it is lost, and the function
stays. -/
theorem refused_loop_seen :
    ∃ after, inch.run choosing = (.error (.limit (.loop 1)), after) ∧ ¬ Unseen choosing after ∧
      after.pending = choosing.pending.tail ∧ choosing.pending.length = 2 ∧
      after.sandbox.functions.contains "f" = true ∧
      choosing.sandbox.functions.contains "f" = false := by
  have refused : inch.run choosing = (.error (.limit (.loop 1)), (inch.run choosing).2) :=
    Prod.ext (eq_of_exceeded? (by decide +kernel)) rfl
  obtain ⟨two, allowed, missing, stays⟩ : choosing.pending.length = 2 ∧
      choosing.ticks < choosing.limits.actions ∧
      choosing.sandbox.functions.contains "f" = false ∧
      (inch.run choosing).2.sandbox.functions.contains "f" = true := by decide +kernel
  have lost := (failed_pending refused allowed).1
  refine ⟨_, refused, fun unseen => ?_, lost, two, stays, missing⟩
  have same := congrArg List.length (unseen.pending.symm.trans lost)
  rw [List.length_tail, two] at same
  cases same

end StepShell.Machine

import StepShell.Proofs.Machine.Runs

/-! The loop of inches that drains a machine, and the actions that it executes. Each of them counts
against the limit, so the loop ends, whatever the actions put before those that are pending. -/

namespace StepShell.Machine

variable {ω η : Type} [Operator ω] [Host η]

section
variable {machine after : Machine ω η} {action : Action} {rest : List Action}

theorem inch_of_ended (ended : machine.pending = []) : inch.run machine = (.ok false, machine) := by
  unfold inch
  rw [ExceptT.run_mk, ended]

/-- The limit on actions refuses the first action, which stays where it is. -/
theorem inch_of_spent (pending : machine.pending = action :: rest)
    (spent : machine.limits.actions ≤ machine.ticks) :
    inch.run machine = (.error (.limit (.actions machine.limits.actions)),
      { machine with ticks := machine.ticks + 1 }) := by
  have refused : machine.limits.tick machine.ticks =
      (.error (.actions machine.limits.actions), machine.ticks + 1) :=
    if_pos (Nat.lt_succ_of_le spent)
  unfold inch
  rw [ExceptT.run_mk, pending]
  dsimp only
  rw [refused, ← pending]

/-- Otherwise the first action is counted and executed. -/
theorem inch_of_allowed (pending : machine.pending = action :: rest)
    (allowed : machine.ticks < machine.limits.actions) :
    inch.run machine =
      (let done := (execute action.operation).run
        { machine with pending := rest, ticks := machine.ticks + 1 }
      (done.1.map fun _ => true, done.2.settle)) := by
  have counted : machine.limits.tick machine.ticks = (.ok (), machine.ticks + 1) :=
    if_neg (Nat.not_lt.mpr allowed)
  unfold inch
  rw [ExceptT.run_mk, pending]
  dsimp only
  rw [counted]
  rfl

/-- All that an inch can come to. -/
inductive Inched (machine : Machine ω η) : Except Failure Bool → Machine ω η → Prop where
  | idle (ended : machine.pending = []) : Inched machine (.ok false) machine
  /-- Too many were executed already. -/
  | refused {action : Action} {rest : List Action} (pending : machine.pending = action :: rest)
      (spent : machine.limits.actions ≤ machine.ticks) :
      Inched machine (.error (.limit (.actions machine.limits.actions)))
        { machine with ticks := machine.ticks + 1 }
  | executed {action : Action} {rest : List Action} {after : Machine ω η}
      (pending : machine.pending = action :: rest)
      (allowed : machine.ticks < machine.limits.actions)
      (ran : (execute action.operation).run
        { machine with pending := rest, ticks := machine.ticks + 1 } = (.ok (), after)) :
      Inched machine (.ok true) after.settle
  | failed {action : Action} {rest : List Action} {failure : Failure} {after : Machine ω η}
      (pending : machine.pending = action :: rest)
      (allowed : machine.ticks < machine.limits.actions)
      (ran : (execute action.operation).run
        { machine with pending := rest, ticks := machine.ticks + 1 } = (.error failure, after)) :
      Inched machine (.error failure) after.settle

theorem inch_inched (machine : Machine ω η) :
    Inched machine (inch.run machine).1 (inch.run machine).2 := by
  cases pending : machine.pending with
  | nil =>
    rw [inch_of_ended pending]
    exact .idle pending
  | cons action rest =>
    rcases Nat.lt_or_ge machine.ticks machine.limits.actions with allowed | spent
    · rw [inch_of_allowed pending allowed]
      dsimp only
      rcases ran : (execute action.operation).run
        { machine with pending := rest, ticks := machine.ticks + 1 } with ⟨failure | value, after⟩
      · exact .failed pending allowed ran
      · exact .executed pending allowed ran
    · rw [inch_of_spent pending spent]
      exact .refused pending spent

end

theorem inched_of_eq {machine after : Machine ω η} {result : Except Failure Bool}
    (inched : inch.run machine = (result, after)) : Inched machine result after := by
  have known := inch_inched machine
  rw [inched] at known
  exact known

section
omit [Operator ω] [Host η]
variable {machine : Machine ω η}

/-- The action that an inch executes, if there is one and it is not refused. -/
def executing? (machine : Machine ω η) : Option Action :=
  if machine.ticks < machine.limits.actions then machine.pending.head? else none

theorem executing?_of_allowed {action : Action} {rest : List Action}
    (pending : machine.pending = action :: rest) (allowed : machine.ticks < machine.limits.actions) :
    machine.executing? = some action := by
  rw [executing?, if_pos allowed, pending, List.head?_cons]

theorem executing?_of_ended (ended : machine.pending = []) : machine.executing? = none := by
  simp [executing?, ended]

theorem executing?_of_spent (spent : machine.limits.actions ≤ machine.ticks) :
    machine.executing? = none :=
  if_neg (Nat.not_lt.mpr spent)

end

/-- One inch after another executes these actions, up to an inch that fails or finds none. -/
inductive Loops : Machine ω η → List Action → Except Failure Unit → Machine ω η → Prop where
  | ends {machine after : Machine ω η} (inched : inch.run machine = (.ok false, after)) :
      Loops machine [] (.ok ()) after
  | fails {machine after : Machine ω η} {failure : Failure}
      (inched : inch.run machine = (.error failure, after)) :
      Loops machine machine.executing?.toList (.error failure) after
  | goes {machine middle after : Machine ω η} {executed : List Action}
      {result : Except Failure Unit} (inched : inch.run machine = (.ok true, middle))
      (later : Loops middle executed result after) :
      Loops machine (machine.executing?.toList ++ executed) result after

/-- Draining the machine executes these actions. -/
def Drains (machine : Machine ω η) (executed : List Action) : Prop :=
  Loops { machine with ticks := 0 } executed (drain.run machine).1 (drain.run machine).2

omit [Operator ω] [Host η] in
theorem executing?_length_le (machine : Machine ω η)
    (within : machine.ticks ≤ machine.limits.actions) :
    machine.ticks + machine.executing?.toList.length ≤ machine.limits.actions := by
  by_cases allowed : machine.ticks < machine.limits.actions
  · cases pending : machine.pending with
    | nil =>
      rw [executing?_of_ended pending]
      exact within
    | cons action rest =>
      rw [executing?_of_allowed pending allowed]
      exact allowed
  · rw [executing?_of_spent (Nat.le_of_not_lt allowed)]
    exact within

/-- So many inches that the limit would be passed come to the end of the loop. -/
theorem inches_loops {count : Nat} {machine : Machine ω η}
    (within : machine.ticks ≤ machine.limits.actions)
    (enough : machine.limits.actions < machine.ticks + count) :
    ∃ executed, Loops machine executed ((inches count).run machine).1
        ((inches count).run machine).2 ∧
      machine.ticks + executed.length ≤ machine.limits.actions := by
  -- an inch that goes through counts one more action and leaves one inch fewer, so the sum stays
  induction count generalizing machine with
  | zero => omega
  | succ count ih =>
    have bounded := executing?_length_le machine within
    rw [inches]
    rcases inched : inch.run machine with ⟨failure | more, middle⟩
    · rw [run_bind_of_error inched]
      exact ⟨_, .fails inched, bounded⟩
    · rw [run_bind_of_ok inched]
      cases inched_of_eq inched with
      | idle ended => exact ⟨[], .ends inched, within⟩
      | @executed action rest after pending allowed ran =>
        obtain ⟨_, limits, ticks, _⟩ := execute_frame ran
        obtain ⟨_, _, settledLimits, settledTicks⟩ := settle_frame after
        have sameLimits : after.settle.limits = machine.limits := settledLimits.trans limits
        have sameTicks : after.settle.ticks = machine.ticks + 1 := settledTicks.trans ticks
        have counted : after.settle.ticks ≤ after.settle.limits.actions := by
          rw [sameLimits, sameTicks]
          exact allowed
        have left : after.settle.limits.actions < after.settle.ticks + count := by
          rw [sameLimits, sameTicks]
          omega
        obtain ⟨executed, loops, later⟩ := ih counted left
        refine ⟨_, .goes inched loops, ?_⟩
        rw [executing?_of_allowed pending allowed]
        rw [sameLimits, sameTicks] at later
        simp only [Option.toList_some, List.length_append, List.length_singleton]
        omega

/-- Draining comes to an end, after no more actions than the limit allows. -/
theorem drain_loops (machine : Machine ω η) :
    ∃ executed, machine.Drains executed ∧ executed.length ≤ machine.limits.actions := by
  have within : Machine.ticks { machine with ticks := 0 } ≤ machine.limits.actions := Nat.zero_le _
  obtain ⟨executed, loops, bounded⟩ := inches_loops within
    (Nat.lt_of_lt_of_le (Nat.lt_succ_self _) (Nat.le_add_left _ _))
  refine ⟨executed, loops, ?_⟩
  rwa [Nat.zero_add] at bounded

end StepShell.Machine

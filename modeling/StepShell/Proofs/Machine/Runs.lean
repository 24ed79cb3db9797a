import StepShell.Machine.Run
import StepShell.Proofs.Machine.Twins

/-! Whole runs. A run executes the actions before some rest of what is pending, with all that they
put before it, and comes to an end where only the rest is left. -/

namespace StepShell.Machine

variable {ω η : Type} [Operator ω] [Host η]

/-- The run of what is pending before `rest` goes through without a failure. -/
inductive Runs (rest : List Action) : Machine ω η → Machine ω η → Prop where
  | done {machine : Machine ω η} (ended : machine.pending = rest) : Runs rest machine machine
  | inch {machine middle after : Machine ω η} {action : Action} {first : List Action}
      (left : machine.pending = action :: first ++ rest)
      (inched : Machine.inch.run machine = (.ok true, middle)) (later : Runs rest middle after) :
      Runs rest machine after

theorem Runs.pending {rest : List Action} {machine after : Machine ω η}
    (runs : Runs rest machine after) : after.pending = rest := by
  induction runs with
  | done ended => exact ended
  | inch _ _ _ ih => exact ih

/-- An inch executes the first action and counts it. -/
theorem inch_eq_ok {machine after : Machine ω η} {action : Action} {rest : List Action}
    {more : Bool}
    (pending : machine.pending = action :: rest)
    (done : inch.run machine = (.ok more, after)) :
    more = true ∧ machine.ticks + 1 ≤ machine.limits.actions ∧ ∃ executed,
      (execute action.operation).run { machine with pending := rest, ticks := machine.ticks + 1 } =
        (.ok (), executed) ∧ after = executed.settle := by
  unfold inch at done
  rw [ExceptT.run_mk] at done
  rw [pending] at done
  dsimp only at done
  unfold Limits.tick at done
  split at done
  · rename_i exceeded
    split at exceeded <;> cases exceeded
    cases done
  · rename_i within
    split at within
    · cases within
    · cases within
      rename_i allowed
      cases executed : (execute action.operation).run
        { machine with pending := rest, ticks := machine.ticks + 1 } with
      | mk result final =>
        rw [executed] at done
        cases result with
        | error failure => cases done
        | ok value =>
          cases done
          exact ⟨rfl, Nat.not_lt.mp allowed, final, rfl, rfl⟩

theorem inch_nil_eq_ok {machine after : Machine ω η} {more : Bool}
    (pending : machine.pending = []) (done : inch.run machine = (.ok more, after)) :
    more = false ∧ after = machine := by
  unfold inch at done
  rw [ExceptT.run_mk] at done
  rw [pending] at done
  cases done
  exact ⟨rfl, rfl⟩

/-- The machine is sound, and what is pending before `rest` closes the brackets that it stands in
since `outer`. -/
structure Inside (outer : Sandbox) (rest : List Action) (machine : Machine ω η) : Prop where
  sound : machine.Sound
  brackets : ∃ opened first, machine.pending = first ++ rest ∧ Closes opened first ∧
    Sandbox.Within outer opened machine.sandbox

omit [Host η] in
theorem withPending_sound {machine : Machine ω η} (sound : machine.Sound) (pending : List Action)
    (ticks : Nat) : Sound { machine with pending, ticks } :=
  ⟨sound.commands, sound.functions, sound.slots⟩

omit [Host η] in
/-- The counter says nothing about where a machine stands. -/
theorem Inside.withTicks {outer : Sandbox} {rest : List Action} {machine : Machine ω η}
    (inside : Inside outer rest machine) (ticks : Nat) :
    Inside outer rest { machine with ticks } :=
  ⟨withPending_sound inside.sound machine.pending ticks, inside.brackets⟩

omit [Host η] in
theorem settle_sound {machine : Machine ω η} (sound : machine.Sound) : machine.settle.Sound := by
  unfold settle
  split
  · exact ⟨sound.commands, sound.functions, .empty⟩
  · exact sound

omit [Operator ω] [Host η] in
theorem settle_frame (machine : Machine ω η) : machine.settle.pending = machine.pending ∧
    machine.settle.sandbox = machine.sandbox ∧ machine.settle.limits = machine.limits ∧
    machine.settle.ticks = machine.ticks := by
  unfold settle
  split <;> exact ⟨rfl, rfl, rfl, rfl⟩

omit [Operator ω] [Host η] in
theorem settle_commands (machine : Machine ω η) : machine.settle.commands = machine.commands := by
  unfold settle
  split <;> rfl

/-- No run changes the commands or the limits. -/
theorem Runs.stays {rest : List Action} {machine after : Machine ω η}
    (runs : Runs rest machine after) :
    after.commands = machine.commands ∧ after.limits = machine.limits := by
  induction runs with
  | done => exact ⟨rfl, rfl⟩
  | inch left inched _ ih =>
    obtain ⟨_, _, executed, done, rfl⟩ := inch_eq_ok left inched
    obtain ⟨commands, limits, _⟩ := execute_frame done
    exact ⟨ih.1.trans ((settle_commands executed).trans commands),
      ih.2.trans ((settle_frame executed).2.2.1.trans limits)⟩

/-- One action keeps the machine inside what it stands in. -/
theorem Inside.inch {outer : Sandbox} {rest : List Action} {machine after : Machine ω η}
    {more : Bool}
    (known : outer.functions.Sound) (inside : Inside outer rest machine)
    (left : machine.pending ≠ rest) (done : Machine.inch.run machine = (.ok more, after)) :
    more = true ∧ Inside outer rest after ∧ after.limits = machine.limits ∧
      after.ticks = machine.ticks + 1 ∧ machine.ticks + 1 ≤ machine.limits.actions := by
  obtain ⟨opened, first, pending, closes, within⟩ := inside.brackets
  cases first with
  | nil => exact absurd pending left
  | cons action first =>
    obtain ⟨rfl, allowed, executed, ran, rfl⟩ := inch_eq_ok pending done
    have started := withPending_sound inside.sound (first ++ rest) (machine.ticks + 1)
    have step := execute_moves started closes.sound ran
    obtain ⟨still, later, stands⟩ := within.moves known closes step.sandbox
    obtain ⟨put, added, block⟩ := step.pending
    have sound : executed.Sound :=
      ⟨step.commands.trans inside.sound.commands, stands.functions known, step.slots⟩
    obtain ⟨samePending, sameSandbox, sameLimits, sameTicks⟩ := settle_frame executed
    refine ⟨rfl, ⟨settle_sound sound, still, put ++ first, ?_, block _ _ later, ?_⟩, ?_, ?_,
      allowed⟩
    · rw [samePending, added, List.append_assoc]
    · rwa [sameSandbox]
    · exact sameLimits.trans step.limits
    · exact sameTicks.trans step.ticks

/-- A whole run leaves scopes and captures as they were and only adds to the screen. -/
theorem Runs.keeps {rest : List Action} {outer : Sandbox} {machine after : Machine ω η}
    (runs : Runs rest machine after) (known : outer.functions.Sound)
    (inside : Inside outer rest machine) : outer.Keeps after.sandbox ∧ after.Sound := by
  induction runs with
  | done ended =>
    obtain ⟨opened, first, pending, closes, within⟩ := inside.brackets
    rw [ended, List.self_eq_append_left] at pending
    subst pending
    cases closes
    cases within with
    | here keeps => exact ⟨keeps, inside.sound⟩
  | @inch machine middle after action first left inched later ih =>
    refine ih (inside.inch known ?_ inched).2.1
    rw [left, Ne, List.append_left_eq_self]
    exact List.cons_ne_nil action first

/-- A run that goes on for longer goes first through what is pending before that. -/
theorem Runs.split {first last rest : List Action} {machine after : Machine ω η}
    (runs : Runs rest machine after) (pending : machine.pending = first ++ (last ++ rest)) :
    ∃ middle, Runs (last ++ rest) machine middle ∧ Runs rest middle after := by
  induction runs generalizing first with
  | @done machine ended =>
    rw [ended, ← List.append_assoc, List.self_eq_append_left, List.append_eq_nil_iff] at pending
    refine ⟨machine, .done ?_, .done ended⟩
    rw [ended, pending.2, List.nil_append]
  | @inch machine middle after action tail left inched later ih =>
    cases first with
    | nil => exact ⟨machine, .done pending, .inch left inched later⟩
    | cons action first =>
      obtain ⟨_, _, executed, done, rfl⟩ := inch_eq_ok pending inched
      obtain ⟨_, _, _, put, added⟩ := execute_frame done
      have onward : executed.settle.pending = (put ++ first) ++ (last ++ rest) := by
        rw [(settle_frame executed).1, added, List.append_assoc]
        rfl
      obtain ⟨between, early, late⟩ := ih onward
      exact ⟨between, .inch pending inched early, late⟩

/-- A run goes on where another one came to its rest. -/
theorem Runs.trans {last rest : List Action} {machine middle after : Machine ω η}
    (early : Runs (last ++ rest) machine middle) (late : Runs rest middle after) :
    Runs rest machine after := by
  induction early with
  | done => exact late
  | inch left inched _ ih =>
    rw [← List.append_assoc] at left
    exact .inch left inched (ih late)

/-- When so many inches go through that the limit is passed, nothing is left. -/
theorem inches_runs {count : Nat} {machine after : Machine ω η} {value : Unit}
    (within : machine.ticks ≤ machine.limits.actions)
    (enough : machine.limits.actions < machine.ticks + count)
    (done : (inches count).run machine = (.ok value, after)) : Runs [] machine after := by
  induction count generalizing machine with
  | zero => omega
  | succ count ih =>
    obtain ⟨more, middle, inched, onward⟩ := run_bind_eq_ok.mp done
    cases pending : machine.pending with
    | nil =>
      obtain ⟨rfl, rfl⟩ := inch_nil_eq_ok pending inched
      obtain ⟨_, rfl⟩ := run_pure_eq_ok.mp onward
      exact .done pending
    | cons action first =>
      have left : machine.pending = action :: first ++ [] := by rw [pending, List.append_nil]
      obtain ⟨rfl, allowed, executed, ran, rfl⟩ := inch_eq_ok pending inched
      obtain ⟨_, sameLimits, sameTicks, _⟩ := execute_frame ran
      obtain ⟨_, _, limits, ticks⟩ := settle_frame executed
      refine .inch left inched (ih ?_ ?_ onward)
      · rw [ticks, limits, sameTicks, sameLimits]
        exact allowed
      · rw [ticks, limits, sameTicks, sameLimits]
        dsimp only
        omega

/-- A drain that succeeds has executed all that was pending. -/
theorem drain_runs {machine after : Machine ω η} {value : Unit}
    (done : drain.run machine = (.ok value, after)) :
    Runs [] { machine with ticks := 0 } after := by
  obtain ⟨_, started, reset, counting⟩ := run_bind_eq_ok.mp done
  obtain rfl := run_modify_eq_ok.mp reset
  obtain ⟨current, _, got, inched⟩ := run_bind_eq_ok.mp counting
  obtain ⟨rfl, rfl⟩ := run_get_eq_ok.mp got
  refine inches_runs (Nat.zero_le _) ?_ inched
  dsimp only
  omega

/-- A run that leaves nothing is what inches do, if there are so many that the limit would be
passed. -/
theorem Runs.inches {count : Nat} {machine after : Machine ω η} (runs : Runs [] machine after)
    (enough : machine.limits.actions < machine.ticks + count) :
    (Machine.inches count).run machine = (.ok (), after) := by
  induction runs generalizing count with
  | @done machine ended =>
    cases count with
    | zero => rfl
    | succ count =>
      have still : Machine.inch.run machine = (.ok false, machine) := by
        unfold Machine.inch
        rw [ExceptT.run_mk, ended]
      rw [Machine.inches, run_bind_of_ok still]
      rfl
  | @inch machine middle after action first left inched later ih =>
    obtain ⟨_, allowed, executed, ran, rfl⟩ := inch_eq_ok left inched
    obtain ⟨_, sameLimits, sameTicks, _⟩ := execute_frame ran
    obtain ⟨_, _, limits, ticks⟩ := settle_frame executed
    cases count with
    | zero => omega
    | succ count =>
      rw [Machine.inches, run_bind_of_ok inched]
      refine ih ?_
      rw [ticks, limits, sameTicks, sameLimits]
      dsimp only
      omega

/-- Draining comes to where a run comes that leaves nothing. -/
theorem Runs.drain {machine after : Machine ω η}
    (runs : Runs [] { machine with ticks := 0 } after) :
    Machine.drain.run machine = (.ok (), after) := by
  rw [Machine.drain, run_modify_bind, run_get_bind]
  refine runs.inches ?_
  dsimp only
  omega

end StepShell.Machine

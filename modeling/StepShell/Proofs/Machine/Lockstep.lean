import StepShell.Proofs.Machine.Symmetry

/-! Runs of two machines side by side. What an operation puts first it puts on both, so they go
through the same number of actions and come to their rests together. -/

namespace StepShell.Machine

variable {ω η : Type} [Operator ω] [Host η]

omit [Operator ω] [Host η] in
theorem settle_of_pending {machine : Machine ω η} (some : machine.pending ≠ []) :
    machine.settle = machine := by
  rw [settle, if_neg]
  rwa [List.isEmpty_iff]

/-- An invariant of two machines before one and the same operation holds after it. It may depend on
what is still to come before the rest, which it finds behind what the operation puts first. -/
structure Coupling (place : Nat → Nat)
    (holds : List Action → Machine ω η → Machine ω η → Prop) : Prop where
  /-- The rests and the counters are of no account. -/
  free : ∀ first machine twin pending others ticks count, holds first machine twin →
    holds first { machine with pending, ticks } { twin with pending := others, ticks := count }
  step : ∀ action first act second machine twin after later,
    holds (action :: first) machine twin → Follows place (action :: first) (act :: second) →
    (execute action.operation).run machine = (.ok (), after) →
    (execute act.operation).run twin = (.ok (), later) →
    ∃ put putting, after.pending = put ++ machine.pending ∧
      later.pending = putting ++ twin.pending ∧ Follows place put putting ∧
      holds (put ++ first) after later

/-- Two runs through actions that do the same end where the invariant still holds. -/
theorem Coupling.runs {place : Nat → Nat}
    {holds : List Action → Machine ω η → Machine ω η → Prop} (coupling : Coupling place holds)
    {rest behind : List Action} (some : rest ≠ []) (more : behind ≠ [])
    {machine after : Machine ω η} (runs : Runs rest machine after) {twin later : Machine ω η}
    (others : Runs behind twin later) {first second : List Action}
    (pending : machine.pending = first ++ rest) (twinPending : twin.pending = second ++ behind)
    (follows : Follows place first second) (start : holds first machine twin) :
    holds [] after later := by
  induction runs generalizing twin first second with
  | @done machine ended =>
    rw [ended, List.self_eq_append_left] at pending
    subst pending
    cases follows
    rw [others.ended twinPending]
    exact start
  | @inch machine middle after action tail left inched _ ih =>
    cases first with
    | nil =>
      rw [left, List.nil_append, List.append_left_eq_self] at pending
      cases pending
    | cons action first =>
      obtain ⟨act, second, rfl⟩ : ∃ act others, second = act :: others := by
        cases follows <;> exact ⟨_, _, rfl⟩
      obtain ⟨_, _, executed, done, rfl⟩ := inch_eq_ok pending inched
      obtain ⟨moved, doing, onward⟩ := others.first twinPending
      obtain ⟨put, putting, added, adding, ahead, kept⟩ := coupling.step _ _ _ _ _ _ _ _
        (coupling.free _ _ _ _ _ _ _ start) follows done doing
      have left : executed.pending = (put ++ first) ++ rest := by
        rw [added, List.append_assoc]
        rfl
      have twinLeft : moved.pending = (putting ++ second) ++ behind := by
        rw [adding, List.append_assoc]
      rw [settle_of_pending (by simp [left, some])] at ih
      rw [settle_of_pending (by simp [twinLeft, more])] at onward
      exact ih onward left twinLeft (ahead.append follows.tail) kept

/-- So many inches went through. -/
inductive Paces : Nat → Machine ω η → Machine ω η → Prop where
  | start {machine : Machine ω η} : Paces 0 machine machine
  | inch {count : Nat} {machine middle after : Machine ω η} {more : Bool}
      (inched : Machine.inch.run machine = (.ok more, middle)) (later : Paces count middle after) :
      Paces (count + 1) machine after

theorem Paces.through {count : Nat} {machine after : Machine ω η}
    (through : (Machine.inch.run machine).1.isOk = true)
    (later : Paces count (Machine.inch.run machine).2 after) : Paces (count + 1) machine after := by
  obtain ⟨more, done⟩ := exists_run_eq_of_isOk through
  exact .inch done later

/-- The invariant does not depend on slots that nothing names. -/
def Settles (holds : List Action → Machine ω η → Machine ω η → Prop) : Prop :=
  ∀ first machine twin, holds first machine twin →
    holds first { machine with slots := #[] } { twin with slots := #[] }

section
variable {place : Nat → Nat} {holds : List Action → Machine ω η → Machine ω η → Prop}
  {machine twin after later : Machine ω η}

omit [Operator ω] [Host η] in
/-- Slots that nothing names are dropped on both machines or on none. -/
theorem Settles.settle (settles : Settles holds) {first : List Action}
    (follows : Follows place machine.pending twin.pending) (start : holds first machine twin) :
    holds first machine.settle twin.settle := by
  unfold Machine.settle
  rw [follows.isEmpty]
  split
  · exact settles first machine twin start
  · exact start

theorem Coupling.inch (coupling : Coupling place holds) (settles : Settles holds)
    {more others : Bool} (start : holds machine.pending machine twin)
    (follows : Follows place machine.pending twin.pending)
    (inched : inch.run machine = (.ok more, after))
    (inching : inch.run twin = (.ok others, later)) :
    holds after.pending after later ∧ Follows place after.pending later.pending := by
  cases pending : machine.pending with
  | nil =>
    have idle : twin.pending = [] := by
      rw [← List.isEmpty_iff, follows.isEmpty, pending]
      rfl
    obtain ⟨_, rfl⟩ := inch_nil_eq_ok pending inched
    obtain ⟨_, rfl⟩ := inch_nil_eq_ok idle inching
    exact ⟨start, follows⟩
  | cons action rest =>
    rw [pending] at start follows
    obtain ⟨act, second, twinPending⟩ : ∃ act second, twin.pending = act :: second := by
      cases same : twin.pending with
      | nil =>
        rw [same] at follows
        cases follows
      | cons act second => exact ⟨act, second, rfl⟩
    rw [twinPending] at follows
    obtain ⟨_, _, executed, done, rfl⟩ := inch_eq_ok pending inched
    obtain ⟨_, _, moved, doing, rfl⟩ := inch_eq_ok twinPending inching
    obtain ⟨put, putting, added, adding, ahead, kept⟩ := coupling.step _ _ _ _ _ _ _ _
      (coupling.free _ _ _ rest second (machine.ticks + 1) (twin.ticks + 1) start) follows done
      doing
    have both : Follows place executed.pending moved.pending := by
      rw [added, adding]
      exact ahead.append follows.tail
    have held : holds executed.pending executed moved := by
      rw [added]
      exact kept
    rw [(settle_frame executed).1, (settle_frame moved).1]
    exact ⟨settles.settle both held, both⟩

/-- After as many inches of both machines the invariant still holds. -/
theorem Coupling.paces (coupling : Coupling place holds) (settles : Settles holds) {count : Nat}
    (start : holds machine.pending machine twin)
    (follows : Follows place machine.pending twin.pending) (paces : Paces count machine after)
    (others : Paces count twin later) :
    holds after.pending after later ∧ Follows place after.pending later.pending := by
  induction paces generalizing twin with
  | start =>
    cases others
    exact ⟨start, follows⟩
  | inch inched _ ih =>
    cases others with
    | inch inching other =>
      obtain ⟨held, ahead⟩ := coupling.inch settles start follows inched inching
      exact ih held ahead other

/-- Two runs to the end of all that is pending end where the invariant still holds. -/
theorem Coupling.whole (coupling : Coupling place holds) (settles : Settles holds)
    (start : holds machine.pending machine twin)
    (follows : Follows place machine.pending twin.pending) (runs : Runs [] machine after)
    (others : Runs [] twin later) : holds [] after later := by
  induction runs generalizing twin with
  | done ended =>
    rw [ended] at start follows
    rw [others.ended (List.isEmpty_iff.mp follows.isEmpty)]
    exact start
  | inch left inched _ ih =>
    cases others with
    | done ended =>
      have none := follows.isEmpty
      rw [left, ended] at none
      cases none
    | inch _ inching later =>
      obtain ⟨held, ahead⟩ := coupling.inch settles start follows inched inching
      exact ih held ahead later

/-- When both machines were drained the invariant still holds. -/
theorem Coupling.drain (coupling : Coupling place holds) (settles : Settles holds)
    {value other : Unit} (start : holds machine.pending machine twin)
    (follows : Follows place machine.pending twin.pending)
    (done : drain.run machine = (.ok value, after)) (doing : drain.run twin = (.ok other, later)) :
    holds [] after later :=
  coupling.whole settles (coupling.free _ _ _ machine.pending twin.pending 0 0 start) follows
    (drain_runs done) (drain_runs doing)

end

/-- Machines that agree in all that an operation looks at go on to agree. -/
theorem twins_coupling (link : Link) :
    Coupling link.place fun _ (machine twin : Machine ω η) => Twins link Eq machine twin where
  free _ _ _ _ _ _ _ twins :=
    ⟨twins.sandbox, twins.slots, twins.commands, twins.limits, twins.operator, twins.host⟩
  step action first act second machine twin after later twins follows done doing := by
    rw [follows.head] at doing
    obtain ⟨_, still, beside⟩ := execute_agrees twins Sandbox.additive_eq
      (Sandbox.carries_eq action.operation) (fun _ command _ => command.respects_eq) _ _ _ _ done
      doing
    obtain ⟨put, putting, added, adding, ahead⟩ := beside.pending
    exact ⟨put, putting, added, adding, ahead, still⟩

/-- After a run of both machines through actions that do the same, the machines still agree. -/
theorem Twins.runs {link : Link} {rest behind first second : List Action}
    {machine after twin later : Machine ω η} (twins : Twins link Eq machine twin)
    (some : rest ≠ []) (more : behind ≠ []) (runs : Runs rest machine after)
    (others : Runs behind twin later) (pending : machine.pending = first ++ rest)
    (twinPending : twin.pending = second ++ behind) (follows : Follows link.place first second) :
    Twins link Eq after later :=
  (twins_coupling link).runs some more runs others pending twinPending follows twins

end StepShell.Machine

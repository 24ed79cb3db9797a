import StepShell.Proofs.Machine.Discipline
import StepShell.Proofs.Machine.Loop
import StepShell.Proofs.Machine.Pace

/-! Stopping a run and going on with it. Where the limit on actions stops a drain, what is left is
what the run would have executed next, so a run in pieces comes to the same end as a run in one. -/

namespace StepShell.Machine

variable {ω η : Type} [Operator ω] [Host η]

/-- All that is pending goes through, these actions in this order. No count and no limit plays a
part in this. -/
inductive Completes : Machine ω η → List Action → Machine ω η → Prop where
  | nothing {machine : Machine ω η} (ended : machine.pending = []) : Completes machine [] machine
  | action {machine after final : Machine ω η} {action : Action} {rest left : List Action}
      (pending : machine.pending = action :: rest)
      (ran : (execute action.operation).run { machine with pending := rest } = (.ok (), after))
      (later : Completes after.settle left final) : Completes machine (action :: left) final

section
variable {machine after final : Machine ω η} {left : List Action}

theorem Completes.head (completes : Completes machine left final) :
    left.head? = machine.pending.head? := by
  cases completes with
  | nothing ended => rw [ended]
  | action pending => rw [pending, List.head?_cons, List.head?_cons]

theorem Completes.ended (completes : Completes machine left final) : final.pending = [] := by
  induction completes with
  | nothing ended => exact ended
  | action _ _ _ ih => exact ih

theorem Completes.of_nil (completes : Completes machine [] final) : final = machine := by
  cases completes
  rfl

/-- The same goes through at every pace. -/
theorem Completes.paced (completes : Completes machine left final) (ticks actions : Nat) :
    Completes (machine.paced ticks actions) left (final.paced ticks actions) := by
  induction completes with
  | nothing ended => exact .nothing ended
  | @action machine after final action rest left pending ran later ih =>
    have hurried := execute_paced action.operation { machine with pending := rest } ticks actions
    rw [ran] at hurried
    refine .action pending hurried ?_
    rw [paced_settle]
    exact ih

/-- A loop of inches that goes through executes what completes the run. -/
theorem Loops.completes {executed : List Action} {result : Except Failure Unit}
    (loops : Loops machine executed result after) (ok : result = .ok ()) :
    Completes machine executed (after.paced machine.ticks machine.limits.actions) := by
  induction loops with
  | ends inched =>
    cases inched_of_eq inched with
    | idle ended => exact .nothing ended
  | fails => cases ok
  | @goes machine middle after executed result inched later ih =>
    cases inched_of_eq inched with
    | @executed action rest after pending allowed ran =>
      rw [executing?_of_allowed pending allowed, Option.toList_some, List.singleton_append]
      have back := execute_paced action.operation
        { machine with pending := rest, ticks := machine.ticks + 1 }
        machine.ticks machine.limits.actions
      rw [ran] at back
      refine .action pending back ?_
      rw [paced_settle]
      exact (ih ok).paced machine.ticks machine.limits.actions

end

/-- Under this limit what is left goes through, and leads to this end but for the count. -/
structure Course (limit : Nat) (left : List Action) (final machine : Machine ω η) : Prop where
  allows : machine.limits.actions = limit
  completes : Completes machine left (final.paced machine.ticks limit)

section
variable {machine after final : Machine ω η} {left : List Action} {limit : Nat}

/-- The count does not matter. -/
theorem Course.withTicks (course : Course limit left final machine) (ticks : Nat) :
    Course limit left final { machine with ticks } := by
  obtain ⟨rfl, completes⟩ := course
  exact ⟨rfl, completes.paced ticks machine.limits.actions⟩

/-- An inch on its course executes what is next, unless nothing is left or it is refused. -/
theorem Course.inch {result : Except Failure Bool} (course : Course limit left final machine)
    (inched : Inched machine result after) :
    ∃ remaining, left = machine.executing?.toList ++ remaining ∧
      Course limit remaining final after ∧
      (result = .ok false ∧ remaining = [] ∨
        result = .error (.limit (.actions limit)) ∧ remaining ≠ [] ∧ limit ≤ machine.ticks ∨
        result = .ok true ∧ machine.executing?.toList.length = 1 ∧
          after.ticks = machine.ticks + 1) := by
  obtain ⟨rfl, completes⟩ := course
  have standing := completes
  generalize same : final.paced machine.ticks machine.limits.actions = last at completes
  cases completes with
  | nothing ended =>
    cases inched with
    | idle =>
      rw [executing?_of_ended ended]
      exact ⟨[], rfl, ⟨rfl, standing⟩, .inl ⟨rfl, rfl⟩⟩
    | refused pending | executed pending | failed pending =>
      rw [pending] at ended
      cases ended
  | @action _ done _ action rest left pending ran later =>
    subst same
    -- what an inch executes is what completes the run, only counted
    have counted := execute_paced action.operation { machine with pending := rest }
      (machine.ticks + 1) machine.limits.actions
    rw [ran] at counted
    cases inched with
    | idle ended =>
      rw [pending] at ended
      cases ended
    | refused _ spent =>
      rw [executing?_of_spent spent]
      exact ⟨action :: left, rfl, ⟨rfl, standing.paced _ _⟩,
        .inr (.inl ⟨rfl, List.cons_ne_nil _ _, spent⟩)⟩
    | executed also allowed executed =>
      rw [pending] at also
      cases also
      cases counted.symm.trans executed
      rw [executing?_of_allowed pending allowed, paced_settle]
      exact ⟨left, rfl, ⟨rfl, later.paced (machine.ticks + 1) machine.limits.actions⟩,
        .inr (.inr ⟨rfl, rfl, rfl⟩)⟩
    | failed also _ failed =>
      rw [pending] at also
      cases also
      cases counted.symm.trans failed

/-- A loop of inches on its course goes through, or it is stopped by the limit before the action
that is next. -/
theorem Course.loop {executed : List Action} {result : Except Failure Unit}
    (loops : Loops machine executed result after) (course : Course limit left final machine) :
    ∃ remaining, left = executed ++ remaining ∧ Course limit remaining final after ∧
      (result = .ok () ∧ remaining = [] ∨
        result = .error (.limit (.actions limit)) ∧ remaining ≠ [] ∧
          limit ≤ machine.ticks + executed.length) := by
  induction loops generalizing left with
  | ends inched =>
    cases inched_of_eq inched with
    | idle ended =>
      have through : left = [] := by
        rw [← List.head?_eq_none_iff, course.completes.head, ended, List.head?_nil]
      exact ⟨left, rfl, course, .inl ⟨rfl, through⟩⟩
  | fails inched =>
    obtain ⟨remaining, rfl, onward, outcome⟩ := course.inch (inched_of_eq inched)
    rcases outcome with ⟨wrong, _⟩ | ⟨refused, more, spent⟩ | ⟨wrong, _⟩
    · cases wrong
    · cases refused
      exact ⟨remaining, rfl, onward, .inr ⟨rfl, more, Nat.le_add_right_of_le spent⟩⟩
    · cases wrong
  | goes inched later ih =>
    obtain ⟨remaining, rfl, onward, outcome⟩ := course.inch (inched_of_eq inched)
    rcases outcome with ⟨wrong, _⟩ | ⟨wrong, _⟩ | ⟨_, one, counted⟩
    · cases wrong
    · cases wrong
    · obtain ⟨rest, rfl, arrived, outcome⟩ := ih onward
      refine ⟨rest, (List.append_assoc _ _ _).symm, arrived, ?_⟩
      rw [counted] at outcome
      rw [List.length_append, one, ← Nat.add_assoc]
      exact outcome

end

/-- A schedule of drains and inches: how many drains there were, which actions were executed, and
where the machine stands. -/
inductive Scheduled (start : Machine ω η) : Nat → List Action → Machine ω η → Prop where
  | start : Scheduled start 0 [] start
  | inched {drains : Nat} {executed : List Action} {paused : Machine ω η}
      (earlier : Scheduled start drains executed paused) :
      Scheduled start drains (executed ++ paused.executing?.toList) (inch.run paused).2
  | drained {drains : Nat} {executed more : List Action} {paused : Machine ω η}
      (earlier : Scheduled start drains executed paused) (draining : paused.Drains more) :
      Scheduled start (drains + 1) (executed ++ more) (drain.run paused).2

/-- How a paused machine goes on if the run in one piece executes the whole and comes to this
end. -/
structure Resumes (whole : List Action) (final : Machine ω η) (limit drains : Nat)
    (executed : List Action) (paused : Machine ω η) : Prop where
  /-- What was executed is the beginning of the whole, and what comes next in it is pending, also
  if it was refused before. -/
  next : ∃ left, whole = executed ++ left ∧ left.head? = paused.pending.head?
  inch_stopped : ∀ failure, (inch.run paused).1 = .error failure →
    failure = .limit (.actions limit)
  drain_stopped : ∀ failure, (drain.run paused).1 = .error failure →
    failure = .limit (.actions limit)
  /-- A drain that goes through executes the rest of the whole and comes to the same end. -/
  arrives : (drain.run paused).1 = .ok () →
    ∃ more, paused.Drains more ∧ whole = executed ++ more ∧
      (drain.run paused).2 = final.paced (drain.run paused).2.ticks limit
  /-- It goes through at the latest when the drains together may execute the whole. -/
  enough : whole.length ≤ (drains + 1) * limit → (drain.run paused).1 = .ok ()

section
variable {start paused final : Machine ω η} {limit drains : Nat} {executed whole : List Action}

/-- A schedule stays on the course of the whole, and each drain but one that went through executed
as much as it may. -/
theorem Scheduled.course (scheduled : Scheduled start drains executed paused)
    (course : Course limit whole final start) :
    ∃ left, whole = executed ++ left ∧ Course limit left final paused ∧
      (left = [] ∨ drains * limit ≤ executed.length) := by
  induction scheduled with
  | start => exact ⟨whole, rfl, course, .inr (by simp)⟩
  | @inched drains executed paused _ ih =>
    obtain ⟨left, rfl, onward, enough⟩ := ih
    obtain ⟨remaining, rfl, later, _⟩ := onward.inch (inch_inched paused)
    refine ⟨remaining, (List.append_assoc _ _ _).symm, later, ?_⟩
    rcases enough with through | enough
    · exact .inl (List.append_eq_nil_iff.mp through).2
    · rw [List.length_append]
      exact .inr (Nat.le_add_right_of_le enough)
  | @drained drains executed more paused _ draining ih =>
    obtain ⟨left, rfl, onward, enough⟩ := ih
    obtain ⟨remaining, rfl, later, outcome⟩ := (onward.withTicks 0).loop draining
    refine ⟨remaining, (List.append_assoc _ _ _).symm, later, ?_⟩
    rcases outcome with ⟨_, through⟩ | ⟨_, _, spent⟩
    · exact .inl through
    · rcases enough with through | enough
      · exact .inl (List.append_eq_nil_iff.mp through).2
      · right
        dsimp only at spent
        rw [List.length_append, Nat.add_mul]
        omega

/-- A machine on its course goes on as the run in one piece would have. -/
theorem Course.resumes {left : List Action} (course : Course limit left final paused)
    (same : whole = executed ++ left) (enough : left = [] ∨ drains * limit ≤ executed.length) :
    Resumes whole final limit drains executed paused := by
  obtain ⟨more, draining, _⟩ := drain_loops paused
  obtain ⟨remaining, rest, arrived, outcome⟩ := (course.withTicks 0).loop draining
  constructor
  case next => exact ⟨left, same, course.completes.head⟩
  case inch_stopped =>
    intro failure failed
    obtain ⟨_, _, _, outcome⟩ := course.inch (inch_inched paused)
    rw [failed] at outcome
    rcases outcome with ⟨wrong, _⟩ | ⟨refused, _⟩ | ⟨wrong, _⟩
    · cases wrong
    · cases refused
      rfl
    · cases wrong
  case drain_stopped =>
    intro failure failed
    rw [failed] at outcome
    rcases outcome with ⟨wrong, _⟩ | ⟨refused, _⟩
    · cases wrong
    · cases refused
      rfl
  case arrives =>
    intro through
    rcases outcome with ⟨_, rfl⟩ | ⟨stopped, _⟩
    · refine ⟨more, draining, ?_, arrived.completes.of_nil.symm⟩
      rw [same, rest, List.append_nil]
    · rw [through] at stopped
      cases stopped
  case enough =>
    intro within
    rcases outcome with ⟨through, _⟩ | ⟨_, unfinished, spent⟩
    · exact through
    · rcases enough with ended | enough
      · rw [ended] at rest
        exact absurd (List.append_eq_nil_iff.mp rest.symm).2 unfinished
      · have excess := List.length_pos_iff.mpr unfinished
        rw [same, rest, List.length_append, List.length_append, Nat.add_mul] at within
        dsimp only at spent
        omega

/-- Pausing never changes the result. However a schedule of drains under a limit, and inches between
them, cuts a run that goes through in one drain, the pieces execute the same actions in the same
order, and the last of them comes to the same end. -/
theorem pausing_resumes {machine : Machine ω η} {budget : Nat}
    (done : drain.run (machine.paced machine.ticks budget) = (.ok (), final)) (limit : Nat) :
    ∃ whole, (machine.paced machine.ticks budget).Drains whole ∧ final.pending = [] ∧
      ∀ drains executed paused,
        Scheduled (machine.paced machine.ticks limit) drains executed paused →
          Resumes whole final limit drains executed paused := by
  obtain ⟨whole, draining, _⟩ := drain_loops (machine.paced machine.ticks budget)
  refine ⟨whole, draining, ?_⟩
  have loops := draining
  unfold Drains at loops
  rw [done] at loops
  have completes := (loops.completes rfl).paced machine.ticks limit
  refine ⟨completes.ended, fun drains executed paused scheduled => ?_⟩
  have begun : Course limit whole final (machine.paced machine.ticks limit) := ⟨rfl, completes⟩
  obtain ⟨left, same, course, enough⟩ := scheduled.course begun
  exact course.resumes same enough

end

/-- A loop and a call of a function are built on a machine that stands within scopes. -/
def looping : Machine Absent Disabled :=
  ((build ((Script.nodes "for i in a b; do echo $i; done; f").headD default) false).run midway).2

/-- Two actions at a time: the first drain is stopped, an inch after it is refused, and the drain
after these goes on. -/
theorem pausing_resumes_looping :
    ∃ final whole executed paused,
      drain.run (looping.paced looping.ticks 100) = (.ok (), final) ∧
      (looping.paced looping.ticks 100).Drains whole ∧ final.pending = [] ∧
      (drain.run (looping.paced looping.ticks 2)).1.isOk = false ∧
      Scheduled (looping.paced looping.ticks 2) 2 executed paused ∧
      Resumes whole final 2 2 executed paused := by
  have done : drain.run (looping.paced looping.ticks 100) =
      (.ok (), (drain.run (looping.paced looping.ticks 100)).2) :=
    run_eq_of_isOk (by decide +kernel)
  have stopped : (drain.run (looping.paced looping.ticks 2)).1.isOk = false := by decide +kernel
  obtain ⟨first, early, _⟩ := drain_loops (looping.paced looping.ticks 2)
  obtain ⟨second, late, _⟩ :=
    drain_loops (inch.run (drain.run (looping.paced looping.ticks 2)).2).2
  have scheduled : Scheduled (looping.paced looping.ticks 2) 2 _ _ :=
    .drained (.inched (.drained .start early)) late
  obtain ⟨whole, drains, ended, resumes⟩ := pausing_resumes done 2
  exact ⟨_, whole, _, _, done, drains, ended, stopped, scheduled, resumes _ _ _ scheduled⟩

end StepShell.Machine

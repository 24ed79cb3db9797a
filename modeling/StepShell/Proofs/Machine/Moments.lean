import StepShell.Proofs.Machine.Loop
import StepShell.Proofs.Machine.Symmetry

/-! The moments of a run, counted in inches. Where the pending actions are of a few kinds that put
nothing or a block first, each of them comes to its turn at one moment only: what other actions put
before them ends with an action of none of these kinds. -/

namespace StepShell

/-- An action that puts nothing first. Every block that a condition or a clause puts ends with one
of these. -/
def Action.endsBlock (action : Action) : Bool :=
  match action.operation with
  | .flush | .endCapture => true
  | _ => false

namespace Machine

variable {ω η : Type} [Operator ω] [Host η]

/-- The machine after so many inches. -/
def inched (machine : Machine ω η) : Nat → Machine ω η
  | 0 => machine
  | count + 1 => (inch.run (inched machine count)).2

theorem inched_add (machine : Machine ω η) (first second : Nat) :
    machine.inched (first + second) = (machine.inched first).inched second := by
  induction second with
  | zero => rfl
  | succ second ih => exact congrArg (fun moment => (inch.run moment).2) ih

theorem inched_succ (machine : Machine ω η) (count : Nat) :
    machine.inched (count + 1) = (inch.run machine).2.inched count := by
  rw [Nat.add_comm]
  exact inched_add machine 1 count

theorem Runs.inched {rest : List Action} {machine after : Machine ω η}
    (runs : Runs rest machine after) : ∃ count, machine.inched count = after := by
  induction runs with
  | done => exact ⟨0, rfl⟩
  | inch _ done _ ih =>
    obtain ⟨count, reached⟩ := ih
    refine ⟨count + 1, ?_⟩
    rw [inched_succ, done]
    exact reached

/-- All that is pending runs through. -/
def Drainable (machine : Machine ω η) : Prop :=
  ∃ after, Runs [] machine after

theorem Drainable.inch {machine : Machine ω η} (drainable : Drainable machine) :
    Drainable (inch.run machine).2 := by
  obtain ⟨after, runs⟩ := drainable
  cases runs with
  | done ended =>
    rw [inch_of_ended ended]
    exact ⟨machine, .done ended⟩
  | inch _ done later =>
    rw [done]
    exact ⟨after, later⟩

theorem Drainable.inched {machine : Machine ω η} (drainable : Drainable machine) (count : Nat) :
    Drainable (machine.inched count) := by
  induction count with
  | zero => exact drainable
  | succ count ih => exact ih.inch

/-- What the action puts first, if anything, ends a block. -/
def PutsBlock (action : Action) : Prop :=
  ∀ machine after : Machine ω η, (execute action.operation).run machine = (.ok (), after) →
    after.pending = machine.pending ∨ ∃ first last,
      after.pending = first ++ last :: machine.pending ∧ last.endsBlock = true

/-- The last of the own actions are still pending, behind nothing or behind what ends a block. -/
def Trails (own : List Action) (machine : Machine ω η) : Prop :=
  ∃ ahead rest, machine.pending = ahead ++ rest ∧ rest <:+ own ∧
    (ahead = [] ∨ ∃ first last, ahead = first ++ [last] ∧ last.endsBlock = true)

section
variable {own : List Action} {machine : Machine ω η}

theorem endsBlock_still {action : Action} (ends : action.endsBlock = true)
    {before after : Machine ω η}
    (done : (execute action.operation).run before = (.ok (), after)) :
    after.pending = before.pending := by
  unfold Action.endsBlock at ends
  split at ends
  · rename_i flush
    rw [flush] at done
    rw [run_modify_eq_ok.mp done]
    rfl
  · rename_i release
    rw [release] at done
    rw [run_modify_eq_ok.mp done]
    rfl
  · cases ends

/-- An own action whose turn it is leaves the actions behind it. -/
theorem PutsBlock.trails {action : Action} {rest : List Action} (drainable : Drainable machine)
    (puts : PutsBlock (ω := ω) (η := η) action) (pending : machine.pending = action :: rest) :
    Trails rest (inch.run machine).2 := by
  obtain ⟨after, runs⟩ := drainable
  cases runs with
  | done ended =>
    rw [ended] at pending
    cases pending
  | inch _ done _ =>
    obtain ⟨_, _, executed, ran, rfl⟩ := inch_eq_ok pending done
    rw [done, Trails, (settle_frame executed).1]
    rcases puts _ _ ran with same | ⟨first, last, put, ends⟩
    · exact ⟨[], rest, same, List.suffix_refl _, .inl rfl⟩
    · exact ⟨first ++ [last], rest, by simp [put], List.suffix_refl _, .inr ⟨first, last, rfl, ends⟩⟩

theorem Trails.inch (trails : Trails own machine)
    (puts : ∀ action ∈ own, PutsBlock (ω := ω) (η := η) action) (drainable : Drainable machine) :
    Trails own (inch.run machine).2 := by
  obtain ⟨ahead, rest, pending, behind, blocks⟩ := trails
  obtain ⟨after, runs⟩ := drainable
  cases runs with
  | done ended =>
    rw [inch_of_ended ended]
    exact ⟨ahead, rest, pending, behind, blocks⟩
  | @inch _ _ _ action tail left done later =>
    rcases blocks with rfl | ⟨first, last, rfl, ends⟩
    · -- it is the turn of an own action
      rw [List.nil_append] at pending
      rw [List.append_nil, pending] at left
      rw [left] at behind pending
      obtain ⟨_, others, here, beyond, kept⟩ :=
        (puts action (behind.mem List.mem_cons_self)).trails ⟨after, .inch (by simpa using pending)
          done later⟩ pending
      exact ⟨_, others, here, beyond.trans ((List.suffix_cons _ _).trans behind), kept⟩
    · rw [done]
      cases first with
      | nil =>
        obtain ⟨_, _, executed, ran, rfl⟩ := inch_eq_ok pending done
        refine ⟨[], rest, ?_, behind, .inl rfl⟩
        rw [(settle_frame executed).1, endsBlock_still ends ran]
        rfl
      | cons head first =>
        obtain ⟨_, _, executed, ran, rfl⟩ := inch_eq_ok pending done
        obtain ⟨_, _, _, put, added⟩ := execute_frame ran
        refine ⟨put ++ first ++ [last], rest, ?_, behind, .inr ⟨put ++ first, last, rfl, ends⟩⟩
        rw [(settle_frame executed).1, added, List.append_assoc, List.append_assoc,
          ← List.append_assoc first]
        rfl

theorem Trails.inched (trails : Trails own machine)
    (puts : ∀ action ∈ own, PutsBlock (ω := ω) (η := η) action) (drainable : Drainable machine)
    (count : Nat) : Trails own (machine.inched count) := by
  induction count with
  | zero => exact trails
  | succ count ih => exact ih.inch puts (drainable.inched count)

/-- Each of the own actions comes to its turn once. -/
theorem turn_unique {action : Action} {rest : List Action} {first second : Nat}
    (drainable : Drainable machine)
    (puts : ∀ own ∈ action :: rest, PutsBlock (ω := ω) (η := η) own)
    (apart : ∀ own ∈ action :: rest, own.endsBlock = false)
    (here : (machine.inched first).pending = action :: rest)
    (again : (machine.inched second).pending = action :: rest) : first = second := by
  -- later on what is pending is shorter, or behind an action that ends a block
  have never : ∀ (start : Machine ω η) (count : Nat), Drainable start →
      start.pending = action :: rest → (start.inched (count + 1)).pending ≠ action :: rest := by
    intro start count draining pending later
    obtain ⟨putsHere, putsLater⟩ := List.forall_mem_cons.mp puts
    have trails := (putsHere.trails draining pending).inched putsLater draining.inch count
    rw [← inched_succ] at trails
    obtain ⟨ahead, others, split, behind, none | ⟨before, last, rfl, ends⟩⟩ := trails
    · rw [none, List.nil_append, later] at split
      have short := behind.length_le
      rw [← split, List.length_cons] at short
      omega
    · have member : last ∈ action :: rest := by
        rw [← later, split]
        simp
      rw [apart last member] at ends
      cases ends
  rcases Nat.lt_trichotomy first second with less | same | more
  · obtain ⟨count, rfl⟩ := Nat.exists_eq_add_of_lt less
    rw [Nat.add_assoc, inched_add] at again
    exact absurd again (never _ count (drainable.inched first) here)
  · exact same
  · obtain ⟨count, rfl⟩ := Nat.exists_eq_add_of_lt more
    rw [Nat.add_assoc, inched_add] at here
    exact absurd here (never _ count (drainable.inched second) again)

end

end Machine

end StepShell

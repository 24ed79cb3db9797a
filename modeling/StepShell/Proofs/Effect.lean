/-! Taking apart steps that read and write a state and may fail. -/

namespace StepShell

section
variable {ε σ α β : Type}

theorem except_bind_eq_ok {first : Except ε α} {next : α → Except ε β} {result : β} :
    first.bind next = .ok result ↔ ∃ value, first = .ok value ∧ next value = .ok result := by
  cases first <;> simp [Except.bind]

theorem eq_ok_of_toOption {result : Except ε α} {value : α} (given : result.toOption = some value) :
    result = .ok value := by
  cases result with
  | error => cases given
  | ok => exact congrArg _ (Option.some.inj given)

theorem mapError_eq_ok {ε' : Type} {result : Except ε α} {wrap : ε → ε'} {value : α} :
    result.mapError wrap = .ok value ↔ result = .ok value := by
  cases result <;> constructor <;> intro same <;> cases same <;> rfl

/-- A step that succeeds went through each of its parts. -/
theorem run_bind_eq_ok {first : ExceptT ε (StateM σ) α} {next : α → ExceptT ε (StateM σ) β}
    {before after : σ} {result : β} :
    (first >>= next).run before = (.ok result, after) ↔
      ∃ value middle, first.run before = (.ok value, middle) ∧
        (next value).run middle = (.ok result, after) := by
  change (ExceptT.run first >>= ExceptT.bindCont next) before = _ ↔ _
  change ExceptT.bindCont next (ExceptT.run first before).1 (ExceptT.run first before).2 = _ ↔ _
  rcases first.run before with ⟨failure | value, middle⟩
  · constructor
    · intro done
      cases done
    · rintro ⟨_, _, done, _⟩
      cases done
  · constructor
    · intro done
      exact ⟨value, middle, rfl, done⟩
    · rintro ⟨_, _, same, done⟩
      cases same
      exact done

theorem run_lift_eq_ok {result : Except ε α} {before after : σ} {value : α} :
    (liftM result : ExceptT ε (StateM σ) α).run before = (.ok value, after) ↔
      result = .ok value ∧ after = before := by
  change (result, before) = (.ok value, after) ↔ _
  simp [eq_comm]

theorem run_pure_eq_ok {before after : σ} {value result : α} :
    (pure value : ExceptT ε (StateM σ) α).run before = (.ok result, after) ↔
      result = value ∧ after = before := by
  change (Except.ok value, before) = (.ok result, after) ↔ _
  simp [eq_comm]

theorem run_get_eq_ok {before after result : σ} :
    (get : ExceptT ε (StateM σ) σ).run before = (.ok result, after) ↔
      result = before ∧ after = before := by
  change (Except.ok before, before) = (.ok result, after) ↔ _
  simp [eq_comm]

theorem run_get_bind {next : σ → ExceptT ε (StateM σ) α} {before : σ} :
    (get >>= next).run before = (next before).run before := rfl

theorem run_modify_bind {change : σ → σ} {next : PUnit → ExceptT ε (StateM σ) α} {before : σ} :
    (modify change >>= next).run before = (next ⟨⟩).run (change before) := rfl

theorem run_set_eq_ok {before state after : σ} {result : PUnit} :
    (set state : ExceptT ε (StateM σ) PUnit).run before = (.ok result, after) ↔ after = state := by
  change (Except.ok PUnit.unit, state) = (.ok result, after) ↔ _
  simp [eq_comm]

theorem run_modify_eq_ok {before after : σ} {change : σ → σ} {result : PUnit} :
    (modify change : ExceptT ε (StateM σ) PUnit).run before = (.ok result, after) ↔
      after = change before := by
  change (Except.ok PUnit.unit, change before) = (.ok result, after) ↔ _
  simp [eq_comm]

theorem run_throw_eq_ok {before after : σ} {failure : ε} {result : α} :
    ¬ (throw failure : ExceptT ε (StateM σ) α).run before = (.ok result, after) := by
  intro done
  cases done

theorem run_bind_of_ok {first : ExceptT ε (StateM σ) α} {next : α → ExceptT ε (StateM σ) β}
    {before middle : σ} {value : α} (made : first.run before = (.ok value, middle)) :
    (first >>= next).run before = (next value).run middle := by
  change ExceptT.bindCont next (ExceptT.run first before).1 (ExceptT.run first before).2 = _
  rw [made]
  rfl

theorem run_bind_of_error {first : ExceptT ε (StateM σ) α} {next : α → ExceptT ε (StateM σ) β}
    {before middle : σ} {failure : ε} (failed : first.run before = (.error failure, middle)) :
    (first >>= next).run before = (.error failure, middle) := by
  change ExceptT.bindCont next (ExceptT.run first before).1 (ExceptT.run first before).2 = _
  rw [failed]
  rfl

theorem exists_run_eq_of_isOk {step : ExceptT ε (StateM σ) α} {before : σ}
    (ok : (step.run before).1.isOk = true) :
    ∃ value, step.run before = (.ok value, (step.run before).2) := by
  cases result : (step.run before).1 with
  | error => simp [result, Except.isOk, Except.toBool] at ok
  | ok value => exact ⟨value, Prod.ext result rfl⟩

theorem run_eq_of_isOk {step : ExceptT ε (StateM σ) Unit} {before : σ}
    (ok : (step.run before).1.isOk = true) : step.run before = (.ok (), (step.run before).2) := by
  obtain ⟨_, done⟩ := exists_run_eq_of_isOk ok
  exact done

theorem exists_runs_of_isOk {first second : ExceptT ε (StateM σ) Unit} {before : σ}
    {holds : σ → σ → Prop}
    (ok : (first.run before).1.isOk = true ∧ (second.run before).1.isOk = true ∧
      holds (first.run before).2 (second.run before).2) :
    ∃ one other, first.run before = (.ok (), one) ∧ second.run before = (.ok (), other) ∧
      holds one other :=
  ⟨_, _, run_eq_of_isOk ok.1, run_eq_of_isOk ok.2.1, ok.2.2⟩

theorem run_eq_of_not_isOk {step : ExceptT ε (StateM σ) α} {before : σ}
    (failed : (step.run before).1.isOk = false) :
    ∃ failure, step.run before = (.error failure, (step.run before).2) := by
  cases result : (step.run before).1 with
  | error failure => exact ⟨failure, Prod.ext result rfl⟩
  | ok => simp [result, Except.isOk, Except.toBool] at failed

end

/-! What a step keeps in every outcome, and what it does alike from two states. -/

section
variable {ε σ α β : Type} {holds : σ → Prop} {before : σ}

/-- What holds before the step holds after it, whether it succeeds or fails. -/
def Preserves (holds : σ → Prop) (before : σ) (step : ExceptT ε (StateM σ) α) : Prop :=
  holds before → holds (step.run before).2

namespace Preserves

theorem bind {first : ExceptT ε (StateM σ) α} {next : α → ExceptT ε (StateM σ) β}
    (start : Preserves holds before first)
    (rest : ∀ value middle, first.run before = (.ok value, middle) →
      Preserves holds middle (next value)) : Preserves holds before (first >>= next) := by
  intro held
  have kept := start held
  rcases made : first.run before with ⟨failure | value, middle⟩
  · rw [made] at kept
    rw [run_bind_of_error made]
    exact kept
  · rw [made] at kept
    rw [run_bind_of_ok made]
    exact rest value middle made kept

theorem get {next : σ → ExceptT ε (StateM σ) α} (rest : Preserves holds before (next before)) :
    Preserves holds before (MonadState.get >>= next) :=
  rest

theorem still {step : ExceptT ε (StateM σ) α} (same : (step.run before).2 = before) :
    Preserves holds before step := by
  intro held
  rw [same]
  exact held

theorem pure {value : α} : Preserves holds before (pure value : ExceptT ε (StateM σ) α) :=
  .still rfl

theorem throw {failure : ε} : Preserves holds before (throw failure : ExceptT ε (StateM σ) α) :=
  .still rfl

theorem lift {result : Except ε α} :
    Preserves holds before (liftM result : ExceptT ε (StateM σ) α) :=
  .still rfl

theorem mapM {items : List β} {step : β → ExceptT ε (StateM σ) α}
    (each : ∀ item ∈ items, ∀ before, Preserves holds before (step item)) :
    Preserves holds before (items.mapM step) := by
  induction items generalizing before with
  | nil =>
    rw [List.mapM_nil]
    exact .pure
  | cons first rest ih =>
    obtain ⟨start, later⟩ := List.forall_mem_cons.mp each
    rw [List.mapM_cons]
    exact .bind (start before) fun _ _ _ => .bind (ih later) fun _ _ _ => .pure

theorem modify {change : σ → σ} (kept : holds before → holds (change before)) :
    Preserves holds before (modify change : ExceptT ε (StateM σ) PUnit) :=
  kept

theorem set {state : σ} (kept : holds before → holds state) :
    Preserves holds before (set state : ExceptT ε (StateM σ) PUnit) :=
  kept

end Preserves

/-- Wherever the step succeeds, this holds behind it. -/
def Attains (before : σ) (step : ExceptT ε (StateM σ) α) (holds : σ → Prop) : Prop :=
  ∀ value after, step.run before = (.ok value, after) → holds after

namespace Attains

variable {between : σ → Prop}

theorem bind {first : ExceptT ε (StateM σ) α} {next : α → ExceptT ε (StateM σ) β}
    (start : Attains before first between)
    (rest : ∀ value middle, between middle → Attains middle (next value) holds) :
    Attains before (first >>= next) holds := by
  intro value after done
  obtain ⟨given, middle, made, onward⟩ := run_bind_eq_ok.mp done
  exact rest given middle (start given middle made) value after onward

theorem get {next : σ → ExceptT ε (StateM σ) α} (rest : Attains before (next before) holds) :
    Attains before (MonadState.get >>= next) holds :=
  rest

theorem modify {change : σ → σ} {next : PUnit → ExceptT ε (StateM σ) α}
    (rest : Attains (change before) (next ⟨⟩) holds) :
    Attains before (modify change >>= next) holds :=
  rest

theorem pure {value : α} (here : holds before) :
    Attains before (pure value : ExceptT ε (StateM σ) α) holds := by
  rintro _ _ ⟨⟩
  exact here

end Attains

variable {image : σ → σ}

/-- From the image of a state the second step gives what the first one gives from the state, and
comes to the image of where that one comes to. -/
def Mirrors (image : σ → σ) (before : σ) (step twin : ExceptT ε (StateM σ) α) : Prop :=
  twin.run (image before) = ((step.run before).1, image (step.run before).2)

namespace Mirrors

theorem bind {first second : ExceptT ε (StateM σ) α} {next other : α → ExceptT ε (StateM σ) β}
    (start : Mirrors image before first second)
    (rest : ∀ value middle, first.run before = (.ok value, middle) →
      Mirrors image middle (next value) (other value)) :
    Mirrors image before (first >>= next) (second >>= other) := by
  unfold Mirrors at start ⊢
  rcases made : first.run before with ⟨failure | value, middle⟩
  · rw [made] at start
    rw [run_bind_of_error made, run_bind_of_error start]
  · rw [made] at start
    rw [run_bind_of_ok made, run_bind_of_ok start]
    exact rest value middle made

theorem get {next other : σ → ExceptT ε (StateM σ) α}
    (rest : Mirrors image before (next before) (other (image before))) :
    Mirrors image before (MonadState.get >>= next) (MonadState.get >>= other) :=
  rest

theorem pure {value : α} :
    Mirrors image before (pure value : ExceptT ε (StateM σ) α) (pure value) :=
  rfl

theorem throw {failure : ε} :
    Mirrors image before (throw failure : ExceptT ε (StateM σ) α) (throw failure) :=
  rfl

theorem lift {result : Except ε α} :
    Mirrors image before (liftM result : ExceptT ε (StateM σ) α) (liftM result) :=
  rfl

theorem modify {change : σ → σ} (same : change (image before) = image (change before)) :
    Mirrors image before (modify change : ExceptT ε (StateM σ) PUnit) (modify change) :=
  congrArg (Prod.mk _) same

theorem set {state twin : σ} (same : twin = image state) :
    Mirrors image before (set state : ExceptT ε (StateM σ) PUnit) (set twin) :=
  congrArg (Prod.mk _) same

end Mirrors

end

end StepShell

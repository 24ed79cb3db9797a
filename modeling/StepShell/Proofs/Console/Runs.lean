import StepShell.Console

/-! What requests do to a console, whatever the files are kept in, and what the lines of settings do
one after the other. -/

namespace StepShell

/-- The mode that an argument of `history` names. -/
def RecordingMode.parse? : String → Option RecordingMode
  | "on" => some .on
  | "off" => some .off
  | "toggle" => some .toggle
  | _ => none

namespace Console

variable {ω η α β : Type} {m : Type → Type} [Monad m]

theorem run_bind (step : ConsoleStep ω η m α) (next : α → ConsoleStep ω η m β)
    (console : Console ω η) :
    (step >>= next).run.run console =
      step.run.run console >>= fun result =>
        match result with
        | (.ok value, after) => (next value).run.run after
        | (.error error, after) => pure (.error error, after) := by
  refine bind_congr fun result => ?_
  obtain ⟨value | error, after⟩ := result <;> rfl

theorem run_tryCatch (step : ConsoleStep ω η m α)
    (handle : ConsoleError → ConsoleStep ω η m α) (console : Console ω η) :
    (tryCatch step handle).run.run console =
      step.run.run console >>= fun result =>
        match result with
        | (.ok value, after) => pure (.ok value, after)
        | (.error error, after) => (handle error).run.run after := by
  refine bind_congr fun result => ?_
  obtain ⟨value | error, after⟩ := result <;> rfl

theorem run_pure (value : α) (console : Console ω η) :
    (pure value : ConsoleStep ω η m α).run.run console = pure (.ok value, console) := rfl

variable [LawfulMonad m]

theorem recordingModes_cons (arg : String) (rest messages : List String) :
    (recordingModes (arg :: rest) messages : ConsoleStep ω η m Outcome) =
      match RecordingMode.parse? arg with
      | some mode => do
        let outcome ← telling (Session.changeRecording mode)
        recordingModes rest (messages ++ [outcome.message])
      | none =>
        return .usage ("Unknown history option: " ++ arg ++ ". Use on, off or toggle") := by
  by_cases on : arg = "on"
  · subst on
    exact pure_bind _ _
  by_cases off : arg = "off"
  · subst off
    exact pure_bind _ _
  by_cases toggle : arg = "toggle"
  · subst toggle
    exact pure_bind _ _
  have none : RecordingMode.parse? arg = none := by
    unfold RecordingMode.parse?
    split <;> first | contradiction | rfl
  rw [none, recordingModes]
  · exact on
  · exact off
  · exact toggle

theorem run_lift (step : m α) (console : Console ω η) :
    (liftM step : ConsoleStep ω η m α).run.run console =
      step >>= fun value => pure (.ok value, console) := by
  change (step >>= fun value => pure (value, console)) >>= _ = _
  rw [bind_assoc]
  exact bind_congr fun value => pure_bind _ _

theorem run_get (console : Console ω η) :
    (get : ConsoleStep ω η m (Console ω η)).run.run console = pure (.ok console, console) :=
  pure_bind _ _

theorem run_modify (change : Console ω η → Console ω η) (console : Console ω η) :
    (modify change : ConsoleStep ω η m Unit).run.run console = pure (.ok (), change console) :=
  pure_bind _ _

theorem run_telling (request : Session ω η → Outcome × Session ω η) (console : Console ω η) :
    (telling request : ConsoleStep ω η m Outcome).run.run console =
      pure (.ok (request console.session).1,
        { console with session := (request console.session).2 }) :=
  pure_bind _ _

theorem run_showing (request : Session ω η → Outcome) (console : Console ω η) :
    (showing request : ConsoleStep ω η m Outcome).run.run console =
      pure (.ok (request console.session), console) := by
  rw [showing, run_bind, run_get, pure_bind]
  rfl

variable [Operator ω] [Host η] [HostFiles m]

theorem read_request {aliases : Table String} {limit : Nat} {text : String} {line : Line}
    (parsed : Line.parse? text = some line) (known : requests.contains line.name) :
    read aliases limit text = .request line := by
  rw [read.eq_def, parsed]
  exact if_pos known

/-- A line that names a request carries it out. -/
theorem run_carryOut {text : String} {line : Line} (parsed : Line.parse? text = some line)
    (known : requests.contains line.name) (importing : String → ConsoleStep ω η m Unit)
    (console : Console ω η) :
    (carryOut importing text).run.run console = (request importing line).run.run console := by
  rw [carryOut, run_bind, run_get, pure_bind]
  simp only [read_request parsed known]

theorem importLines_append (importing : String → ConsoleStep ω η m Unit)
    (lines further : List String) :
    importLines importing (lines ++ further) =
      importLines importing lines >>= fun _ => importLines importing further := by
  induction lines with
  | nil =>
    rw [importLines, pure_bind]
    rfl
  | cons line lines ih => rw [List.cons_append, importLines, ih, importLines, bind_assoc]

/-- These lines are carried out one after the other, whatever console it is, and change the session
so. -/
def Carries (m : Type → Type) [Monad m] [HostFiles m] (lines : List String)
    (change : Session ω η → Session ω η) : Prop :=
  ∀ (importing : String → ConsoleStep ω η m Unit) (console : Console ω η),
    (importLines importing lines).run.run console =
      pure (.ok (), { console with session := change console.session })

namespace Carries

variable {lines further : List String} {change following : Session ω η → Session ω η}

/-- A line whose request changes the session so and cannot fail. -/
theorem one {text : String} {line : Line} (parsed : Line.parse? text = some line)
    (known : requests.contains line.name)
    (requested : ∀ (importing : String → ConsoleStep ω η m Unit) (console : Console ω η),
      ∃ outcome, (request importing line).run.run console =
        pure (.ok outcome, { console with session := change console.session })) :
    Carries m [text] change := by
  intro importing console
  obtain ⟨outcome, done⟩ := requested importing console
  rw [importLines, run_bind, run_tryCatch, run_carryOut parsed known, done, pure_bind, pure_bind]
  rfl

theorem append (first : Carries m lines change) (second : Carries m further following) :
    Carries m (lines ++ further) fun session => following (change session) := by
  intro importing console
  rw [importLines_append, run_bind, first importing console, pure_bind]
  exact second importing _

/-- What is left to carry out after some lines goes on from what they come to. -/
theorem next (carried : Carries m lines change) {before after : Session ω η}
    (changed : change before = after) (importing : String → ConsoleStep ω η m Unit)
    (console : Console ω η) :
    (importLines importing (lines ++ further)).run.run { console with session := before } =
      (importLines importing further).run.run { console with session := after } := by
  rw [importLines_append, run_bind, carried, pure_bind, changed]

/-- A line for each of some items. -/
theorem map {γ : Type} {items : List γ} {line : γ → String}
    {change : γ → Session ω η → Session ω η}
    (each : ∀ item ∈ items, Carries m [line item] (change item)) :
    Carries m (items.map line) fun session =>
      items.foldl (fun session item => change item session) session := by
  induction items with
  | nil => exact fun _ _ => rfl
  | cons item items ih =>
    obtain ⟨first, later⟩ := List.forall_mem_cons.mp each
    exact first.append (ih later)

end Carries

end Console

end StepShell

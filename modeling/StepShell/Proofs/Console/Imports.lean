import Mathlib.Data.List.Perm.Subperm
import Mathlib.Order.WellFounded
import StepShell.Console
import StepShell.Proofs.Console.Recreation

/-! When a line of the console comes to an end. A request asks for the import of one file at most,
and nothing but an import carries out further lines, so a line comes to an end unless imports stand
inside one another without end. The requests are made of simple steps: they ask and tell the
session, and read and write files. -/

namespace StepShell

namespace Console

variable {ω η α β : Type}

/-- This holds of the steps that requests are made of, and of what is made of such steps. Only those
tellings are meant that leave it whether the session records. -/
structure Pervades (holds : (α : Type) → ConsoleStep ω η (StateM Disk) α → Prop) : Prop where
  pure : ∀ {α : Type} (value : α), holds α (pure value)
  throw : ∀ {α : Type} (context : List String) (failure : Failure),
    holds α (throw (.failed context failure))
  lift : ∀ {α : Type} (step : StateM Disk α), holds α (liftM step)
  get : holds (Console ω η) get
  bind : ∀ {α β : Type} {step : ConsoleStep ω η (StateM Disk) α}
    {next : α → ConsoleStep ω η (StateM Disk) β}, holds α step →
    (∀ value, holds β (next value)) → holds β (step >>= next)
  telling : ∀ {request : Session ω η → Outcome × Session ω η},
    (∀ session, (request session).2.recording = session.recording) →
    holds Outcome (telling request)

namespace Pervades

variable {holds : (α : Type) → ConsoleStep ω η (StateM Disk) α → Prop}

theorem showing (pervades : Pervades holds) (request : Session ω η → Outcome) :
    holds Outcome (showing request) :=
  pervades.bind pervades.get fun _ => pervades.pure _

theorem pathOf (pervades : Pervades holds) (path : String) : holds String (pathOf path) :=
  pervades.bind pervades.get fun _ => pervades.pure _

theorem writeOrFail (pervades : Pervades holds) (path text doing : String) :
    holds Unit (writeOrFail path text doing) := by
  refine pervades.bind (pervades.lift _) fun written => ?_
  cases written with
  | true => exact pervades.pure ()
  | false => exact pervades.throw _ _

theorem readOrFail (pervades : Pervades holds) (path doing : String) :
    holds String (readOrFail path doing) := by
  refine pervades.bind (pervades.lift _) fun read => ?_
  cases read with
  | none => exact pervades.throw _ _
  | some text => exact pervades.pure text

theorem load (pervades : Pervades holds) (line : Line) : holds Outcome (load line) := by
  unfold Console.load
  split
  · exact pervades.pure _
  · refine pervades.bind (pervades.pathOf _) fun path => ?_
    refine pervades.bind (pervades.lift _) fun file => ?_
    split
    · refine pervades.telling fun session => ?_
      unfold Session.load
      split <;> rfl
    · exact pervades.pure _

theorem aliases (pervades : Pervades holds) (line : Line) : holds Outcome (aliases line) := by
  unfold Console.aliases
  split
  · exact pervades.showing _
  split
  · exact pervades.showing _
  have define (name text : String) : holds Outcome (if requests.contains name then
      return .usage ("Cannot alias the built-in command " ++ name)
      else Console.telling (Session.setAlias name text)) := by
    split
    · exact pervades.pure _
    · exact pervades.telling fun _ => rfl
  split
  · exact pervades.showing _
  · split
    · exact define _ _
    · exact pervades.pure _
  · exact define _ _

theorem truth (pervades : Pervades holds) (line : Line) : holds Outcome (truth line) := by
  unfold Console.truth
  refine pervades.bind (pervades.showing _) fun shown => ?_
  dsimp only
  split
  · exact pervades.pure _
  split
  · exact pervades.pure _
  · split
    · exact pervades.pure _
    · exact pervades.bind (pervades.telling fun _ => rfl) fun _ => pervades.pure _

theorem list (pervades : Pervades holds) (line : Line) : holds Outcome (list line) := by
  unfold Console.list
  split
  · exact pervades.showing _
  · exact pervades.pure _

theorem var (pervades : Pervades holds) (line : Line) : holds Outcome (var line) := by
  unfold Console.var
  split
  · exact pervades.telling fun _ => rfl
  · exact pervades.pure _

theorem fs (pervades : Pervades holds) (line : Line) : holds Outcome (fs line) := by
  unfold Console.fs
  split
  · exact pervades.telling fun _ => rfl
  · exact pervades.pure _

theorem screen (pervades : Pervades holds) (line : Line) : holds Outcome (screen line) := by
  refine pervades.bind (pervades.telling fun session => ?_) fun _ => pervades.pure _
  unfold Session.screen
  split <;> rfl

end Pervades

/-- What a step comes to, with the console and the disk after it. -/
def ran (step : ConsoleStep ω η (StateM Disk) α) (before : Console ω η × Disk) :
    Except ConsoleError α × Console ω η × Disk :=
  let done := (step.run.run before.1).run before.2
  (done.1.1, done.1.2, done.2)

/-- The step comes to an end, with an error or without one. -/
def Finishes (step : ConsoleStep ω η (StateM Disk) α) (before : Console ω η × Disk) : Prop :=
  (ran step before).1 ≠ .error .endless

def Ends (step : ConsoleStep ω η (StateM Disk) α) : Prop :=
  ∀ before, Finishes step before

section
variable {step : ConsoleStep ω η (StateM Disk) α}
  {next : α → ConsoleStep ω η (StateM Disk) β} {before : Console ω η × Disk}

theorem ran_bind : ran (step >>= next) before =
    match ran step before with
    | (.ok value, after) => ran (next value) after
    | (.error error, after) => (.error error, after) := by
  unfold ran
  rw [run_bind, StateT.run_bind]
  rcases (step.run.run before.1).run before.2 with ⟨⟨value | error, console⟩, disk⟩ <;> rfl

theorem ran_tryCatch {handle : ConsoleError → ConsoleStep ω η (StateM Disk) α} :
    ran (tryCatch step handle) before =
      match ran step before with
      | (.ok value, after) => (.ok value, after)
      | (.error error, after) => ran (handle error) after := by
  unfold ran
  rw [run_tryCatch, StateT.run_bind]
  rcases (step.run.run before.1).run before.2 with ⟨⟨value | error, console⟩, disk⟩ <;> rfl

theorem finishes_bind : Finishes (step >>= next) before ↔
    Finishes step before ∧
      ∀ value after, ran step before = (.ok value, after) → Finishes (next value) after := by
  unfold Finishes
  rw [ran_bind]
  rcases ran step before with ⟨error | value, after⟩
  · simp
  · constructor
    · refine fun ends => ⟨nofun, ?_⟩
      rintro _ _ ⟨⟩
      exact ends
    · exact fun ends => ends.2 _ _ rfl

theorem Ends.bind (ends : Ends step) (goes : ∀ value, Ends (next value)) :
    Ends (step >>= next) :=
  fun before => finishes_bind.mpr ⟨ends before, fun value after _ => goes value after⟩

end

namespace Ends

theorem pure (value : α) : Ends (pure value : ConsoleStep ω η (StateM Disk) α) :=
  fun _ => nofun

theorem throw (context : List String) (failure : Failure) :
    Ends (throw (.failed context failure) : ConsoleStep ω η (StateM Disk) α) :=
  fun _ => nofun

theorem lift (step : StateM Disk α) : Ends (liftM step : ConsoleStep ω η (StateM Disk) α) :=
  fun _ => nofun

theorem get : Ends (get : ConsoleStep ω η (StateM Disk) (Console ω η)) :=
  fun _ => nofun

theorem modify (change : Console ω η → Console ω η) :
    Ends (modify change : ConsoleStep ω η (StateM Disk) Unit) :=
  fun _ => nofun

theorem telling (request : Session ω η → Outcome × Session ω η) :
    Ends (telling request : ConsoleStep ω η (StateM Disk) Outcome) :=
  fun _ => nofun

theorem stepping (request : SessionStep ω η Outcome) :
    Ends (stepping request : ConsoleStep ω η (StateM Disk) Outcome) := by
  refine get.bind fun console => .bind (fun _ => nofun) fun _ => ?_
  split
  · exact .pure _
  · exact .throw _ _

theorem pervades : Pervades fun α => @Ends ω η α where
  pure := pure
  throw := throw
  lift := lift
  get := get
  bind := Ends.bind
  telling _ := telling _

end Ends

theorem ends_recordingModes (args messages : List String) :
    Ends (recordingModes args messages : ConsoleStep ω η (StateM Disk) Outcome) := by
  induction args generalizing messages with
  | nil => exact .pure _
  | cons arg rest ih =>
    rw [recordingModes_cons]
    cases RecordingMode.parse? arg with
    | some mode => exact (Ends.telling _).bind fun _ => ih _
    | none => exact .pure _

theorem ends_json (line : Line) : Ends (json line : ConsoleStep ω η (StateM Disk) Outcome) := by
  unfold json
  split
  · refine (Ends.pervades.pathOf _).bind fun path => ?_
    split
    · exact .bind .get fun console => (Ends.pervades.writeOrFail _ _ _).bind fun _ => .pure _
    split
    · exact (Ends.pervades.readOrFail _ _).bind fun _ => .stepping _
    · exact .pure _
  · exact .pure _

/-- A file that is to be imported, with the console and the disk at that time. -/
structure Import (ω η : Type) where
  path : String
  console : Console ω η
  disk : Disk

/-- What depends on how files are imported. -/
abbrev Importing (ω η α : Type) :=
  (String → ConsoleStep ω η (StateM Disk) Unit) → ConsoleStep ω η (StateM Disk) α

/-- However files are imported, this comes to the same end. -/
def Rests (doing : Importing ω η α) (before : Console ω η × Disk) : Prop :=
  ∃ result, result.1 ≠ .error .endless ∧ ∀ importing, ran (doing importing) before = result

/-- However files are imported, this comes to the import of a file, and goes on from it. -/
def Asks (doing : Importing ω η α) (before : Console ω η × Disk) (wanted : Import ω η) : Prop :=
  ∃ next : ConsoleStep ω η (StateM Disk) α, Ends next ∧ ∀ importing,
    ran (doing importing) before =
      ran (importing wanted.path >>= fun _ => next) (wanted.console, wanted.disk)

/-- At most one file is imported. -/
def Wants (doing : Importing ω η α) : Prop :=
  ∀ before, Rests doing before ∨ ∃ wanted, Asks doing before wanted

namespace Wants

variable {step : ConsoleStep ω η (StateM Disk) α} {doing : Importing ω η α}

theorem of_ends (ends : Ends step) : Wants fun _ => step :=
  fun before => .inl ⟨_, ends before, fun _ => rfl⟩

theorem bind {later : α → Importing ω η β} (ends : Ends step)
    (goes : ∀ value, Wants (later value)) :
    Wants fun importing => step >>= fun value => later value importing := by
  intro before
  have first := ends before
  rcases same : ran step before with ⟨error | value, after⟩
  · rw [Finishes, same] at first
    refine .inl ⟨(.error error, after), ?_, fun importing => by rw [ran_bind, same]⟩
    rintro ⟨⟩
    exact first rfl
  · rcases goes value after with ⟨result, ends, rests⟩ | ⟨wanted, next, ends, asks⟩
    · exact .inl ⟨result, ends, fun importing => by rw [ran_bind, same]; exact rests importing⟩
    · exact .inr ⟨wanted, next, ends, fun importing => by rw [ran_bind, same]; exact asks importing⟩

theorem behind {next : α → ConsoleStep ω η (StateM Disk) β} (wants : Wants doing)
    (ends : ∀ value, Ends (next value)) : Wants fun importing => doing importing >>= next := by
  intro before
  rcases wants before with ⟨result, ended, rests⟩ | ⟨wanted, further, ended, asks⟩
  · obtain ⟨error | value, after⟩ := result
    · refine .inl ⟨(.error error, after), ?_, fun importing => by rw [ran_bind, rests]⟩
      rintro ⟨⟩
      exact ended rfl
    · exact .inl ⟨_, ends value after, fun importing => by rw [ran_bind, rests]⟩
  · refine .inr ⟨wanted, further >>= next, ended.bind ends, fun importing => ?_⟩
    rw [← bind_assoc, ran_bind, ran_bind, asks]

theorem settings : Wants (importSettings : Importing ω η Unit) := by
  refine bind .get fun console => ?_
  cases console.config with
  | none => exact of_ends (.pure ())
  | some path =>
    refine fun before =>
      .inr ⟨⟨path, before.1, before.2⟩, Pure.pure (), .pure (), fun importing => ?_⟩
    rw [bind_pure_unit]

theorem file (path : String) {next : ConsoleStep ω η (StateM Disk) α} (ends : Ends next) :
    Wants fun importing => importing path >>= fun _ => next :=
  fun before => .inr ⟨⟨path, before.1, before.2⟩, next, ends, fun _ => rfl⟩

theorem ite {c : Prop} [Decidable c] {yes no : Importing ω η α} (here : c → Wants yes)
    (there : ¬c → Wants no) : Wants fun importing => if c then yes importing else no importing := by
  by_cases holds : c
  · simpa only [if_pos holds] using here holds
  · simpa only [if_neg holds] using there holds

theorem history (line : Line) :
    Wants (fun importing => history importing line : Importing ω η Outcome) := by
  have goes (shown : List String) : Wants (fun importing => if line.has 'r' then do
        let outcome ← telling Session.forgetHistory
        importSettings importing
        let emptied ← pure [outcome.message]
        recordingModes line.args (shown ++ emptied)
      else do
        let emptied ← pure []
        recordingModes line.args (shown ++ emptied) : Importing ω η Outcome) := by
    refine ite (fun _ => ?_) fun _ => of_ends ((Ends.pure _).bind fun _ => ends_recordingModes _ _)
    refine bind (.telling _) fun _ => settings.behind fun _ => ?_
    exact (Ends.pure _).bind fun _ => ends_recordingModes _ _
  refine ite (fun _ => ?_) fun _ => bind (.pure _) goes
  exact bind (Ends.pervades.showing _) fun _ => bind (.pure _) goes

theorem undo : Wants (undo : Importing ω η Outcome) := by
  refine bind .get fun console => bind (.telling _) fun outcome => ?_
  exact ite (fun _ => settings.behind fun _ => .pure _) fun _ => of_ends (.pure _)

theorem reset : Wants (reset : Importing ω η Outcome) :=
  bind (.telling _) fun _ => settings.behind fun _ => .pure _

theorem env (line : Line) :
    Wants (fun importing => env importing line : Importing ω η Outcome) := by
  refine ite (fun _ => of_ends ?_) fun _ => ite (fun _ => of_ends (.pure _)) fun _ => ?_
  · refine (Ends.pervades.pathOf _).bind fun path => .bind .get fun console => ?_
    exact (Ends.pervades.writeOrFail _ _ _).bind fun _ => .pure _
  · refine bind (Ends.pervades.pathOf _) fun path => ite (fun _ => file path (.pure _)) fun _ => ?_
    exact bind (.telling _) fun _ => bind (.modify _) fun _ => file path (.pure _)

variable [Operator ω] [Host η]

theorem request (line : Line) :
    Wants (fun importing => request importing line : Importing ω η Outcome) := by
  unfold Console.request
  split
  · exact of_ends (Ends.pervades.load _)
  · exact of_ends (.stepping _)
  · exact undo
  · exact of_ends (.telling _)
  · exact of_ends (.telling _)
  · exact of_ends (.stepping _)
  · exact of_ends (.stepping _)
  · exact of_ends (.stepping _)
  · exact of_ends (Ends.pervades.showing _)
  · exact of_ends (Ends.pervades.showing _)
  · exact of_ends (.telling _)
  · exact of_ends (.telling _)
  · exact of_ends (.telling _)
  · exact of_ends (.telling _)
  · exact of_ends (Ends.pervades.var _)
  · exact of_ends (Ends.pervades.fs _)
  · exact of_ends (Ends.pervades.showing _)
  · exact of_ends (.pure _)
  · exact history _
  · exact of_ends ((Ends.modify _).bind fun _ => .pure _)
  · exact of_ends ((Ends.modify _).bind fun _ => .pure _)
  · exact env _
  · exact of_ends (ends_json _)
  · exact of_ends (Ends.pervades.truth _)
  · exact of_ends (Ends.pervades.list _)
  · exact of_ends (.pure _)
  · exact of_ends (Ends.pervades.aliases _)
  · exact reset
  · exact of_ends (Ends.pervades.screen _)
  · exact of_ends (.pure _)
  · exact of_ends (.pure _)

theorem carryOut (text : String) :
    Wants (fun importing => carryOut importing text : Importing ω η Outcome) := by
  refine bind .get fun console => ?_
  cases read console.session.aliases aliasLimit text with
  | blank => exact of_ends (.pure _)
  | unknown => exact of_ends (.pure _)
  | aliasLoop => exact of_ends (.pure _)
  | request line => exact request line

end Wants

/-- The second way to import files comes to the same where the first comes to an end. -/
def Extends (first second : String → ConsoleStep ω η (StateM Disk) Unit) : Prop :=
  ∀ path before, Finishes (first path) before → ran (second path) before = ran (first path) before

theorem Extends.doing {first second : String → ConsoleStep ω η (StateM Disk) Unit}
    {before : Console ω η × Disk} {doing : Importing ω η α} (wants : Wants doing)
    (further : Extends first second) (ends : Finishes (doing first) before) :
    ran (doing second) before = ran (doing first) before := by
  rcases wants before with ⟨result, -, rests⟩ | ⟨wanted, next, -, asks⟩
  · rw [rests, rests]
  · rw [Finishes, asks] at ends
    rw [asks, asks, ran_bind, ran_bind, further _ _ (finishes_bind.mp ends).1]

variable [Operator ω] [Host η]

theorem ran_importLines_cons (importing : String → ConsoleStep ω η (StateM Disk) Unit)
    (line : String) (rest : List String) (before : Console ω η × Disk) :
    ran (importLines importing (line :: rest)) before =
      match ran (carryOut importing line) before with
      | (.ok _, after) => ran (importLines importing rest) after
      | (.error error, after) =>
        (.error (error.during ("config line failed: " ++ line)), after) := by
  rw [importLines, ran_bind, ran_tryCatch]
  rcases ran (carryOut importing line) before with ⟨error | outcome, after⟩ <;> rfl

theorem finishes_importLines_cons {importing : String → ConsoleStep ω η (StateM Disk) Unit}
    {line : String} {rest : List String} {before : Console ω η × Disk} :
    Finishes (importLines importing (line :: rest)) before ↔
      Finishes (carryOut importing line) before ∧
        ∀ outcome after, ran (carryOut importing line) before = (.ok outcome, after) →
          Finishes (importLines importing rest) after := by
  unfold Finishes
  rw [ran_importLines_cons]
  rcases ran (carryOut importing line) before with ⟨error | value, after⟩
  · cases error <;> simp [ConsoleError.during]
  · constructor
    · refine fun ends => ⟨nofun, ?_⟩
      rintro _ _ ⟨⟩
      exact ends
    · exact fun ends => ends.2 _ _ rfl

/-- The console while it imports a file. -/
def whileImporting (console : Console ω η) : Console ω η :=
  { console with session := { console.session with recording := false } }

/-- The console when the lines of a file are imported: it records again as it did before, unless
they say whether it does. -/
def whenImported (lines : List String) (before after : Console ω η) : Console ω η :=
  if lines.any setsHistory then after
  else { after with session := { after.session with recording := before.session.recording } }

/-- An import comes to what the lines of the file come to; a file that is missing is left alone. -/
theorem ran_importFile (depth : Nat) (path : String) (before : Console ω η × Disk) :
    ran (importFile (depth + 1) path) before =
      match before.2.read? path with
      | none => (.ok (), before)
      | some text =>
        let done := ran (importLines (importFile depth) (Text.lines text))
          (whileImporting before.1, before.2)
        (done.1, whenImported (Text.lines text) before.1 done.2.1, done.2.2) := by
  have there : ran (liftM (HostFiles.isFile path : StateM Disk Bool) :
      ConsoleStep ω η (StateM Disk) Bool) before = (.ok (before.2.read? path).isSome, before) := rfl
  have held : ran (liftM (HostFiles.read path : StateM Disk (Option String)) :
      ConsoleStep ω η (StateM Disk) (Option String)) before = (.ok (before.2.read? path), before) :=
    rfl
  rw [importFile, ran_bind, there]
  cases found : before.2.read? path with
  | none => rfl
  | some text =>
    rw [found] at held
    dsimp only
    have read : ran (readOrFail path "Failed to read config: " :
        ConsoleStep ω η (StateM Disk) String) before = (.ok text, before) := by
      rw [readOrFail, ran_bind, held]
      rfl
    rw [Option.isSome_some, Bool.not_true, if_neg Bool.false_ne_true, ran_bind, read]
    dsimp only
    rw [ran_bind]
    change ran (setRecording false >>= _) before = _
    rw [ran_bind]
    change ran (tryCatch _ _ >>= _) (whileImporting before.1, before.2) = _
    rw [ran_bind, ran_tryCatch, ran_bind, whenImported]
    rcases ran (importLines (importFile depth) (Text.lines text))
      (whileImporting before.1, before.2) with ⟨error | _, after⟩ <;>
      cases (Text.lines text).any setsHistory <;> rfl

namespace Extends

variable {first second : String → ConsoleStep ω η (StateM Disk) Unit}
  {before : Console ω η × Disk}

theorem lines (further : Extends first second) {lines : List String}
    (ends : Finishes (importLines first lines) before) :
    ran (importLines second lines) before = ran (importLines first lines) before := by
  induction lines generalizing before with
  | nil => rfl
  | cons line rest ih =>
    obtain ⟨here, later⟩ := finishes_importLines_cons.mp ends
    rw [ran_importLines_cons, ran_importLines_cons, further.doing (.carryOut line) here]
    rcases same : ran (carryOut first line) before with ⟨error | outcome, after⟩
    · rfl
    · exact ih (later _ _ same)

end Extends

theorem finishes_importFile {depth : Nat} {path : String} {before : Console ω η × Disk} :
    Finishes (importFile (depth + 1) path) before ↔
      ∀ text, before.2.read? path = some text →
        Finishes (importLines (importFile depth) (Text.lines text))
          (whileImporting before.1, before.2) := by
  rw [Finishes, ran_importFile]
  cases before.2.read? path with
  | none => exact ⟨fun _ => nofun, fun _ => nofun⟩
  | some text =>
    constructor
    · rintro ends _ ⟨⟩
      exact ends
    · exact fun ends => ends text rfl

/-- More imports inside one another change nothing where fewer come to an end. -/
theorem importFile_extends (depth more : Nat) :
    Extends (importFile depth : String → ConsoleStep ω η (StateM Disk) Unit)
      (importFile (depth + more)) := by
  induction depth with
  | zero => exact fun path before ends => absurd rfl ends
  | succ depth ih =>
    intro path before ends
    rw [Nat.add_right_comm, ran_importFile, ran_importFile]
    cases found : before.2.read? path with
    | none => rfl
    | some text =>
      dsimp only
      rw [ih.lines (finishes_importFile.mp ends text found)]

theorem importFile_extends_of_le {depth further : Nat} (le : depth ≤ further) :
    Extends (importFile depth : String → ConsoleStep ω η (StateM Disk) Unit)
      (importFile further) :=
  Nat.add_sub_of_le le ▸ importFile_extends depth (further - depth)

namespace Import

/-- What an import comes to, with others inside one another up to a depth. -/
def Finishes (depth : Nat) (wanted : Import ω η) : Prop :=
  Console.Finishes (importFile depth wanted.path) (wanted.console, wanted.disk)

/-- While the outer file is imported, one of its lines asks for the inner one. -/
def Nested (outer inner : Import ω η) : Prop :=
  ∃ text earlier line later depth after, outer.disk.read? outer.path = some text ∧
    Text.lines text = earlier ++ line :: later ∧
    ran (importLines (importFile depth) earlier) (whileImporting outer.console, outer.disk) =
      (.ok (), after) ∧
    Asks (fun importing => carryOut importing line) after inner

variable {outer inner wanted : Import ω η} {depth further : Nat}

theorem Finishes.mono (le : depth ≤ further) (finishes : wanted.Finishes depth) :
    wanted.Finishes further := by
  rw [Finishes, Console.Finishes, importFile_extends_of_le le _ _ finishes]
  exact finishes

end Import

section
variable {line : String} {before : Console ω η × Disk} {wanted : Import ω η} {depth : Nat}

/-- A line that asks for an import comes to an end if the import does, and only then. -/
theorem finishes_carryOut_iff
    (asks : Asks (fun importing => carryOut importing line) before wanted) :
    Finishes (carryOut (importFile depth) line) before ↔ wanted.Finishes depth := by
  obtain ⟨next, ends, asks⟩ := asks
  rw [Finishes, asks]
  exact finishes_bind.trans (and_iff_left fun _ after _ => ends after)

theorem finishes_carryOut (each : ∀ wanted,
      Asks (fun importing => carryOut importing line) before wanted → wanted.Finishes depth) :
    Finishes (carryOut (importFile depth) line) before := by
  rcases Wants.carryOut line before with ⟨result, ends, rests⟩ | ⟨wanted, asks⟩
  · rw [Finishes, rests]
    exact ends
  · exact (finishes_carryOut_iff asks).mpr (each wanted asks)

end

section
variable {lines : List String} {before after : Console ω η × Disk} {depth further : Nat}

theorem ran_importLines_mono (le : depth ≤ further)
    (passed : ran (importLines (importFile depth) lines) before = (.ok (), after)) :
    ran (importLines (importFile further) lines) before = (.ok (), after) := by
  rw [(importFile_extends_of_le le).lines (by rw [Finishes, passed]; nofun), passed]

theorem ran_importLines_of_ok
    (passed : ran (importLines (importFile depth) lines) before = (.ok (), after))
    (ends : Finishes (importLines (importFile further) lines) before) :
    ran (importLines (importFile further) lines) before = (.ok (), after) := by
  rw [← (importFile_extends_of_le (Nat.le_max_right depth further)).lines ends]
  exact ran_importLines_mono (Nat.le_max_left _ _) passed

end

theorem ran_importLines_snoc {importing : String → ConsoleStep ω η (StateM Disk) Unit}
    {lines : List String} {line : String} {before after last : Console ω η × Disk}
    {outcome : Outcome} (passed : ran (importLines importing lines) before = (.ok (), after))
    (done : ran (carryOut importing line) after = (.ok outcome, last)) :
    ran (importLines importing (lines ++ [line])) before = (.ok (), last) := by
  rw [importLines_append, ran_bind, passed]
  dsimp only
  rw [ran_importLines_cons, done]
  rfl

namespace Import

variable {outer inner wanted : Import ω η} {depth further : Nat}

/-- An import that comes to an end has only such imports in it, one less deep. -/
theorem Finishes.nested (finishes : outer.Finishes (depth + 1)) (nested : Nested outer inner) :
    inner.Finishes depth := by
  obtain ⟨text, earlier, line, later, past, after, found, lines, passed, asks⟩ := nested
  have whole := finishes_importFile.mp finishes text found
  rw [lines, importLines_append] at whole
  obtain ⟨first, goes⟩ := finishes_bind.mp whole
  have here := goes () after (ran_importLines_of_ok passed first)
  exact (finishes_carryOut_iff asks).mp (finishes_importLines_cons.mp here).1

/-- The lines that are left of a file come to an end if all that is imported in it does. -/
theorem finishes_lines {text : String} (found : outer.disk.read? outer.path = some text)
    (each : ∀ inner, Nested outer inner → ∃ depth, inner.Finishes depth)
    (rest : List String) : ∀ earlier after depth, Text.lines text = earlier ++ rest →
      ran (importLines (importFile depth) earlier) (whileImporting outer.console, outer.disk) =
        (.ok (), after) →
      ∃ further, depth ≤ further ∧
        Console.Finishes (importLines (importFile further) rest) after := by
  induction rest with
  | nil => exact fun _ after depth _ _ => ⟨depth, Nat.le_refl _, Ends.pure () after⟩
  | cons line rest ih =>
    intro earlier after depth lines passed
    obtain ⟨further, le, here⟩ : ∃ further, depth ≤ further ∧
        Console.Finishes (carryOut (importFile further) line) after := by
      rcases Wants.carryOut line after with ⟨result, ends, rests⟩ | ⟨wanted, asks⟩
      · exact ⟨depth, Nat.le_refl _, by rw [Console.Finishes, rests]; exact ends⟩
      · obtain ⟨other, finishes⟩ :=
          each wanted ⟨text, earlier, line, rest, depth, after, found, lines, passed, asks⟩
        exact ⟨max depth other, Nat.le_max_left _ _,
          (finishes_carryOut_iff asks).mpr (finishes.mono (Nat.le_max_right _ _))⟩
    rcases same : ran (carryOut (importFile further) line) after with ⟨error | outcome, last⟩
    · refine ⟨further, le, finishes_importLines_cons.mpr ⟨here, fun _ _ passed => ?_⟩⟩
      cases same.symm.trans passed
    · have goes := ran_importLines_snoc (ran_importLines_mono le passed) same
      obtain ⟨most, more, later⟩ := ih (earlier ++ [line]) last further (by simpa using lines) goes
      have again := (importFile_extends_of_le more).doing (.carryOut line) here
      refine ⟨most, le.trans more, finishes_importLines_cons.mpr ⟨?_, ?_⟩⟩
      · rw [Console.Finishes, again]
        exact here
      · rw [again, same]
        rintro _ _ ⟨⟩
        exact later

/-- The lines of a file come to an end if all that is imported in it does. -/
theorem finishes_of_nested (each : ∀ inner, Nested outer inner → ∃ depth, inner.Finishes depth) :
    ∃ depth, outer.Finishes depth := by
  cases found : outer.disk.read? outer.path with
  | none => exact ⟨1, finishes_importFile.mpr (by simp [found])⟩
  | some text =>
    obtain ⟨depth, -, finishes⟩ := finishes_lines found each (Text.lines text) [] _ 0 rfl rfl
    refine ⟨depth + 1, finishes_importFile.mpr fun other same => ?_⟩
    cases found.symm.trans same
    exact finishes

/-- The same with a depth that all of them keep to. -/
theorem finishes_lines_within {text : String} (found : outer.disk.read? outer.path = some text)
    (each : ∀ inner, Nested outer inner → inner.Finishes depth) (rest : List String) :
    ∀ earlier after, Text.lines text = earlier ++ rest →
      ran (importLines (importFile depth) earlier) (whileImporting outer.console, outer.disk) =
        (.ok (), after) →
      Console.Finishes (importLines (importFile depth) rest) after := by
  induction rest with
  | nil => exact fun _ after _ _ => Ends.pure () after
  | cons line rest ih =>
    intro earlier after lines passed
    refine finishes_importLines_cons.mpr ⟨finishes_carryOut fun wanted asks => ?_, ?_⟩
    · exact each wanted ⟨text, earlier, line, rest, depth, after, found, lines, passed, asks⟩
    · intro outcome last done
      exact ih (earlier ++ [line]) last (by simpa using lines) (ran_importLines_snoc passed done)

/-- An import comes to an end if no imports stand inside one another without end in it, and only
then. -/
theorem finishes_iff_acc : (∃ depth, wanted.Finishes depth) ↔ Acc (flip Nested) wanted := by
  constructor
  · rintro ⟨depth, finishes⟩
    induction depth generalizing wanted with
    | zero => exact absurd rfl finishes
    | succ depth ih => exact .intro wanted fun inner nested => ih (finishes.nested nested)
  · intro accessible
    induction accessible with
    | intro wanted _ ih => exact finishes_of_nested ih

end Import

variable {text : String} {before : Console ω η × Disk}

/-- The line comes to an end, with imports that stand inside one another up to some depth. -/
def Returns (text : String) (before : Console ω η × Disk) : Prop :=
  ∃ depth, Finishes (executeWithin depth text) before

theorem returns_iff : Returns text before ↔
    ∀ wanted, Asks (fun importing => carryOut importing text) before wanted →
      ∃ depth, wanted.Finishes depth := by
  constructor
  · rintro ⟨depth, finishes⟩ wanted asks
    exact ⟨depth, (finishes_carryOut_iff asks).mp finishes⟩
  · intro each
    rcases Wants.carryOut text before with ⟨result, ends, rests⟩ | ⟨wanted, asks⟩
    · exact ⟨0, by rw [Finishes, executeWithin, rests]; exact ends⟩
    · obtain ⟨depth, finishes⟩ := each wanted asks
      exact ⟨depth, (finishes_carryOut_iff asks).mpr finishes⟩

/-- Imports that stand inside one another while a line is carried out, the innermost first. -/
inductive Opened (text : String) (before : Console ω η × Disk) : List (Import ω η) → Prop where
  | line {wanted : Import ω η}
      (asks : Asks (fun importing => carryOut importing text) before wanted) :
      Opened text before [wanted]
  | inside {outer inner : Import ω η} {others : List (Import ω η)}
      (opened : Opened text before (outer :: others)) (nested : Import.Nested outer inner) :
      Opened text before (inner :: outer :: others)

/-- Where the file of an import is on the disk. -/
def Import.place (wanted : Import ω η) : Option String :=
  wanted.disk.locate? wanted.path

/-- The imports are of different files, on the same disk. -/
structure Apart (disk : Disk) (imports : List (Import ω η)) : Prop where
  places : (imports.map Import.place).Nodup
  disk : ∀ wanted ∈ imports, wanted.disk = disk

omit [Operator ω] [Host η] in
/-- No more different files are imported inside one another than there are on the disk. -/
theorem Apart.length_le {disk : Disk} {imports : List (Import ω η)} (apart : Apart disk imports)
    (found : ∀ wanted ∈ imports, (wanted.disk.read? wanted.path).isSome) :
    imports.length ≤ disk.files.size := by
  have among : imports.map Import.place ⊆ disk.files.entries.map fun entry => some entry.1 := by
    intro place member
    obtain ⟨wanted, present, rfl⟩ := List.mem_map.mp member
    obtain ⟨text, held⟩ := Option.isSome_iff_exists.mp (found wanted present)
    rw [apart.disk wanted present, Disk.read?] at held
    obtain ⟨key, located, held⟩ := Option.bind_eq_some_iff.mp held
    refine List.mem_map.mpr ⟨(key, text), Table.get?_eq_some.mp held, ?_⟩
    rw [Import.place, apart.disk wanted present, located]
  simpa [Table.size] using (apart.places.subperm among).length_le

theorem Opened.found {wanted : Import ω η} {others : List (Import ω η)}
    (opened : Opened text before (wanted :: others)) :
    ∀ outer ∈ others, (outer.disk.read? outer.path).isSome := by
  generalize same : wanted :: others = imports at opened
  induction opened generalizing wanted others with
  | line =>
    cases same
    exact fun _ absent => absurd absent List.not_mem_nil
  | inside opened nested ih =>
    cases same
    intro outer member
    rcases List.mem_cons.mp member with rfl | member
    · obtain ⟨text, _, _, _, _, _, found, _⟩ := nested
      rw [found]
      rfl
    · exact ih rfl outer member

/-- Where no file is imported inside itself, there is room for all imports. -/
theorem Opened.finishes (apart : ∀ imports, Opened text before imports → Apart before.2 imports)
    (left : Nat) : ∀ wanted others, Opened text before (wanted :: others) →
      others.length + left = before.2.files.size → wanted.Finishes (left + 1) := by
  induction left with
  | zero =>
    intro wanted others opened size
    refine finishes_importFile.mpr fun text found => ?_
    have most := (apart _ opened).length_le (List.forall_mem_cons.mpr
      ⟨by rw [show wanted.disk.read? wanted.path = some text from found]; rfl, opened.found⟩)
    rw [List.length_cons] at most
    omega
  | succ left ih =>
    intro wanted others opened size
    refine finishes_importFile.mpr fun text found => ?_
    refine Import.finishes_lines_within found (fun inner nested => ?_) _ [] _ rfl rfl
    refine ih inner (wanted :: others) (opened.inside nested) ?_
    rw [List.length_cons]
    omega

/-- A line comes to an end exactly when no imports stand inside one another without end. If it does
not do so with as many inside one another as there are files, and one more, then a file is imported
while it is being imported, or the disk has changed. -/
theorem returns_iff_no_chain (text : String) (before : Console ω η × Disk) :
    (Returns text before ↔ ¬∃ chain : Nat → Import ω η,
      Asks (fun importing => carryOut importing text) before (chain 0) ∧
        ∀ n, Import.Nested (chain n) (chain (n + 1))) ∧
    ((∀ depth, before.2.files.size < depth → Finishes (executeWithin depth text) before) ∨
      ∃ imports, Opened text before imports ∧ ¬Apart before.2 imports) := by
  constructor
  · rw [returns_iff]
    constructor
    · rintro each ⟨chain, asks, nested⟩
      have accessible := Import.finishes_iff_acc.mp (each _ asks)
      exact not_acc_iff_exists_descending_chain.mpr ⟨chain, rfl, nested⟩ accessible
    · intro none wanted asks
      rw [Import.finishes_iff_acc]
      by_contra endless
      obtain ⟨chain, rfl, nested⟩ := not_acc_iff_exists_descending_chain.mp endless
      exact none ⟨chain, asks, nested⟩
  · by_cases apart : ∀ imports, Opened text before imports → Apart before.2 imports
    · refine .inl fun depth enough => finishes_carryOut fun wanted asks => ?_
      exact (Opened.finishes apart _ wanted [] (.line asks) (Nat.zero_add _)).mono enough
    · right
      push Not at apart
      exact apart

/-- A disk with a file of settings that imports itself. -/
def circular : Disk :=
  ⟨.ofList [("c", "env -a c")], "home"⟩

theorem circular_endless : ¬Returns "env -a c" (opened, circular) := by
  have parsed : Line.parse? "env -a c" = some ⟨"env", ['a'], ["c"], "c", " -a c"⟩ := by
    decide +kernel
  have asks (before : Console Absent Disabled × Disk) :
      Asks (fun importing => carryOut importing "env -a c") before ⟨"c", before.1, before.2⟩ := by
    refine ⟨pure .quiet, .pure _, fun importing => ?_⟩
    have path : ran (pathOf "c" : ConsoleStep Absent Disabled (StateM Disk) String) before =
        (.ok (withHome before.1.home "c"), before) := rfl
    have same : withHome before.1.home "c" = "c" := by cases before.1.home <;> rfl
    have carried : ran (carryOut importing "env -a c") before =
        ran (pathOf "c" >>= fun path => importing path >>= fun _ => pure .quiet) before := by
      unfold ran
      rw [run_carryOut parsed (by decide)]
      rfl
    rw [carried, ran_bind, path, same]
  have held : circular.read? "c" = some "env -a c" := by decide +kernel
  have lines : Text.lines "env -a c" = ["env -a c"] := by decide +kernel
  have endless (depth : Nat) (console : Console Absent Disabled) :
      ¬(Import.mk "c" console circular).Finishes depth := by
    induction depth generalizing console with
    | zero => exact fun finishes => finishes rfl
    | succ depth ih =>
      refine fun finishes => ih (whileImporting console) (finishes.nested ?_)
      exact ⟨"env -a c", [], "env -a c", [], 0, (whileImporting console, circular), held, lines,
        rfl, asks _⟩
  intro returns
  obtain ⟨depth, finishes⟩ := returns_iff.mp returns _ (asks _)
  exact endless depth opened finishes

end Console

end StepShell

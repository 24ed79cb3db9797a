import StepShell.Proofs.Console.Imports
import StepShell.Proofs.Session.Undoing

/-! Whether a session records, followed through the lines of a console. What has to do with it takes
its turns in order: a mode is carried out, a session is read from a file, an import begins or ends,
or the sandbox is recorded unasked. Whether the session records afterwards is what the turns make of
it. -/

namespace StepShell

namespace RecordingMode

def apply : RecordingMode → Bool → Bool
  | .on, _ => true
  | .off, _ => false
  | .toggle, recording => !recording

/-- The modes of arguments, up to the first that there is none of. -/
def ofArgs : List String → List RecordingMode
  | [] => []
  | arg :: rest =>
    match parse? arg with
    | some mode => mode :: ofArgs rest
    | none => []

end RecordingMode

namespace Session

variable {ω η : Type}

theorem changeRecording_recording (mode : RecordingMode) (session : Session ω η) :
    (changeRecording mode session).2 =
      { session with recording := mode.apply session.recording } := by
  cases mode <;> rfl

/-- Since the origin it stays whether the session records, and if it does not, then nothing was
recorded that was not asked for. -/
structure Unasked (asked : Bool) (origin now : Session ω η) : Prop where
  recording : now.recording = origin.recording
  history : origin.recording = false → asked = false → now.history = origin.history

section
variable {asked : Bool} {origin before after : Session ω η}

theorem Unasked.refl (session : Session ω η) : Unasked asked session session :=
  ⟨rfl, fun _ _ => rfl⟩

theorem Unasked.beside (unasked : Unasked asked origin before)
    (recording : after.recording = before.recording) (history : after.history = before.history) :
    Unasked asked origin after :=
  ⟨recording.trans unasked.recording, fun off none => history.trans (unasked.history off none)⟩

theorem Unasked.recordStep (unasked : Unasked asked origin before) (action : String) :
    Unasked asked origin (before.recordStep asked action) := by
  unfold Session.recordStep
  constructor
  · split <;> exact unasked.recording
  · rintro off rfl
    rw [unasked.recording, off]
    exact unasked.history off rfl

variable [Operator ω] [Host η]

theorem nextSteps_unasked (flags : RunOptions) (count : Nat) (message : String) :
    Preserves (Unasked flags.record origin) before (nextSteps flags count message) := by
  induction count generalizing message before with
  | zero => exact .pure
  | succ count ih =>
    rw [nextSteps]
    refine .get ?_
    split
    · exact .bind (fun unasked => unasked.beside rfl rfl) fun _ _ _ => ih message
    · split
      · exact .pure
      · rename_i node _
        refine .bind (fun unasked => ?_) fun said _ _ => ih (said.getD message)
        obtain ⟨machine, same⟩ := nextStep_frame flags node before
        rw [same]
        exact (unasked.recordStep node.shell).beside rfl rfl

theorem next_unasked (count : Nat) (flags : RunOptions) (showState : Bool) :
    Preserves (Unasked flags.record origin) before (next count flags showState) := by
  refine .bind (nextSteps_unasked flags count "") fun said _ _ => ?_
  cases said with
  | none => exact .pure
  | some => exact .get .pure

theorem run_unasked (text : String) (flags : RunOptions) (session : Session ω η) :
    Unasked flags.record session ((run text flags).run session).2 := by
  obtain ⟨machine, same⟩ := run_frame text flags session
  rw [same]
  exact ((Unasked.refl session).recordStep text).beside rfl rfl

end

end Session

namespace Console

/-- What has to do with whether a session records. -/
inductive Turn where
  /-- An argument of `history` is carried out. -/
  | carried (mode : RecordingMode)
  /-- A session is read from a file. -/
  | read (recording : Bool)
  /-- An import begins, or puts back what was before it. -/
  | put (recording : Bool)
  /-- The sandbox is recorded without being asked to. -/
  | recorded
  deriving DecidableEq, Repr

def Turn.apply : Turn → Bool → Bool
  | .carried mode, recording => mode.apply recording
  | .read recording, _ | .put recording, _ => recording
  | .recorded, recording => recording

def Turn.mode? : Turn → Option RecordingMode
  | .carried mode => some mode
  | .read _ | .put _ | .recorded => none

/-- What the turns make of it. -/
def turned (turns : List Turn) (recording : Bool) : Bool :=
  turns.foldl (fun recording turn => turn.apply recording) recording

/-- The modes that are carried out. -/
def carried (turns : List Turn) : List RecordingMode :=
  turns.filterMap Turn.mode?

/-- What the modes make of it. -/
def applied (modes : List RecordingMode) (recording : Bool) : Bool :=
  modes.foldl (fun recording mode => mode.apply recording) recording

theorem turned_append (first second : List Turn) (recording : Bool) :
    turned (first ++ second) recording = turned second (turned first recording) :=
  List.foldl_append

/-- In turns from where a session does not record, nothing makes it record before a mode is carried
out or a session that records is read. -/
def Tame : List Turn → Prop
  | [] => True
  | .carried _ :: _ => True
  | .read recording :: rest => recording = true ∨ Tame rest
  | .put recording :: rest => recording = false ∧ Tame rest
  | .recorded :: _ => False

theorem Tame.append {first second : List Turn} (tame : Tame first)
    (further : turned first false = false → Tame second) : Tame (first ++ second) := by
  induction first with
  | nil => exact further rfl
  | cons turn rest ih =>
    cases turn with
    | carried => trivial
    | read recording =>
      cases recording with
      | true => exact .inl rfl
      | false => exact .inr (ih (tame.resolve_left Bool.false_ne_true) further)
    | put =>
      obtain ⟨rfl, tame⟩ := tame
      exact ⟨rfl, ih tame further⟩
    | recorded => exact tame.elim

/-- The turns lead from the one to the other. -/
structure Follows (turns : List Turn) (before after : Bool) : Prop where
  result : after = turned turns before
  tame : before = false → Tame turns

theorem Follows.refl (recording : Bool) : Follows [] recording recording :=
  ⟨rfl, fun _ => trivial⟩

theorem Follows.append {first second : List Turn} {before middle after : Bool}
    (early : Follows first before middle) (late : Follows second middle after) :
    Follows (first ++ second) before after := by
  constructor
  · rw [turned_append, ← early.result, ← late.result]
  · rintro rfl
    exact (early.tame rfl).append fun off => late.tame (early.result.trans off)

theorem follows_carried (modes : List RecordingMode) (recording : Bool) :
    Follows (modes.map .carried) recording (applied modes recording) := by
  constructor
  · simp [turned, applied, List.foldl_map, Turn.apply]
  · intro _
    cases modes <;> trivial

section
variable {ω η α β : Type}

/-- Whether the session records. -/
def records (place : Console ω η × Disk) : Bool :=
  place.1.session.recording

/-- After a request to the session. -/
def told (request : Session ω η → Outcome × Session ω η) (before : Console ω η × Disk) :
    Console ω η × Disk :=
  ({ before.1 with session := (request before.1.session).2 }, before.2)

/-- The import of the file of settings, if there is one. -/
def settings? (before : Console ω η × Disk) : Option (Import ω η) :=
  before.1.config.map fun path => ⟨path, before.1, before.2⟩

/-- The import that a request begins with. -/
def wanted? (line : Line) (before : Console ω η × Disk) : Option (Import ω η) :=
  match line.name with
  | "undo" =>
    if before.1.session.history.size ≤ 1 then settings? (told Session.undo before) else none
  | "reset" => settings? (told Session.reset before)
  | "history" => if line.has 'r' then settings? (told Session.forgetHistory before) else none
  | "env" =>
    let path := withHome before.1.home line.joined
    if line.has 'e' || line.joined.isEmpty then none
    else if line.has 'a' then some ⟨path, before.1, before.2⟩
    else some ⟨path, { (told Session.reset before).1 with config := some path }, before.2⟩
  | _ => none

/-- The turns that a request takes after its import, by what it comes to. -/
def ownTurns (line : Line) (before : Console ω η × Disk)
    (done : Except ConsoleError Outcome × Console ω η × Disk) : List Turn :=
  match line.name with
  | "history" =>
    match done.1 with
    | .ok _ => (RecordingMode.ofArgs line.args).map .carried
    | .error _ => []
  | "json" =>
    match line.args, done.1 with
    | "import" :: _ :: _, .ok _ => [.read (records done.2)]
    | _, _ => []
  | "next" | "run" =>
    if !line.has 'h' && before.1.session.history.size < done.2.1.session.history.size then
      [.recorded]
    else []
  | _ => []

/-- The turns of an import; `trace` tells those of the import of a file. -/
def importedTurns (trace : String → Console ω η × Disk → List Turn) :
    Option (Import ω η) → List Turn
  | some wanted => trace wanted.path (wanted.console, wanted.disk)
  | none => []

variable [Operator ω] [Host η]

def requestTurns (importing : String → ConsoleStep ω η (StateM Disk) Unit)
    (trace : String → Console ω η × Disk → List Turn) (line : Line)
    (before : Console ω η × Disk) : List Turn :=
  importedTurns trace (wanted? line before) ++
    ownTurns line before (ran (request importing line) before)

def lineTurns (importing : String → ConsoleStep ω η (StateM Disk) Unit)
    (trace : String → Console ω η × Disk → List Turn) (text : String)
    (before : Console ω η × Disk) : List Turn :=
  match read before.1.session.aliases aliasLimit text with
  | .request line => requestTurns importing trace line before
  | _ => []

/-- The turns of lines of settings, up to the first that fails. -/
def linesTurns (importing : String → ConsoleStep ω η (StateM Disk) Unit)
    (trace : String → Console ω η × Disk → List Turn) :
    List String → Console ω η × Disk → List Turn
  | [], _ => []
  | line :: rest, before =>
    lineTurns importing trace line before ++
      match ran (carryOut importing line) before with
      | (.ok _, after) => linesTurns importing trace rest after
      | (.error _, _) => []

/-- The turns of the import of a file. -/
def importTurns : Nat → String → Console ω η × Disk → List Turn
  | 0, _, _ => []
  | depth + 1, path, before =>
    match before.2.read? path with
    | none => []
    | some text =>
      .put false :: linesTurns (importFile depth) (importTurns depth) (Text.lines text)
          (whileImporting before.1, before.2) ++
        if (Text.lines text).any setsHistory then [] else [.put (records before)]

end

section
variable {ω η α β : Type}

/-- Whatever comes of the step, it stays whether the session records. -/
def Steady (step : ConsoleStep ω η (StateM Disk) α) : Prop :=
  ∀ before, records (ran step before).2 = records before

namespace Steady

theorem bind {step : ConsoleStep ω η (StateM Disk) α}
    {next : α → ConsoleStep ω η (StateM Disk) β} (steady : Steady step)
    (goes : ∀ value, Steady (next value)) : Steady (step >>= next) := by
  intro before
  have first := steady before
  rw [ran_bind]
  rcases same : ran step before with ⟨error | value, after⟩
  · rw [same] at first
    exact first
  · rw [same] at first
    exact (goes value after).trans first

theorem pure (value : α) : Steady (pure value : ConsoleStep ω η (StateM Disk) α) :=
  fun _ => rfl

theorem telling {request : Session ω η → Outcome × Session ω η}
    (keeps : ∀ session, (request session).2.recording = session.recording) :
    Steady (telling request : ConsoleStep ω η (StateM Disk) Outcome) :=
  fun before => keeps before.1.session

theorem pervades : Pervades fun α => @Steady ω η α where
  pure := pure
  throw _ _ _ := rfl
  lift _ _ := rfl
  get _ := rfl
  bind := bind
  telling := telling

end Steady

theorem ran_get (before : Console ω η × Disk) :
    ran (get : ConsoleStep ω η (StateM Disk) (Console ω η)) before = (.ok before.1, before) := rfl

/-- A request changes the session, whatever comes of it. -/
theorem ran_stepping (request : SessionStep ω η Outcome) (before : Console ω η × Disk) :
    ran (stepping request : ConsoleStep ω η (StateM Disk) Outcome) before =
      ((request.run before.1.session).1.mapError (.failed []),
        { before.1 with session := (request.run before.1.session).2 }, before.2) := by
  rw [stepping, ran_bind, ran_get]
  dsimp only
  rcases request.run before.1.session with ⟨failure | outcome, session⟩ <;> rfl

theorem Steady.stepping {request : SessionStep ω η Outcome}
    (keeps : ∀ session, (request.run session).2.recording = session.recording) :
    Steady (stepping request : ConsoleStep ω η (StateM Disk) Outcome) := by
  intro before
  rw [ran_stepping]
  exact keeps before.1.session

theorem records_bind {step : ConsoleStep ω η (StateM Disk) α}
    {next : α → ConsoleStep ω η (StateM Disk) β} (goes : ∀ value, Steady (next value))
    (before : Console ω η × Disk) :
    records (ran (step >>= next) before).2 = records (ran step before).2 := by
  rw [ran_bind]
  rcases ran step before with ⟨error | value, after⟩
  · rfl
  · exact goes value after

theorem ran_telling (request : Session ω η → Outcome × Session ω η)
    (before : Console ω η × Disk) :
    ran (telling request : ConsoleStep ω η (StateM Disk) Outcome) before =
      (.ok (request before.1.session).1, told request before) := rfl

/-- All modes are carried out up to the first argument that there is none of. -/
theorem ran_recordingModes (args messages : List String) (before : Console ω η × Disk) :
    ∃ outcome after,
      ran (recordingModes args messages : ConsoleStep ω η (StateM Disk) Outcome) before =
        (.ok outcome, after) ∧
      records after = applied (RecordingMode.ofArgs args) (records before) := by
  induction args generalizing messages before with
  | nil => exact ⟨_, before, rfl, rfl⟩
  | cons arg rest ih =>
    rw [recordingModes_cons, RecordingMode.ofArgs]
    cases RecordingMode.parse? arg with
    | none => exact ⟨_, before, rfl, rfl⟩
    | some mode =>
      have changed : records (told (Session.changeRecording mode) before) =
          mode.apply (records before) := by
        rw [records, told, Session.changeRecording_recording]
        rfl
      dsimp only
      rw [ran_bind, ran_telling]
      obtain ⟨outcome, after, same, set⟩ := ih (messages ++
        [(Session.changeRecording mode before.1.session).1.message])
        (told (Session.changeRecording mode) before)
      exact ⟨outcome, after, same, set.trans (congrArg _ changed)⟩

/-- The trace tells the turns of the import of every file. -/
def Tells (importing : String → ConsoleStep ω η (StateM Disk) Unit)
    (trace : String → Console ω η × Disk → List Turn) : Prop :=
  ∀ path before,
    Follows (trace path before) (records before) (records (ran (importing path) before).2)

variable {importing : String → ConsoleStep ω η (StateM Disk) Unit}
  {trace : String → Console ω η × Disk → List Turn}

theorem Tells.settings (tells : Tells importing trace) (before : Console ω η × Disk) :
    Follows (importedTurns trace (settings? before)) (records before)
      (records (ran (importSettings importing) before).2) := by
  rw [importSettings, ran_bind, ran_get, settings?]
  dsimp only
  cases before.1.config with
  | none => exact .refl _
  | some path => exact tells path before

theorem Tells.undo (tells : Tells importing trace) (before : Console ω η × Disk) :
    Follows (importedTurns trace (if before.1.session.history.size ≤ 1 then
        settings? (told Session.undo before) else none)) (records before)
      (records (ran (undo importing) before).2) := by
  have same : records (told Session.undo before) = records before := by
    unfold records told Session.undo
    split <;> rfl
  rw [Console.undo, ran_bind, ran_get]
  dsimp only
  rw [ran_bind, ran_telling]
  by_cases exhausted : before.1.session.history.size ≤ 1
  · simp only [exhausted, if_true]
    rw [records_bind fun _ => .pure _, ← same]
    exact tells.settings _
  · simp only [exhausted, if_false]
    rw [← same]
    exact .refl _

theorem Tells.reset (tells : Tells importing trace) (before : Console ω η × Disk) :
    Follows (importedTurns trace (settings? (told Session.reset before))) (records before)
      (records (ran (reset importing) before).2) := by
  rw [Console.reset, ran_bind, ran_telling]
  dsimp only
  rw [records_bind fun _ => .pure _]
  exact tells.settings (told Session.reset before)

theorem ran_modify (change : Console ω η → Console ω η) (before : Console ω η × Disk) :
    ran (modify change : ConsoleStep ω η (StateM Disk) Unit) before =
      (.ok (), change before.1, before.2) := rfl

theorem ran_pathOf (path : String) (before : Console ω η × Disk) :
    ran (pathOf path : ConsoleStep ω η (StateM Disk) String) before =
      (.ok (withHome before.1.home path), before) := rfl

theorem Tells.env (tells : Tells importing trace) {line : Line} (named : line.name = "env")
    (before : Console ω η × Disk) :
    Follows (importedTurns trace (wanted? line before)) (records before)
      (records (ran (Console.env importing line) before).2) := by
  simp only [wanted?, named]
  by_cases written : line.has 'e'
  · have steady : Steady (Console.env importing line) := by
      rw [Console.env, if_pos written]
      exact (Steady.pervades.pathOf _).bind fun path => Steady.pervades.get.bind fun console =>
        (Steady.pervades.writeOrFail _ _ _).bind fun _ => .pure _
    rw [steady before, written]
    exact .refl _
  by_cases nameless : line.joined.isEmpty
  · rw [Console.env, if_neg written, if_pos nameless, nameless, Bool.or_true]
    exact .refl _
  rw [Console.env, if_neg written, if_neg nameless, if_neg (by simp [written, nameless]), ran_bind,
    ran_pathOf]
  dsimp only
  by_cases onTop : line.has 'a'
  · rw [if_pos onTop, if_pos onTop, records_bind fun _ => .pure _]
    exact tells _ before
  · rw [if_neg onTop, if_neg onTop, ran_bind, ran_telling]
    dsimp only
    rw [ran_bind, ran_modify]
    dsimp only
    rw [records_bind fun _ => .pure _]
    exact tells _ ({ (told Session.reset before).1 with
      config := some (withHome before.1.home line.joined) }, before.2)

/-- After what it shows, `history` forgets if it is asked to, and carries out its modes. -/
theorem exists_history (importing : String → ConsoleStep ω η (StateM Disk) Unit) (line : Line)
    (before : Console ω η × Disk) : ∃ shown, ran (history importing line) before =
      ran (if line.has 'r' then do
          let outcome ← telling Session.forgetHistory
          importSettings importing
          recordingModes line.args (shown ++ [outcome.message])
        else recordingModes line.args (shown ++ [])) before := by
  unfold Console.history
  by_cases forgetting : line.has 'r'
  · simp only [forgetting, if_true]
    split <;> exact ⟨_, rfl⟩
  · simp only [forgetting]
    split <;> exact ⟨_, rfl⟩

theorem Tells.history (tells : Tells importing trace) {line : Line}
    (named : line.name = "history") (before : Console ω η × Disk) :
    Follows (importedTurns trace (wanted? line before) ++
        ownTurns line before (ran (Console.history importing line) before)) (records before)
      (records (ran (Console.history importing line) before).2) := by
  simp only [wanted?, ownTurns, named]
  obtain ⟨shown, same⟩ := exists_history importing line before
  rw [same]
  by_cases forgetting : line.has 'r'
  · rw [if_pos forgetting, if_pos forgetting, ran_bind, ran_telling]
    dsimp only
    have imported := tells.settings (told Session.forgetHistory before)
    rw [ran_bind]
    rcases made : ran (importSettings importing) (told Session.forgetHistory before) with
      ⟨error | _, middle⟩
    · rw [made] at imported
      exact imported.append (.refl _)
    · rw [made] at imported
      dsimp only
      obtain ⟨outcome, after, done, set⟩ := ran_recordingModes line.args
        (shown ++ [(Session.forgetHistory before.1.session).1.message]) middle
      rw [done]
      refine imported.append ?_
      dsimp only
      rw [set]
      exact follows_carried _ _
  · rw [if_neg forgetting, if_neg forgetting]
    obtain ⟨outcome, after, done, set⟩ := ran_recordingModes line.args (shown ++ []) before
    rw [done]
    dsimp only
    rw [set]
    exact follows_carried _ _

theorem wanted?_none {line : Line} (other : line.name ∉ ["undo", "reset", "history", "env"])
    (before : Console ω η × Disk) : wanted? line before = none := by
  unfold wanted?
  split <;> first | rfl | simp_all

theorem ownTurns_nil {line : Line} (other : line.name ∉ ["history", "json", "next", "run"])
    (before : Console ω η × Disk) (done : Except ConsoleError Outcome × Console ω η × Disk) :
    ownTurns line before done = [] := by
  unfold ownTurns
  split <;> first | rfl | simp_all

/-- Nothing but a session that is read from a file says whether the session records. -/
theorem json_steady {line : Line} {before : Console ω η × Disk}
    (other : ∀ path rest outcome, line.args = "import" :: path :: rest →
      (ran (json line) before).1 ≠ .ok outcome) :
    records (ran (json line : ConsoleStep ω η (StateM Disk) Outcome) before).2 =
      records before := by
  rcases arguments : line.args with _ | ⟨action, _ | ⟨path, rest⟩⟩
  · rw [json, arguments]
    rfl
  · rw [json, arguments]
    rfl
  by_cases imports : action = "import"
  · subst imports
    have failed := fun outcome => other path rest outcome arguments
    rw [json, arguments] at failed ⊢
    dsimp only at failed ⊢
    rw [ran_bind, ran_pathOf] at failed ⊢
    dsimp only at failed ⊢
    rw [if_neg (by decide), if_pos rfl, ran_bind] at failed ⊢
    have read := Steady.pervades.readOrFail (withHome before.1.home path)
      "Failed to read session: " before
    rcases made : ran (readOrFail (withHome before.1.home path) "Failed to read session: ") before
      with ⟨error | text, middle⟩
    · rw [made] at read
      exact read
    · rw [made] at read failed
      dsimp only at failed ⊢
      rw [ran_stepping, Session.importText] at failed ⊢
      rw [← read]
      cases parsed : (Json.parse? text).bind Export.ofJson? with
      | none => rfl
      | some file =>
        rw [parsed] at failed
        exact absurd rfl (failed (.ok "Session imported"))
  · rw [json, arguments]
    dsimp only
    rw [ran_bind, ran_pathOf]
    dsimp only
    split
    · refine Steady.bind Steady.pervades.get (fun console => ?_) before
      exact (Steady.pervades.writeOrFail _ _ _).bind fun _ => .pure _
    · rfl

theorem follows_json {line : Line} (named : line.name = "json") (before : Console ω η × Disk) :
    Follows (ownTurns line before (ran (json line) before)) (records before)
      (records (ran (json line) before).2) := by
  simp only [ownTurns, named]
  split
  · constructor
    · rfl
    · intro _
      unfold Tame
      cases records (ran (json line) before).2 with
      | true => exact .inl rfl
      | false => exact .inr trivial
  · rename_i other
    rw [json_steady fun path rest outcome same done => other path rest outcome same done]
    exact .refl _

/-- A request that steps, and records only what it is asked to unless the session records. -/
theorem follows_stepping {line : Line} {step : SessionStep ω η Outcome}
    {before : Console ω η × Disk} (named : line.name = "next" ∨ line.name = "run")
    (unasked : Session.Unasked (line.has 'h') before.1.session
      (step.run before.1.session).2) :
    Follows (ownTurns line before (ran (stepping step) before)) (records before)
      (records (ran (stepping step : ConsoleStep ω η (StateM Disk) Outcome) before).2) := by
  have own : ownTurns line before (ran (stepping step) before) =
      if !line.has 'h' && before.1.session.history.size <
        (step.run before.1.session).2.history.size then [.recorded] else [] := by
    rw [ran_stepping]
    rcases named with named | named <;> simp only [ownTurns, named]
  have same : records (ran (stepping step : ConsoleStep ω η (StateM Disk) Outcome) before).2 =
      records before := by
    rw [ran_stepping]
    exact unasked.recording
  rw [own, same]
  split
  · rename_i grown
    simp only [Bool.and_eq_true, Bool.not_eq_true', decide_eq_true_eq] at grown
    refine ⟨rfl, fun off => ?_⟩
    rw [unasked.history off grown.1] at grown
    exact absurd grown.2 (Nat.lt_irrefl _)
  · exact .refl _

variable [Operator ω] [Host η]

theorem steady_request {line : Line} (plain : line.name ∉
      ["undo", "reset", "history", "env", "json", "next", "run"]) :
    Steady (request importing line) := by
  unfold request
  split
  · exact Steady.pervades.load _
  · simp_all
  · simp_all
  · exact .telling fun _ => rfl
  · refine .telling fun session => ?_
    unfold Session.save
    split <;> rfl
  · refine .stepping fun session => ?_
    obtain ⟨machine, same⟩ := Session.Keeps.kept (@Session.inch_keeps ω η _ _ session session _ _)
    rw [same]
  · simp_all
  · refine .stepping fun session => ?_
    split
    · obtain ⟨machine, same⟩ :=
        Session.Keeps.kept (@Session.buildNext_keeps ω η _ session session _)
      rw [same]
    · obtain ⟨machine, same⟩ :=
        Session.Keeps.kept (@Session.build_keeps ω η _ session session _ _)
      rw [same]
  · exact Steady.pervades.showing _
  · exact Steady.pervades.showing _
  · exact .telling fun _ => rfl
  · exact .telling fun _ => rfl
  · exact .telling fun _ => rfl
  · exact .telling fun _ => rfl
  · exact Steady.pervades.var _
  · exact Steady.pervades.fs _
  · exact Steady.pervades.showing _
  · exact .pure _
  · simp_all
  · exact fun _ => rfl
  · exact fun _ => rfl
  · simp_all
  · simp_all
  · exact Steady.pervades.truth _
  · exact Steady.pervades.list _
  · exact .pure _
  · exact Steady.pervades.aliases _
  · simp_all
  · exact Steady.pervades.screen _
  · exact .pure _
  · exact .pure _

theorem Tells.request (tells : Tells importing trace) (line : Line)
    (before : Console ω η × Disk) :
    Follows (requestTurns importing trace line before) (records before)
      (records (ran (request importing line) before).2) := by
  by_cases plain : line.name ∉ ["undo", "reset", "history", "env", "json", "next", "run"]
  · have noImport : line.name ∉ ["undo", "reset", "history", "env"] := by
      simp_all
    have noTurn : line.name ∉ ["history", "json", "next", "run"] := by
      simp_all
    rw [requestTurns, wanted?_none noImport, ownTurns_nil noTurn, steady_request plain before]
    exact .refl _
  have unplain := not_not.mp plain
  simp only [List.mem_cons, List.not_mem_nil, or_false] at unplain
  unfold requestTurns
  rcases unplain with named | named | named | named | named | named | named
  · have same : Console.request importing line = Console.undo importing := by
      simp only [Console.request, named]
    rw [same, ownTurns_nil (by simp [named]), List.append_nil]
    simpa only [wanted?, named] using tells.undo before
  · have same : Console.request importing line = Console.reset importing := by
      simp only [Console.request, named]
    rw [same, ownTurns_nil (by simp [named]), List.append_nil]
    simpa only [wanted?, named] using tells.reset before
  · have same : Console.request importing line = Console.history importing line := by
      simp only [Console.request, named]
    rw [same]
    exact tells.history named before
  · have same : Console.request importing line = Console.env importing line := by
      simp only [Console.request, named]
    rw [same, ownTurns_nil (by simp [named]), List.append_nil]
    exact tells.env named before
  · have same : Console.request importing line = json line := by
      simp only [Console.request, named]
    rw [same, wanted?_none (by simp [named])]
    exact follows_json named before
  · have same : Console.request importing line =
        stepping (Session.next (count line) (runOptions line) (line.has 'p')) := by
      simp only [Console.request, named]
    have unasked := Session.next_unasked (count line) (runOptions line) (line.has 'p')
      (Session.Unasked.refl before.1.session)
    rw [same, wanted?_none (by simp [named])]
    exact follows_stepping (.inl named) unasked
  · have same : Console.request importing line =
        stepping (Session.run line.rest (runOptions line)) := by
      simp only [Console.request, named]
    have unasked := Session.run_unasked line.rest (runOptions line) before.1.session
    rw [same, wanted?_none (by simp [named])]
    exact follows_stepping (.inr named) unasked

theorem Tells.carryOut (tells : Tells importing trace) (text : String)
    (before : Console ω η × Disk) :
    Follows (lineTurns importing trace text before) (records before)
      (records (ran (carryOut importing text) before).2) := by
  rw [Console.carryOut, ran_bind, ran_get, lineTurns]
  dsimp only
  cases read before.1.session.aliases aliasLimit text with
  | blank | unknown | aliasLoop => exact .refl _
  | request line => exact tells.request line before

theorem Tells.importLines (tells : Tells importing trace) (lines : List String)
    (before : Console ω η × Disk) :
    Follows (linesTurns importing trace lines before) (records before)
      (records (ran (importLines importing lines) before).2) := by
  induction lines generalizing before with
  | nil => exact .refl _
  | cons line rest ih =>
    have here := tells.carryOut line before
    rw [ran_importLines_cons, linesTurns]
    rcases made : ran (Console.carryOut importing line) before with ⟨error | outcome, after⟩
    · rw [made] at here
      exact here.append (.refl _)
    · rw [made] at here
      exact here.append (ih after)

/-- Whether a session records after an import is what the turns of the import make of it. -/
theorem importFile_tells (depth : Nat) :
    Tells (importFile depth : String → ConsoleStep ω η (StateM Disk) Unit) (importTurns depth) := by
  induction depth with
  | zero => exact fun path before => .refl _
  | succ depth ih =>
    intro path before
    rw [ran_importFile, importTurns]
    cases before.2.read? path with
    | none => exact .refl _
    | some text =>
      dsimp only
      have inside := ih.importLines (Text.lines text) (whileImporting before.1, before.2)
      have begun : Follows [.put false] (records before)
          (records (whileImporting before.1, before.2)) := ⟨rfl, fun _ => ⟨rfl, trivial⟩⟩
      have whole := begun.append inside
      unfold whenImported
      split
      · rw [List.append_nil]
        exact whole
      · -- What is put back is what was before all the turns, not only before the last.
        constructor
        · rw [turned_append]
          rfl
        · exact fun off => (whole.tame off).append fun _ => ⟨off, trivial⟩

end

end Console

end StepShell

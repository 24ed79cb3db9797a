import StepShell.Command.Standard
import StepShell.Operator.Scripted
import StepShell.Proofs.Effect
import StepShell.Session.Settings

/-! Undoing takes back what requests recorded. A request may record the sandbox many times, once or
not at all, and may fail after that; so many undos as there are new records bring back the sandbox
of the first of them. -/

namespace StepShell

/-- What a session can be asked for besides undoing, forgetting and looking. -/
inductive Request where
  | load (text : String) (mode : Placement)
  | next (count : Nat) (flags : RunOptions) (showState : Bool)
  | run (text : String) (flags : RunOptions)
  | build (text : String) (append : Bool)
  | buildNext (append : Bool)
  | inch (count : Nat) (execute : Bool)
  | skip (count : Nat)
  | save (name : String)
  | dir (path : Option String)
  | stdin (text : Option String)
  | stdout (text : Option String)
  | var (pairs : List (String × String)) (showAll : Bool)
  | fs (specs : List NewFile) (showAll : Bool)
  | decide (condition value : String)
  | shell (text : String) (forward : Bool)
  | setAlias (name text : String)
  | screen (clear : Bool)
  | changeRecording (mode : RecordingMode)

namespace Session

variable {ω η : Type}

/-- A request that cannot fail. -/
def telling (request : Session ω η → Outcome × Session ω η) : SessionStep ω η Outcome :=
  ExceptT.mk fun session => ((request session).map .ok id)

section
variable [Operator ω] [Host η]

/-- What a session does on a request. -/
def perform : Request → SessionStep ω η Outcome
  | .load text mode => telling (load text mode)
  | .next count flags showState => next count flags showState
  | .run text flags => run text flags
  | .build text append => build text append
  | .buildNext append => buildNext append
  | .inch count execute => inch count execute
  | .skip count => telling (skip count)
  | .save name => telling (save name)
  | .dir path => telling (dir path)
  | .stdin text => telling (stdin text)
  | .stdout text => telling (stdout text)
  | .var pairs showAll => telling (var pairs showAll)
  | .fs specs showAll => telling (fs specs showAll)
  | .decide condition value => telling (decide condition value)
  | .shell text forward => telling (shell text forward)
  | .setAlias name text => telling (setAlias name text)
  | .screen clear => telling (screen clear)
  | .changeRecording mode => telling (changeRecording mode)

/-- The session after a request, whatever came of it. -/
def after (request : Request) (session : Session ω η) : Session ω η :=
  ((perform request).run session).2

/-- The session after requests, whatever came of each. -/
def afterAll (requests : List Request) (session : Session ω η) : Session ω η :=
  requests.foldl (fun session request => session.after request) session

/-- The session after so many undos. -/
def undone : Nat → Session ω η → Session ω η
  | 0, session => session
  | count + 1, session => undone count session.undo.2

/-- The sessions that running so many nodes records, each as it stands right before. -/
def nextMoments (flags : RunOptions) : Nat → Session ω η → List (Session ω η)
  | 0, _ => []
  | count + 1, session =>
    if !session.machine.pending.isEmpty then
      match (stepping Machine.drain).run session with
      | (.error _, _) => []
      | (.ok _, drained) => nextMoments flags count drained
    else
      match session.program[session.cursor]? with
      | none => []
      | some node =>
        (if session.recording || flags.record then [session] else []) ++
          match (nextStep flags node).run session with
          | (.error _, _) => []
          | (.ok _, ran) => nextMoments flags count ran

/-- The sessions that a request records, each as it stands right before, the first one first. -/
def moments (session : Session ω η) : Request → List (Session ω η)
  | .next count flags _ => nextMoments flags count session
  | .run _ flags => if session.recording || flags.record then [session] else []
  | .save name => if name.isEmpty then [] else [session]
  | _ => []

/-- The same of requests one after the other. -/
def allMoments (session : Session ω η) : List Request → List (Session ω η)
  | [] => []
  | request :: rest => session.moments request ++ (session.after request).allMoments rest

end

/-- What a record keeps of a session. -/
def kept (session : Session ω η) : Sandbox × Nat :=
  (session.sandbox, session.cursor)

/-- The later history has further records behind those of the earlier one, of these sessions. -/
def Records (before after : History) (moments : List (Session ω η)) : Prop :=
  after.first = before.first ∧ ∃ records : List Record, after.later = records.reverse ++ before.later ∧
    records.map (fun record => (record.sandbox, record.cursor)) = moments.map kept

namespace Records

variable {before middle after : History} {first second : List (Session ω η)}

theorem refl (history : History) : Records history history ([] : List (Session ω η)) :=
  ⟨rfl, [], rfl, rfl⟩

theorem of_eq (same : after = before) : Records before after ([] : List (Session ω η)) :=
  same ▸ refl before

theorem trans (early : Records before middle first) (late : Records middle after second) :
    Records before after (first ++ second) := by
  obtain ⟨start, records, added, kept⟩ := early
  obtain ⟨still, further, more, keeping⟩ := late
  refine ⟨still.trans start, records ++ further, ?_, ?_⟩
  · rw [more, added, List.reverse_append, List.append_assoc]
  · rw [List.map_append, List.map_append, kept, keeping]

theorem record (session : Session ω η) (name : Option String) (action : String) :
    Records session.history (session.record name action).history [session] :=
  ⟨rfl, [_], rfl, rfl⟩

theorem recordStep (session : Session ω η) (asked : Bool) (action : String) :
    Records session.history (session.recordStep asked action).history
      (if session.recording || asked then [session] else []) := by
  unfold Session.recordStep
  split
  · exact record session _ _
  · exact refl _

theorem length (records : Records before after first) :
    after.size = before.size + first.length := by
  obtain ⟨_, added, later, same⟩ := records
  have lengths := congrArg List.length same
  simp only [List.length_map] at lengths
  simp only [History.size, later, List.length_append, List.length_reverse]
  omega

end Records

section
variable [Operator ω] [Host η]

/-- Whatever comes of the step, it leaves all as it is here but the machine. -/
abbrev Keeps {α : Type} (origin before : Session ω η) (step : SessionStep ω η α) : Prop :=
  Preserves (fun session => ∃ machine, session = { origin with machine }) before step

omit [Operator ω] [Host η] in
theorem Keeps.kept {α : Type} {before : Session ω η} {step : SessionStep ω η α}
    (keeps : Keeps before before step) :
    ∃ machine, (step.run before).2 = { before with machine } :=
  keeps ⟨before.machine, rfl⟩

omit [Operator ω] [Host η] in
/-- What the machine does is no business of the rest. -/
theorem stepping_keeps {α : Type} {origin before : Session ω η} (step : Step ω η α) :
    Keeps origin before (Session.stepping step) := by
  rintro ⟨_, rfl⟩
  exact ⟨_, rfl⟩

/-- What the next node does once it is recorded. -/
def advancing (flags : RunOptions) (node : Node) : SessionStep ω η (Option String) :=
  if flags.inch then do
    stepping (Machine.build node false)
    return some (← get).announceAction
  else do
    stepping (Machine.run node)
    return none

theorem advancing_keeps {origin before : Session ω η} (flags : RunOptions)
    (node : Node) : Keeps origin before (advancing flags node) := by
  unfold advancing
  split
  · exact .bind (stepping_keeps _) fun _ _ _ => .get .pure
  · exact .bind (stepping_keeps _) fun _ _ _ => .pure

/-- A node of the program is recorded if that is asked for, and is behind then. -/
theorem nextStep_frame (flags : RunOptions) (node : Node) (session : Session ω η) :
    ∃ machine, ((nextStep flags node).run session).2 =
      { session.recordStep flags.record node.shell with
        machine, cursor := (session.recordStep flags.record node.shell).cursor + 1 } := by
  unfold nextStep
  dsimp only
  rw [run_modify_bind]
  split
  · rw [run_modify_bind]
    exact Keeps.kept (@advancing_keeps ω η _ _ _ _ flags node)
  · exact Keeps.kept (@advancing_keeps ω η _ _ _ _ flags node)

theorem nextStep_records (flags : RunOptions) (node : Node) (session : Session ω η) :
    Records session.history ((nextStep flags node).run session).2.history
      (if session.recording || flags.record then [session] else []) := by
  obtain ⟨_, same⟩ := nextStep_frame flags node session
  rw [same]
  exact .recordStep session _ _

theorem nextSteps_records (flags : RunOptions) (count : Nat) (message : String)
    (session : Session ω η) :
    Records session.history ((nextSteps flags count message).run session).2.history
      (nextMoments flags count session) := by
  induction count generalizing message session with
  | zero => exact .refl _
  | succ count ih =>
    rw [nextSteps, run_get_bind, nextMoments]
    split
    · have early : Records session.history
          ((stepping Machine.drain).run session).2.history ([] : List (Session ω η)) := .refl _
      rcases drained : (stepping Machine.drain).run session with ⟨failure | value, middle⟩
      · rw [drained] at early
        rw [run_bind_of_error drained]
        exact early
      · rw [drained] at early
        rw [run_bind_of_ok drained]
        exact early.trans (ih message middle)
    · cases session.program[session.cursor]? with
      | none => exact .refl _
      | some node =>
        dsimp only
        have early := nextStep_records flags node session
        rcases ran : (nextStep flags node).run session with ⟨failure | said, middle⟩
        · rw [ran] at early
          rw [run_bind_of_error ran]
          simpa using early
        · rw [ran] at early
          rw [run_bind_of_ok ran]
          exact early.trans (ih _ middle)

omit [Host η] in
theorem buildAll_keeps {origin before : Session ω η} (append : Bool)
    (nodes : List Node) : Keeps origin before (buildAll append nodes) := by
  induction nodes generalizing append before with
  | nil => exact .pure
  | cons node rest ih => exact .bind (stepping_keeps _) fun _ _ _ => ih true

omit [Host η] in
theorem build_keeps {origin before : Session ω η} (text : String) (append : Bool) :
    Keeps origin before (build text append) := by
  unfold build
  split
  · exact .pure
  · split
    · exact .pure
    · exact .bind (buildAll_keeps append _) fun _ _ _ => .get .pure

omit [Host η] in
theorem buildNext_keeps {origin before : Session ω η} (append : Bool) :
    Keeps origin before (buildNext append) := by
  refine .get ?_
  split
  · exact .pure
  · exact .bind (stepping_keeps _) fun _ _ _ => .get .pure

theorem inches_keeps {origin before : Session ω η} (execute : Bool) (count : Nat) :
    Keeps origin before (inches execute count) := by
  induction count generalizing before with
  | zero => exact .pure
  | succ count ih =>
    have onward : ∀ before : Session ω η, Keeps origin before (do
        if !(← get).machine.pending.isEmpty then
          inches execute count : SessionStep ω η Unit) := by
      intro before
      refine .get ?_
      split
      · exact ih
      · exact .pure
    rw [inches]
    split
    · refine .bind (.modify ?_) fun _ _ _ => onward _
      rintro ⟨_, rfl⟩
      exact ⟨_, rfl⟩
    · exact .bind (stepping_keeps _) fun _ _ _ => onward _

theorem inch_keeps {origin before : Session ω η} (count : Nat) (execute : Bool) :
    Keeps origin before (inch count execute) := by
  refine .get ?_
  split
  · exact .pure
  · exact .bind (inches_keeps execute count) fun _ _ _ => .get .pure

/-- What running a text does once it is recorded. -/
def running (text : String) (flags : RunOptions) : SessionStep ω η Outcome :=
  if flags.inch then
    build text false
  else
    match Script.parse text with
    | .error error => return notBuilt text error
    | .ok nodes => do
      stepping (Machine.runAll nodes)
      return .quiet

theorem running_keeps {origin before : Session ω η} (text : String)
    (flags : RunOptions) : Keeps origin before (running text flags) := by
  unfold running
  split
  · exact build_keeps text false
  · split
    · exact .pure
    · exact .bind (stepping_keeps _) fun _ _ _ => .pure

/-- A text is recorded if that is asked for. -/
theorem run_frame (text : String) (flags : RunOptions) (session : Session ω η) :
    ∃ machine, ((run text flags).run session).2 =
      { session.recordStep flags.record text with machine } := by
  unfold run
  dsimp only
  rw [run_modify_bind]
  split
  · rw [run_modify_bind]
    exact Keeps.kept (@running_keeps ω η _ _ _ _ text flags)
  · exact Keeps.kept (@running_keeps ω η _ _ _ _ text flags)

theorem run_records (text : String) (flags : RunOptions) (session : Session ω η) :
    Records session.history ((run text flags).run session).2.history
      (if session.recording || flags.record then [session] else []) := by
  obtain ⟨_, same⟩ := run_frame text flags session
  rw [same]
  exact .recordStep session _ _

omit [Operator ω] [Host η] in
theorem save_records (name : String) (session : Session ω η) :
    Records session.history (save name session).2.history
      (if name.isEmpty then [] else [session]) := by
  unfold save
  split
  · exact .refl _
  · exact .record session _ _

omit [Operator ω] [Host η] in
theorem load_history (text : String) (mode : Placement) (session : Session ω η) :
    (load text mode session).2.history = session.history := by
  unfold load
  split <;> rfl

theorem perform_records (request : Request) (session : Session ω η) :
    Records session.history (session.after request).history (session.moments request) := by
  cases request with
  | next count flags showState =>
    have same : (session.after (.next count flags showState)).history =
        ((nextSteps flags count "").run session).2.history := by
      unfold after perform next
      rcases ran : (nextSteps flags count "").run session with ⟨failure | said, middle⟩
      · rw [run_bind_of_error ran]
      · rw [run_bind_of_ok ran]
        cases said <;> rfl
    rw [same]
    exact nextSteps_records flags count "" session
  | run text flags => exact run_records text flags session
  | build text append =>
    obtain ⟨_, same⟩ := Keeps.kept (@build_keeps ω η _ session _ text append)
    exact .of_eq (by rw [after, perform, same])
  | buildNext append =>
    obtain ⟨_, same⟩ := Keeps.kept (@buildNext_keeps ω η _ session _ append)
    exact .of_eq (by rw [after, perform, same])
  | inch count execute =>
    obtain ⟨_, same⟩ := Keeps.kept (@inch_keeps ω η _ _ session _ count execute)
    exact .of_eq (by rw [after, perform, same])
  | save name => exact save_records name session
  | load text mode => exact .of_eq (load_history text mode session)
  | screen clear => cases clear <;> exact .refl _
  | _ => exact .refl _

theorem afterAll_records (requests : List Request) (session : Session ω η) :
    Records session.history (session.afterAll requests).history
      (session.allMoments requests) := by
  induction requests generalizing session with
  | nil => exact .refl _
  | cons request rest ih => exact (perform_records request session).trans (ih _)

end

/-- One undo takes the newest record and stands where it was made. -/
theorem undo_of_later {session : Session ω η} {record : Record} {older : List Record}
    (later : session.history.later = record :: older) :
    session.undo.2.history = ⟨session.history.first, older⟩ ∧
      session.undo.2.sandbox = record.sandbox ∧ session.undo.2.cursor = record.cursor ∧
      session.undo.2.machine.pending = [] := by
  unfold undo History.undo
  rw [later]
  exact ⟨rfl, rfl, rfl, rfl⟩

/-- Undoing as often as there are further records comes to where the first of them was made. -/
theorem undone_records {session : Session ω η} {history : History} {oldest : Record}
    (newer : List Record) (first : session.history.first = history.first)
    (later : session.history.later = newer ++ oldest :: history.later) :
    let back := undone (newer.length + 1) session
    back.history = history ∧ back.sandbox = oldest.sandbox ∧ back.cursor = oldest.cursor ∧
      back.machine.pending = [] := by
  induction newer generalizing session with
  | nil =>
    obtain ⟨before, sandbox, cursor, idle⟩ := undo_of_later later
    exact ⟨by rw [first] at before; exact before, sandbox, cursor, idle⟩
  | cons newest rest ih =>
    obtain ⟨before, _⟩ := undo_of_later later
    rw [List.length_cons, undone]
    refine ih ?_ ?_
    · rw [before]
      exact first
    · rw [before]
      rfl

section
variable [Operator ω] [Host η]

/-- Whatever was asked for and whatever came of it, as many undos as there are new records bring
back the old history, and the sandbox and the place in the program from when the first of them was
made. Nothing is pending then. -/
theorem undo_restores {session : Session ω η} {requests : List Request} {count : Nat}
    (grown : (session.afterAll requests).history.size = session.history.size + count)
    (some : 1 ≤ count) :
    (session.allMoments requests).length = count ∧
    ∃ moment, (session.allMoments requests).head? = .some moment ∧
      let back := undone count (session.afterAll requests)
      back.history = session.history ∧ back.sandbox = moment.sandbox ∧
        back.cursor = moment.cursor ∧ back.machine.pending = [] := by
  have records := afterAll_records requests session
  have length : (session.allMoments requests).length = count := by
    have sizes := records.length
    omega
  refine ⟨length, ?_⟩
  obtain ⟨first, added, later, same⟩ := records
  cases moments : session.allMoments requests with
  | nil =>
    rw [moments] at length
    subst length
    cases some
  | cons moment rest =>
    rw [moments] at same length
    cases added with
    | nil => cases same
    | cons record newer =>
      obtain ⟨here, behind⟩ := List.cons.inj same
      obtain ⟨sandbox, cursor⟩ := Prod.mk.inj here
      have many : newer.reverse.length + 1 = count := by
        rw [List.length_reverse, ← length, List.length_cons, ← List.length_map, behind,
          List.length_map]
      rw [List.reverse_cons, List.append_assoc] at later
      obtain ⟨history, live, place, idle⟩ := undone_records newer.reverse first later
      rw [many] at history live place idle
      exact ⟨moment, rfl, history, live.trans sandbox, place.trans cursor, idle⟩

end

/-- A session inside the group that its program starts with, whose operator refuses a command. -/
def halfway : Session Scripted Disabled :=
  (create (Machine.create (Sandbox.startingIn "/root") Command.standard {}
    { (default : Scripted) with commands := [.abort] } {})).afterAll
    [.load "( cd /; a=1 )\nb=2\nnosuch\nc=3" .replace, .next 1 ⟨true, false, true⟩ false,
      .inch 2 false]

/-- Inside a group: a variable is set, the sandbox is saved, and of the three nodes run then the
last one fails. Three undos stand inside the group again. -/
theorem undo_restores_halfway :
    let requests : List Request := [.var [("b", "1")] false, .save "inside",
      .next 3 ⟨false, false, false⟩ false, .skip 1]
    (halfway.afterAll requests).history.size = halfway.history.size + 3 ∧
      halfway.sandbox.depth = 1 ∧
      ((perform (.next 3 ⟨false, false, false⟩ false)).run
        (halfway.afterAll [.var [("b", "1")] false, .save "inside"])).1.isOk = false ∧
      ∃ moment, (halfway.allMoments requests).head? = some moment ∧ moment.sandbox.depth = 1 ∧
        let back := undone 3 (halfway.afterAll requests)
        back.history = halfway.history ∧ back.sandbox = moment.sandbox ∧
          back.cursor = moment.cursor ∧ back.machine.pending = [] := by
  intro requests
  have grown : (halfway.afterAll requests).history.size = halfway.history.size + 3 := by
    decide +kernel
  obtain ⟨_, moment, first, back⟩ := undo_restores grown (by decide)
  have deep : (halfway.allMoments requests).head?.map (·.sandbox.depth) = some 1 := by
    decide +kernel
  rw [first] at deep
  exact ⟨grown, by decide +kernel, by decide +kernel, moment, first, Option.some.inj deep, back⟩

end Session

end StepShell

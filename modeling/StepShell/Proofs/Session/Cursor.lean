import StepShell.Proofs.Json.Records
import StepShell.Proofs.Machine.Symmetry
import StepShell.Proofs.Session.Undoing
import StepShell.Session.Json

/-! The place of a session in its program. A record keeps the place from when it was made, and the
program may be another one when undoing comes back to it. -/

namespace StepShell

/-- All that a session can be given: a request, or what takes it back or starts it over. -/
inductive Turn where
  | ask (request : Request)
  | undo
  | importing (text : String)
  | forget
  | reset

namespace Turn

/-- Whether the turn is there to go back in the program. -/
def goesBack : Turn → Bool
  | .undo | .reset | .ask (.load ..) => true
  | _ => false

/-- How many nodes are to be skipped is a machine word. -/
def inWords : Turn → Bool
  | .ask (.skip count) => count < wordBound
  | _ => true

end Turn

theorem History.cursor_ofJson? {json : Json} {history : History}
    (read : ofJson? json = some history) : ∀ record ∈ history.later, record.cursor = 0 := by
  intro record member
  obtain ⟨records, made, rfl⟩ := Option.map_eq_some_iff.mp read
  have among : record ∈ records := by
    cases records with
    | nil => cases member
    | cons first later => exact .tail first (List.mem_reverse.mp member)
  obtain ⟨items, _, each⟩ := Option.bind_eq_some_iff.mp made
  obtain ⟨item, _, same⟩ := exists_of_mem_mapM each among
  unfold Record.ofJson? at same
  obtain ⟨fields, _, same⟩ := Option.bind_eq_some_iff.mp same
  split at same
  · obtain ⟨name, _, same⟩ := Option.bind_eq_some_iff.mp same
    obtain ⟨action, _, same⟩ := Option.bind_eq_some_iff.mp same
    obtain ⟨sandbox, _, same⟩ := Option.bind_eq_some_iff.mp same
    cases same
    rfl
  · cases same

theorem Export.cursor_ofJson? {json : Json} {file : Export} (read : ofJson? json = some file) :
    ∀ record ∈ file.history.later, record.cursor = 0 := by
  obtain ⟨fields, _, read⟩ := Option.bind_eq_some_iff.mp read
  split at read
  · obtain ⟨history, made, read⟩ := Option.bind_eq_some_iff.mp read
    obtain ⟨aliases, _, read⟩ := Option.bind_eq_some_iff.mp read
    obtain ⟨recording, _, read⟩ := Option.bind_eq_some_iff.mp read
    cases read
    exact History.cursor_ofJson? made
  · cases read

namespace Session

variable {ω η : Type}

/-- The session stands within so many nodes, and so does all that undoing brings back. -/
structure Fits (size : Nat) (session : Session ω η) : Prop where
  cursor : session.cursor ≤ size
  records : ∀ record ∈ session.history.later, record.cursor ≤ size

namespace Fits

variable {size : Nat} {session : Session ω η}

theorem mono {larger : Nat} (fits : session.Fits size) (more : size ≤ larger) :
    session.Fits larger :=
  ⟨Nat.le_trans fits.cursor more,
    fun record member => Nat.le_trans (fits.records record member) more⟩

theorem record (fits : session.Fits size) (name : Option String) (action : String) :
    (session.record name action).Fits size :=
  ⟨fits.cursor, List.forall_mem_cons.mpr ⟨fits.cursor, fits.records⟩⟩

theorem undo (fits : session.Fits size) : session.undo.2.Fits size := by
  unfold Session.undo History.undo
  cases later : session.history.later with
  | nil => exact ⟨Nat.zero_le _, List.forall_mem_nil _⟩
  | cons record older =>
    have records := fits.records
    rw [later] at records
    obtain ⟨here, behind⟩ := List.forall_mem_cons.mp records
    exact ⟨here, behind⟩

theorem undone (fits : session.Fits size) (count : Nat) : (undone count session).Fits size := by
  induction count generalizing session with
  | zero => exact fits
  | succ count ih => exact ih fits.undo

end Fits

theorem undo_program (session : Session ω η) : session.undo.2.program = session.program := by
  unfold undo
  split <;> rfl

theorem undone_program (count : Nat) (session : Session ω η) :
    (undone count session).program = session.program := by
  induction count generalizing session with
  | zero => rfl
  | succ count ih => exact (ih _).trans (undo_program session)

/-- Undoing often enough stands where a record was made. -/
theorem exists_undone {session : Session ω η} {record : Record}
    (member : record ∈ session.history.later) :
    ∃ count, (undone count session).cursor = record.cursor := by
  generalize kept : session.history.later = later at member
  induction later generalizing session with
  | nil => cases member
  | cons newest older ih =>
    obtain ⟨history, _, cursor, _⟩ := undo_of_later kept
    rcases List.mem_cons.mp member with rfl | behind
    · exact ⟨1, cursor⟩
    · obtain ⟨count, same⟩ := ih (congrArg History.later history) behind
      exact ⟨count + 1, same⟩

/-- However often it is undone, the session stands within its program just if all its records were
made there. -/
theorem undone_within_iff {session : Session ω η} :
    (∀ count, (undone count session).cursor ≤ (undone count session).program.length) ↔
      session.Fits session.program.length := by
  simp only [undone_program]
  constructor
  · intro within
    refine ⟨within 0, fun record member => ?_⟩
    obtain ⟨count, same⟩ := exists_undone member
    exact same ▸ within count
  · exact fun fits count => (fits.undone count).cursor

/-- The session goes on in the same program. -/
structure Advances (before after : Session ω η) : Prop where
  program : after.program = before.program
  cursor : before.cursor ≤ after.cursor
  fits : before.Fits before.program.length → after.Fits before.program.length

namespace Advances

variable {before middle after : Session ω η}

theorem refl (session : Session ω η) : Advances session session :=
  ⟨rfl, Nat.le_refl _, id⟩

theorem trans (early : Advances before middle) (late : Advances middle after) :
    Advances before after := by
  refine ⟨late.program.trans early.program, Nat.le_trans early.cursor late.cursor, fun fits => ?_⟩
  have onward := late.fits
  rw [early.program] at onward
  exact onward (early.fits fits)

/-- What else there is in a session is no matter. -/
theorem of_eq (program : after.program = before.program) (cursor : after.cursor = before.cursor)
    (history : after.history = before.history) : Advances before after :=
  ⟨program, Nat.le_of_eq cursor.symm,
    fun fits => ⟨cursor ▸ fits.cursor, history ▸ fits.records⟩⟩

theorem machine (machine : Machine ω η) : Advances before { before with machine } :=
  .of_eq rfl rfl rfl

theorem record (session : Session ω η) (name : Option String) (action : String) :
    Advances session (session.record name action) :=
  ⟨rfl, Nat.le_refl _, fun fits => fits.record name action⟩

theorem recordStep (session : Session ω η) (asked : Bool) (action : String) :
    Advances session (session.recordStep asked action) := by
  unfold Session.recordStep
  split
  · exact record session none action
  · exact refl session

end Advances

section
variable [Operator ω] [Host η]

/-- The node at the place of the session is behind then, and no other. -/
theorem nextStep_advances (flags : RunOptions) {node : Node} {session : Session ω η}
    (here : session.program[session.cursor]? = some node) :
    Advances session ((nextStep flags node).run session).2 := by
  obtain ⟨below, _⟩ := List.getElem?_eq_some_iff.mp here
  obtain ⟨machine, same⟩ := nextStep_frame flags node session
  have recorded := Advances.recordStep session flags.record node.shell
  have cursor : (session.recordStep flags.record node.shell).cursor = session.cursor := by
    unfold recordStep
    split <;> rfl
  rw [same]
  refine ⟨recorded.program, ?_, fun fits => ⟨?_, (recorded.fits fits).records⟩⟩
  · exact Nat.le_succ_of_le recorded.cursor
  · exact cursor ▸ below

theorem nextSteps_advances (flags : RunOptions) (count : Nat) (message : String)
    (session : Session ω η) :
    Advances session ((nextSteps flags count message).run session).2 := by
  induction count generalizing message session with
  | zero => exact .refl session
  | succ count ih =>
    rw [nextSteps, run_get_bind]
    split
    · have early : Advances session ((stepping Machine.drain).run session).2 := .machine _
      rcases drained : (stepping Machine.drain).run session with ⟨failure | value, middle⟩
      · rw [drained] at early
        rw [run_bind_of_error drained]
        exact early
      · rw [drained] at early
        rw [run_bind_of_ok drained]
        exact early.trans (ih message middle)
    · split
      · exact .refl session
      · rename_i node here
        have early := nextStep_advances flags here
        rcases ran : (nextStep flags node).run session with ⟨failure | said, middle⟩
        · rw [ran] at early
          rw [run_bind_of_error ran]
          exact early
        · rw [ran] at early
          rw [run_bind_of_ok ran]
          exact early.trans (ih _ middle)

omit [Operator ω] [Host η] in
/-- A script that has commands takes its place in the program, which then starts over. -/
theorem load_eq (text : String) (mode : Placement) (session : Session ω η) :
    (load text mode session).2 = if (Script.nodes text).isEmpty then session else
      { session with
        program := match mode with
          | .replace => Script.nodes text
          | .append => session.program ++ Script.nodes text
          | .prepend => Script.nodes text ++ session.program
        cursor := 0 } := by
  unfold load Script.nodes
  rcases Script.parse text with error | (_ | ⟨node, rest⟩) <;> rfl

/-- Whatever comes of a request, the session goes on in its program. -/
theorem after_advances {request : Request} (session : Session ω η)
    (stays : ∀ text mode, request ≠ .load text mode) (ahead : ∀ count, request ≠ .skip count) :
    Advances session (session.after request) := by
  cases request with
  | next count flags showState =>
    have same : session.after (.next count flags showState) =
        ((nextSteps flags count "").run session).2 := by
      unfold after perform next
      rcases ran : (nextSteps flags count "").run session with ⟨failure | said, middle⟩
      · rw [run_bind_of_error ran]
      · rw [run_bind_of_ok ran]
        cases said <;> rfl
    rw [same]
    exact nextSteps_advances flags count "" session
  | run text flags =>
    obtain ⟨machine, same⟩ := run_frame text flags session
    rw [after, perform, same]
    exact (Advances.recordStep session flags.record text).trans (.machine machine)
  | build text append =>
    obtain ⟨machine, same⟩ := Keeps.kept (@build_keeps ω η _ session _ text append)
    rw [after, perform, same]
    exact .machine machine
  | buildNext append =>
    obtain ⟨machine, same⟩ := Keeps.kept (@buildNext_keeps ω η _ session _ append)
    rw [after, perform, same]
    exact .machine machine
  | inch count execute =>
    obtain ⟨machine, same⟩ := Keeps.kept (@inch_keeps ω η _ _ session _ count execute)
    rw [after, perform, same]
    exact .machine machine
  | save name =>
    change Advances session (save name session).2
    unfold save
    split
    · exact .refl session
    · exact .record session _ _
  | load text mode => exact absurd rfl (stays text mode)
  | skip count => exact absurd rfl (ahead count)
  | screen clear => cases clear <;> exact .of_eq rfl rfl rfl
  | _ => exact .of_eq rfl rfl rfl

/-- The session after a turn, whatever came of it. -/
def turned (session : Session ω η) : Turn → Session ω η
  | .ask request => session.after request
  | .undo => session.undo.2
  | .importing text => ((importText text).run session).2
  | .forget => session.forgetHistory.2
  | .reset => session.reset.2

/-- What is asked of a turn: however often it is undone then, the session stands within its program;
skipping goes just so far ahead as the program allows; and nothing else goes back that is not there
for it. -/
structure InPlace (session : Session ω η) (turn : Turn) : Prop where
  within : ∀ count, (undone count (session.turned turn)).cursor ≤
    (undone count (session.turned turn)).program.length
  skips : ∀ count, turn = .ask (.skip count) →
    (session.turned turn).cursor = min (session.cursor + count) session.program.length
  onward : turn.goesBack = false → session.cursor ≤ (session.turned turn).cursor

omit [Operator ω] [Host η] in
/-- Whether the turn neither puts a program in place of one that the records reach further into, nor
skips so far that the sum is no machine word. -/
def spares (session : Session ω η) : Turn → Bool
  | .ask (.load text .replace) => (Script.nodes text).isEmpty ||
    session.history.later.all fun record => record.cursor ≤ (Script.nodes text).length
  | .ask (.skip count) => session.cursor + count < wordBound
  | _ => true

omit [Operator ω] [Host η] in
theorem importText_advances (text : String) (session : Session ω η) :
    Advances session ((importText text).run session).2 := by
  unfold importText
  split
  · exact .refl session
  · rename_i file read
    obtain ⟨json, _, read⟩ := Option.bind_eq_some_iff.mp read
    refine ⟨rfl, Nat.le_refl _, fun fits => ⟨fits.cursor, fun record member => ?_⟩⟩
    exact Export.cursor_ofJson? read record member ▸ Nat.zero_le _

namespace InPlace

variable {session : Session ω η} {turn : Turn}

/-- A turn that does not skip and goes on in the same program. -/
theorem of_advances (advances : Advances session (session.turned turn))
    (fits : session.Fits session.program.length) (walks : ∀ count, turn ≠ .ask (.skip count)) :
    session.InPlace turn := by
  refine ⟨undone_within_iff.mpr ?_, fun count same => absurd same (walks count),
    fun _ => advances.cursor⟩
  rw [advances.program]
  exact advances.fits fits

/-- A turn that is there to go back. -/
theorem iff_fits (back : turn.goesBack = true) : session.InPlace turn ↔
    (session.turned turn).Fits (session.turned turn).program.length := by
  refine ⟨fun inPlace => undone_within_iff.mp inPlace.within,
    fun fits => ⟨undone_within_iff.mpr fits, ?_, fun onward => ?_⟩⟩
  · rintro count rfl
    cases back
  · rw [back] at onward
    cases onward

end InPlace

/-- Skipping goes as far as it should just if the sum of the counts is a machine word. -/
theorem skip_exact_iff {session : Session ω η} {count : Nat}
    (within : session.cursor ≤ session.program.length) (word : count < wordBound) :
    (session.after (.skip count)).cursor = min (session.cursor + count) session.program.length ↔
      session.cursor + count < wordBound := by
  change min ((session.cursor + count) % wordBound) session.program.length = _ ↔ _
  constructor
  · intro exact
    refine Nat.lt_of_not_le fun wraps => ?_
    -- what is left of the sum is less than the place to start from
    have left : (session.cursor + count) % wordBound ≤ session.cursor + count - wordBound := by
      rw [Nat.mod_eq_sub_mod wraps]
      exact Nat.mod_le _ _
    omega
  · intro whole
    rw [Nat.mod_eq_of_lt whole]

theorem skip_inPlace_iff {session : Session ω η} {count : Nat}
    (fits : session.Fits session.program.length) (word : count < wordBound) :
    session.InPlace (.ask (.skip count)) ↔ session.cursor + count < wordBound := by
  constructor
  · exact fun inPlace => (skip_exact_iff fits.cursor word).mp (inPlace.skips count rfl)
  · intro whole
    have ahead := (skip_exact_iff fits.cursor word).mpr whole
    refine ⟨undone_within_iff.mpr ⟨Nat.min_le_right _ _, fits.records⟩, ?_, fun _ => ?_⟩
    · rintro _ ⟨⟩
      exact ahead
    · have cursor : (session.turned (.ask (.skip count))).cursor =
          min (session.cursor + count) session.program.length := ahead
      rw [cursor]
      exact Nat.le_min.mpr ⟨Nat.le_add_right _ _, fits.cursor⟩

theorem load_inPlace_iff {session : Session ω η} {text : String} {mode : Placement}
    (fits : session.Fits session.program.length) :
    session.InPlace (.ask (.load text mode)) ↔
      session.spares (.ask (.load text mode)) = true := by
  have loaded : session.turned (.ask (.load text mode)) = (load text mode session).2 := rfl
  rw [InPlace.iff_fits rfl, loaded, load_eq]
  by_cases empty : (Script.nodes text).isEmpty
  · rw [if_pos empty]
    refine iff_of_true fits ?_
    cases mode <;> simp [spares, empty]
  · rw [if_neg empty]
    cases mode with
    | replace =>
      simp only [spares, empty, Bool.false_or, List.all_eq_true, decide_eq_true_eq]
      exact ⟨Fits.records, fun records => ⟨Nat.zero_le _, records⟩⟩
    | append =>
      refine iff_of_true ⟨Nat.zero_le _, (fits.mono ?_).records⟩ rfl
      simp
    | prepend =>
      refine iff_of_true ⟨Nat.zero_le _, (fits.mono ?_).records⟩ rfl
      simp

/-- The session goes on as is asked of it just in the turns that spare its records and sums. -/
theorem inPlace_iff {session : Session ω η} {turn : Turn}
    (fits : session.Fits session.program.length) (word : turn.inWords = true) :
    session.InPlace turn ↔ session.spares turn = true := by
  cases turn with
  | ask request =>
    cases request with
    | load text mode => exact load_inPlace_iff fits
    | skip count =>
      rw [skip_inPlace_iff fits (of_decide_eq_true word)]
      exact decide_eq_true_iff.symm
    | _ => exact iff_of_true (.of_advances (after_advances session nofun nofun) fits nofun) rfl
  | undo =>
    refine iff_of_true ((InPlace.iff_fits rfl).mpr ?_) rfl
    change session.undo.2.Fits session.undo.2.program.length
    rw [undo_program]
    exact fits.undo
  | importing text =>
    exact iff_of_true (.of_advances (importText_advances text session) fits nofun) rfl
  | forget =>
    have advances : Advances session session.forgetHistory.2 :=
      ⟨rfl, Nat.le_refl _, fun fits => ⟨fits.cursor, List.forall_mem_nil _⟩⟩
    exact iff_of_true (.of_advances advances fits nofun) rfl
  | reset =>
    exact iff_of_true ((InPlace.iff_fits rfl).mpr ⟨Nat.le_refl _, List.forall_mem_nil _⟩) rfl

/-- The same of turns one after the other. -/
def InPlaceAll (session : Session ω η) : List Turn → Prop
  | [] => True
  | turn :: rest => session.InPlace turn ∧ (session.turned turn).InPlaceAll rest

def sparesAll (session : Session ω η) : List Turn → Bool
  | [] => true
  | turn :: rest => session.spares turn && (session.turned turn).sparesAll rest

theorem inPlaceAll_iff {session : Session ω η} {turns : List Turn}
    (fits : session.Fits session.program.length) (words : ∀ turn ∈ turns, turn.inWords = true) :
    session.InPlaceAll turns ↔ session.sparesAll turns = true := by
  induction turns generalizing session with
  | nil => exact iff_of_true trivial rfl
  | cons turn rest ih =>
    obtain ⟨word, later⟩ := List.forall_mem_cons.mp words
    have here := inPlace_iff fits word
    rw [InPlaceAll, sparesAll, Bool.and_eq_true, ← here]
    refine and_congr_right fun inPlace => ih (undone_within_iff.mp inPlace.within) later

/-- In a new session all turns go on in the program as is asked of them, just if each of them spares
what the session has recorded and does not skip beyond the machine words. -/
theorem cursor_inPlace_iff {machine : Machine ω η} {turns : List Turn}
    (words : ∀ turn ∈ turns, turn.inWords = true) :
    (create machine).InPlaceAll turns ↔ (create machine).sparesAll turns = true :=
  inPlaceAll_iff ⟨Nat.le_refl _, List.forall_mem_nil _⟩ words

end

/-- A program is run and another one put behind it, and after an undo a script is imported that was
saved at the end of the program. -/
theorem cursor_inPlace_turning :
    let turns : List Turn := [.ask (.load "pwd\npwd" .replace),
      .ask (.next 2 ⟨false, false, false⟩ false), .ask (.load "echo a\necho b" .append),
      .ask (.skip 3), .ask (.save "far"),
      .ask (.load "cd /" .prepend), .undo, .ask (.skip (wordBound - 4)),
      .importing (create Machine.fresh).exportText, .forget, .ask (.load "pwd" .replace), .reset]
    (∀ turn ∈ turns, turn.inWords = true) ∧ (create Machine.fresh).InPlaceAll turns := by
  intro turns
  have words : ∀ turn ∈ turns, turn.inWords = true := by decide
  exact ⟨words, (cursor_inPlace_iff words).mpr (by decide +kernel)⟩

/-- Undoing comes back to the third node of a program that another one has replaced since then,
which has only one; skipping nothing goes back from there. A sum that is no machine word goes back
to the start. -/
theorem undo_beyond_program :
    let session := (create Machine.fresh).afterAll
      [.load "pwd\npwd\npwd" .replace, .next 3 ⟨false, false, false⟩ false, .load "pwd" .replace]
    session.undo.2.cursor = 2 ∧ session.undo.2.program.length = 1 ∧
      (session.undo.2.after (.skip 0)).cursor = 1 ∧
      ((create Machine.fresh).afterAll
        [.load "pwd\npwd" .replace, .skip 1, .skip (wordBound - 1)]).cursor = 0 := by
  decide +kernel

end Session

end StepShell

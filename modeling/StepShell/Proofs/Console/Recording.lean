import StepShell.Proofs.Console.Turns

/-! Whether a session records once a file of settings is imported. Only the modes that are carried
out meanwhile should make a difference, and nothing should be recorded unasked before the first of
them. The turns of the import tell exactly when that is so. -/

namespace StepShell

namespace Console

/-- The turns before a mode is carried out. -/
def uncarried (turns : List Turn) : List Turn :=
  turns.takeWhile fun turn => turn.mode?.isNone

theorem carried_append (first second : List Turn) :
    carried (first ++ second) = carried first ++ carried second :=
  List.filterMap_append

theorem mem_of_mem_uncarried {turns : List Turn} {turn : Turn} (member : turn ∈ uncarried turns) :
    turn ∈ turns :=
  (List.takeWhile_sublist _).subset member

theorem uncarried_cons {turn : Turn} (uncarries : turn.mode? = none) (rest : List Turn) :
    uncarried (turn :: rest) = turn :: uncarried rest :=
  List.takeWhile_cons_of_pos (by rw [uncarries]; rfl)

/-- A turn that carries out no mode and records nothing makes no difference to what is recorded
before a mode is carried out. -/
theorem recorded_mem_cons (turn : Turn) {rest : List Turn} (uncarries : turn.mode? = none)
    (other : turn ≠ .recorded) :
    .recorded ∈ uncarried (turn :: rest) ↔ .recorded ∈ uncarried rest := by
  rw [uncarried_cons uncarries, List.mem_cons, or_iff_right other.symm]

theorem recorded_mem_append {turns closing : List Turn} (none : .recorded ∉ closing) :
    .recorded ∈ uncarried (turns ++ closing) ↔ .recorded ∈ uncarried turns := by
  induction turns with
  | nil =>
    constructor
    · exact fun member => absurd (mem_of_mem_uncarried member) none
    · exact fun member => absurd member List.not_mem_nil
  | cons turn rest ih =>
    have further (uncarries : turn.mode? = .none) (other : turn ≠ .recorded) :
        .recorded ∈ uncarried (turn :: rest ++ closing) ↔
          .recorded ∈ uncarried (turn :: rest) := by
      rw [List.cons_append, recorded_mem_cons turn uncarries other, ih,
        recorded_mem_cons turn uncarries other]
    cases turn with
    | carried => exact Iff.rfl
    | read | put => exact further rfl nofun
    | recorded => exact iff_of_true List.mem_cons_self List.mem_cons_self

/-- Where a session did not record, it records unasked only behind a mode that is carried out or a
session that is read. -/
theorem Tame.read_of_recorded {turns : List Turn} (tame : Tame turns)
    (member : .recorded ∈ uncarried turns) :
    ∃ earlier later, uncarried turns = earlier ++ .read true :: later ∧ .recorded ∈ later := by
  induction turns with
  | nil => exact absurd member List.not_mem_nil
  | cons turn rest ih =>
    have further (uncarries : turn.mode? = none) (other : turn ≠ .recorded) (tame : Tame rest) :
        ∃ earlier later, uncarried (turn :: rest) = earlier ++ .read true :: later ∧
          .recorded ∈ later := by
      obtain ⟨earlier, later, split, recorded⟩ :=
        ih tame ((recorded_mem_cons turn uncarries other).mp member)
      refine ⟨turn :: earlier, later, ?_, recorded⟩
      rw [uncarried_cons uncarries, split, List.cons_append]
    cases turn with
    | carried => exact absurd member List.not_mem_nil
    | read recording =>
      cases recording with
      | true =>
        exact ⟨[], uncarried rest, rfl, (recorded_mem_cons (.read true) rfl nofun).mp member⟩
      | false => exact further rfl nofun (tame.resolve_left Bool.false_ne_true)
    | put => exact further rfl nofun tame.2
    | recorded => exact tame.elim

/-- The turn is of the file itself: no other file is read in it. -/
def Turn.isOwn : Turn → Bool
  | .carried _ | .recorded => true
  | .read _ | .put _ => false

theorem turned_own {turns : List Turn} (own : ∀ turn ∈ turns, turn.isOwn) (recording : Bool) :
    turned turns recording = applied (carried turns) recording := by
  induction turns generalizing recording with
  | nil => rfl
  | cons turn rest ih =>
    obtain ⟨first, later⟩ := List.forall_mem_cons.mp own
    cases turn with
    | carried | recorded => exact ih later _
    | read | put => cases first

/-- Modes come to the same from both if one of them does not toggle. -/
theorem applied_eq_iff {modes : List RecordingMode} {one other : Bool} :
    applied modes one = applied modes other ↔ one = other ∨ ∃ mode ∈ modes, mode ≠ .toggle := by
  induction modes generalizing one other with
  | nil => simp [applied]
  | cons mode rest ih =>
    change applied rest (mode.apply one) = applied rest (mode.apply other) ↔ _
    rw [ih]
    cases mode <;> simp [RecordingMode.apply]

section
variable {ω η : Type} [Operator ω] [Host η]

/-- The turns while the lines of a file are carried out. -/
def insideTurns (depth : Nat) (text : String) (before : Console ω η × Disk) : List Turn :=
  linesTurns (importFile depth) (importTurns depth) (Text.lines text)
    (whileImporting before.1, before.2)

/-- An import leaves it whether the session records, but for the modes that are carried out in it,
and nothing is recorded unasked before the first of them. -/
structure Restored (depth : Nat) (path : String) (before : Console ω η × Disk) : Prop where
  unrecorded : .recorded ∉ uncarried (importTurns depth path before)
  recording : records (ran (importFile depth path) before).2 =
    applied (carried (importTurns depth path before)) (records before)

/-- What the lines of a file must come to for an import of it to leave what it should. -/
structure Restorable (depth : Nat) (text : String) (before : Console ω η × Disk) : Prop where
  /-- Nothing is recorded unasked behind a session that is read before a mode is carried out. -/
  unread : ∀ earlier later, uncarried (insideTurns depth text before) =
    earlier ++ .read true :: later → .recorded ∉ later
  /-- Where a line is a `history` with an argument, the turns come to what the modes should, though
  the session does not record before them. -/
  said : (Text.lines text).any setsHistory → turned (insideTurns depth text before) false =
    applied (carried (insideTurns depth text before)) (records before)
  /-- Where no line is one, the modes that are carried out all the same come to nothing. -/
  unsaid : ¬(Text.lines text).any setsHistory →
    applied (carried (insideTurns depth text before)) (records before) = records before

variable {depth : Nat} {path text : String} {before : Console ω η × Disk}

theorem importTurns_of_read (depth : Nat) (found : before.2.read? path = some text) :
    importTurns (depth + 1) path before = .put false :: insideTurns depth text before ++
      if (Text.lines text).any setsHistory then [] else [.put (records before)] := by
  rw [importTurns, found]
  rfl

theorem restored_of_missing (missing : before.2.read? path = none) :
    Restored depth path before := by
  have none : importTurns depth path before = [] := by
    cases depth with
    | zero => rfl
    | succ depth => rw [importTurns, missing]
  have same := (importFile_tells depth path before).result
  rw [none] at same
  exact ⟨by simp [none, uncarried], by rw [none]; exact same⟩

theorem restored_succ_iff (found : before.2.read? path = some text) :
    Restored (depth + 1) path before ↔ Restorable depth text before := by
  have turns := importTurns_of_read depth found
  have result := (importFile_tells (depth + 1) path before).result
  have tame : Tame (insideTurns depth text before) :=
    ((importFile_tells depth).importLines _ (whileImporting before.1, before.2)).tame rfl
  have modes : carried (importTurns (depth + 1) path before) =
      carried (insideTurns depth text before) := by
    rw [turns, carried_append]
    split <;> exact List.append_nil _
  have unasked : .recorded ∈ uncarried (importTurns (depth + 1) path before) ↔
      .recorded ∈ uncarried (insideTurns depth text before) := by
    rw [turns, recorded_mem_append (by split <;> simp),
      recorded_mem_cons (.put false) rfl nofun]
  have comes : records (ran (importFile (depth + 1) path) before).2 =
      if (Text.lines text).any setsHistory then turned (insideTurns depth text before) false
      else records before := by
    rw [result, turns, turned_append]
    split <;> rfl
  constructor
  · rintro ⟨unrecorded, recording⟩
    rw [unasked] at unrecorded
    rw [comes, modes] at recording
    constructor
    · intro earlier later split member
      rw [split] at unrecorded
      exact unrecorded (List.mem_append_right _ (List.mem_cons_of_mem _ member))
    · intro speaks
      rwa [if_pos speaks] at recording
    · intro silent
      rw [if_neg silent] at recording
      exact recording.symm
  · rintro ⟨unread, said, unsaid⟩
    constructor
    · rw [unasked]
      intro member
      obtain ⟨earlier, later, split, recorded⟩ := tame.read_of_recorded member
      exact unread earlier later split recorded
    · rw [comes, modes]
      split
      · rename_i speaks
        exact said speaks
      · rename_i silent
        exact (unsaid silent).symm

/-- Where no other file is read, a file that says whether the session records must have a mode
carried out that does not toggle, unless the session did not record before. -/
theorem restorable_own_iff (own : ∀ turn ∈ insideTurns depth text before, turn.isOwn) :
    Restorable depth text before ↔ if (Text.lines text).any setsHistory then
        records before = false ∨ ∃ mode ∈ carried (insideTurns depth text before), mode ≠ .toggle
      else applied (carried (insideTurns depth text before)) (records before) = records before := by
  have unread : ∀ earlier later, uncarried (insideTurns depth text before) =
      earlier ++ .read true :: later → .recorded ∉ later := by
    intro earlier later split
    have member : .read true ∈ insideTurns depth text before :=
      mem_of_mem_uncarried (by rw [split]; simp)
    cases own _ member
  have settled : turned (insideTurns depth text before) false =
      applied (carried (insideTurns depth text before)) (records before) ↔
      records before = false ∨
        ∃ mode ∈ carried (insideTurns depth text before), mode ≠ .toggle := by
    rw [turned_own own, applied_eq_iff, eq_comm]
  constructor
  · rintro ⟨_, said, unsaid⟩
    split
    · rename_i speaks
      exact settled.mp (said speaks)
    · rename_i silent
      exact unsaid silent
  · intro right
    refine ⟨unread, fun speaks => ?_, fun silent => ?_⟩
    · rw [if_pos speaks] at right
      exact settled.mpr right
    · rwa [if_neg silent] at right

/-- Whether a session records after an import is what the turns of the import make of it. This is
as the modes alone should have it exactly if there is no file, or no room for the import, or the lines
of the file come to what they must. -/
theorem restored_iff (depth : Nat) (path : String) (before : Console ω η × Disk) :
    records (ran (importFile depth path) before).2 =
        turned (importTurns depth path before) (records before) ∧
      (Restored depth path before ↔ ∀ inner text, depth = inner + 1 →
        before.2.read? path = some text → Restorable inner text before) ∧
      ∀ inner text, (∀ turn ∈ insideTurns inner text before, turn.isOwn) →
        (Restorable inner text before ↔ if (Text.lines text).any setsHistory then
            records before = false ∨
              ∃ mode ∈ carried (insideTurns inner text before), mode ≠ .toggle
          else applied (carried (insideTurns inner text before)) (records before) =
            records before) := by
  refine ⟨(importFile_tells depth path before).result, ?_,
    fun inner text => restorable_own_iff⟩
  cases found : before.2.read? path with
  | none => exact ⟨fun _ => nofun, fun _ => restored_of_missing found⟩
  | some text =>
    cases depth with
    | zero => exact ⟨fun _ => nofun, fun _ => ⟨List.not_mem_nil, rfl⟩⟩
    | succ depth =>
      rw [restored_succ_iff found]
      constructor
      · rintro restorable _ _ ⟨⟩ ⟨⟩
        exact restorable
      · exact fun all => all depth text rfl rfl

end

/-- A disk with a file of settings that turns recording off and on again. -/
def toggling : Disk :=
  ⟨.ofList [("c", "history off\nrun echo hi\nhistory toggle")], "home"⟩

theorem toggling_restored : Restored 1 "c" (opened, toggling) := by
  have held : toggling.read? "c" = some "history off\nrun echo hi\nhistory toggle" := by
    decide +kernel
  obtain ⟨-, whole, own⟩ := restored_iff 1 "c" (opened, toggling)
  refine whole.mpr fun inner text depth found => ?_
  obtain rfl : inner = 0 := by omega
  obtain rfl : text = _ := Option.some.inj (found.symm.trans held)
  refine (own 0 _ (by decide +kernel)).mpr ?_
  rw [if_pos (by decide +kernel)]
  exact .inr ⟨.off, by decide +kernel, by decide⟩

/-- A disk with a file of settings whose line is a `history` with an argument that is no mode. -/
def misspelled : Disk :=
  ⟨.ofList [("c", "history maybe")], "home"⟩

/-- The line carries no mode out, and yet the session does not record any more. -/
theorem misspelled_not_restored :
    records (opened, misspelled) = true ∧
      carried (importTurns 1 "c" (opened, misspelled)) = [] ∧
      records (ran (importFile 1 "c") (opened, misspelled)).2 = false ∧
      ¬Restored 1 "c" (opened, misspelled) := by
  have before : records (opened, misspelled) = true := rfl
  have modes : carried (importTurns 1 "c" (opened, misspelled)) = [] := by decide +kernel
  have after : records (ran (importFile 1 "c") (opened, misspelled)).2 = false := by
    decide +kernel
  refine ⟨before, modes, after, fun restored => ?_⟩
  have recording := restored.recording
  rw [after, modes, before] at recording
  cases recording

end Console

end StepShell

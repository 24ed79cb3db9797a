import Mathlib.Data.List.TakeWhile
import StepShell.Operator.Prompted
import StepShell.Proofs.Text.Lines

/-! Answers in writing. All questions share one text of answers, so an answer reaches the question
it was meant for only if each question before it took its own lines and no more. A question is
answered by a stretch of the text exactly; where no line of the text is an answer, the safe reply is
given. -/

namespace StepShell

namespace Prompted

variable {text line rest : List Char} {before : Prompted}

/-- Questions were written and the text of answers was read up to `rest`. -/
def left (before : Prompted) (rest : List Char) (questions : String) : Prompted :=
  { before with unread := rest, written := before.written ++ questions }

@[simp] theorem left_unread (questions : String) : (before.left rest questions).unread = rest := rfl

theorem left_left (middle : List Char) (first second : String) :
    (before.left middle first).left rest second = before.left rest (first ++ second) := by
  rw [left, left, left, String.append_assoc]

/-- The text begins with this line, and `rest` follows it. The last line of a text needs no
newline. -/
inductive Begins : List Char → List Char → List Char → Prop
  | ended {line rest : List Char} : '\n' ∉ line → Begins (line ++ '\n' :: rest) line rest
  | last {line : List Char} : '\n' ∉ line → line ≠ [] → Begins line line []

/-- A line as it is taken, without the carriage returns at its end. -/
def taken (line : List Char) : List Char :=
  Text.dropEndWhile (fun c => c == '\n' || c == '\r') line

/-- Lines with their newlines. -/
def typed (lines : List (List Char)) : List Char :=
  lines.flatMap (· ++ ['\n'])

theorem typed_cons (line : List Char) (lines : List (List Char)) (rest : List Char) :
    typed (line :: lines) ++ rest = line ++ '\n' :: (typed lines ++ rest) := by
  rw [typed, List.flatMap_cons, List.append_assoc, List.append_assoc]
  rfl

section Lines

theorem splitLine_free (free : '\n' ∉ line) (rest : List Char) :
    splitLine (line ++ '\n' :: rest) = (line ++ ['\n'], rest) := by
  induction line with
  | nil => rfl
  | cons c line ih =>
    obtain ⟨other, later⟩ := not_or.mp (mt List.mem_cons.mpr free)
    rw [List.cons_append, splitLine, if_neg (Ne.symm other), ih later]
    rfl

theorem splitLine_last (free : '\n' ∉ line) : splitLine line = (line, []) := by
  induction line with
  | nil => rfl
  | cons c line ih =>
    obtain ⟨other, later⟩ := not_or.mp (mt List.mem_cons.mpr free)
    rw [splitLine, if_neg (Ne.symm other), ih later]

theorem taken_newline (line : List Char) : taken (line ++ ['\n']) = taken line := by
  rw [taken, Text.dropEndWhile, List.reverse_append]
  rfl

theorem taken_line (whole : Text.IsLine line) : taken line = line := by
  rw [taken, Text.dropEndWhile]
  have kept : line.reverse.dropWhile (fun c => c == '\n' || c == '\r') = line.reverse := by
    cases reversed : line.reverse with
    | nil => rfl
    | cons c others =>
      have member : c ∈ line := List.mem_reverse.mp (reversed ▸ List.mem_cons_self)
      have last : line.getLast? = some c := by rw [← List.head?_reverse, reversed]; rfl
      refine List.dropWhile_cons_of_neg ?_
      rw [Bool.or_eq_true, beq_iff_eq, beq_iff_eq]
      rintro (rfl | rfl)
      · exact whole.newline member
      · exact whole.ending last
  rw [kept, List.reverse_reverse]

/-- Every text that is not read to its end begins with a line. -/
theorem exists_begins (some : text ≠ []) :
    ∃ line rest, Begins text line rest ∧ rest.length < text.length := by
  by_cases newline : '\n' ∈ text
  · obtain ⟨line, rest, rfl, free⟩ := List.eq_append_cons_of_mem newline
    exact ⟨line, rest, .ended free, by simp; omega⟩
  · exact ⟨text, [], .last newline some, List.length_pos_iff.mpr some⟩

/-- What holds of all lines of a text, and of the empty line, holds of the first line and of all
that follow. -/
theorem Begins.cutAt {property : List Char → Prop} (begins : Begins text line rest)
    (empty : property []) (each : ∀ line ∈ Text.cutAt (· == '\n') text, property line) :
    property line ∧ ∀ line ∈ Text.cutAt (· == '\n') rest, property line := by
  have whole : ∀ {line : List Char}, '\n' ∉ line → ∀ c ∈ line, (c == '\n') = false :=
    fun free c member => beq_eq_false_iff_ne.mpr fun same => free (same ▸ member)
  cases begins with
  | ended free =>
    rw [Text.cutAt_append rfl (whole free)] at each
    exact List.forall_mem_cons.mp each
  | last free _ =>
    rw [Text.cutAt_of_free (whole free)] at each
    exact ⟨List.forall_mem_singleton.mp each, List.forall_mem_singleton.mpr empty⟩

end Lines

section Asking

theorem ask_of_ne_nil (some : before.unread ≠ []) (question : String) :
    ask question before =
      (.some (taken (splitLine before.unread).1),
        before.left (splitLine before.unread).2 question) := by
  unfold ask
  dsimp only
  split
  · rename_i none
    exact absurd none some
  · rfl

theorem ask_begins (begins : Begins before.unread line rest) (question : String) :
    ask question before = (some (taken line), before.left rest question) := by
  generalize unread : before.unread = text at begins
  cases begins with
  | ended free =>
    rw [ask_of_ne_nil (by simp [unread]), unread, splitLine_free free, taken_newline]
  | last free some =>
    rw [ask_of_ne_nil (unread ▸ some), unread, splitLine_last free]

theorem ask_end (none : before.unread = []) (question : String) :
    ∃ after, ask question before = (.none, after) ∧ after.unread = [] := by
  unfold ask
  rw [none]
  exact ⟨_, rfl, rfl⟩

end Asking

/-- The letter that a line answers with: its first character that is no blank, in lower case. -/
def letter? (line : List Char) : Option Char :=
  (line.find? fun c => !Text.isBlank c).map Char.toLower

/-- The question as often as it was asked. -/
def repeated (question : String) : Nat → String
  | 0 => ""
  | count + 1 => question ++ repeated question count

section Choosing

variable {question : String} {choices : List Char}

theorem head?_trimChars (line : List Char) :
    (Text.trimChars line).head? = line.find? fun c => !Text.isBlank c := by
  have begun : (line.dropWhile Text.isBlank).head? = line.find? fun c => !Text.isBlank c := by
    rw [List.find?_eq_head?_dropWhile_not]
    simp
  rw [← begun, Text.trimChars, Text.dropEndWhile]
  have solid := List.head?_dropWhile_not Text.isBlank line
  cases kept : line.dropWhile Text.isBlank with
  | nil => rfl
  | cons c others =>
    have first : Text.isBlank c = false := by simpa [kept] using solid
    rw [List.reverse_cons, List.dropWhile_append]
    split
    · rw [List.dropWhile_cons_of_neg (by simp [first])]
      rfl
    · rw [List.reverse_append]
      rfl

/-- The first letter of a line is found after trimming, and whatever ends the line. -/
theorem letter?_taken (line : List Char) :
    (Text.trimChars (taken line)).head?.map Char.toLower = letter? line := by
  let isEnd : Char → Bool := fun c => c == '\n' || c == '\r'
  have whole : line = taken line ++ (line.reverse.takeWhile isEnd).reverse := by
    rw [taken, Text.dropEndWhile, ← List.reverse_append, List.takeWhile_append_dropWhile,
      List.reverse_reverse]
  have ends : (line.reverse.takeWhile isEnd).reverse.find? (fun c => !Text.isBlank c) = none := by
    refine List.find?_eq_none.mpr fun c member => ?_
    have ending : isEnd c := List.mem_takeWhile_imp (List.mem_reverse.mp member)
    rw [Bool.or_eq_true, beq_iff_eq, beq_iff_eq] at ending
    rcases ending with rfl | rfl <;> decide
  have found : (line.find? fun c => !Text.isBlank c) =
      (taken line).find? fun c => !Text.isBlank c := by
    refine (congrArg (List.find? fun c => !Text.isBlank c) whole).trans ?_
    rw [List.find?_append, ends, Option.or_none]
  rw [head?_trimChars, letter?, found]

/-- One round of a question: its line is an answer, or the question is asked again. -/
theorem choose_begins (begins : Begins before.unread line rest) :
    choose question choices before =
      ((letter? line).filter choices.contains).elim
        (choose question choices (before.left rest question))
        fun choice => (some choice, before.left rest question) := by
  rw [choose]
  split
  · rename_i asked
    rw [ask_begins begins] at asked
    cases asked
  · rename_i asked
    rw [ask_begins begins] at asked
    cases asked
    rw [letter?_taken]
    cases letter? line with
    | none => rfl
    | some choice =>
      rw [Option.filter_some]
      dsimp only
      split <;> rfl

/-- A line with another letter, or none, is passed over and the question asked again. -/
theorem choose_refused (begins : Begins before.unread line rest)
    (refused : ∀ choice ∈ choices, letter? line ≠ some choice) :
    choose question choices before = choose question choices (before.left rest question) := by
  have none : (letter? line).filter choices.contains = none :=
    Option.filter_eq_none_iff.mpr fun choice letter offered =>
      refused choice (List.contains_iff_mem.mp offered) letter
  rw [choose_begins begins, none, Option.elim_none]

theorem choose_taken (begins : Begins before.unread line rest) {choice : Char}
    (letter : letter? line = some choice) (offered : choice ∈ choices) :
    choose question choices before = (some choice, before.left rest question) := by
  rw [choose_begins begins, letter, Option.filter_some_pos (List.contains_iff_mem.mpr offered),
    Option.elim_some]

/-- Lines that are no answer are each read once, and the next that is one is taken. -/
theorem choose_typed {lines : List (List Char)} {tail : List Char} {choice : Char}
    (free : ∀ line ∈ lines, '\n' ∉ line)
    (refused : ∀ line ∈ lines, ∀ choice ∈ choices, letter? line ≠ some choice)
    (begins : Begins tail line rest) (letter : letter? line = some choice)
    (offered : choice ∈ choices) (unread : before.unread = typed lines ++ tail) :
    choose question choices before =
      (some choice, before.left rest (repeated question (lines.length + 1))) := by
  induction lines generalizing before with
  | nil =>
    have here : Begins before.unread line rest := by rwa [unread]
    rw [choose_taken here letter offered, List.length_nil, repeated, repeated,
      String.append_empty]
  | cons first lines ih =>
    obtain ⟨firstFree, laterFree⟩ := List.forall_mem_cons.mp free
    obtain ⟨firstRefused, laterRefused⟩ := List.forall_mem_cons.mp refused
    rw [typed_cons] at unread
    have here : Begins before.unread first (typed lines ++ tail) := by
      rw [unread]
      exact .ended firstFree
    rw [choose_refused here firstRefused, ih laterFree laterRefused rfl, left_left]
    rfl

/-- Where no line is an answer, the question is asked until the text ends. -/
theorem choose_runsOut
    (refused : ∀ line ∈ Text.cutAt (· == '\n') before.unread,
      ∀ choice ∈ choices, letter? line ≠ some choice) :
    ∃ after, choose question choices before = (none, after) ∧ after.unread = [] := by
  induction size : before.unread.length using Nat.strongRecOn generalizing before with
  | _ size ih =>
    by_cases unread : before.unread = []
    · obtain ⟨after, asked, ended⟩ := ask_end unread question
      refine ⟨after, ?_, ended⟩
      rw [choose]
      split
      · rename_i found
        rw [asked] at found
        cases found
        rfl
      · rename_i found
        rw [asked] at found
        cases found
    · obtain ⟨line, rest, begins, shorter⟩ := exists_begins unread
      obtain ⟨first, later⟩ := begins.cutAt (fun _ _ => Option.some_ne_none _ |>.symm) refused
      rw [choose_refused begins first]
      exact ih rest.length (by omega) later rfl

end Choosing

section Supplying

variable {question : String}

/-- One round of the lines: a line that is no dot stands before those that are read behind it. -/
theorem linesFrom_begins {first : List Char} (other : first ≠ ['.'])
    (begins : Begins before.unread line rest) :
    linesFrom first before =
      ((linesFrom (taken line) (before.left rest "")).1.map (first :: ·),
        (linesFrom (taken line) (before.left rest "")).2) := by
  rw [linesFrom, if_neg other]
  split
  · rename_i asked
    rw [ask_begins begins] at asked
    cases asked
  · rename_i asked
    rw [ask_begins begins] at asked
    cases asked
    rfl

/-- The lines of an answer are read up to the dot. -/
theorem linesFrom_typed {lines : List (List Char)} {tail dot : List Char}
    (each : ∀ line ∈ lines, Text.IsLine line ∧ line ≠ ['.']) (begins : Begins tail dot rest)
    (ends : taken dot = ['.']) (unread : before.unread = typed lines ++ tail)
    (other : line ≠ ['.']) :
    linesFrom line before = (some (line :: lines), before.left rest "") := by
  induction lines generalizing before line with
  | nil =>
    have here : Begins before.unread dot rest := by rwa [unread]
    rw [linesFrom_begins other here, ends, linesFrom, if_pos rfl]
    rfl
  | cons first lines ih =>
    obtain ⟨⟨whole, plain⟩, later⟩ := List.forall_mem_cons.mp each
    rw [typed_cons] at unread
    have here : Begins before.unread first (typed lines ++ tail) := by
      rw [unread]
      exact .ended whole.newline
    rw [linesFrom_begins other here, taken_line whole, ih later rfl plain, left_left]
    rfl

/-- Where no line is a dot, the lines that are read do not come to an end. -/
theorem linesFrom_runsOut (other : line ≠ ['.'])
    (undotted : ∀ line ∈ Text.cutAt (· == '\n') before.unread, taken line ≠ ['.']) :
    (linesFrom line before).1 = none := by
  induction size : before.unread.length using Nat.strongRecOn generalizing before line with
  | _ size ih =>
    by_cases unread : before.unread = []
    · obtain ⟨after, ended, -⟩ := ask_end unread ""
      rw [linesFrom, if_neg other]
      split
      · rfl
      · rename_i asked
        rw [ended] at asked
        cases asked
    · obtain ⟨line, rest, begins, shorter⟩ := exists_begins unread
      obtain ⟨first, later⟩ := begins.cutAt (List.cons_ne_nil _ _).symm undotted
      rw [linesFrom_begins other begins, ih rest.length (by omega) first later rfl]
      rfl

/-- Contents are the lines from the first one on. -/
theorem contents_begins (begins : Begins before.unread line rest) (some : taken line ≠ []) :
    contents question before =
      ((linesFrom (taken line) (before.left rest question)).1.map
          fun lines => "\n".intercalate (lines.map String.ofList),
        (linesFrom (taken line) (before.left rest question)).2) := by
  unfold contents
  rw [ask_begins begins]
  split
  · rename_i asked
    cases asked
  · rename_i asked
    exact absurd (Option.some.inj (Prod.mk.inj asked).1) some
  · rename_i asked
    cases asked
    rfl

theorem contents_typed {first : List Char} {lines : List (List Char)} {tail dot : List Char}
    (some : first ≠ []) (each : ∀ line ∈ first :: lines, Text.IsLine line ∧ line ≠ ['.'])
    (begins : Begins tail dot rest) (ends : taken dot = ['.'])
    (unread : before.unread = typed (first :: lines) ++ tail) :
    contents question before =
      (.some ("\n".intercalate ((first :: lines).map String.ofList)),
        before.left rest question) := by
  obtain ⟨⟨whole, plain⟩, later⟩ := List.forall_mem_cons.mp each
  rw [typed_cons] at unread
  have here : Begins before.unread first (typed lines ++ tail) := by
    rw [unread]
    exact .ended whole.newline
  have named : taken first = first := taken_line whole
  rw [contents_begins here (by rwa [named]), named, linesFrom_typed later begins ends rfl plain,
    left_left, String.append_empty]
  rfl

/-- An empty first line supplies nothing, and no other line is read. -/
theorem contents_empty (begins : Begins before.unread line rest) (empty : taken line = []) :
    contents question before = (none, before.left rest question) := by
  unfold contents
  rw [ask_begins begins, empty]

theorem contents_runsOut
    (undotted : ∀ line ∈ Text.cutAt (· == '\n') before.unread, taken line ≠ ['.']) :
    (contents question before).1 = none := by
  by_cases unread : before.unread = []
  · obtain ⟨after, ended, -⟩ := ask_end unread question
    unfold contents
    rw [ended]
  · obtain ⟨line, rest, begins, -⟩ := exists_begins unread
    obtain ⟨first, later⟩ := begins.cutAt (List.cons_ne_nil _ _).symm undotted
    by_cases empty : taken line = []
    · rw [contents_empty begins empty]
    · rw [contents_begins begins empty, linesFrom_runsOut first later]
      rfl

end Supplying

end Prompted

end StepShell

import Mathlib.Data.List.Forall2
import StepShell.Console.Line
import StepShell.Proofs.Text.Lines
import StepShell.Session.Config

/-! Words of a console line that are read back as they were meant: those that need no quotes, and
those that were quoted. -/

namespace StepShell

namespace Line

/-- A character that stands for itself in a word. -/
def isBare (c : Char) : Bool :=
  !(Text.isBlank c || c == '\'' || c == '"' || c == '\\')

theorem isBare_iff {c : Char} :
    isBare c ↔ Text.isBlank c = false ∧ c ≠ '\'' ∧ c ≠ '"' ∧ c ≠ '\\' := by
  simp [isBare, and_assoc]

theorem takeWord_plain {c : Char} (other : c ≠ '\\') (rest : List Char) :
    takeWord .plain (c :: rest) =
      if Text.isBlank c then ([], c :: rest)
      else if c = '\'' then takeWord .single rest
      else if c = '"' then takeWord .double rest
      else add c (takeWord .plain rest) := by
  rw [takeWord.eq_def]
  split <;> simp_all

theorem takeWord_single (c : Char) (rest : List Char) :
    takeWord .single (c :: rest) =
      if c = '\'' then takeWord .plain rest else add c (takeWord .single rest) := by
  rw [takeWord.eq_def]
  split <;> simp_all

theorem takeWord_bare {c : Char} (bare : isBare c) (rest : List Char) :
    takeWord .plain (c :: rest) = add c (takeWord .plain rest) := by
  obtain ⟨solid, single, double, slash⟩ := isBare_iff.mp bare
  rw [takeWord_plain slash, if_neg (by simp [solid]), if_neg single, if_neg double]

theorem takeWord_blank {rest : List Char} (blank : ∀ c ∈ rest.head?, Text.isBlank c) :
    takeWord .plain rest = ([], rest) := by
  cases rest with
  | nil => rfl
  | cons c rest =>
    have space := blank c rfl
    rw [takeWord_plain (by rintro rfl; cases space), if_pos space]

/-- Inside single quotes all characters stand for themselves, but a quote. -/
theorem takeWord_quoted (value rest : List Char) :
    takeWord .single (value.flatMap Config.quoteChar ++ '\'' :: rest) =
      (value ++ (takeWord .plain rest).1, (takeWord .plain rest).2) := by
  induction value with
  | nil => rfl
  | cons c value ih =>
    rw [List.flatMap_cons, List.append_assoc, Config.quoteChar]
    split
    · rename_i same
      rw [same]
      change add '\'' (takeWord .single (value.flatMap Config.quoteChar ++ '\'' :: rest)) = _
      rw [ih]
      rfl
    · rename_i other
      rw [List.singleton_append, takeWord_single, if_neg other, ih]
      rfl

/-- A text is read as these characters of a word, whatever comes after it. -/
def Spells (text word : List Char) : Prop :=
  ∀ rest, takeWord .plain (text ++ rest) =
    (word ++ (takeWord .plain rest).1, (takeWord .plain rest).2)

namespace Spells

variable {text word : List Char}

/-- Bare characters stand for themselves. -/
theorem bare (bare : ∀ c ∈ word, isBare c) : Spells word word := by
  intro rest
  induction word with
  | nil => rfl
  | cons c word ih =>
    obtain ⟨first, later⟩ := List.forall_mem_cons.mp bare
    rw [List.cons_append, takeWord_bare first, ih later]
    rfl

/-- A quoted value is read as it was, whatever it is. -/
theorem quoteChars (value : List Char) : Spells (Config.quoteChars value) value := by
  intro rest
  rw [Config.quoteChars]
  split
  · rw [List.append_assoc]
    exact takeWord_quoted value rest
  · rename_i plain
    simp only [Bool.or_eq_true, List.any_eq_true, not_or, not_exists, not_and] at plain
    refine bare (fun c member => ?_) rest
    have free := plain.2 c member
    simp only [Config.needsQuotes, Bool.or_eq_true, beq_iff_eq, not_or] at free
    simp [isBare, free]

theorem append {further more : List Char} (first : Spells text word)
    (second : Spells further more) : Spells (text ++ further) (word ++ more) := by
  intro rest
  rw [List.append_assoc, first, second, List.append_assoc]

end Spells

/-- A colon makes a word none of flags. -/
theorem isFlags_of_colon {word : List Char} (colon : ':' ∈ word) : isFlags word = false := by
  unfold isFlags
  split
  · rename_i first rest
    have letter : ':' ∈ first :: rest :=
      (List.mem_cons.mp colon).resolve_left (by decide)
    rw [← List.all_cons, List.all_eq_false]
    exact ⟨':', letter, by decide⟩
  · rfl

theorem words_blank {c : Char} (blank : Text.isBlank c) (rest : List Char) :
    words (c :: rest) = words rest := by
  rw [words.eq_def]
  exact dif_pos blank

theorem words_solid {c : Char} (solid : Text.isBlank c = false) (rest : List Char) :
    words (c :: rest) =
      takeWord .plain (c :: rest) :: words (takeWord .plain (c :: rest)).2 := by
  rw [words.eq_def]
  exact dif_neg (by simp [solid])

/-- A text that is a whole word of a line. -/
structure SpellsWord (text word : List Char) : Prop where
  spells : Spells text word
  some : text ≠ []
  solid : ∀ c ∈ text.head?, Text.isBlank c = false

theorem SpellsWord.append {text word further more : List Char} (first : SpellsWord text word)
    (second : Spells further more) : SpellsWord (text ++ further) (word ++ more) where
  spells := first.spells.append second
  some := List.append_ne_nil_of_left_ne_nil first.some _
  solid c head := by
    cases text with
    | nil => exact absurd rfl first.some
    | cons => exact first.solid c head

/-- A text starts with a word that a blank or the end follows. -/
theorem words_append {text word rest : List Char} (first : SpellsWord text word)
    (blank : ∀ c ∈ rest.head?, Text.isBlank c) :
    words (text ++ rest) = (word, rest) :: words rest := by
  obtain ⟨spells, some, solid⟩ := first
  have taken := spells rest
  rw [takeWord_blank blank, List.append_nil] at taken
  cases text with
  | nil => exact absurd rfl some
  | cons c text =>
    rw [List.cons_append] at taken ⊢
    rw [words_solid (solid c rfl), taken]

/-- Texts with spaces between them are the words that they spell. -/
theorem words_intercalate {texts found : List (List Char)}
    (spelled : List.Forall₂ SpellsWord texts found) :
    (words ([' '].intercalate texts)).map (·.1) = found := by
  induction spelled with
  | nil => rw [List.intercalate_nil, words.eq_def, List.map_nil]
  | @cons text word texts found first later ih =>
    cases later with
    | nil =>
      rw [List.intercalate_singleton, ← List.append_nil text,
        words_append first (by rintro _ ⟨⟩), words.eq_def]
      rfl
    | cons =>
      rw [List.intercalate_cons_cons, List.append_assoc,
        words_append first (by rintro _ ⟨⟩; rfl), List.map_cons, List.singleton_append,
        words_blank rfl, ih]

/-- A text that is a word as it is. -/
def IsBareWord (word : String) : Prop :=
  word ≠ "" ∧ ∀ c ∈ word.toList, isBare c

instance (word : String) : Decidable (IsBareWord word) :=
  decidable_of_iff (word ≠ "" ∧ word.toList.all isBare)
    (and_congr_right fun _ => List.all_eq_true)

/-- Words that need no quotes, with single spaces between them. -/
structure Spaced (text : String) : Prop where
  some : Text.words text ≠ []
  bare : ∀ word ∈ Text.words text, IsBareWord word
  single : " ".intercalate (Text.words text) = text

instance (text : String) : Decidable (Spaced text) :=
  decidable_of_iff (Text.words text ≠ [] ∧ (∀ word ∈ Text.words text, IsBareWord word) ∧
    " ".intercalate (Text.words text) = text)
    ⟨fun spaced => ⟨spaced.1, spaced.2.1, spaced.2.2⟩,
      fun spaced => ⟨spaced.some, spaced.bare, spaced.single⟩⟩

/-- A text that does not start with flags. -/
def Unflagged (text : String) : Prop :=
  ∀ first ∈ (words text.toList).head?, isFlags first.1 = false

instance (text : String) : Decidable (Unflagged text) :=
  inferInstanceAs (Decidable (∀ first ∈ (words text.toList).head?, isFlags first.1 = false))

theorem IsBareWord.spellsWord {word : String} (bare : IsBareWord word) :
    SpellsWord word.toList word.toList where
  spells := .bare bare.2
  some := by simpa using bare.1
  solid c first := (isBare_iff.mp (bare.2 c (List.mem_of_mem_head? first))).1

/-- The words of a text, each read as it was meant. -/
def readWords (text : String) : List String :=
  (words text.toList).map fun word => String.ofList word.1

theorem readWords_spaced {words : List String} (each : ∀ word ∈ words, IsBareWord word) :
    readWords (" ".intercalate words) = words := by
  have spelled : List.Forall₂ SpellsWord (words.map String.toList) (words.map String.toList) := by
    refine List.forall₂_same.mpr fun text member => ?_
    obtain ⟨word, among, rfl⟩ := List.mem_map.mp member
    exact (each word among).spellsWord
  have found := congrArg (List.map String.ofList) (words_intercalate spelled)
  rw [List.map_map, List.map_map] at found
  rw [readWords, String.toList_intercalate]
  exact found.trans (by simp)

theorem Spaced.exists_words {text : String} (spaced : Spaced text) :
    ∃ word words, (∀ each ∈ word :: words, IsBareWord each) ∧
      text = " ".intercalate (word :: words) := by
  obtain ⟨some, bare, single⟩ := spaced
  cases found : Text.words text with
  | nil => exact absurd found some
  | cons word words =>
    rw [found] at bare single
    exact ⟨word, words, bare, single.symm⟩

theorem Spaced.ne_empty {text : String} (spaced : Spaced text) : text ≠ "" := by
  obtain ⟨word, words, bare, rfl⟩ := spaced.exists_words
  have written := (bare word (.head _)).1
  cases words with
  | nil => rwa [String.intercalate_singleton]
  | cons => simp [String.intercalate_cons_cons, written]

/-- Bare characters end no line. -/
theorem isLine_of_bare {text : List Char} (bare : ∀ c ∈ text, isBare c) : Text.IsLine text :=
  .of_forall fun c member => by
    have solid := (isBare_iff.mp (bare c member)).1
    constructor <;> rintro rfl <;> cases solid

theorem Spaced.isLine {text : String} (spaced : Spaced text) : Text.IsLine text.toList := by
  obtain ⟨word, words, bare, rfl⟩ := spaced.exists_words
  clear spaced
  induction words generalizing word with
  | nil =>
    rw [String.intercalate_singleton]
    exact isLine_of_bare (bare word (.head _)).2
  | cons next words ih =>
    obtain ⟨first, later⟩ := List.forall_mem_cons.mp bare
    rw [String.intercalate_cons_cons]
    exact ((isLine_of_bare first.2).join (.of_all " " rfl)).join (ih next later)

/-- A quoted value is one line if the value has no newline. -/
theorem isLine_quote {value : String} (newline : '\n' ∉ value.toList) :
    Text.IsLine (Config.quote value).toList := by
  rw [Config.quote, String.toList_ofList, Config.quoteChars]
  split
  · refine ⟨fun member => ?_, by rw [List.getLast?_append]; simp⟩
    have inside : '\n' ∈ value.toList.flatMap Config.quoteChar := by simpa using member
    obtain ⟨c, among, guarded⟩ := List.mem_flatMap.mp inside
    rw [Config.quoteChar] at guarded
    split at guarded
    · exact absurd guarded (by decide)
    · exact newline (List.mem_singleton.mp guarded ▸ among)
  · rename_i plain
    rw [Bool.or_eq_true, not_or] at plain
    refine .of_forall fun c member => ?_
    have free : Config.needsQuotes c = false := by
      cases needs : Config.needsQuotes c with
      | false => rfl
      | true => exact absurd (List.any_eq_true.mpr ⟨c, member, needs⟩) plain.2
    constructor <;> rintro rfl <;> cases free

theorem readWords_one {text word : String} (spelled : SpellsWord text.toList word.toList) :
    readWords text = [word] := by
  have found : words (text.toList ++ []) = (word.toList, []) :: words [] :=
    words_append spelled (by rintro _ ⟨⟩)
  rw [List.append_nil, words.eq_def []] at found
  rw [readWords, found]
  simp

theorem Unflagged.of_readWords {text first : String} {rest : List String}
    (found : readWords text = first :: rest) (plain : isFlags first.toList = false) :
    Unflagged text := by
  intro word head
  cases read : words text.toList with
  | nil =>
    rw [read] at head
    cases head
  | cons other others =>
    rw [read] at head
    cases head
    rw [readWords, read] at found
    obtain ⟨rfl, _⟩ := List.cons.inj found
    rwa [String.toList_ofList] at plain

/-- A line that starts with a name and has no flags takes the text after the name for its rest and
the words of it for its arguments. -/
theorem parse?_append {name text : String} (bare : IsBareWord name)
    (request : name.toList.head? ≠ some '#') (unflagged : Unflagged text) :
    parse? (name ++ " " ++ text) = some {
      name
      flags := []
      args := readWords text
      rest := Text.trim text
      tail := " " ++ text } := by
  have found : words (name ++ " " ++ text).toList =
      (name.toList, ' ' :: text.toList) :: words text.toList := by
    rw [String.toList_append, String.toList_append, List.append_assoc,
      words_append bare.spellsWord (by rintro _ ⟨⟩; rfl)]
    exact congrArg _ (words_blank rfl _)
  have split : splitFlags (' ' :: text.toList) (words text.toList) =
      ([], (words text.toList).map (·.1), ' ' :: text.toList) := by
    cases worded : words text.toList with
    | nil => rfl
    | cons first rest =>
      have plain := unflagged first (by rw [worded]; rfl)
      simp only [splitFlags, plain]
      rfl
  have tail : String.ofList (' ' :: text.toList) = " " ++ text := by
    rw [String.ofList_cons, String.ofList_toList]
    rfl
  rw [parse?, found]
  simp only [request, split, if_false, List.map_map, String.ofList_toList, tail]
  rfl

end Line

end StepShell

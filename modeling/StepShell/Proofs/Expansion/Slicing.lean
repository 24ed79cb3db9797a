import StepShell.Proofs.Expansion.Quoting
import StepShell.Proofs.Text.Numerals

/-! Parts of values. A reference may ask for the characters of a value from an offset on, all of
them or so many. The words of sixty-four bits that bound the part are the bounds over all integers, they
are in order and inside the value, and where a number cannot be read the part is empty. -/

namespace StepShell

namespace Expansion

/-- Where a part begins among so many characters, over all integers. -/
def exactStart (size : Nat) (offset : Int) : Int :=
  if offset < 0 then max (size + offset) 0 else min offset size

/-- Where a part that begins at `start` stops, over all integers. -/
def exactStop (size : Nat) (start : Int) : Option Int → Int
  | none => size
  | some length => if length < 0 then max (size + length) start else min (start + length) size

/-- Two words bound the part of a value that an offset and a length ask for. -/
structure Bounds (value : List Char) (offset : Int) (length : Option Int) (start stop : Int64) :
    Prop where
  starts : start.toInt = exactStart value.length offset
  stops : stop.toInt = exactStop value.length start.toInt length
  least : 0 ≤ start.toInt
  ordered : start.toInt ≤ stop.toInt
  most : stop.toInt ≤ value.length

section Words

variable {size : Nat}

theorem toInt_addHeld (first second : Int64) :
    (addHeld first second).toInt =
      max (-0x8000000000000000) (min (first.toInt + second.toInt) 0x7FFFFFFFFFFFFFFF) := by
  have least : Int64.minValue.toInt = -0x8000000000000000 := rfl
  have most : Int64.maxValue.toInt = 0x7FFFFFFFFFFFFFFF := rfl
  unfold addHeld Int64.ofIntClamp
  split
  · split
    · rw [Int64.toInt_ofIntLE]
      omega
    · omega
  · omega

theorem toInt_max (first second : Int64) :
    (max first second).toInt = max first.toInt second.toInt := by
  change (if first ≤ second then second else first).toInt = _
  simp only [Int64.le_iff_toInt_le]
  split <;> omega

theorem toInt_min (first second : Int64) :
    (min first second).toInt = min first.toInt second.toInt := by
  change (if first ≤ second then first else second).toInt = _
  simp only [Int64.le_iff_toInt_le]
  split <;> omega

/-- A sum with a number of characters is only held where the bounds hold it as well. -/
theorem toInt_sliceStart (small : size < 0x8000000000000000) (offset : Int64) :
    (sliceStart (.ofNat size) offset).toInt = exactStart size offset.toInt := by
  have whole : (Int64.ofNat size).toInt = size := Int64.toInt_ofNat_of_lt small
  have zero : (0 : Int64).toInt = 0 := rfl
  have least := offset.le_toInt
  unfold sliceStart exactStart
  simp only [Int64.lt_iff_toInt_lt, zero]
  split
  · rw [toInt_max, toInt_addHeld, whole, zero]
    omega
  · rw [toInt_min, whole]

theorem toInt_sliceStop (small : size < 0x8000000000000000) {start : Int64}
    (least : 0 ≤ start.toInt) (length : Option Int64) :
    (sliceStop (.ofNat size) start length).toInt =
      exactStop size start.toInt (length.map Int64.toInt) := by
  have whole : (Int64.ofNat size).toInt = size := Int64.toInt_ofNat_of_lt small
  have zero : (0 : Int64).toInt = 0 := rfl
  cases length with
  | none => exact whole
  | some length =>
    have bounded := length.le_toInt
    unfold sliceStop exactStop
    simp only [Option.map_some, Int64.lt_iff_toInt_lt, zero]
    split
    · rw [toInt_max, toInt_addHeld, whole]
      omega
    · rw [toInt_min, toInt_addHeld, whole]
      omega

theorem exactStart_within (size : Nat) (offset : Int) :
    0 ≤ exactStart size offset ∧ exactStart size offset ≤ size := by
  unfold exactStart
  split <;> omega

theorem exactStop_within {start : Int} (most : start ≤ size)
    (length : Option Int) : start ≤ exactStop size start length ∧
      exactStop size start length ≤ size := by
  cases length with
  | none => exact ⟨most, Int.le_refl _⟩
  | some length =>
    unfold exactStop
    split <;> omega

/-- The words that a slice is taken between bound the part exactly. -/
theorem slice_bounds {value : List Char} (small : value.length < 0x8000000000000000)
    (offset : Int64) (length : Option Int64) :
    let start := sliceStart (.ofNat value.length) offset
    let stop := sliceStop (.ofNat value.length) start length
    Bounds value offset.toInt (length.map Int64.toInt) start stop ∧
      slice value offset length = (value.take stop.toInt.toNat).drop start.toInt.toNat := by
  intro start stop
  have starts : start.toInt = exactStart value.length offset.toInt := toInt_sliceStart small offset
  obtain ⟨least, within⟩ := exactStart_within value.length offset.toInt
  rw [← starts] at least within
  have stops : stop.toInt = exactStop value.length start.toInt (length.map Int64.toInt) :=
    toInt_sliceStop small least length
  obtain ⟨ordered, most⟩ := exactStop_within within (length.map Int64.toInt)
  rw [← stops] at ordered most
  refine ⟨⟨starts, stops, least, ordered, most⟩, ?_⟩
  -- a word that is not negative is the same number without its sign
  have plain : ∀ word : Int64, 0 ≤ word.toInt → word.toUInt64.toNat = word.toInt.toNat :=
    fun word positive => Int64.toNat_toUInt64_of_le (Int64.le_iff_toInt_le.mpr positive)
  change (value.take stop.toUInt64.toNat).drop start.toUInt64.toNat = _
  rw [plain start least, plain stop (Int.le_trans least ordered)]

end Words

theorem number?_eq_some_iff {text : List Char} {word : Int64} :
    number? text = some word ↔ Text.SpellsWord text word.toInt := by
  rw [number?, Option.map_eq_some_iff, ← Text.integer64?_trimChars_eq_some_iff]
  constructor
  · rintro ⟨number, read, rfl⟩
    obtain ⟨_, least, most⟩ := Text.integer64?_eq_some_iff.mp read
    rwa [Int64.toInt_ofInt_of_le least most]
  · exact fun read => ⟨_, read, Int64.ofInt_toInt word⟩

end Expansion

/-- A reference to a part of the value of a parameter. A name that begins with `#` would ask for a
length instead. -/
structure Excerpt where
  name : String
  offset : String
  length : Option String
  named : name.toList.head? ≠ some '#'
  nameFree : ∀ c ∈ [':', '\x7d'], c ∉ name.toList
  offsetFree : ∀ c ∈ [':', '\x7d'], c ∉ offset.toList
  lengthFree : ∀ text ∈ length, '\x7d' ∉ text.toList

namespace Excerpt

open Expansion

variable (excerpt : Excerpt) (vars : Variables)

/-- The reference as it is written. -/
def text : String :=
  "$\x7b" ++ excerpt.name ++ ":" ++ excerpt.offset ++ excerpt.length.elim "" (":" ++ ·) ++ "\x7d"

/-- The characters that it takes a part of. -/
def value : List Char :=
  lookup vars excerpt.name.toList

/-- What is asked for are these numbers, which fit sixty-four bits. -/
def Asks (offset : Int) (length : Option Int) : Prop :=
  Text.SpellsWord excerpt.offset.toList offset ∧
    Option.Rel (fun text number => Text.SpellsWord text.toList number) excerpt.length length

/-- What stands behind the name. -/
def range : List Char :=
  excerpt.offset.toList ++ (excerpt.length.elim [] fun length => ':' :: length.toList)

theorem text_toList :
    excerpt.text.toList =
      '$' :: '\x7b' :: ((excerpt.name.toList ++ ':' :: excerpt.range) ++ ['\x7d']) := by
  unfold text range
  cases excerpt.length <;> simp

theorem closed : '\x7d' ∉ excerpt.name.toList ++ ':' :: excerpt.range := by
  intro member
  have name := excerpt.nameFree '\x7d' (by decide)
  have offset := excerpt.offsetFree '\x7d' (by decide)
  have length := excerpt.lengthFree
  unfold range at member
  cases given : excerpt.length with
  | none => simp [given, name, offset] at member
  | some text => simp [given, name, offset, length text given] at member

/-- The words that are read, if all are. -/
def words? : Option (Int64 × Option Int64) :=
  (number? excerpt.offset.toList).bind fun offset =>
    match excerpt.length with
    | none => some (offset, none)
    | some length => (number? length.toList).map fun length => (offset, some length)

theorem braced_range :
    braced vars (excerpt.name.toList ++ ':' :: excerpt.range) =
      excerpt.words?.elim [] fun words => slice (excerpt.value vars) words.1 words.2 := by
  have named := Text.cutOnce_of_none excerpt.range
    (Text.cutOnce_eq_none (excerpt.nameFree ':' (by decide)))
  have whole := Text.cutOnce_eq_none (excerpt.offsetFree ':' (by decide))
  unfold braced
  split
  · rename_i first rest begins
    cases name : excerpt.name.toList with
    | nil => simp [name] at begins
    | cons c others =>
      have head := excerpt.named
      simp [name] at begins head
      exact absurd begins.1 head
  · rw [named]
    unfold range words?
    dsimp only
    cases excerpt.length with
    | none =>
      rw [Option.elim_none, List.append_nil, whole]
      dsimp only
      cases number? excerpt.offset.toList <;> rfl
    | some length =>
      rw [Option.elim_some, Text.cutOnce_of_none _ whole]
      dsimp only
      cases number? excerpt.offset.toList with
      | none => rfl
      | some offset => cases number? length.toList <;> rfl

theorem words?_eq_some_iff {offset : Int64} {length : Option Int64} :
    excerpt.words? = some (offset, length) ↔
      excerpt.Asks offset.toInt (length.map Int64.toInt) := by
  unfold words? Asks
  rw [Option.bind_eq_some_iff, ← number?_eq_some_iff]
  cases excerpt.length with
  | none => cases length <;> simp
  | some text =>
    cases length with
    | none => simp
    | some length => simp [number?_eq_some_iff]

/-- What is asked for is read as words. -/
theorem Asks.words {offset : Int} {length : Option Int} (asks : excerpt.Asks offset length) :
    excerpt.words? = some (.ofInt offset, length.map .ofInt) ∧
      (Int64.ofInt offset).toInt = offset ∧
      (length.map Int64.ofInt).map Int64.toInt = length := by
  obtain ⟨spelled, spelledLength⟩ := asks
  have word : ∀ {text : List Char} {number : Int}, Text.SpellsWord text number →
      (Int64.ofInt number).toInt = number :=
    fun spells => Int64.toInt_ofInt_of_le spells.least spells.most
  have words : (length.map Int64.ofInt).map Int64.toInt = length := by
    generalize excerpt.length = given at spelledLength
    cases spelledLength with
    | none => rfl
    | some spells => exact congrArg some (word spells)
  refine ⟨?_, word spelled, words⟩
  rw [words?_eq_some_iff, word spelled, words]
  exact ⟨spelled, spelledLength⟩

/-- The words between which a part is taken are the exact bounds of what is asked for. -/
def Takes (offset : Int) (length : Option Int) (part : List Char) : Prop :=
  let value := excerpt.value vars
  let start := sliceStart (.ofNat value.length) (.ofInt offset)
  let stop := sliceStop (.ofNat value.length) start (length.map .ofInt)
  Bounds value offset length start stop ∧
    part = (value.take stop.toInt.toNat).drop start.toInt.toNat

/-- The value of a reference to a part: exactly what it asks for, or nothing if it spells no
words. -/
theorem braced_exact (small : (excerpt.value vars).length < 0x8000000000000000) :
    (∀ offset length, excerpt.Asks offset length → excerpt.Takes vars offset length
      (braced vars (excerpt.name.toList ++ ':' :: excerpt.range))) ∧
      ((∀ offset length, ¬excerpt.Asks offset length) →
        braced vars (excerpt.name.toList ++ ':' :: excerpt.range) = []) := by
  rw [braced_range]
  constructor
  · intro offset length asks
    obtain ⟨read, word, words⟩ := asks.words
    obtain ⟨bounds, taken⟩ := slice_bounds small (.ofInt offset) (length.map .ofInt)
    rw [word, words] at bounds
    rw [read, Option.elim_some]
    exact ⟨bounds, taken⟩
  · intro unread
    cases read : excerpt.words? with
    | none => rfl
    | some words => exact absurd (excerpt.words?_eq_some_iff.mp read) (unread _ _)

theorem dollar_text (rest : List Char) :
    ∃ tail, excerpt.text.toList ++ rest = '$' :: tail ∧
      (dollar vars tail).1 = braced vars (excerpt.name.toList ++ ':' :: excerpt.range) ∧
      tail.drop (dollar vars tail).2 = rest := by
  refine ⟨'\x7b' :: ((excerpt.name.toList ++ ':' :: excerpt.range) ++ '\x7d' :: rest), ?_, ?_, ?_⟩
  · rw [text_toList]
    simp
  · rw [dollar_braced vars rest excerpt.closed]
  · rw [dollar_braced vars rest excerpt.closed, List.drop_succ_cons, ← List.drop_drop,
      List.drop_left]
    rfl

theorem expand_text (rest : String) :
    vars.expand (excerpt.text ++ rest) =
      String.ofList (braced vars (excerpt.name.toList ++ ':' :: excerpt.range)) ++
        vars.expand rest := by
  obtain ⟨tail, written, value, left⟩ := excerpt.dollar_text vars rest.toList
  rw [Variables.expand, String.toList_append, written, expandChars_dollar, value, left,
    String.ofList_append]
  rfl

theorem replaceReferences_text (rest : String) :
    vars.replaceReferences (excerpt.text ++ rest) =
      String.ofList (braced vars (excerpt.name.toList ++ ':' :: excerpt.range)) ++
        vars.replaceReferences rest := by
  obtain ⟨tail, written, value, left⟩ := excerpt.dollar_text vars rest.toList
  rw [Variables.replaceReferences, String.toList_append, written, replaceChars_dollar, value, left,
    String.ofList_append]
  rfl

/-- In a word and in shell text, a reference to a part of a value is replaced by exactly the part
that its numbers ask for over all integers, with the bounds in order and inside the value, and by
nothing if they are no numbers of sixty-four bits. -/
theorem part_exact (excerpt : Excerpt) (vars : Variables) (rest : String)
    (small : (excerpt.value vars).length < 0x8000000000000000) :
    ∃ part : String,
      vars.expand (excerpt.text ++ rest) = part ++ vars.expand rest ∧
      vars.replaceReferences (excerpt.text ++ rest) = part ++ vars.replaceReferences rest ∧
      (∀ offset length, excerpt.Asks offset length →
        excerpt.Takes vars offset length part.toList) ∧
      ((∀ offset length, ¬excerpt.Asks offset length) → part = "") := by
  obtain ⟨exact, unread⟩ := excerpt.braced_exact vars small
  refine ⟨_, excerpt.expand_text vars rest, excerpt.replaceReferences_text vars rest, ?_, ?_⟩
  · intro offset length asks
    rw [String.toList_ofList]
    exact exact offset length asks
  · intro none
    rw [unread none]

/-- From three characters before the end on, as many as a word can count. -/
def lastThree : Excerpt where
  name := "path"
  offset := " -3"
  length := some "9223372036854775807"
  named := by decide
  nameFree := by simp
  offsetFree := by simp
  lengthFree := by simp

theorem part_exact_lastThree :
    let vars := Variables.assign Table.empty "path" "/usr/local/bin"
    (lastThree.value vars).length < 0x8000000000000000 ∧
      lastThree.Asks (-3) (some 9223372036854775807) ∧
      vars.expand (lastThree.text ++ "!") = "bin!" := by
  intro vars
  have size : (lastThree.value vars).length = 14 := by decide
  have small : (lastThree.value vars).length < 0x8000000000000000 := by rw [size]; decide
  have asks : lastThree.Asks (-3) (some 9223372036854775807) :=
    ⟨Text.integer64?_trimChars_eq_some_iff.mp (by decide),
      .some (Text.integer64?_trimChars_eq_some_iff.mp (by decide))⟩
  refine ⟨small, asks, ?_⟩
  obtain ⟨part, expanded, -, exact, -⟩ := part_exact lastThree vars "!" small
  obtain ⟨bounds, taken⟩ := exact _ _ asks
  rw [bounds.stops, bounds.starts, size] at taken
  have shown : part = "bin" := String.toList_inj.mp (taken.trans (by decide))
  rw [expanded, shown]
  decide +kernel

end Excerpt

end StepShell

import Mathlib.Data.List.TakeWhile
import StepShell.Proofs.Text.Lines
import StepShell.Text.Decimal

/-! Decimal numerals. Digits spell their value in base ten, a sign may stand before them and blanks
around them; a reader of sixty-four bits finds what is spelled exactly if it fits. -/

namespace StepShell.Text

/-- Decimal digits, at least one, spell their value. -/
structure SpellsNatural (chars : List Char) (number : Nat) : Prop where
  begun : chars ≠ []
  digits : ∀ c ∈ chars, c.isDigit
  value : Nat.ofDigitChars 10 chars 0 = number

/-- What digits spell behind a sign or none. -/
inductive SpellsInteger : List Char → Int → Prop
  | unsigned {chars : List Char} {number : Nat} :
    SpellsNatural chars number → SpellsInteger chars number
  | positive {chars : List Char} {number : Nat} :
    SpellsNatural chars number → SpellsInteger ('+' :: chars) number
  | negative {chars : List Char} {number : Nat} :
    SpellsNatural chars number → SpellsInteger ('-' :: chars) (-number)

/-- The text is a numeral, perhaps between blanks, of a number that fits sixty-four bits in two's
complement. -/
structure SpellsWord (text : List Char) (number : Int) : Prop where
  spelled : ∃ before chars after, text = before ++ chars ++ after ∧
    (∀ c ∈ before, isBlank c) ∧ (∀ c ∈ after, isBlank c) ∧ SpellsInteger chars number
  least : -0x8000000000000000 ≤ number
  most : number < 0x8000000000000000

theorem digits?_eq_some_iff {chars : List Char} {number : Nat} :
    digits? chars = some number ↔ SpellsNatural chars number := by
  have folded : chars.foldl (fun value c => value * 10 + (c.toNat - '0'.toNat)) 0 =
      Nat.ofDigitChars 10 chars 0 := by
    unfold Nat.ofDigitChars
    congr 1
    funext value c
    rw [Nat.mul_comm]
  rw [digits?, folded]
  constructor
  · intro read
    split at read
    · rename_i spelled
      rw [Bool.and_eq_true, Bool.not_eq_true', List.isEmpty_eq_false_iff, List.all_eq_true]
        at spelled
      exact ⟨spelled.1, spelled.2, Option.some.inj read⟩
    · cases read
  · rintro ⟨begun, digits, value⟩
    rw [if_pos, value]
    rw [Bool.and_eq_true, Bool.not_eq_true', List.isEmpty_eq_false_iff, List.all_eq_true]
    exact ⟨begun, digits⟩

/-- Digits do not begin with a sign. -/
theorem SpellsNatural.ne_cons {chars rest : List Char} {number : Nat} {sign : Char}
    (spells : SpellsNatural chars number) (other : sign.isDigit = false) :
    chars ≠ sign :: rest := by
  rintro rfl
  have digit := spells.digits sign List.mem_cons_self
  rw [other] at digit
  cases digit

theorem signed?_minus (rest : List Char) :
    signed? ('-' :: rest) = (digits? rest).map fun value : Nat => -(value : Int) := by
  rw [signed?]
  cases digits? rest <;> rfl

theorem signed?_eq_some_iff {chars : List Char} {number : Int} :
    signed? chars = some number ↔ SpellsInteger chars number := by
  constructor
  · intro read
    unfold signed? at read
    split at read
    · rename_i rest
      have minus := (signed?_minus rest).symm.trans read
      obtain ⟨value, digits, rfl⟩ := Option.map_eq_some_iff.mp minus
      exact .negative (digits?_eq_some_iff.mp digits)
    · obtain ⟨value, digits, rfl⟩ := Option.map_eq_some_iff.mp read
      exact .positive (digits?_eq_some_iff.mp digits)
    · obtain ⟨value, digits, rfl⟩ := Option.map_eq_some_iff.mp read
      exact .unsigned (digits?_eq_some_iff.mp digits)
  · intro spells
    cases spells with
    | unsigned spells =>
      unfold signed?
      split
      · exact absurd rfl (spells.ne_cons (by decide))
      · exact absurd rfl (spells.ne_cons (by decide))
      · rw [digits?_eq_some_iff.mpr spells]
        rfl
    | positive spells =>
      rw [signed?, digits?_eq_some_iff.mpr spells]
      rfl
    | negative spells =>
      rw [signed?_minus, digits?_eq_some_iff.mpr spells]
      rfl

theorem integer64?_eq_some_iff {text : String} {number : Int} :
    integer64? text = some number ↔
      SpellsInteger text.toList number ∧
        -0x8000000000000000 ≤ number ∧ number < 0x8000000000000000 := by
  rw [integer64?, Option.filter_eq_some_iff, signed?_eq_some_iff, Bool.and_eq_true,
    decide_eq_true_eq, decide_eq_true_eq]

/-- A number that is printed is read again if it fits. -/
theorem natural64?_toString (number : Nat) :
    natural64? (toString number) = if number < 0x10000000000000000 then some number else none := by
  have spells : SpellsNatural (Nat.toDigits 10 number) number :=
    ⟨Nat.toDigits_ne_nil, fun _ => Nat.isDigit_of_mem_toDigits (by decide) (by decide),
      Nat.ofDigitChars_ten_toDigits⟩
  have read : unsigned? (toString number).toList = some number := by
    rw [Nat.toString_eq_repr, Nat.toList_repr]
    unfold unsigned?
    split
    · rename_i rest begins
      exact absurd begins (spells.ne_cons (by decide))
    · exact digits?_eq_some_iff.mpr spells
  rw [natural64?, read, Option.filter_some]
  simp only [decide_eq_true_eq]

/-! Blanks around a numeral -/

theorem isBlank_of_isDigit {c : Char} (digit : c.isDigit) : isBlank c = false := by
  obtain ⟨least, most⟩ := Bool.and_eq_true_iff.mp digit
  have bounds : 48 ≤ c.toNat ∧ c.toNat ≤ 57 :=
    ⟨UInt32.le_iff_toNat_le.mp (of_decide_eq_true least),
      UInt32.le_iff_toNat_le.mp (of_decide_eq_true most)⟩
  simp only [isBlank, Bool.or_eq_false_iff, Bool.and_eq_false_iff, decide_eq_false_iff_not,
    beq_eq_false_iff_ne]
  omega

theorem SpellsInteger.solid {chars : List Char} {number : Int}
    (spells : SpellsInteger chars number) : ∀ c ∈ chars, isBlank c = false := by
  intro c member
  cases spells with
  | unsigned spells => exact isBlank_of_isDigit (spells.digits c member)
  | positive spells =>
    rcases List.mem_cons.mp member with rfl | later
    · decide
    · exact isBlank_of_isDigit (spells.digits c later)
  | negative spells =>
    rcases List.mem_cons.mp member with rfl | later
    · decide
    · exact isBlank_of_isDigit (spells.digits c later)

/-- Trimming takes away blanks, and only at the ends. -/
theorem trimChars_between (text : List Char) :
    ∃ before after, text = before ++ trimChars text ++ after ∧
      (∀ c ∈ before, isBlank c) ∧ ∀ c ∈ after, isBlank c := by
  let left := text.dropWhile isBlank
  refine ⟨text.takeWhile isBlank, (left.reverse.takeWhile isBlank).reverse, ?_,
    fun c => List.mem_takeWhile_imp,
    fun c member => List.mem_takeWhile_imp (List.mem_reverse.mp member)⟩
  have ended : trimChars text ++ (left.reverse.takeWhile isBlank).reverse = left := by
    rw [trimChars, dropEndWhile, ← List.reverse_append, List.takeWhile_append_dropWhile,
      List.reverse_reverse]
  rw [List.append_assoc, ended, List.takeWhile_append_dropWhile]

/-- Blanks around a text without blanks are trimmed away. -/
theorem trimChars_padded {before chars after : List Char} (blank : ∀ c ∈ before, isBlank c)
    (solid : ∀ c ∈ chars, isBlank c = false) (blankAfter : ∀ c ∈ after, isBlank c) :
    trimChars (before ++ chars ++ after) = chars := by
  have begun : (before ++ chars ++ after).dropWhile isBlank =
      (chars ++ after).dropWhile isBlank := by
    rw [List.append_assoc, List.dropWhile_append_of_pos blank]
  have whole : trimChars chars = chars :=
    trimChars_eq_self (fun c first => solid c (List.mem_of_mem_head? first))
      fun c last => solid c (List.mem_of_getLast? last)
  cases chars with
  | nil =>
    rw [trimChars, begun, List.nil_append, List.dropWhile_eq_nil_iff.mpr blankAfter]
    rfl
  | cons c rest =>
    have kept : (c :: rest ++ after).dropWhile isBlank = c :: rest ++ after :=
      List.dropWhile_cons_of_neg (by simp [solid c List.mem_cons_self])
    rw [trimChars, begun, kept, dropEndWhile, List.reverse_append,
      List.dropWhile_append_of_pos fun c member => blankAfter c (List.mem_reverse.mp member)]
    rw [trimChars, dropEndWhile,
      List.dropWhile_cons_of_neg (by simp [solid c List.mem_cons_self])] at whole
    exact whole

/-- Of a text between blanks the reader finds the number that it spells. -/
theorem integer64?_trimChars_eq_some_iff {text : List Char} {number : Int} :
    integer64? (String.ofList (trimChars text)) = some number ↔ SpellsWord text number := by
  rw [integer64?_eq_some_iff, String.toList_ofList]
  constructor
  · rintro ⟨spells, least, most⟩
    obtain ⟨before, after, whole, blank, blankAfter⟩ := trimChars_between text
    exact ⟨⟨before, _, after, whole, blank, blankAfter, spells⟩, least, most⟩
  · rintro ⟨⟨before, chars, after, rfl, blank, blankAfter, spells⟩, least, most⟩
    rw [trimChars_padded blank spells.solid blankAfter]
    exact ⟨spells, least, most⟩

end StepShell.Text

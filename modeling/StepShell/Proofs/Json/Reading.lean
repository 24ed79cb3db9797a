import Mathlib.Data.List.DropRight
import Mathlib.Data.List.Forall2
import StepShell.Json.Parser
import StepShell.Json.Printer

/-! Reading the JSON text of a value, put together from the texts of what stands in it. Spaces may
stand between any two tokens. Whatever is printed of a value, without spaces or indented, is read as
the value, but for what is nested too deep in it. -/

namespace StepShell.Json

/-- The piece is how this character may be written in a string. -/
def Piece.Stands : Piece → Char → Prop
  | .char c, d => c = d
  | .unit value, d => value = d.toNat ∧ value < 0x20

theorem hex4_control : ∀ value < 0x20,
    hex4 value = ['0', '0', (value / 16).digitChar, (value % 16).digitChar] ∧
      unit? '0' '0' (value / 16).digitChar (value % 16).digitChar = some value := by
  decide

/-- A printed character is read as one piece, which stands for it. -/
theorem parsePieces_stringChar (c : Char) (rest : List Char) :
    ∃ piece : Piece, piece.Stands c ∧ parsePieces (stringChar c ++ rest) =
      (parsePieces rest).map fun (pieces, rest) => (piece :: pieces, rest) := by
  have plain : ∀ d, escaped? d = some c → d ≠ 'u' →
      parsePieces ('\\' :: d :: rest) =
        (parsePieces rest).map fun (pieces, rest) => (.char c :: pieces, rest) := by
    intro d escaped other
    rw [parsePieces, escaped]
    · cases parsePieces rest <;> rfl
    · exact fun _ _ _ _ _ same _ => other same
  unfold stringChar
  split
  · rename_i same
    exact ⟨.char c, rfl, plain '"' (by rw [same]; rfl) (by decide)⟩
  split
  · rename_i same
    exact ⟨.char c, rfl, plain '\\' (by rw [same]; rfl) (by decide)⟩
  split
  · rename_i same
    exact ⟨.char c, rfl, plain 'b' (by rw [← Char.ofNat_toNat c, same]; rfl) (by decide)⟩
  split
  · rename_i same
    exact ⟨.char c, rfl, plain 't' (by rw [same]; rfl) (by decide)⟩
  split
  · rename_i same
    exact ⟨.char c, rfl, plain 'n' (by rw [same]; rfl) (by decide)⟩
  split
  · rename_i same
    exact ⟨.char c, rfl, plain 'f' (by rw [← Char.ofNat_toNat c, same]; rfl) (by decide)⟩
  split
  · rename_i same
    exact ⟨.char c, rfl, plain 'r' (by rw [same]; rfl) (by decide)⟩
  split
  · rename_i control
    obtain ⟨written, read⟩ := hex4_control c.toNat control
    refine ⟨.unit c.toNat, ⟨rfl, control⟩, ?_⟩
    rw [written]
    simp only [List.cons_append, List.nil_append]
    rw [parsePieces, read]
    cases parsePieces rest <;> rfl
  · rename_i quote slash _ _ _ _ _ control
    refine ⟨.char c, rfl, ?_⟩
    rw [List.singleton_append, parsePieces, if_neg (by simp [slash, control])]
    · cases parsePieces rest <;> rfl
    · exact quote
    · exact fun _ _ _ _ _ same _ => slash same
    · exact fun _ _ same _ => slash same

/-- The pieces read from printed characters stand for them. -/
theorem pieceChars?_stands {pieces : List Piece} {chars : List Char}
    (stands : List.Forall₂ Piece.Stands pieces chars) : pieceChars? pieces = some chars := by
  induction stands with
  | nil => rfl
  | @cons piece c pieces chars first rest ih =>
    cases piece with
    | char d =>
      obtain rfl : d = c := first
      rw [pieceChars?, ih]
      rfl
    | unit value =>
      obtain ⟨rfl, control⟩ := first
      have single : single? c.toNat = some c := by
        rw [single?, if_neg (by simp; omega), Char.ofNat_toNat]
      have unpaired : ∀ trailing, paired? c.toNat trailing = none := by
        intro trailing
        rw [paired?, if_neg (by simp; omega)]
      cases rest with
      | nil =>
        rw [pieceChars?, single]
        · rfl
        · exact nofun
      | @cons next _ others =>
        cases next with
        | char d =>
          rw [pieceChars?, single, ih]
          · rfl
          · exact nofun
        | unit trailing =>
          rw [pieceChars?, unpaired, single, ih]
          rfl

theorem parseString_stringChars (text : String) (rest : List Char) :
    parseString (text.toList.flatMap stringChar ++ '"' :: rest) =
      some (some text.toList, rest) := by
  have read : ∀ chars : List Char, ∃ pieces, List.Forall₂ Piece.Stands pieces chars ∧
      parsePieces (chars.flatMap stringChar ++ '"' :: rest) = some (pieces, rest) := by
    intro chars
    induction chars with
    | nil => exact ⟨[], .nil, rfl⟩
    | cons c chars ih =>
      obtain ⟨pieces, stands, others⟩ := ih
      obtain ⟨piece, first, read⟩ :=
        parsePieces_stringChar c (chars.flatMap stringChar ++ '"' :: rest)
      refine ⟨piece :: pieces, .cons first stands, ?_⟩
      rw [List.flatMap_cons, List.append_assoc, read, others]
      rfl
  obtain ⟨pieces, stands, parsed⟩ := read text.toList
  rw [parseString, parsed]
  exact congrArg (fun chars => some (chars, rest)) (pieceChars?_stands stands)

theorem isSpace_iff {c : Char} :
    isSpace c ↔ c = ' ' ∨ c = '\t' ∨ c = '\n' ∨ c = '\r' := by
  simp [isSpace, or_assoc]

/-- What may follow a value. -/
def Ends (rest : List Char) : Prop :=
  ∀ c ∈ rest.head?, isSpace c ∨ c = ',' ∨ c = ']' ∨ c = '\x7d'

theorem Ends.head {c : Char} {rest : List Char} (ends : Ends (c :: rest)) :
    c.isDigit = false ∧ c ≠ '.' ∧ c ≠ 'e' ∧ c ≠ 'E' := by
  rcases ends c rfl with space | rfl | rfl | rfl
  · rcases isSpace_iff.mp space with rfl | rfl | rfl | rfl <;> decide
  all_goals decide

/-- A comma or a bracket may stand behind spaces. -/
theorem Ends.of_dropWhile {c : Char} {rest tail : List Char}
    (closes : rest.dropWhile isSpace = c :: tail) (closer : c = ',' ∨ c = ']' ∨ c = '\x7d') :
    Ends rest := by
  intro first head
  cases rest with
  | nil => cases head
  | cons other rest =>
    cases head
    by_cases space : isSpace first
    · exact .inl space
    · rw [List.dropWhile_cons_of_neg space] at closes
      cases closes
      exact .inr closer

theorem takeDigits_append {digits rest : List Char} (some : digits ≠ [])
    (each : ∀ c ∈ digits, c.isDigit) (ends : Ends rest) :
    takeDigits (digits ++ rest) = .some (digits, rest) := by
  have stop : rest.takeWhile Char.isDigit = [] ∧ rest.dropWhile Char.isDigit = rest := by
    cases rest with
    | nil => exact ⟨rfl, rfl⟩
    | cons c rest =>
      have other := ends.head.1
      exact ⟨List.takeWhile_cons_of_neg (by simp [other]),
        List.dropWhile_cons_of_neg (by simp [other])⟩
  rw [takeDigits, List.takeWhile_append_of_pos each, List.dropWhile_append_of_pos each, stop.1,
    stop.2, List.append_nil]
  cases digits with
  | nil => exact absurd rfl some
  | cons c digits => rfl

/-- A printed number starts with a digit. -/
theorem toDigits_eq_cons (number : Nat) :
    ∃ c rest, Nat.toDigits 10 number = c :: rest ∧ ∀ other, other.isDigit = false → c ≠ other := by
  cases digits : Nat.toDigits 10 number with
  | nil => exact absurd digits Nat.toDigits_ne_nil
  | cons c rest =>
    have member : c ∈ Nat.toDigits 10 number := by
      rw [digits]
      exact .head _
    have digit := Nat.isDigit_of_mem_toDigits (by decide) (by decide) member
    refine ⟨c, rest, rfl, fun other none same => ?_⟩
    rw [← same, digit] at none
    cases none

theorem value_toDigits (number : Nat) : value (Nat.toDigits 10 number) = number := by
  have same : value (Nat.toDigits 10 number) = Nat.ofDigitChars 10 (Nat.toDigits 10 number) 0 := by
    unfold value Nat.ofDigitChars
    congr 1
    funext sofar c
    rw [Nat.mul_comm]
  rw [same, Nat.ofDigitChars_ten_toDigits]

/-- A number that is printed starts with a zero only if it is zero. -/
theorem head?_toDigits {number : Nat} (zero : (Nat.toDigits 10 number).head? = some '0') :
    number = 0 := by
  induction number using Nat.strongRecOn with
  | _ number ih =>
    by_cases small : number < 10
    · rw [Nat.toDigits_of_lt_base small] at zero
      exact Nat.digitChar_eq_zero.mp (Option.some.inj zero)
    · rw [Nat.toDigits_of_base_le (by decide) (by omega), List.head?_append_of_ne_nil _
        Nat.toDigits_ne_nil] at zero
      have leading := ih (number / 10) (by omega) zero
      omega

theorem le_ofDigitChars (digits : List Char) (start : Nat) :
    start ≤ Nat.ofDigitChars 10 digits start := by
  induction digits generalizing start with
  | nil => exact Nat.le_refl start
  | cons digit rest ih =>
    rw [Nat.ofDigitChars_cons]
    have later := ih (10 * start + (digit.toNat - '0'.toNat))
    omega

/-- The digits of a number of sixty-four bits are all kept. -/
theorem appendDigits_eq {digits : List Char} {start : Nat}
    (fits : Nat.ofDigitChars 10 digits start < 1 <<< 64) :
    appendDigits start digits = (Nat.ofDigitChars 10 digits start, 0) := by
  induction digits generalizing start with
  | nil => rfl
  | cons digit rest ih =>
    rw [Nat.ofDigitChars_cons, Nat.mul_comm] at fits ⊢
    have next := Nat.lt_of_le_of_lt (le_ofDigitChars rest _) fits
    rw [appendDigits, if_pos next]
    exact ih fits

theorem roundToBits_le (bits value : Nat) :
    roundToBits bits value ≤ value + 1 <<< (Nat.log2 value + 1 - bits) := by
  unfold roundToBits
  dsimp only
  split <;> omega

theorem isInRange_toDigits {number : Nat} (fits : number < 1 <<< 64) :
    isInRange (Nat.toDigits 10 number) [] 0 := by
  have kept : appendDigits 0 (Nat.toDigits 10 number) = (number, 0) := by
    rw [appendDigits_eq] <;> rw [Nat.ofDigitChars_ten_toDigits]
    exact fits
  rw [isInRange, kept]
  change isScaledInRange number 0
  rw [isScaledInRange]
  by_cases zero : number = 0
  · rw [zero]
    rfl
  · have bits : Nat.log2 number < 64 := (Nat.log2_lt zero).mpr fits
    have unit : 1 <<< (Nat.log2 number + 1 - 53) ≤ 1 <<< 12 := by
      rw [Nat.one_shiftLeft, Nat.one_shiftLeft]
      exact Nat.pow_le_pow_right (by decide) (by omega)
    have rounded := roundToBits_le 53 number
    have small : roundToBits 53 number < floatBound := by
      have bound : 1 <<< 64 + 1 <<< 12 < floatBound := by decide
      omega
    have one : roundToBits 53 (Nat.pow 10 (Int.toNat 0)) = 1 := by decide
    rw [one, Nat.mul_one]
    simp [small]

theorem takeFraction_ends {rest : List Char} (ends : Ends rest) :
    takeFraction rest = some ([], rest) := by
  unfold takeFraction
  split
  · exact absurd rfl ends.head.2.1
  · rfl

theorem takeExponent_ends {rest : List Char} (ends : Ends rest) :
    takeExponent rest = some ([], rest) := by
  cases rest with
  | nil => rfl
  | cons c rest =>
    obtain ⟨_, _, lower, upper⟩ := ends.head
    unfold takeExponent
    exact if_neg (by simp [lower, upper])

/-- A number of sixty-four bits is read as it was printed. -/
theorem parseNumber_toDigits {number : Nat} (fits : number < 1 <<< 64) {rest : List Char}
    (ends : Ends rest) :
    parseNumber (Nat.toDigits 10 number ++ rest) = some (.natural number, rest) := by
  have each : ∀ c ∈ Nat.toDigits 10 number, c.isDigit := fun c =>
    Nat.isDigit_of_mem_toDigits (by decide) (by decide)
  have taken := takeDigits_append Nat.toDigits_ne_nil each ends
  have unsigned : ∀ tail, Nat.toDigits 10 number ++ rest = '-' :: tail → False := by
    intro tail same
    obtain ⟨c, others, digits, digit⟩ := toDigits_eq_cons number
    rw [digits] at same
    exact digit '-' rfl (List.cons.inj same).1
  have leading : ¬ ((Nat.toDigits 10 number).length > 1 &&
      (Nat.toDigits 10 number).head? == some '0') := by
    intro both
    simp only [Bool.and_eq_true, decide_eq_true_eq, beq_iff_eq] at both
    obtain ⟨long, zero⟩ := both
    rw [head?_toDigits zero] at long
    exact absurd long (by decide)
  rw [parseNumber, taken]
  · simp only [Option.bind_eq_bind, Option.bind_some]
    rw [if_neg leading, takeFraction_ends ends]
    simp only [Option.bind_some]
    rw [takeExponent_ends ends]
    simp only [Option.bind_some]
    rw [if_neg (by simpa [exponentOf] using isInRange_toDigits fits)]
    simp [value_toDigits]
  · exact unsigned

/-- Nothing in the value is lost when it is printed: numbers have sixty-four bits and no sign. -/
inductive Plain : Json → Prop where
  | null : Plain .null
  | bool {value : Bool} : Plain (.bool value)
  | natural {value : Nat} (fits : value < 1 <<< 64) : Plain (.natural value)
  | string {text : String} : Plain (.string text)
  | array {items : List Json} (each : ∀ item ∈ items, Plain item) : Plain (.array items)
  | object {members : List (String × Json)} (each : ∀ member ∈ members, Plain member.2) :
      Plain (.object members)

@[simp]
theorem plain_null : Plain .null :=
  .null

@[simp]
theorem plain_bool (value : Bool) : Plain (.bool value) :=
  .bool

@[simp]
theorem plain_natural {value : Nat} : Plain (.natural value) ↔ value < 1 <<< 64 :=
  ⟨fun (.natural fits) => fits, .natural⟩

@[simp]
theorem plain_string (text : String) : Plain (.string text) :=
  .string

@[simp]
theorem plain_array {items : List Json} : Plain (.array items) ↔ ∀ item ∈ items, Plain item :=
  ⟨fun (.array each) => each, .array⟩

@[simp]
theorem plain_object {members : List (String × Json)} :
    Plain (.object members) ↔ ∀ member ∈ members, Plain member.2 :=
  ⟨fun (.object each) => each, .object⟩

theorem plain_object_nil : Plain (.object []) :=
  .object (List.forall_mem_nil _)

theorem plain_array_cons {item : Json} {rest : List Json} :
    Plain (.array (item :: rest)) ↔ Plain item ∧ Plain (.array rest) := by
  rw [plain_array, plain_array, List.forall_mem_cons]

theorem plain_object_cons {name : String} {value : Json} {rest : List (String × Json)} :
    Plain (.object ((name, value) :: rest)) ↔ Plain value ∧ Plain (.object rest) := by
  rw [plain_object, plain_object, List.forall_mem_cons]

mutual

/-- What is read of a value where arrays and objects may nest so deep. -/
def cut (depth : Nat) : Json → Json
  | .array items => if depth = 0 then .unreadable else .array (cutItems (depth - 1) items)
  | .object members => if depth = 0 then .unreadable else .object (cutMembers (depth - 1) members)
  | json => json

def cutItems (depth : Nat) : List Json → List Json
  | [] => []
  | item :: rest => item.cut depth :: cutItems depth rest

def cutMembers (depth : Nat) : List (String × Json) → List (String × Json)
  | [] => []
  | (name, value) :: rest => (name, value.cut depth) :: cutMembers depth rest

end

/-- What the text of a value or of a name starts with, after spaces. -/
def Starts (chars : List Char) : Prop :=
  ∃ c rest, chars.dropWhile isSpace = c :: rest ∧ c ≠ ']' ∧ c ≠ '\x7d'

namespace Starts

variable {chars : List Char}

theorem of_solid {c : Char} {rest : List Char} (solid : isSpace c = false) (other : c ≠ ']')
    (another : c ≠ '\x7d') : Starts (c :: rest) :=
  ⟨c, rest, List.dropWhile_cons_of_neg (by simp [solid]), other, another⟩

theorem append (starts : Starts chars) (rest : List Char) : Starts (chars ++ rest) := by
  obtain ⟨c, tail, drops, other⟩ := starts
  refine ⟨c, tail ++ rest, ?_, other⟩
  rw [List.dropWhile_append, drops]
  rfl

theorem spaced (starts : Starts chars) {before : List Char} (spaces : ∀ c ∈ before, isSpace c) :
    Starts (before ++ chars) := by
  obtain ⟨c, tail, drops, other⟩ := starts
  exact ⟨c, tail, (List.dropWhile_append_of_pos spaces).trans drops, other⟩

theorem length_pos (starts : Starts chars) : 0 < chars.length := by
  cases chars with
  | nil =>
    obtain ⟨_, _, drops, _⟩ := starts
    cases drops
  | cons => exact Nat.succ_pos _

end Starts

theorem dropWhile_isSpace_idem (chars : List Char) :
    (chars.dropWhile isSpace).dropWhile isSpace = chars.dropWhile isSpace :=
  List.dropWhile_idempotent isSpace chars

/-- Spaces before a value, an item or a member are skipped. -/
theorem parseValue_dropWhile (fuel depth : Nat) (chars : List Char) :
    parseValue fuel depth (chars.dropWhile isSpace) = parseValue fuel depth chars := by
  cases fuel with
  | zero => rfl
  | succ fuel => rw [parseValue, parseValue, dropWhile_isSpace_idem]

theorem parseItems_dropWhile (fuel depth : Nat) (chars : List Char) :
    parseItems fuel depth (chars.dropWhile isSpace) = parseItems fuel depth chars := by
  cases fuel with
  | zero => rfl
  | succ fuel => rw [parseItems, parseItems, parseValue_dropWhile]

theorem parseMembers_dropWhile (fuel depth : Nat) (chars : List Char) :
    parseMembers fuel depth (chars.dropWhile isSpace) = parseMembers fuel depth chars := by
  cases fuel with
  | zero => rfl
  | succ fuel => rw [parseMembers, parseMembers, dropWhile_isSpace_idem]

theorem parseValue_items {fuel depth : Nat} {chars rest : List Char} {items : List Json}
    (starts : Starts chars) (read : parseItems fuel (depth - 1) chars = some (items, rest)) :
    parseValue (fuel + 1) depth ('[' :: chars) =
      some (if depth = 0 then .unreadable else .array items, rest) := by
  obtain ⟨c, tail, drops, other, _⟩ := starts
  rw [← parseItems_dropWhile, drops] at read
  rw [parseValue, List.dropWhile_cons_of_neg (by decide)]
  simp only [drops]
  split
  · rename_i same
    exact absurd (List.cons.inj same).1 other
  · rw [read]
    rfl

theorem parseValue_members {fuel depth : Nat} {chars rest : List Char}
    {members : List (String × Json)} (starts : Starts chars)
    (read : parseMembers fuel (depth - 1) chars = some (some members, rest)) :
    parseValue (fuel + 1) depth ('\x7b' :: chars) =
      some (if depth = 0 then .unreadable else .object members, rest) := by
  obtain ⟨c, tail, drops, _, other⟩ := starts
  rw [← parseMembers_dropWhile, drops] at read
  rw [parseValue, List.dropWhile_cons_of_neg (by decide)]
  simp only [drops]
  split
  · rename_i same
    exact absurd (List.cons.inj same).1 other
  · rw [read]
    rfl

theorem stringChars_append (text : String) (rest : List Char) :
    stringChars text ++ rest = '"' :: (text.toList.flatMap stringChar ++ '"' :: rest) := by
  simp [stringChars]

theorem parseValue_string (fuel depth : Nat) (text : String) (rest : List Char) :
    parseValue (fuel + 1) depth (stringChars text ++ rest) = some (.string text, rest) := by
  rw [stringChars_append, parseValue, List.dropWhile_cons_of_neg (by decide)]
  simp only [parseString_stringChars, Option.bind_eq_bind, Option.bind_some, ofChars?,
    String.ofList_toList]

theorem parseValue_natural {fuel depth number : Nat} (fits : number < 1 <<< 64)
    {rest : List Char} (ends : Ends rest) :
    parseValue (fuel + 1) depth (Nat.toDigits 10 number ++ rest) =
      some (.natural number, rest) := by
  have read := parseNumber_toDigits fits ends
  obtain ⟨c, others, digits, digit⟩ := toDigits_eq_cons number
  have solid : isSpace c = false := by
    simp [isSpace, digit ' ' rfl, digit '\t' rfl, digit '\n' rfl, digit '\r' rfl]
  rw [digits, List.cons_append] at read ⊢
  rw [parseValue, List.dropWhile_cons_of_neg (by simp [solid])]
  split
  case h_8 => exact read
  all_goals
    rename_i same
    cases same <;> exact absurd rfl (digit _ rfl)

/-- These characters are read as the value, but for what is nested too deep in it. Each character
makes up for two calls. -/
structure Reads (json : Json) (chars : List Char) : Prop where
  starts : Starts chars
  read : ∀ {fuel depth : Nat} {rest : List Char}, 2 * chars.length ≤ fuel + 1 → Ends rest →
    parseValue (fuel + 1) depth (chars ++ rest) = some (json.cut depth, rest)

/-- These characters are read as the items before a closing bracket. -/
structure ReadsItems (items : List Json) (chars : List Char) : Prop where
  starts : Starts chars
  read : ∀ {fuel depth : Nat} {rest tail : List Char}, 2 * chars.length ≤ fuel →
    rest.dropWhile isSpace = ']' :: tail →
    parseItems (fuel + 1) depth (chars ++ rest) = some (cutItems depth items, tail)

/-- These characters are read as the members before a closing brace. -/
structure ReadsMembers (members : List (String × Json)) (chars : List Char) : Prop where
  starts : Starts chars
  read : ∀ {fuel depth : Nat} {rest tail : List Char}, 2 * chars.length ≤ fuel →
    rest.dropWhile isSpace = '\x7d' :: tail →
    parseMembers (fuel + 1) depth (chars ++ rest) = some (some (cutMembers depth members), tail)

namespace ReadsItems

variable {item : Json} {items : List Json} {chars more : List Char}

theorem last (first : Reads item chars) : ReadsItems [item] chars where
  starts := first.starts
  read := by
    intro fuel depth rest tail enough closes
    have some := first.starts.length_pos
    obtain ⟨fuel, rfl⟩ := Nat.exists_eq_add_of_lt (show 0 < fuel by omega)
    rw [Nat.zero_add] at enough ⊢
    rw [parseItems, first.read (by omega) (.of_dropWhile closes (.inr (.inl rfl)))]
    simp only [Option.bind_eq_bind, Option.bind_some, closes]
    rfl

theorem next (first : Reads item chars) (later : ReadsItems items more) :
    ReadsItems (item :: items) (chars ++ ',' :: more) where
  starts := first.starts.append _
  read := by
    intro fuel depth rest tail enough closes
    have some := first.starts.length_pos
    rw [List.length_append, List.length_cons] at enough
    obtain ⟨fuel, rfl⟩ := Nat.exists_eq_add_of_lt (show 0 < fuel by omega)
    rw [Nat.zero_add] at enough ⊢
    have comma : (',' :: (more ++ rest)).dropWhile isSpace = ',' :: (more ++ rest) := rfl
    rw [List.append_assoc, List.cons_append, parseItems,
      first.read (by omega) (.of_dropWhile comma (.inl rfl))]
    simp only [Option.bind_eq_bind, Option.bind_some, comma]
    rw [later.read (by omega) closes]
    rfl

end ReadsItems

namespace ReadsMembers

variable {name : String} {value : Json} {members : List (String × Json)}
  {before chars more : List Char}

theorem name_starts (spaces : ∀ c ∈ before, isSpace c) (name : String) (rest : List Char) :
    Starts (before ++ (stringChars name ++ rest)) :=
  ((Starts.of_solid (by decide) (by decide) (by decide)).append rest).spaced spaces

/-- A member is read up to what follows its name. -/
theorem parseMembers_name {fuel depth : Nat} (spaces : ∀ c ∈ before, isSpace c) (rest : List Char) :
    parseMembers (fuel + 1) depth (before ++ (stringChars name ++ ':' :: rest)) = (do
      let (value, rest) ← parseValue fuel depth rest
      match rest.dropWhile isSpace with
      | ',' :: rest => do
        let (members, rest) ← parseMembers fuel depth rest
        some (do some ((name, value) :: (← members)), rest)
      | '\x7d' :: rest => some (some [(name, value)], rest)
      | _ => none) := by
  have colon : (':' :: rest).dropWhile isSpace = ':' :: rest := rfl
  rw [stringChars_append]
  have read := parseMembers.eq_def (fuel + 1) depth
    (before ++ '"' :: (name.toList.flatMap stringChar ++ '"' :: ':' :: rest))
  rw [List.dropWhile_append_of_pos spaces, List.dropWhile_cons_of_neg (by decide)] at read
  simp only [parseString_stringChars, Option.bind_eq_bind, Option.bind_some, colon] at read
  simp only [Option.map_some, String.ofList_toList, Option.bind_some] at read
  exact read

theorem last (name : String) (spaces : ∀ c ∈ before, isSpace c) (first : Reads value chars) :
    ReadsMembers [(name, value)] (before ++ (stringChars name ++ ':' :: chars)) where
  starts := name_starts spaces name _
  read := by
    intro fuel depth rest tail enough closes
    simp only [List.length_append, List.length_cons] at enough
    have some := first.starts.length_pos
    obtain ⟨fuel, rfl⟩ := Nat.exists_eq_add_of_lt (show 0 < fuel by omega)
    rw [Nat.zero_add] at enough ⊢
    rw [List.append_assoc, List.append_assoc, List.cons_append, parseMembers_name spaces,
      first.read (by omega) (.of_dropWhile closes (.inr (.inr rfl)))]
    simp only [Option.bind_eq_bind, Option.bind_some, closes]
    rfl

theorem next (spaces : ∀ c ∈ before, isSpace c) (first : Reads value chars)
    (later : ReadsMembers members more) :
    ReadsMembers ((name, value) :: members)
      (before ++ (stringChars name ++ ':' :: (chars ++ ',' :: more))) where
  starts := name_starts spaces name _
  read := by
    intro fuel depth rest tail enough closes
    simp only [List.length_append, List.length_cons] at enough
    have some := first.starts.length_pos
    obtain ⟨fuel, rfl⟩ := Nat.exists_eq_add_of_lt (show 0 < fuel by omega)
    rw [Nat.zero_add] at enough ⊢
    have comma : (',' :: (more ++ rest)).dropWhile isSpace = ',' :: (more ++ rest) := rfl
    simp only [List.append_assoc, List.cons_append]
    rw [parseMembers_name spaces, first.read (by omega) (.of_dropWhile comma (.inl rfl))]
    simp only [Option.bind_eq_bind, Option.bind_some, comma]
    rw [later.read (by omega) closes]
    rfl

end ReadsMembers

namespace Reads

variable {json : Json} {chars : List Char}

theorem spaced (reads : Reads json chars) {before : List Char} (spaces : ∀ c ∈ before, isSpace c) :
    Reads json (before ++ chars) where
  starts := reads.starts.spaced spaces
  read := by
    intro fuel depth rest enough ends
    rw [List.length_append] at enough
    rw [List.append_assoc, ← parseValue_dropWhile, List.dropWhile_append_of_pos spaces,
      parseValue_dropWhile, reads.read (by omega) ends]

theorem null : Reads .null "null".toList :=
  ⟨.of_solid (by decide) (by decide) (by decide), fun _ _ => rfl⟩

theorem bool (value : Bool) : Reads (.bool value) (if value then "true" else "false").toList := by
  cases value <;> exact ⟨.of_solid (by decide) (by decide) (by decide), fun _ _ => rfl⟩

theorem natural {number : Nat} (fits : number < 1 <<< 64) :
    Reads (.natural number) (Nat.toDigits 10 number) where
  starts := by
    obtain ⟨c, others, digits, digit⟩ := toDigits_eq_cons number
    rw [digits]
    refine .of_solid ?_ (digit ']' rfl) (digit '\x7d' rfl)
    simp [isSpace, digit ' ' rfl, digit '\t' rfl, digit '\n' rfl, digit '\r' rfl]
  read := fun _ ends => parseValue_natural fits ends

theorem string (text : String) : Reads (.string text) (stringChars text) :=
  ⟨.of_solid (by decide) (by decide) (by decide), fun _ _ => parseValue_string ..⟩

theorem array_nil : Reads (.array []) ['[', ']'] :=
  ⟨.of_solid (by decide) (by decide) (by decide), fun _ _ => rfl⟩

theorem object_nil : Reads (.object []) ['\x7b', '\x7d'] :=
  ⟨.of_solid (by decide) (by decide) (by decide), fun _ _ => rfl⟩

theorem array {items : List Json} (inside : ReadsItems items chars) {after : List Char}
    (spaces : ∀ c ∈ after, isSpace c) :
    Reads (.array items) ('[' :: (chars ++ (after ++ [']']))) where
  starts := .of_solid (by decide) (by decide) (by decide)
  read := by
    intro fuel depth rest enough _
    simp only [List.length_append, List.length_cons, List.length_nil] at enough
    obtain ⟨fuel, rfl⟩ := Nat.exists_eq_add_of_lt (show 0 < fuel by omega)
    rw [Nat.zero_add] at enough ⊢
    simp only [List.cons_append, List.append_assoc, List.nil_append, cut]
    exact parseValue_items (inside.starts.append _)
      (inside.read (by omega) (List.dropWhile_append_of_pos spaces))

theorem object {members : List (String × Json)} (inside : ReadsMembers members chars)
    {after : List Char} (spaces : ∀ c ∈ after, isSpace c) :
    Reads (.object members) ('\x7b' :: (chars ++ (after ++ ['\x7d']))) where
  starts := .of_solid (by decide) (by decide) (by decide)
  read := by
    intro fuel depth rest enough _
    simp only [List.length_append, List.length_cons, List.length_nil] at enough
    obtain ⟨fuel, rfl⟩ := Nat.exists_eq_add_of_lt (show 0 < fuel by omega)
    rw [Nat.zero_add] at enough ⊢
    simp only [List.cons_append, List.append_assoc, List.nil_append, cut]
    exact parseValue_members (inside.starts.append _)
      (inside.read (by omega) (List.dropWhile_append_of_pos spaces))

/-- A text is read as a whole. -/
theorem parse?_eq (reads : Reads json chars) :
    parse? (String.ofList chars) = some (json.cut maxNesting) := by
  have read : parseValue (2 * chars.length + 2) maxNesting (chars ++ []) =
      some (json.cut maxNesting, []) := reads.read (by omega) (by simp [Ends])
  rw [List.append_nil] at read
  rw [parse?, String.toList_ofList]
  simp only [read, Option.bind_eq_bind, Option.bind_some]
  rfl

end Reads

theorem compactItems_cons (item next : Json) (rest : List Json) :
    compactItems (item :: next :: rest) =
      item.compactChars ++ ',' :: compactItems (next :: rest) := by
  rw [compactItems]
  exact nofun

theorem compactMembers_cons (member next : String × Json) (rest : List (String × Json)) :
    compactMembers (member :: next :: rest) =
      stringChars member.1 ++
        ':' :: (member.2.compactChars ++ ',' :: compactMembers (next :: rest)) := by
  rw [compactMembers]
  · simp
  · exact nofun

theorem compactItems_reads {item : Json} {items : List Json}
    (each : ∀ json ∈ item :: items, Reads json json.compactChars) :
    ReadsItems (item :: items) (compactItems (item :: items)) := by
  induction items generalizing item with
  | nil => exact .last (each item (.head _))
  | cons next items ih =>
    obtain ⟨first, later⟩ := List.forall_mem_cons.mp each
    rw [compactItems_cons]
    exact .next first (ih later)

theorem compactMembers_reads {member : String × Json} {members : List (String × Json)}
    (each : ∀ entry ∈ member :: members, Reads entry.2 entry.2.compactChars) :
    ReadsMembers (member :: members) (compactMembers (member :: members)) := by
  induction members generalizing member with
  | nil => exact .last _ (List.forall_mem_nil _) (each member (.head _))
  | cons next members ih =>
    obtain ⟨first, later⟩ := List.forall_mem_cons.mp each
    rw [compactMembers_cons]
    exact .next (List.forall_mem_nil _) first (ih later)

theorem Plain.compact_reads {json : Json} (plain : Plain json) : Reads json json.compactChars := by
  induction plain with
  | null => exact .null
  | bool => exact .bool _
  | natural fits => exact .natural fits
  | string => exact .string _
  | @array items _ ih =>
    cases items with
    | nil => exact .array_nil
    | cons item items => exact .array (compactItems_reads ih) (List.forall_mem_nil _)
  | @object members _ ih =>
    cases members with
    | nil => exact .object_nil
    | cons member members => exact .object (compactMembers_reads ih) (List.forall_mem_nil _)

theorem newLine_spaces (level : Nat) : ∀ c ∈ newLine level, isSpace c :=
  List.forall_mem_cons.mpr ⟨rfl, fun _ member => by rw [List.eq_of_mem_replicate member]; rfl⟩

theorem prettyItems_cons (level : Nat) (item next : Json) (rest : List Json) :
    prettyItems level (item :: next :: rest) =
      newLine level ++ item.prettyChars level ++ ',' :: prettyItems level (next :: rest) := by
  rw [prettyItems]
  exact nofun

theorem prettyMembers_cons (level : Nat) (member next : String × Json)
    (rest : List (String × Json)) :
    prettyMembers level (member :: next :: rest) =
      newLine level ++ (stringChars member.1 ++
        ':' :: ([' '] ++ member.2.prettyChars level ++
          ',' :: prettyMembers level (next :: rest))) := by
  rw [prettyMembers]
  · simp
  · exact nofun

theorem prettyItems_reads {level : Nat} {item : Json} {items : List Json}
    (each : ∀ json ∈ item :: items, Reads json (json.prettyChars level)) :
    ReadsItems (item :: items) (prettyItems level (item :: items)) := by
  induction items generalizing item with
  | nil => exact .last ((each item (.head _)).spaced (newLine_spaces level))
  | cons next items ih =>
    obtain ⟨first, later⟩ := List.forall_mem_cons.mp each
    rw [prettyItems_cons]
    exact .next (first.spaced (newLine_spaces level)) (ih later)

theorem prettyMembers_reads {level : Nat} {member : String × Json}
    {members : List (String × Json)}
    (each : ∀ entry ∈ member :: members, Reads entry.2 (entry.2.prettyChars level)) :
    ReadsMembers (member :: members) (prettyMembers level (member :: members)) := by
  have space : ∀ c ∈ [' '], isSpace c := List.forall_mem_singleton.mpr rfl
  induction members generalizing member with
  | nil =>
    have last := ReadsMembers.last member.1 (newLine_spaces level)
      ((each member (.head _)).spaced space)
    rw [← List.append_assoc] at last
    exact last
  | cons next members ih =>
    obtain ⟨first, later⟩ := List.forall_mem_cons.mp each
    rw [prettyMembers_cons]
    exact .next (newLine_spaces level) (first.spaced space) (ih later)

theorem Plain.pretty_reads {json : Json} (plain : Plain json) (level : Nat) :
    Reads json (json.prettyChars level) := by
  induction plain generalizing level with
  | null => exact .null
  | bool => exact .bool _
  | natural fits => exact .natural fits
  | string => exact .string _
  | @array items _ ih =>
    cases items with
    | nil => exact .array_nil
    | cons item items =>
      have inside := prettyItems_reads fun json among => ih json among (level + 1)
      have reads := Reads.array inside (newLine_spaces level)
      rw [← List.append_assoc] at reads
      exact reads
  | @object members _ ih =>
    cases members with
    | nil => exact .object_nil
    | cons member members =>
      have inside := prettyMembers_reads fun entry among => ih entry among (level + 1)
      have reads := Reads.object inside (newLine_spaces level)
      rw [← List.append_assoc] at reads
      exact reads

theorem parse?_compact {json : Json} (plain : Plain json) :
    parse? json.compact = some (json.cut maxNesting) :=
  plain.compact_reads.parse?_eq

theorem parse?_pretty {json : Json} (plain : Plain json) :
    parse? json.pretty = some (json.cut maxNesting) :=
  (plain.pretty_reads 0).parse?_eq

end StepShell.Json

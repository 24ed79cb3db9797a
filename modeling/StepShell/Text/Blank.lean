/-! White space as Unicode defines it, and the cuts of a text that follow it. -/

namespace StepShell.Text

/-- The twenty-five code points with the property White_Space. -/
def isBlank (c : Char) : Bool :=
  let code := c.toNat
  (9 ≤ code && code ≤ 13) || code == 0x20 || code == 0x85 || code == 0xA0 || code == 0x1680 ||
    (0x2000 ≤ code && code ≤ 0x200A) || code == 0x2028 || code == 0x2029 || code == 0x202F ||
    code == 0x205F || code == 0x3000

theorem isBlank_of_isWhitespace {c : Char} (space : c.isWhitespace = true) : isBlank c = true := by
  simp only [Char.isWhitespace, Bool.or_eq_true, decide_eq_true_eq] at space
  rcases space with ((rfl | rfl) | rfl) | rfl <;> decide

/-- Drop every trailing item that satisfies `drop`. -/
def dropEndWhile {α : Type} (drop : α → Bool) (items : List α) : List α :=
  (items.reverse.dropWhile drop).reverse

/-- The text without the blanks at either end. -/
def trimChars (chars : List Char) : List Char :=
  dropEndWhile isBlank (chars.dropWhile isBlank)

def trim (text : String) : String :=
  String.ofList (trimChars text.toList)

/-- The pieces between the characters that satisfy `stop`, one more than there are of these. -/
def cutAt (stop : Char → Bool) : List Char → List (List Char)
  | [] => [[]]
  | c :: rest =>
    if stop c then [] :: cutAt stop rest
    else
      match cutAt stop rest with
      | [] => [[c]]
      | piece :: pieces => (c :: piece) :: pieces

theorem cutAt_ne_nil (stop : Char → Bool) (chars : List Char) : cutAt stop chars ≠ [] := by
  cases chars with
  | nil => simp [cutAt]
  | cons c rest =>
    unfold cutAt
    split
    · simp
    · split <;> simp

/-- The blank-separated words of a text. -/
def words (text : String) : List String :=
  ((cutAt isBlank text.toList).filter (fun piece => !piece.isEmpty)).map String.ofList

/-- A line without the carriage return before its newline. -/
def stripReturn (line : List Char) : List Char :=
  if line.getLast? = some '\r' then line.dropLast else line

def linePieces : List (List Char) → List (List Char)
  | [] => []
  | [last] => if last.isEmpty then [] else [last]
  | line :: rest => stripReturn line :: linePieces rest

/-- The lines of a text: each ends at a newline, or at a carriage return before one, and an
empty last line is none. -/
def lines (text : String) : List String :=
  (linePieces (cutAt (· == '\n') text.toList)).map String.ofList

end StepShell.Text

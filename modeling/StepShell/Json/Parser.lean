import StepShell.Json.Basic
import StepShell.Json.Number
import StepShell.Text.Hexadecimal

/-! Reading JSON texts. What a text nests too deep, writes with half of a surrogate pair or counts
beyond the largest float is read as what can only be passed over. -/

namespace StepShell.Json

/-- The deepest nesting of arrays and objects that a text may have. -/
def maxNesting : Nat := 127

def isSpace (c : Char) : Bool :=
  c == ' ' || c == '\t' || c == '\n' || c == '\r'

/-- The number of four hexadecimal digits. -/
def unit? (a b c d : Char) : Option Nat := do
  let digits ← [a, b, c, d].mapM Text.hexValue?
  some (digits.foldl (fun value digit => value * 16 + digit) 0)

/-- What a backslash before this character stands for. -/
def escaped? : Char → Option Char
  | '"' => some '"'
  | '\\' => some '\\'
  | '/' => some '/'
  | 'b' => some '\x08'
  | 'f' => some '\x0c'
  | 'n' => some '\n'
  | 'r' => some '\r'
  | 't' => some '\t'
  | _ => none

/-- What stands in a string at one place. -/
inductive Piece where
  | char (c : Char)
  /-- A number of sixteen bits, written with a backslash and a `u`. -/
  | unit (value : Nat)

/-- The character that a leading and a trailing surrogate unit stand for together. -/
def paired? (leading trailing : Nat) : Option Char :=
  if 0xD800 ≤ leading && leading < 0xDC00 && 0xDC00 ≤ trailing && trailing < 0xE000 then
    some (Char.ofNat (0x10000 + (leading - 0xD800) * 0x400 + (trailing - 0xDC00)))
  else none

/-- The character that a unit stands for by itself. -/
def single? (unit : Nat) : Option Char :=
  if 0xD800 ≤ unit && unit < 0xE000 then none else some (Char.ofNat unit)

/-- The characters that pieces stand for. Characters beyond the first 65536 may be written as two
surrogate units; there are none if one such unit stands alone. -/
def pieceChars? : List Piece → Option (List Char)
  | [] => some []
  | .char c :: rest => do some (c :: (← pieceChars? rest))
  | .unit leading :: .unit trailing :: rest =>
    match paired? leading trailing with
    | some c => do some (c :: (← pieceChars? rest))
    | none => do some ((← single? leading) :: (← pieceChars? (.unit trailing :: rest)))
  | .unit value :: rest => do some ((← single? value) :: (← pieceChars? rest))

/-- The pieces of a string after its opening quote, and what follows its closing one. -/
def parsePieces : List Char → Option (List Piece × List Char)
  | [] => none
  | '"' :: rest => some ([], rest)
  | '\\' :: 'u' :: a :: b :: c :: d :: rest => do
    let unit ← unit? a b c d
    let (pieces, rest) ← parsePieces rest
    some (.unit unit :: pieces, rest)
  | '\\' :: c :: rest => do
    let c ← escaped? c
    let (pieces, rest) ← parsePieces rest
    some (.char c :: pieces, rest)
  | c :: rest =>
    if c == '\\' || c.toNat < 0x20 then none
    else do
      let (pieces, rest) ← parsePieces rest
      some (.char c :: pieces, rest)

/-- The rest of a string after its opening quote, and what follows its closing one. The string may
be there and yet have no characters. -/
def parseString (chars : List Char) : Option (Option (List Char) × List Char) := do
  let (pieces, rest) ← parsePieces chars
  some (pieceChars? pieces, rest)

def ofChars? : Option (List Char) → Json
  | some chars => .string (String.ofList chars)
  | none => .unreadable

def takeDigits (chars : List Char) : Option (List Char × List Char) :=
  match chars.takeWhile Char.isDigit with
  | [] => none
  | digits => some (digits, chars.dropWhile Char.isDigit)

def takeFraction : List Char → Option (List Char × List Char)
  | '.' :: rest => do
    let (digits, rest) ← takeDigits rest
    some ('.' :: digits, rest)
  | chars => some ([], chars)

def takeExponent : List Char → Option (List Char × List Char)
  | mark :: rest =>
    if mark == 'e' || mark == 'E' then
      match rest with
      | sign :: tail =>
        if sign == '+' || sign == '-' then do
          let (digits, rest) ← takeDigits tail
          some (mark :: sign :: digits, rest)
        else do
          let (digits, rest) ← takeDigits rest
          some (mark :: digits, rest)
      | [] => none
    else some ([], mark :: rest)
  | [] => some ([], [])

def value (digits : List Char) : Nat :=
  digits.foldl (fun value c => value * 10 + (c.toNat - '0'.toNat)) 0

/-- The number that an exponent is written for, with the mark before it. -/
def exponentOf : List Char → Int
  | _ :: '-' :: digits => -(value digits : Int)
  | _ :: '+' :: digits => value digits
  | _ :: digits => value digits
  | [] => 0

/-- A number: no digit may follow a leading zero. -/
def parseNumber (chars : List Char) : Option (Json × List Char) := do
  let (sign, chars) := match chars with
    | '-' :: rest => (['-'], rest)
    | _ => ([], chars)
  let (whole, rest) ← takeDigits chars
  if whole.length > 1 && whole.head? == some '0' then none
  else
    let (fraction, rest) ← takeFraction rest
    let (exponent, rest) ← takeExponent rest
    let json :=
      if !isInRange whole (fraction.drop 1) (exponentOf exponent) then .unreadable
      else if sign.isEmpty && fraction.isEmpty && exponent.isEmpty then .natural (value whole)
      else .number (String.ofList (sign ++ whole ++ fraction ++ exponent))
    some (json, rest)

/-- The rest after a word that must stand first. -/
def after? (word : String) (chars : List Char) : Option (List Char) :=
  if word.toList.isPrefixOf chars then some (chars.drop word.length) else none

mutual

/-- One value, leading space skipped; arrays and objects in it nest at most `depth` deep. Each call
uses up one unit of `fuel`, and two calls read at least one character. -/
def parseValue (fuel depth : Nat) (chars : List Char) : Option (Json × List Char) :=
  match fuel with
  | 0 => none
  | fuel + 1 =>
    match chars.dropWhile isSpace with
    | [] => none
    | '"' :: rest => do
      let (text, rest) ← parseString rest
      some (ofChars? text, rest)
    | '[' :: rest => do
      let (items, rest) ← match rest.dropWhile isSpace with
        | ']' :: rest => some ([], rest)
        | rest => parseItems fuel (depth - 1) rest
      some (if depth = 0 then .unreadable else .array items, rest)
    | '\x7b' :: rest => do
      let (members, rest) ← match rest.dropWhile isSpace with
        | '\x7d' :: rest => some (some [], rest)
        | rest => parseMembers fuel (depth - 1) rest
      some (if depth = 0 then .unreadable else (members.map .object).getD .unreadable, rest)
    | 'n' :: rest => do some (.null, ← after? "ull" rest)
    | 't' :: rest => do some (.bool true, ← after? "rue" rest)
    | 'f' :: rest => do some (.bool false, ← after? "alse" rest)
    | chars => parseNumber chars

def parseItems (fuel depth : Nat) (chars : List Char) : Option (List Json × List Char) :=
  match fuel with
  | 0 => none
  | fuel + 1 => do
    let (item, rest) ← parseValue fuel depth chars
    match rest.dropWhile isSpace with
    | ',' :: rest => do
      let (items, rest) ← parseItems fuel depth rest
      some (item :: items, rest)
    | ']' :: rest => some ([item], rest)
    | _ => none

/-- The members up to the end of an object; they are not there if one of the names has no
characters. -/
def parseMembers (fuel depth : Nat) (chars : List Char) :
    Option (Option (List (String × Json)) × List Char) :=
  match fuel with
  | 0 => none
  | fuel + 1 => do
    match chars.dropWhile isSpace with
    | '"' :: rest =>
      let (name, rest) ← parseString rest
      match rest.dropWhile isSpace with
      | ':' :: rest =>
        let (value, rest) ← parseValue fuel depth rest
        let member := name.map fun name => (String.ofList name, value)
        match rest.dropWhile isSpace with
        | ',' :: rest => do
          let (members, rest) ← parseMembers fuel depth rest
          some (do some ((← member) :: (← members)), rest)
        | '\x7d' :: rest => some (do some [← member], rest)
        | _ => none
      | _ => none
    | _ => none

end

/-- The value that the whole text is written for. -/
def parse? (text : String) : Option Json := do
  let chars := text.toList
  let (json, rest) ← parseValue (2 * chars.length + 2) maxNesting chars
  if rest.all isSpace then some json else none

end StepShell.Json

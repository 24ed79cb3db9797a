import StepShell.Url.Domain
import StepShell.Url.Percent

/-! Hosts: names, and numeric addresses of four bytes or of eight groups. -/

namespace StepShell.Url

private def radixDigits? (radix : Nat) (text : List Char) : Option Nat :=
  text.foldlM (fun value c => do
    let digit ← Text.hexValue? c
    if digit < radix then some (value * radix + digit) else none) 0

/-- A number in decimal, in octal after a zero or in hexadecimal after `0x`. -/
def looseNumber? : List Char → Option Nat
  | [] => none
  | '0' :: 'x' :: rest | '0' :: 'X' :: rest => radixDigits? 16 rest
  | '0' :: c :: rest => radixDigits? 8 (c :: rest)
  | text => radixDigits? 10 text

/-- The parts of a host name; one dot at the end is passed over. -/
private def dotted (text : List Char) : List (List Char) :=
  let parts := Text.cutAt (· == '.') text
  if parts.getLast? = some [] ∧ 1 < parts.length then parts.dropLast else parts

/-- Whether the last part of a host name makes it an address of four bytes. -/
def endsInNumber (text : List Char) : Bool :=
  match (dotted text).getLast? with
  | some last => (!last.isEmpty && last.all Char.isDigit) || (looseNumber? last).isSome
  | none => false

/-- The text of an address of four bytes; the last part may stand for several of them. -/
def fourBytes? (text : List Char) : Option (List Char) := do
  let numbers ← (dotted text).mapM looseNumber?
  let last ← numbers.getLast?
  let others := numbers.dropLast
  if 4 < numbers.length ∨ others.any (255 < ·) ∨ 1 <<< (8 * (4 - others.length)) ≤ last then none
  else
    let missing := 4 - numbers.length
    let tail := (List.range (missing + 1)).reverse.map fun place => last >>> (8 * place) % 256
    some (".".intercalate ((others ++ tail).map toString)).toList

private def group? (text : List Char) : Option Nat :=
  if text.isEmpty || 4 < text.length then none else radixDigits? 16 text

private def byte? (text : List Char) : Option Nat := do
  if text.isEmpty || 3 < text.length || !text.all Char.isDigit then none
  else if 1 < text.length ∧ text.head? = some '0' then none
  else
    let value ← radixDigits? 10 text
    if value < 256 then some value else none

/-- Groups between colons, of which the last two may be written as four bytes. -/
private def groups? (last : Bool) (text : List Char) : Option (List Nat) :=
  if text.isEmpty then some []
  else
    let parts := Text.cutAt (· == ':') text
    match parts.getLast? with
    | some final =>
      if last && final.contains '.' then do
        let [a, b, c, d] ← (Text.cutAt (· == '.') final).mapM byte? | none
        some ((← parts.dropLast.mapM group?) ++ [a * 256 + b, c * 256 + d])
      else parts.mapM group?
    | none => none

/-- The texts before and after the first two colons in a row. -/
private def splitColons : List Char → Option (List Char × List Char)
  | ':' :: ':' :: rest => some ([], rest)
  | c :: rest => (splitColons rest).map fun halves => (c :: halves.1, halves.2)
  | [] => none

/-- The eight groups of an address; two colons in a row stand for groups that are zero. -/
def eightGroups? (text : List Char) : Option (List Nat) :=
  match splitColons text with
  | none => do
    let groups ← groups? true text
    if groups.length = 8 then some groups else none
  | some (before, after) => do
    let first ← groups? false before
    let second ← groups? true after
    let given := first.length + second.length
    if given ≤ 7 then some (first ++ List.replicate (8 - given) 0 ++ second) else none

/-- Where the first of the longest runs of zeros starts, and its length. -/
private def longestZeros (groups : List Nat) : Nat × Nat :=
  (List.range groups.length).foldl (fun best start =>
    let run := ((groups.drop start).takeWhile (· == 0)).length
    if best.2 < run then (start, run) else best) (0, 0)

private def groupsText (groups : List Nat) : List Char :=
  (":".intercalate (groups.map fun group => String.ofList (Nat.toDigits 16 group))).toList

/-- The text of eight groups; the longest run of two zeros or more is left out. -/
def groupsChars (groups : List Nat) : List Char :=
  let (start, run) := longestZeros groups
  if 2 ≤ run then
    groupsText (groups.take start) ++ "::".toList ++ groupsText (groups.drop (start + run))
  else groupsText groups

/-- Characters that no host may hold. -/
def forbiddenInHost (c : Char) : Bool :=
  ['\x00', '\t', '\n', '\r', ' ', '#', '/', ':', '<', '>', '?', '@', '[', '\\', ']', '^',
    '|'].contains c

def forbiddenInName (c : Char) : Bool :=
  forbiddenInHost c || c.toNat < 0x20 || c == '%' || c.toNat == 0x7F

private def bracketed? (text : List Char) : Option (List Char) := do
  if text.getLast? = some ']' then
    some ('[' :: groupsChars (← eightGroups? text.dropLast) ++ [']'])
  else none

/-- The host of a scheme that gives hosts a meaning. -/
def name? (text : List Char) : Option (List Char) :=
  match text with
  | '[' :: rest => bracketed? rest
  | text => do
    let decoded ← String.fromUTF8? ⟨(percentDecode text).toArray⟩
    let name ← Domain.toAscii? forbiddenInName decoded.toList
    if name.isEmpty then none
    else if endsInNumber name then fourBytes? name
    else some name

/-- The host of any other scheme. -/
def opaqueHost? (text : List Char) : Option (List Char) :=
  match text with
  | '[' :: rest => bracketed? rest
  | text => if text.any forbiddenInHost then none else some (percentEncode isControl text)

end StepShell.Url

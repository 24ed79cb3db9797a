import StepShell.Json.Basic
import StepShell.Text.Escape

/-! JSON texts, either without any space or indented by two spaces a level. -/

namespace StepShell.Json

/-- Four lower-case hexadecimal digits. -/
def hex4 (value : Nat) : List Char :=
  let digits := Text.hex value
  List.replicate (4 - digits.length) '0' ++ digits

/-- A character inside a JSON string; all but quotes, backslashes and the first thirty-two controls
stand for themselves. -/
def stringChar (c : Char) : List Char :=
  if c = '"' then ['\\', '"']
  else if c = '\\' then ['\\', '\\']
  else if c.toNat = 8 then ['\\', 'b']
  else if c = '\t' then ['\\', 't']
  else if c = '\n' then ['\\', 'n']
  else if c.toNat = 12 then ['\\', 'f']
  else if c = '\r' then ['\\', 'r']
  else if c.toNat < 0x20 then '\\' :: 'u' :: hex4 c.toNat
  else [c]

def stringChars (text : String) : List Char :=
  '"' :: text.toList.flatMap stringChar ++ ['"']

mutual

/-- The text without spaces. -/
def compactChars : Json → List Char
  | .null | .unreadable => "null".toList
  | .bool value => (if value then "true" else "false").toList
  | .natural value => Nat.toDigits 10 value
  | .number literal => literal.toList
  | .string text => stringChars text
  | .array items => '[' :: compactItems items ++ [']']
  | .object members => '\x7b' :: compactMembers members ++ ['\x7d']

def compactItems : List Json → List Char
  | [] => []
  | [item] => compactChars item
  | item :: rest => compactChars item ++ ',' :: compactItems rest

def compactMembers : List (String × Json) → List Char
  | [] => []
  | [(name, value)] => stringChars name ++ ':' :: compactChars value
  | (name, value) :: rest =>
    stringChars name ++ ':' :: compactChars value ++ ',' :: compactMembers rest

end

def compact (json : Json) : String :=
  String.ofList json.compactChars

/-- A new line, indented by so many levels. -/
def newLine (level : Nat) : List Char :=
  '\n' :: List.replicate (2 * level) ' '

mutual

/-- The indented text of a value that stands `level` levels deep. -/
def prettyChars (level : Nat) : Json → List Char
  | .array (item :: rest) =>
    '[' :: prettyItems (level + 1) (item :: rest) ++ newLine level ++ [']']
  | .object (member :: rest) =>
    '\x7b' :: prettyMembers (level + 1) (member :: rest) ++ newLine level ++ ['\x7d']
  | .array [] => ['[', ']']
  | .object [] => ['\x7b', '\x7d']
  | .null | .unreadable => "null".toList
  | .bool value => (if value then "true" else "false").toList
  | .natural value => Nat.toDigits 10 value
  | .number literal => literal.toList
  | .string text => stringChars text

def prettyItems (level : Nat) : List Json → List Char
  | [] => []
  | [item] => newLine level ++ prettyChars level item
  | item :: rest => newLine level ++ prettyChars level item ++ ',' :: prettyItems level rest

def prettyMembers (level : Nat) : List (String × Json) → List Char
  | [] => []
  | [(name, value)] =>
    newLine level ++ stringChars name ++ ':' :: ' ' :: prettyChars level value
  | (name, value) :: rest =>
    newLine level ++ stringChars name ++ ':' :: ' ' :: prettyChars level value ++
      ',' :: prettyMembers level rest

end

def pretty (json : Json) : String :=
  String.ofList (json.prettyChars 0)

end StepShell.Json

import StepShell.Text.Hexadecimal
import StepShell.Text.Invisible

/-! Texts written with their unprintable characters spelled out, for dumps and messages. -/

namespace StepShell.Text

/-- Controls and all else that cannot be seen, but for the space. -/
def isUnprintable (c : Char) : Bool :=
  if c.toNat < 0x7F then c.toNat < 0x20 else invisible.contains c || ignorableMarks.contains c

/-- Whether a character is written over or under the one before it. -/
def isExtender (c : Char) : Bool :=
  0x7F < c.toNat && extenders.contains c

/-- One character as it stands in an escaped text; those in `guarded` get a backslash. -/
def escapeChar (guarded : List Char) (c : Char) : List Char :=
  if c = '\t' then ['\\', 't']
  else if c = '\r' then ['\\', 'r']
  else if c = '\n' then ['\\', 'n']
  else if c.toNat = 0 then ['\\', '0']
  else if c = '\\' || guarded.contains c then ['\\', c]
  else if isUnprintable c then "\\u\x7b".toList ++ hex c.toNat ++ ['\x7d']
  else [c]

/-- One character that has none before it to be written over. -/
def escapeAlone (guarded : List Char) (c : Char) : List Char :=
  if isExtender c then "\\u\x7b".toList ++ hex c.toNat ++ ['\x7d'] else escapeChar guarded c

/-- Both quotes escaped, without surrounding quotes. -/
def escaped (text : String) : String :=
  let guarded := ['\'', '"']
  match text.toList with
  | [] => ""
  | first :: rest => String.ofList (escapeAlone guarded first ++ rest.flatMap (escapeChar guarded))

/-- The text between double quotes. -/
def quoted (text : String) : String :=
  "\"" ++ String.ofList (text.toList.flatMap (escapeAlone ['"'])) ++ "\""

/-- One character between single quotes. -/
def quotedChar (c : Char) : String :=
  "'" ++ String.ofList (escapeAlone ['\''] c) ++ "'"

/-- Items between brackets, separated by commas. -/
def bracketed (items : List String) : String :=
  "[" ++ ", ".intercalate items ++ "]"

end StepShell.Text

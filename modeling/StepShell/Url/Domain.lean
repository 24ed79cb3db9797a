import StepShell.Url.Domain.Composition
import StepShell.Url.Domain.Direction
import StepShell.Url.Punycode

/-! Domain names. A name is mapped to lower case and to the composed form, its labels are checked,
and those that are not ASCII are written with an ASCII prefix. -/

namespace StepShell.Url.Domain

/-- A label as it is read and as it is written with ASCII characters alone. -/
structure Label where
  chars : List Char
  ascii : List Char
  deriving DecidableEq, Repr

def isAscii (c : Char) : Bool :=
  c.toNat < 128

/-- What is put in the place of a character; `none` if it may not be in a name. -/
def mapChar? (c : Char) : Option (List Char) :=
  if isAscii c then some [c.toLower]
  else (mapping.values? c).or (if known.contains c then some [c] else none)

/-- Whether a character stands for itself. -/
def isMapped (c : Char) : Bool :=
  mapChar? c == some [c]

/-- What a label begins with that is not ASCII. -/
def asciiMark : List Char := ['x', 'n', '-', '-']

/-- The longest that is read after the mark, and the longest label that is written with it. -/
def maxRead : Nat := 2000

def maxWritten : Nat := 1000

def isJoinedAfter (c : Char) : Bool :=
  joinedAfter.contains c

def isJoinedBefore (c : Char) : Bool :=
  joinedBefore.contains c

/-- Whether the first character that is no mark satisfies a condition. -/
def firstLetter (condition : Char → Bool) (text : List Char) : Bool :=
  (text.find? fun c => condition c || !nonspacingMarks.contains c).any condition

/-- The combining class of the signs that suppress a vowel. -/
def viramaClass : Nat := 9

/-- Whether the invisible joiners stand where they change how letters join: behind a sign that
suppresses a vowel or, what keeps letters apart, between two that would join. `before` is what comes
before, the last character first. -/
def joinersFit (before : List Char) : List Char → Bool
  | [] => true
  | c :: rest =>
    let fits := match c.toNat with
      | 0x200C | 0x200D =>
        before.head?.any (combiningClass · == viramaClass) ||
          (c.toNat == 0x200C && firstLetter isJoinedAfter before && firstLetter isJoinedBefore rest)
      | _ => true
    fits && joinersFit (c :: before) rest

/-- Whether a label does not begin with a mark, has its joiners in place and is not too long. -/
def isLabel (chars : List Char) : Bool :=
  !chars.head?.any (fun c => nonspacingMarks.contains c || spacingMarks.contains c) &&
    joinersFit [] chars && (chars.all isAscii || chars.length ≤ maxWritten)

/-- The characters of a label that is written after the mark; they must be as mapping leaves them. -/
def unmarked? (forbidden : Char → Bool) (text : List Char) : Option (List Char) := do
  if text.getLast? = some '-' || text.isEmpty || maxRead < text.length then none
  else
    let chars ← Punycode.decode? text
    if chars.all (fun c => isMapped c && c != '.' && !forbidden c) && compose chars == chars then
      some chars
    else none

def write (chars : List Char) : List Char :=
  if chars.all isAscii then chars else asciiMark ++ Punycode.encode chars

/-- The label that mapped characters are written for. -/
def label? (forbidden : Char → Bool) (text : List Char) : Option Label := do
  let chars ← if asciiMark.isPrefixOf text then unmarked? forbidden (text.drop 4) else some text
  if isLabel chars then some ⟨chars, if text.all isAscii then text else write chars⟩ else none

/-- The labels between the dots of a name; characters that are mapped to a dot are dots. -/
def labels? (forbidden : Char → Bool) (text : List Char) : Option (List Label) := do
  let mapped ← text.mapM mapChar?
  let composed := compose mapped.flatten
  if composed.any fun c => c != '.' && forbidden c then none
  else (Text.cutAt (· == '.') composed).mapM (label? forbidden)

/-- A name in lower case and in ASCII, without characters that are forbidden in it; `none` if one of
its labels is not well formed. -/
def toAscii? (forbidden : Char → Bool) (text : List Char) : Option (List Char) := do
  let labels ← labels? forbidden text
  if runsOneWay (labels.map Label.chars) then
    some (['.'].intercalate (labels.map Label.ascii))
  else none

end StepShell.Url.Domain

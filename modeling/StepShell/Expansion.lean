import StepShell.Sandbox.Variables
import StepShell.Text.Blank
import StepShell.Text.Decimal
import StepShell.Text.Split
import StepShell.Token.Lexer
import StepShell.Word.Region

/-! Expansion of parameters. The text of a word has its quotes removed and its guarded characters
behind backslashes: references are replaced by values, then the backslashes go. A substitution that
was left unresolved is copied as it is. -/

namespace StepShell

namespace Expansion

/-- The value of a parameter, empty if it has none. -/
def lookup (vars : Variables) (name : List Char) : List Char :=
  if name = ['@'] ∨ name = ['*'] then (" ".intercalate vars.positionals).toList
  else if name = ['#'] then Nat.toDigits 10 vars.positionals.length
  else ((vars.value? (String.ofList name)).getD "").toList

/-- The sum of two words, or the word nearest to it where it does not fit. -/
def addHeld (first second : Int64) : Int64 :=
  Int64.ofIntClamp (first.toInt + second.toInt)

/-- Where a slice begins: at the offset, which counts from the end if it is negative and is held
inside the value. -/
def sliceStart (size offset : Int64) : Int64 :=
  if offset < 0 then max (addHeld size offset) 0 else min offset size

/-- Where a slice that begins at `start` stops: behind so many characters, or so far before the end
if the length is negative, but never before its start or behind the end. -/
def sliceStop (size start : Int64) (length : Option Int64) : Int64 :=
  match length with
  | none => size
  | some length =>
    if length < 0 then max (addHeld size length) start else min (addHeld start length) size

/-- The characters from `offset` on, so many of them or all. -/
def slice (value : List Char) (offset : Int64) (length : Option Int64) : List Char :=
  let size := Int64.ofNat value.length
  let start := sliceStart size offset
  let stop := sliceStop size start length
  (value.take stop.toUInt64.toNat).drop start.toUInt64.toNat

/-- The number of sixty-four bits that an offset or a length spells. -/
def number? (text : List Char) : Option Int64 :=
  (Text.integer64? (String.ofList (Text.trimChars text))).map Int64.ofInt

/-- The value of `${…}`, given what stands between the braces: a length, a slice or a name. -/
def braced (vars : Variables) (inside : List Char) : List Char :=
  match inside with
  | '#' :: first :: rest => Nat.toDigits 10 (lookup vars (first :: rest)).length
  | _ =>
    match Text.cutOnce ':' inside with
    | none => lookup vars inside
    | some (name, range) =>
      let value := lookup vars name
      match Text.cutOnce ':' range with
      | none =>
        match number? range with
        | some offset => slice value offset none
        | none => []
      | some (offset, length) =>
        match number? offset, number? length with
        | some offset, some length => slice value offset (some length)
        | _, _ => []

/-- The value of the reference that a dollar sign begins, and how much of the text after the sign
belongs to it. -/
def dollar (vars : Variables) (rest : List Char) : List Char × Nat :=
  match rest with
  | [] => (['$'], 0)
  | '(' :: _ => ('$' :: rest.take (Word.groupLength rest), Word.groupLength rest)
  | '\x7b' :: tail =>
    match Text.cutOnce '\x7d' tail with
    | some (inside, _) => (braced vars inside, inside.length + 2)
    | none => (['$'], 0)
  | c :: _ =>
    if c.isDigit || c == '@' || c == '*' || c == '#' then (lookup vars [c], 1)
    else if Lexer.isNameStart c then
      let name := rest.takeWhile Lexer.isNameChar
      (lookup vars name, name.length)
    else (['$'], 0)

/-- The final text of a word. -/
def expandChars (vars : Variables) : List Char → List Char
  | [] => []
  | '\\' :: c :: rest => c :: expandChars vars rest
  | '$' :: rest =>
    let (value, length) := dollar vars rest
    value ++ expandChars vars (rest.drop length)
  | c :: rest => c :: expandChars vars rest
termination_by text => text.length
decreasing_by all_goals simp only [List.length_cons, List.length_drop]; omega

mutual

/-- References replaced in shell text that keeps its quotes. Nothing is replaced behind a backslash
and between single quotes. -/
def replaceChars (vars : Variables) : List Char → List Char
  | [] => []
  | '\\' :: c :: rest => '\\' :: c :: replaceChars vars rest
  | '$' :: rest =>
    let (value, length) := dollar vars rest
    value ++ replaceChars vars (rest.drop length)
  | c :: rest =>
    if c = '\'' then c :: replaceQuoted vars rest else c :: replaceChars vars rest
termination_by text => text.length
decreasing_by all_goals simp only [List.length_cons, List.length_drop]; omega

/-- The rest of a text from inside single quotes on. -/
def replaceQuoted (vars : Variables) : List Char → List Char
  | [] => []
  | c :: rest =>
    if c = '\'' then c :: replaceChars vars rest else c :: replaceQuoted vars rest
termination_by text => text.length

end

/-- Text that expansion gives back as it is. -/
def protectChars (text : List Char) : List Char :=
  text.flatMap fun c => if Word.isSpecial c then ['\\', c] else [c]

end Expansion

/-- The final text of a word. -/
def Variables.expand (vars : Variables) (text : String) : String :=
  String.ofList (Expansion.expandChars vars text.toList)

/-- References replaced in shell text, its quoting left alone. -/
def Variables.replaceReferences (vars : Variables) (text : String) : String :=
  String.ofList (Expansion.replaceChars vars text.toList)

/-- Protect a text from expansion. -/
def Word.protect (text : String) : String :=
  String.ofList (Expansion.protectChars text.toList)

end StepShell

import StepShell.Text.Blank
import StepShell.Word.Region

/-! Lines of the console: a name, flags right after it, and arguments. Quotes and backslashes work
in them as they do in a shell. -/

namespace StepShell

structure Line where
  name : String
  flags : List Char
  args : List String
  /-- The text after the name and the flags, for those that take it as it is. -/
  rest : String
  /-- The text after the name. -/
  tail : String
  deriving DecidableEq, Repr, Inhabited

namespace Line

open Word (Quoting)

/-- Characters that a backslash guards inside double quotes. -/
def guarded (c : Char) : Bool :=
  c == '"' || c == '\\' || c == '$' || c == '\x60'

/-- Put a character before the word that is read. -/
def add (c : Char) (read : List Char × List Char) : List Char × List Char :=
  (c :: read.1, read.2)

/-- A word up to a blank outside its quotes, and the text from there on. Quotes that are not closed
end with the line. -/
def takeWord : Quoting → List Char → List Char × List Char
  | _, [] => ([], [])
  | .plain, '\\' :: c :: rest => add c (takeWord .plain rest)
  | .plain, '\\' :: [] => ([], [])
  | .plain, c :: rest =>
    if Text.isBlank c then ([], c :: rest)
    else if c = '\'' then takeWord .single rest
    else if c = '"' then takeWord .double rest
    else add c (takeWord .plain rest)
  | .single, c :: rest =>
    if c = '\'' then takeWord .plain rest else add c (takeWord .single rest)
  | .double, '\\' :: c :: rest =>
    if guarded c then add c (takeWord .double rest) else add '\\' (takeWord .double (c :: rest))
  | .double, c :: rest =>
    if c = '"' then takeWord .plain rest else add c (takeWord .double rest)

theorem takeWord_length_le (quoting : Quoting) (text : List Char) :
    (takeWord quoting text).2.length ≤ text.length := by
  fun_induction takeWord quoting text <;> simp [add] at * <;> omega

theorem takeWord_shorter {c : Char} {rest : List Char} (begun : Text.isBlank c = false) :
    (takeWord .plain (c :: rest)).2.length < (c :: rest).length := by
  have shorter := fun quoting tail => takeWord_length_le quoting tail
  rw [takeWord.eq_def]
  split <;> grind [add]

/-- The words of a line, each with the text after it. -/
def words (text : List Char) : List (List Char × List Char) :=
  match text with
  | [] => []
  | c :: rest =>
    if _blank : Text.isBlank c then words rest
    else
      takeWord .plain (c :: rest) :: words (takeWord .plain (c :: rest)).2
termination_by text.length
decreasing_by
  · simp
  · exact takeWord_shorter (by simpa using _blank)

/-- A hyphen and letters. -/
def isFlags : List Char → Bool
  | '-' :: first :: rest => first.isAlpha && rest.all Char.isAlpha
  | _ => false

/-- The flags at the front, the words after them, and the text after the flags. -/
def splitFlags (text : List Char) :
    List (List Char × List Char) → List Char × List (List Char) × List Char
  | [] => ([], [], text)
  | (word, after) :: rest =>
    if isFlags word then
      let (flags, args, text) := splitFlags after rest
      (word.drop 1 ++ flags, args, text)
    else ([], word :: rest.map (·.1), text)

/-- A line taken apart; `none` for one that is blank or a comment. -/
def parse? (text : String) : Option Line :=
  match words text.toList with
  | [] => none
  | (name, tail) :: rest =>
    if name.head? = some '#' then none
    else
      let (flags, args, after) := splitFlags tail rest
      some {
        name := String.ofList name
        flags
        args := args.map String.ofList
        rest := String.ofList (Text.trimChars after)
        tail := String.ofList tail }

def has (line : Line) (flag : Char) : Bool :=
  line.flags.contains flag

/-- The arguments with single spaces between them. -/
def joined (line : Line) : String :=
  " ".intercalate line.args

end Line

end StepShell

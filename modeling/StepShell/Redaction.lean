import StepShell.Text.Blank
import StepShell.Text.UpperCase

/-! What may be told of a script in a log: secrets are hidden, long texts are cut short, and nothing
can pass for the end of a line. -/

namespace StepShell

structure Redaction where
  /-- Whether secrets are hidden. -/
  hides : Bool
  /-- Parts of the names of variables that are secret, in upper case. -/
  fragments : List String
  /-- Whether scripts are told as they are. -/
  tellsScripts : Bool
  /-- How many bytes of a text are told. -/
  limit : Nat
  deriving DecidableEq, Repr, Inhabited

namespace Redaction

def standard : Redaction where
  hides := true
  fragments := ["PASSWORD", "PASSWD", "SECRET", "TOKEN", "KEY", "CREDENTIAL", "AUTH", "PRIVATE",
    "BEARER", "SESSION", "COOKIE", "DATABASE_URL", "AWS_ACCESS"]
  tellsScripts := false
  limit := 200

/-- What stands for a secret. -/
def mark : String := "[REDACTED]"

/-- Hide the variables with this part in their names, in any case. -/
def withFragment (redaction : Redaction) (fragment : String) : Redaction :=
  { redaction with fragments := Text.upperCase fragment :: redaction.fragments }

/-- Whether one text stands anywhere in another. -/
def occursIn (part text : List Char) : Bool :=
  match text with
  | [] => part.isEmpty
  | _ :: rest => part.isPrefixOf text || occursIn part rest

/-- Whether a variable of this name is secret. -/
def hidesName (redaction : Redaction) (name : String) : Bool :=
  redaction.hides &&
    redaction.fragments.any fun fragment =>
      occursIn fragment.toList (Text.upperCase name).toList

/-- The longest start of a text that has at most so many bytes. -/
def takeBytes : Nat → List Char → List Char
  | _, [] => []
  | limit, c :: rest =>
    if c.utf8Size ≤ limit then c :: takeBytes (limit - c.utf8Size) rest else []

/-- The text, or its start and how many bytes are left out. -/
def truncate (redaction : Redaction) (text : String) : String :=
  if text.utf8ByteSize ≤ redaction.limit then text
  else
    let kept := String.ofList (takeBytes redaction.limit text.toList)
    kept ++ s!"...[truncated {text.utf8ByteSize - kept.utf8ByteSize} bytes]"

/-- What the tokens of well-known services begin with. -/
def tokenStarts : List String :=
  ["sk-", "sk_live_", "sk_test_", "ghp_", "gho_", "ghs_", "xoxb-", "xoxp-", "AKIA", "eyJ"]

/-- Letters, digits, underscores and hyphens, more than half of them and more than fifteen
different. -/
def isRandom (text : List Char) : Bool :=
  let different := text.eraseDups.length
  text.all (fun c => c.isAlphanum || c == '_' || c == '-') && text.length < 2 * different &&
    15 < different

/-- Whether a value looks like a token: it starts like one and is longer by more than ten bytes, or
is random and has thirty-two or more. -/
def isToken (value : String) : Bool :=
  let text := Text.trim value
  tokenStarts.any (fun start =>
    start.toList.isPrefixOf text.toList && start.utf8ByteSize + 10 < text.utf8ByteSize) ||
    (32 ≤ text.utf8ByteSize && isRandom text.toList)

/-- Words that come with a secret. -/
def secretWords : List String :=
  ["password", "bearer ", "basic "]

/-- A value as it may be told. -/
def value (redaction : Redaction) (text : String) : String :=
  let lower := text.toList.map Char.toLower
  if redaction.hides && (secretWords.any (fun word => occursIn word.toList lower) || isToken text)
  then mark
  else redaction.truncate text

/-- What stands before and after the first occurrence of a text. -/
def splitAt? (mark : List Char) : List Char → Option (List Char × List Char)
  | [] => if mark.isEmpty then some ([], []) else none
  | c :: rest =>
    if mark.isPrefixOf (c :: rest) then some ([], (c :: rest).drop mark.length)
    else (splitAt? mark rest).map fun halves => (c :: halves.1, halves.2)

/-- An address as it may be told, without the name and password of a user. -/
def address (redaction : Redaction) (text : String) : String :=
  let hidden? := do
    let (scheme, rest) ← splitAt? "://".toList text.toList
    let (user, place) ← splitAt? ['@'] rest
    if user.contains ':' then
      some (String.ofList scheme ++ "://" ++ mark ++ "@" ++ String.ofList place)
    else none
  match redaction.hides, hidden? with
  | true, some hidden => hidden
  | _, _ => redaction.truncate text

def isControl (c : Char) : Bool :=
  c.toNat < 0x20 || (0x7F ≤ c.toNat && c.toNat < 0xA0)

/-- A character on a line of a log. -/
def sanitizeChar (c : Char) : List Char :=
  if c = '\n' then ['\\', 'n']
  else if c = '\r' then ['\\', 'r']
  else if c = '\t' then ['\\', 't']
  else if isControl c then [] else [c]

/-- A text on a line of a log: line ends and tabs are spelled out, other controls left out. -/
def sanitize (text : String) : String :=
  String.ofList (text.toList.flatMap sanitizeChar)

/-- An assignment as it may be told. -/
def assignment (redaction : Redaction) (name value : String) : String :=
  let shown := if redaction.hidesName name then mark else redaction.value value
  sanitize name ++ "=" ++ sanitize shown

/-- A script as it may be told: its size, or its text on one line. -/
def script (redaction : Redaction) (text : String) : String :=
  if redaction.tellsScripts then redaction.truncate (sanitize text)
  else s!"[script: {(Text.lines text).length} lines, {text.utf8ByteSize} bytes]"

end Redaction

end StepShell

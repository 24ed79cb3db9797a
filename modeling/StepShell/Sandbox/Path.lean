import StepShell.Text.Blank

/-! Paths of sandboxed files. Every path is written out in full, so a directory is no more than what
paths begin with. -/

namespace StepShell

/-- Where a path starts. One that starts nowhere is left from a working directory without a root. -/
inductive Path.Root where
  | slash
  | home
  | none
  deriving DecidableEq, Repr

/-- A path with its `.` and `..` components folded. -/
structure Path where
  root : Path.Root
  components : List (List Char)
  deriving DecidableEq, Repr

namespace Path

/-- The root of a path and the text after it. -/
def splitRoot : List Char → Root × List Char
  | '/' :: rest => (.slash, rest)
  | ['~'] => (.home, [])
  | '~' :: '/' :: rest => (.home, rest)
  | text => (.none, text)

/-- Fold one more component: `..` takes back the last one, and nothing at the root. -/
def fold (components : List (List Char)) (component : List Char) : List (List Char) :=
  if component = [] ∨ component = ['.'] then components
  else if component = ['.', '.'] then components.dropLast
  else components ++ [component]

def ofChars (text : List Char) : Path :=
  let (root, rest) := splitRoot text
  ⟨root, (Text.cutAt (· == '/') rest).foldl fold []⟩

/-- The components with slashes between them. -/
def joined : List (List Char) → List Char
  | [] => []
  | [component] => component
  | component :: rest => component ++ '/' :: joined rest

def chars (path : Path) : List Char :=
  match path.root, path.components with
  | .slash, components => '/' :: joined components
  | .home, [] => ['~']
  | .home, components => '~' :: '/' :: joined components
  | .none, components => joined components

/-- The text of `name` seen from a working directory: a name that starts with a slash or a tilde is
complete, and the empty name is the directory itself. -/
def joinChars (workingDir name : List Char) : List Char :=
  match name with
  | [] => workingDir
  | first :: _ =>
    if first = '/' ∨ first = '~' then name
    else Text.dropEndWhile (· == '/') workingDir ++ '/' :: name

/-- The path that a name stands for in a working directory. -/
def resolve (workingDir name : String) : String :=
  String.ofList (ofChars (joinChars workingDir.toList name.toList)).chars

end Path

end StepShell

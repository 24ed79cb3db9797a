import StepShell.Operator
import StepShell.Text.Blank

/-! An operator who is asked in writing and answers line by line. Where the answers end, the safe
answer is taken: the condition fails, the command is skipped, nothing is supplied. -/

namespace StepShell

structure Prompted where
  /-- The answers that were not read yet. -/
  unread : List Char
  /-- All questions so far. -/
  written : String
  /-- All questions up to the first that found no line to read, if there was one. -/
  unanswered : Option String
  deriving DecidableEq, Repr, Inhabited

namespace Prompted

/-- Nothing asked yet. -/
def answering (text : String) : Prompted := ⟨text.toList, "", none⟩

/-- A line with the newline that ends it, and what follows. -/
def splitLine : List Char → List Char × List Char
  | [] => ([], [])
  | c :: rest =>
    if c = '\n' then ([c], rest)
    else ((c :: (splitLine rest).1), (splitLine rest).2)

theorem splitLine_append (text : List Char) : (splitLine text).1 ++ (splitLine text).2 = text := by
  induction text with
  | nil => rfl
  | cons c rest ih =>
    unfold splitLine
    split
    · rfl
    · simp [ih]

theorem splitLine_shorter (c : Char) (rest : List Char) :
    (splitLine (c :: rest)).2.length < (c :: rest).length := by
  have whole := congrArg List.length (splitLine_append (c :: rest))
  have begun : (splitLine (c :: rest)).1 ≠ [] := by
    unfold splitLine
    split <;> simp
  have := List.length_pos_iff.mpr begun
  simp only [List.length_append] at whole
  omega

/-- Write a question and read one line, less what ends it; `none` if there is no line. -/
def ask (question : String) (operator : Prompted) : Option (List Char) × Prompted :=
  let written := operator.written ++ question
  match operator.unread with
  | [] => (none, { operator with written, unanswered := operator.unanswered <|> some written })
  | unread =>
    let (line, rest) := splitLine unread
    (some (Text.dropEndWhile (fun c => c == '\n' || c == '\r') line),
      { operator with unread := rest, written })

theorem ask_shorter {question : String} {before after : Prompted} {line : List Char}
    (read : ask question before = (some line, after)) :
    after.unread.length < before.unread.length := by
  unfold ask at read
  dsimp only at read
  split at read
  · simp at read
  · rename_i left
    obtain ⟨-, rfl⟩ := by simpa using read
    cases h : before.unread with
    | nil => exact absurd h left
    | cons c rest => exact splitLine_shorter c rest

/-- Ask until the first letter of the answer, in either case, is one of the choices. -/
def choose (question : String) (choices : List Char) (operator : Prompted) :
    Option Char × Prompted :=
  match _asked : ask question operator with
  | (none, after) => (none, after)
  | (some line, after) =>
    match (Text.trimChars line).head?.map Char.toLower with
    | some choice =>
      if choices.contains choice then (some choice, after) else choose question choices after
    | none => choose question choices after
termination_by operator.unread.length
decreasing_by all_goals exact ask_shorter _asked

/-- The lines from `line` on, up to a line that is a single dot. -/
def linesFrom (line : List Char) (operator : Prompted) : Option (List (List Char)) × Prompted :=
  if line = ['.'] then (some [], operator)
  else
    match _asked : ask "" operator with
    | (none, after) => (none, after)
    | (some next, after) =>
      let (lines, final) := linesFrom next after
      (lines.map (line :: ·), final)
termination_by operator.unread.length
decreasing_by exact ask_shorter _asked

/-- Several lines that end at a dot; an empty first line means nothing. -/
def contents (question : String) (operator : Prompted) : Option String × Prompted :=
  match ask question operator with
  | (none, after) => (none, after)
  | (some [], after) => (none, after)
  | (some line, after) =>
    let (lines, final) := linesFrom line after
    (lines.map fun lines => "\n".intercalate (lines.map String.ofList), final)

def conditionQuestion (text : String) : String :=
  "Is the condition true? `" ++ text ++ "`\n  t: true  f: false  e: run it in the sandbox\n> "

def commandQuestion (text : String) : String :=
  "Unknown command `" ++ text ++ "`\n  s: skip  e: execute on the host  a: abort\n> "

def inputQuestion (path : String) : String :=
  "File " ++ path ++ " is not in the sandbox. Enter its contents, " ++
    "end with a line holding `.` (empty for none)\n> "

def fetchQuestion (address : String) : String :=
  "Fetching " ++ address ++ ". Enter the response body, " ++
    "end with a line holding `.` (empty for none)\n> "

def itemsQuestion (item : String) : String :=
  "Loop item " ++ item ++ " needs a command substitution. " ++
    "Enter its output, end with a line holding `.` (empty to drop it)\n> "

end Prompted

instance : Operator Prompted where
  condition text operator :=
    match operator.choose (Prompted.conditionQuestion text) ['t', 'f', 'e'] with
    | (some 't', operator) => (.holds, operator)
    | (some 'e', operator) => (.execute, operator)
    | (_, operator) => (.fails, operator)
  command text operator :=
    match operator.choose (Prompted.commandQuestion text) ['s', 'e', 'a'] with
    | (some 'e', operator) => (.execute, operator)
    | (some 'a', operator) => (.abort, operator)
    | (_, operator) => (.skip, operator)
  input path operator := operator.contents (Prompted.inputQuestion path)
  fetch address operator := operator.contents (Prompted.fetchQuestion address)
  items item operator := operator.contents (Prompted.itemsQuestion item)

end StepShell

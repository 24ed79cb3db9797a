import StepShell.Node.Dump
import StepShell.Session

/-! Requests that only show something. -/

namespace StepShell.Session

variable {ω η : Type}

/-- The pending actions, a line each. -/
def stack (session : Session ω η) : Outcome :=
  .ok ("Action Stack: \n" ++
    String.join ((Text.lines session.machine.pendingText).map fun line => "  " ++ line ++ "\n"))

def state (showContents : Bool) (session : Session ω η) : Outcome :=
  .ok (session.stateListing showContents)

def historyListing (session : Session ω η) : Outcome :=
  .ok session.history.text

/-- The aliases of these names, as far as there are any. -/
def aliasesNamed (names : List String) (session : Session ω η) : Outcome :=
  .ok (String.join (names.filterMap fun name =>
    (session.aliases.get? name).map fun text => name ++ ": " ++ text ++ "\n"))

def allAliases (session : Session ω η) : Outcome :=
  .ok ("Alias Table:\n" ++
    String.join (session.aliases.entries.map fun (name, text) => s!"  {name}: {text}\n"))

def truthName (value : Bool) : String :=
  if value then "True" else "False"

/-- The conditions that are decided. -/
def truths (session : Session ω η) : Outcome :=
  if session.sandbox.truths.isEmpty then .ok "No truths yet"
  else .ok (String.join (session.sandbox.truths.entries.map fun (condition, value) =>
    condition ++ ":" ++ truthName value ++ "\n"))

/-- A node of the program with its number; the next one is marked. -/
def listLine (session : Session ω η) (entry : Node × Nat) : String :=
  let mark := if entry.2 = session.cursor then " => \t" else " \t"
  toString entry.2 ++ mark ++ entry.1.shell ++ "\n"

/-- The program from so many nodes before the next one to so many after it. The sum of the counts is
a machine word. -/
def list (before after : Nat) (session : Session ω η) : Outcome :=
  if session.program.isEmpty then .usage "No nodes currently loaded"
  else
    let stop := min ((session.cursor + after + 1) % wordBound) session.program.length
    let shown := (session.program.zipIdx.take stop).drop (session.cursor - before)
    .ok (String.join (shown.map session.listLine) ++
      if session.program.length ≤ session.cursor then "=> \tFIN\n" else "")

/-- The tree of a text. -/
def dump (text : String) : Outcome :=
  match Script.parse text with
  | .ok nodes => .ok (String.join (nodes.map Node.dump))
  | .error error => notBuilt text error

/-- The tree of the next node of the program. -/
def dumpNext (session : Session ω η) : Outcome :=
  match session.program[session.cursor]? with
  | some node => .ok node.dump
  | none => .usage "No nodes currently loaded"

end StepShell.Session

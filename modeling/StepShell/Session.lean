import StepShell.History
import StepShell.Machine.Run
import StepShell.Node.Json

/-! A session: a machine with a program that is run command by command, a history that takes steps
back, and aliases. -/

namespace StepShell

/-- What a request gives: a message, whether the request was understood, and whether the message is
shown. -/
structure Outcome where
  message : String
  status : Nat
  shown : Bool
  deriving DecidableEq, Repr, Inhabited

namespace Outcome

def ok (message : String) : Outcome := ⟨message, 0, true⟩

def quiet : Outcome := ⟨"", 0, false⟩

/-- The request makes no sense. -/
def usage (message : String) : Outcome := ⟨message, 1, true⟩

end Outcome

structure Session (ω η : Type) where
  machine : Machine ω η
  history : History
  program : List Node
  /-- How many nodes of the program are behind. -/
  cursor : Nat
  aliases : Table String
  /-- Whether the sandbox is recorded before every step. -/
  recording : Bool

/-- What a session does. What changed before a failure stays changed. -/
abbrev SessionStep (ω η : Type) := ExceptT Failure (StateM (Session ω η))

/-- Where the nodes of a script go. -/
inductive Placement where
  | replace
  | append
  | prepend
  deriving DecidableEq, Repr, Inhabited

/-- How a part of a program or a text is run. -/
structure RunOptions where
  /-- Only build it. -/
  inch : Bool
  /-- Run it on the host as well. -/
  execute : Bool
  /-- Record the sandbox in any case. -/
  record : Bool
  deriving DecidableEq, Repr, Inhabited

namespace Session

variable {ω η α : Type}

def create (machine : Machine ω η) : Session ω η where
  machine
  history := .start machine.sandbox
  program := []
  cursor := 0
  aliases := Table.empty
  recording := true

def sandbox (session : Session ω η) : Sandbox :=
  session.machine.sandbox

def withSandbox (session : Session ω η) (change : Sandbox → Sandbox) : Session ω η :=
  { session with machine := session.machine.withSandbox change }

/-- A step of the machine as one of the session. -/
def stepping (step : Step ω η α) : SessionStep ω η α :=
  ExceptT.mk fun session =>
    let (result, machine) := step.run session.machine
    (result, { session with machine })

/-- The message and the node that comes next. -/
def announceNode (session : Session ω η) (message : String) : Outcome :=
  match session.program[session.cursor]? with
  | some node => .ok (message ++ "=> " ++ node.shell)
  | none => .ok (message ++ if session.program.isEmpty then "" else "=> FIN")

/-- The action that comes next. -/
def announceAction (session : Session ω η) : String :=
  match session.machine.pending with
  | action :: _ => "=> " ++ action.description
  | [] => "=> Action stack empty"

def record (session : Session ω η) (name : Option String) (action : String) : Session ω η :=
  { session with history := session.history.save name action session.sandbox session.cursor }

/-- Record the sandbox if the session records or the step asks for it. -/
def recordStep (session : Session ω η) (asked : Bool) (action : String) : Session ω η :=
  if session.recording || asked then session.record none action else session

def stateListing (session : Session ω η) (showContents : Bool) : String :=
  "\n" ++ session.machine.text showContents

/-- Why a text cannot be built. -/
def notBuilt (text : String) (error : ParseError) : Outcome :=
  .usage ("could not build AST of code:\n" ++ text ++ "\n" ++ error.message)

/-- Parse a script into the program and go to its start. -/
def load (text : String) (mode : Placement) (session : Session ω η) : Outcome × Session ω η :=
  match Script.parse text with
  | .error error => (.usage ("Failed to load script: " ++ error.message), session)
  | .ok [] => (.usage "Nothing to load", session)
  | .ok nodes =>
    let program := match mode with
      | .replace => nodes
      | .append => session.program ++ nodes
      | .prepend => nodes ++ session.program
    let session := { session with program, cursor := 0 }
    (session.announceNode "", session)

/-- Go on in the program without running anything. The sum of the counts is a machine word. -/
def skip (count : Nat) (session : Session ω η) : Outcome × Session ω η :=
  let session := { session with
    cursor := min ((session.cursor + count) % wordBound) session.program.length }
  (session.announceNode "", session)

/-- Record the sandbox under a name. -/
def save (name : String) (session : Session ω η) : Outcome × Session ω η :=
  if name.isEmpty then
    (.usage "Must specify a name for your save point. \nNothing was saved", session)
  else (.quiet, session.record (some name) "User Save")

/-- Bring back the newest record, or without one the first sandbox. -/
def undo (session : Session ω η) : Outcome × Session ω η :=
  match session.history.undo with
  | some (saved, history) =>
    let session := { session with
      machine := { session.machine.clear with sandbox := saved.sandbox }
      history
      cursor := saved.cursor }
    (session.announceNode ("Undid " ++ saved.name ++ "\n"), session)
  | none =>
    let machine := session.machine.reset
    (.ok "History exhausted, state reset",
      { session with machine, history := .start machine.sandbox, cursor := 0 })

variable [Operator ω] [Host η]

/-- Run the next node of the program, if there is one; gives what to say in place of the message so
far. -/
def nextStep (flags : RunOptions) (node : Node) : SessionStep ω η (Option String) := do
  let text := node.shell
  modify fun session =>
    let session := session.recordStep flags.record text
    { session with cursor := session.cursor + 1 }
  if flags.execute then
    modify fun session => { session with machine := session.machine.shell text true }
  if flags.inch then
    stepping (Machine.build node false)
    return some (← get).announceAction
  else
    stepping (Machine.run node)
    return none

/-- Run so many nodes of the program. Actions that are pending are executed first and count as one.
The message is that of the last node that was only built; `none` if the program ended before. -/
def nextSteps (flags : RunOptions) : Nat → String → SessionStep ω η (Option String)
  | 0, message => return some message
  | count + 1, message => do
    let session ← get
    if !session.machine.pending.isEmpty then
      stepping Machine.drain
      nextSteps flags count message
    else
      match session.program[session.cursor]? with
      | none => return none
      | some node =>
        let said ← nextStep flags node
        nextSteps flags count (said.getD message)

/-- Run so many nodes of the program and, if asked to, tell the state. -/
def next (count : Nat) (flags : RunOptions) (showState : Bool) : SessionStep ω η Outcome := do
  match ← nextSteps flags count "" with
  | none => return .ok "No nodes left. Please load more"
  | some message =>
    let session ← get
    return session.announceNode
      (if showState then message ++ session.stateListing false ++ "\n" else message)

/-- Take the first action away and run its source on the host. -/
def replaceAction (machine : Machine ω η) : Machine ω η :=
  match machine.pop with
  | (none, machine) => machine
  | (some action, machine) =>
    let machine := match action.source with
      | some source => machine.shell source true
      | none => machine
    machine.withSandbox Sandbox.clearInput

/-- Execute actions, or replace them by the host, until so many are done or none is pending. -/
def inches (execute : Bool) : Nat → SessionStep ω η Unit
  | 0 => return
  | count + 1 => do
    if execute then
      modify fun session => { session with machine := replaceAction session.machine }
    else
      let _ ← stepping Machine.inch
    if !(← get).machine.pending.isEmpty then
      inches execute count

def inch (count : Nat) (execute : Bool) : SessionStep ω η Outcome := do
  if (← get).machine.pending.isEmpty then
    return .usage
      "Action Stack is empty. Please run build or next/run -i to load the action stack"
  inches execute count
  return .ok (← get).announceAction

/-- Build one node after another; only the first may replace what is pending. -/
def buildAll (append : Bool) : List Node → SessionStep ω η Unit
  | [] => return
  | node :: rest => do
    stepping (Machine.build node append)
    buildAll true rest

/-- Build the commands of a text. -/
def build (text : String) (append : Bool) : SessionStep ω η Outcome := do
  if (Text.trim text).isEmpty then return .quiet
  match Script.parse text with
  | .error error => return notBuilt text error
  | .ok nodes =>
    buildAll append nodes
    return .ok (← get).announceAction

/-- Build the next node of the program, and stay there. -/
def buildNext (append : Bool) : SessionStep ω η Outcome := do
  let session ← get
  match session.program[session.cursor]? with
  | none => return .usage "No nodes currently loaded"
  | some node =>
    stepping (Machine.build node append)
    return .ok (← get).announceAction

/-- Run a text that is not part of the program. -/
def run (text : String) (flags : RunOptions) : SessionStep ω η Outcome := do
  modify fun session => session.recordStep flags.record text
  if flags.execute then
    modify fun session => { session with machine := session.machine.shell text true }
  if flags.inch then
    build text false
  else
    match Script.parse text with
    | .error error => return notBuilt text error
    | .ok nodes =>
      stepping (Machine.runAll nodes)
      return .quiet

/-- Run a text on the host. -/
def shell (text : String) (forward : Bool) (session : Session ω η) : Outcome × Session ω η :=
  (.quiet, { session with machine := session.machine.shell text forward })

end Session

end StepShell

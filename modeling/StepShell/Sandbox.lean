import StepShell.Node.Equality
import StepShell.Sandbox.File
import StepShell.Sandbox.Path
import StepShell.Sandbox.Socket
import StepShell.Sandbox.Variables

/-! The sandboxed environment: all that an action reads or writes. Lowering a scope saves what a
group, a function or a substitution may change, and raising it brings that back. -/

namespace StepShell

abbrev Functions := Table Node

/-- What a lowered scope gives back when it is raised. -/
structure Scope where
  io : Socket
  workingDir : String
  vars : Variables
  functions : Functions
  screen : String
  deriving DecidableEq

structure Sandbox where
  io : Socket
  workingDir : String
  vars : Variables
  files : FileTable
  openSockets : List Socket
  /-- The conditions that are decided. -/
  truths : Table Bool
  functions : Functions
  /-- All output so far; what a command has just written waits in the socket. -/
  screen : String
  /-- Where a nested shell starts. -/
  startingDir : String
  /-- The lowered scopes, the innermost first. -/
  scopes : List Scope
  /-- The screens put aside while output is captured, the innermost first. -/
  captures : List String
  deriving DecidableEq

namespace Sandbox

/-- The directory of a sandbox that is given none. -/
def home : String := "~"

def startingIn (dir : String) : Sandbox where
  io := Socket.empty 0
  workingDir := dir
  vars := Table.empty
  files := FileTable.empty
  openSockets := []
  truths := Table.empty
  functions := Table.empty
  screen := ""
  startingDir := dir
  scopes := []
  captures := []

def empty : Sandbox := startingIn home

instance : Inhabited Sandbox := ⟨empty⟩

def value? (sandbox : Sandbox) (name : String) : Option String :=
  sandbox.vars.value? name

def assign (sandbox : Sandbox) (name value : String) : Sandbox :=
  { sandbox with vars := sandbox.vars.assign name value }

def unset (sandbox : Sandbox) (name : String) : Sandbox :=
  { sandbox with vars := sandbox.vars.erase name }

def undefine (sandbox : Sandbox) (name : String) : Sandbox :=
  { sandbox with functions := sandbox.functions.erase name }

def truth? (sandbox : Sandbox) (condition : String) : Option Bool :=
  sandbox.truths.get? condition

def withTruth (sandbox : Sandbox) (condition : String) (value : Bool) : Sandbox :=
  { sandbox with truths := sandbox.truths.insert condition value }

/-- The full path of a name in the working directory. -/
def resolve (sandbox : Sandbox) (name : String) : String :=
  Path.resolve sandbox.workingDir name

def createFile (sandbox : Sandbox) (name contents permissions : String) : Sandbox :=
  { sandbox with
    files := sandbox.files.store ⟨sandbox.resolve name, some contents, permissions⟩ }

/-- Add to what the current command has written. -/
def write (sandbox : Sandbox) (text : String) : Sandbox :=
  { sandbox with io := sandbox.io.write text }

/-- Move what was written to the screen and end the line; nothing written ends none. -/
def flush (sandbox : Sandbox) : Sandbox :=
  if sandbox.io.output.isEmpty then sandbox
  else { sandbox with
    screen := sandbox.screen ++ sandbox.io.output ++ "\n"
    io := { sandbox.io with output := "" } }

def clearInput (sandbox : Sandbox) : Sandbox :=
  { sandbox with io := { sandbox.io with input := "" } }

def clearOutput (sandbox : Sandbox) : Sandbox :=
  { sandbox with io := { sandbox.io with output := "" } }

def depth (sandbox : Sandbox) : Nat :=
  sandbox.scopes.length

/-- The scope that raising will bring back. -/
def saved (sandbox : Sandbox) : Scope :=
  ⟨sandbox.io, sandbox.workingDir, sandbox.vars, sandbox.functions, sandbox.screen⟩

/-- Save the scope; the screen starts empty inside it. -/
def lower (sandbox : Sandbox) : Sandbox :=
  { sandbox with scopes := sandbox.saved :: sandbox.scopes, screen := "" }

/-- Bring the saved scope back; what was printed inside stays after what was printed before. -/
def raise (sandbox : Sandbox) : Sandbox :=
  match sandbox.scopes with
  | [] => sandbox
  | scope :: scopes => { sandbox with
      scopes
      io := scope.io
      workingDir := scope.workingDir
      vars := scope.vars
      functions := scope.functions
      screen := scope.screen ++ sandbox.screen }

/-- Lower a scope for a nested shell, which has nothing to read and starts where the sandbox did. -/
def enterSubshell (sandbox : Sandbox) : Sandbox :=
  { sandbox.lower with io := Socket.empty 0, workingDir := sandbox.startingDir }

/-- Lower a scope for a function call. -/
def enterFunction (sandbox : Sandbox) (args : List String) : Sandbox :=
  { sandbox.lower with vars := sandbox.vars.call args }

/-- Put the screen aside, so that what follows can be collected. -/
def beginCapture (sandbox : Sandbox) : Sandbox :=
  { sandbox with captures := sandbox.screen :: sandbox.captures, screen := "" }

/-- Bring the screen back and drop what was collected. -/
def endCapture (sandbox : Sandbox) : Sandbox :=
  match sandbox.captures with
  | [] => sandbox
  | screen :: captures => { sandbox with captures, screen }

/-- What was printed and what is written but not yet printed. -/
def captured (sandbox : Sandbox) : String :=
  sandbox.screen ++ sandbox.io.output

@[simp] theorem raise_lower (sandbox : Sandbox) : sandbox.lower.raise = sandbox := by
  simp [lower, raise, saved]

@[simp] theorem endCapture_beginCapture (sandbox : Sandbox) :
    sandbox.beginCapture.endCapture = sandbox := rfl

@[simp] theorem depth_lower (sandbox : Sandbox) : sandbox.lower.depth = sandbox.depth + 1 := rfl

@[simp] theorem depth_raise (sandbox : Sandbox) : sandbox.raise.depth = sandbox.depth - 1 := by
  unfold raise depth
  split <;> simp_all

@[simp] theorem depth_flush (sandbox : Sandbox) : sandbox.flush.depth = sandbox.depth := by
  unfold flush depth
  split <;> rfl

/-- Printing only moves output on: what is captured grows by the end of the line. -/
theorem captured_flush (sandbox : Sandbox) :
    sandbox.flush.captured =
      if sandbox.io.output.isEmpty then sandbox.captured else sandbox.captured ++ "\n" := by
  unfold flush captured
  split <;> simp

end Sandbox

end StepShell

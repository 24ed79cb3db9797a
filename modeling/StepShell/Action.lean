import StepShell.Node

/-! Actions, the steps that a script is taken apart into. Each is plain data, so what is pending can
be listed, written down and executed one entry at a time. -/

namespace StepShell

/-- What executing an action does. The words of a command, which substitutions change while they
are pending, stand in a slot; an operation names the slot, and a word by its index in it. -/
inductive Operation where
  /-- Clear both buffers before a new command. -/
  | resetIo
  /-- Print what was written and clear what there is to read. -/
  | cleanUp
  | flush
  | pipe
  /-- Judge the previous result at an operator between commands. -/
  | separator (op : String)
  | beginCapture
  | endCapture
  /-- Read the file of the redirect at `index`. -/
  | readRedirect (slot index : Nat)
  /-- Write what was captured to the file of the redirect at `index`. -/
  | writeRedirect (slot index : Nat) (append : Bool)
  | bindLoop (name value : String)
  | unbindLoop (name : String)
  | run (slot : Nat)
  | assign (slot : Nat)
  /-- Lower a scope and put the command of a substitution first. -/
  | enterSubstitution (slot word : Nat) (part : Span)
  /-- Raise the scope and put the output in the place of the substitution. -/
  | leaveSubstitution (slot word : Nat) (part : Span)
  | decide (condition : String) (node : Node)
  /-- Decide a condition by whether executing it wrote anything. -/
  | judge (condition : String)
  /-- Put the body first if its condition holds and none of the earlier ones does. -/
  | choose (condition : Option String) (earlier : List String) (body : Node)
  | lower
  | raise
  | enterFunction (name : String) (args : List String)
  | leaveFunction
  | enterSubshell
  | nothing

structure Action where
  operation : Operation
  description : String
  /-- The shell text that the host may run in place of the action. -/
  source : Option String

namespace Action

/-- An action that the host cannot run. -/
def plain (operation : Operation) (description : String) : Action :=
  ⟨operation, description, none⟩

end Action

end StepShell

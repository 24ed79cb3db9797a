import StepShell.Command
import StepShell.Compilation
import StepShell.Host

/-! The machine that runs a script step by step: a sandbox, and the actions that are pending on it.
Executing an action may put others before those that are pending already. -/

namespace StepShell

structure Machine (ω η : Type) where
  sandbox : Sandbox
  /-- The sandbox that a reset brings back. -/
  initial : Sandbox
  pending : List Action
  /-- The parts of the commands that the pending actions name. -/
  slots : Array (List Node)
  commands : Table (Command ω)
  limits : Limits
  /-- The actions executed since the last build or drain. -/
  ticks : Nat
  /-- What the last operator between commands made of the result before it. Nothing depends on
  it. -/
  continuing : Bool
  operator : ω
  host : η

/-- A step of a machine. What changed before a failure stays changed. -/
abbrev Step (ω η : Type) := ExceptT Failure (StateM (Machine ω η))

namespace Machine

variable {ω η α : Type}

def create (sandbox : Sandbox) (commands : Table (Command ω)) (limits : Limits) (operator : ω)
    (host : η) : Machine ω η where
  sandbox
  initial := sandbox
  pending := []
  slots := #[]
  commands
  limits
  ticks := 0
  continuing := true
  operator
  host

def withSandbox (machine : Machine ω η) (change : Sandbox → Sandbox) : Machine ω η :=
  { machine with sandbox := change machine.sandbox }

/-- Forget what is pending. -/
def clear (machine : Machine ω η) : Machine ω η :=
  { machine with pending := [], slots := #[] }

/-- Bring back the first sandbox. -/
def reset (machine : Machine ω η) : Machine ω η :=
  { machine.clear with sandbox := machine.initial, continuing := true }

/-- Nothing names a slot when nothing is pending. -/
def settle (machine : Machine ω η) : Machine ω η :=
  if machine.pending.isEmpty then { machine with slots := #[] } else machine

/-- Take the first action away without executing it. -/
def pop (machine : Machine ω η) : Option Action × Machine ω η :=
  (machine.pending.head?, { machine with pending := machine.pending.tail }.settle)

/-- Put actions before all that are pending. -/
def withFirst (machine : Machine ω η) (actions : List Action) : Machine ω η :=
  { machine with pending := actions ++ machine.pending }

def setting (machine : Machine ω η) : Compilation.Setting :=
  ⟨machine.sandbox.vars, machine.limits⟩

/-- Compile for a running script; what was compiled before a failure stays. -/
def compiling (compile : Compilation.Setting → Compile ω α) : Step ω η α :=
  ExceptT.mk fun machine =>
    let (result, after) := (compile machine.setting).run
      ⟨machine.sandbox.functions, machine.slots, machine.operator⟩
    (result, { machine with
      sandbox := { machine.sandbox with functions := after.functions }
      slots := after.slots
      operator := after.operator })

/-- The actions of a node that is built, between those that start and end a command. -/
def wrapped (actions : List Action) : List Action :=
  .plain .resetIo "Initialize state for command" :: actions ++ [.plain .cleanUp "Exit Node Cleanup"]

/-- Take back what compiling did: the functions are those from before, and the slots are those that
were put aside or else the first so many. -/
def takeBack (functions : Functions) (mark : Nat) (aside : Option (Array (List Node)))
    (machine : Machine ω η) : Machine ω η :=
  { machine with
    sandbox := { machine.sandbox with functions }
    slots := aside.getD (machine.slots.take mark) }

/-- Compile a node, in place of what is pending or after it. In place of it the node has slots of its
own, and the old ones are put aside meanwhile. What compiling did is taken back if it fails. -/
def build [Operator ω] (node : Node) (append : Bool) : Step ω η Unit :=
  ExceptT.mk fun machine =>
    let aside := if append then none else some machine.slots
    let start := if append then machine else { machine with slots := #[] }
    let (result, after) := (compiling node.compile : Step ω η (List Action)).run start
    match result with
    | .error failure =>
      (.error failure, after.takeBack machine.sandbox.functions start.slots.size aside)
    | .ok actions => (.ok (), { after with
        pending := (if append then machine.pending else []) ++ wrapped actions
        ticks := if append then machine.ticks else 0 })

/-- Run a text on the host, its references replaced by values. What it prints is written as the
output of a command. -/
def shell [Host η] (text : String) (forward : Bool) (machine : Machine ω η) : Machine ω η :=
  let command := machine.sandbox.vars.replaceReferences text
  let input := if forward then some machine.sandbox.io.input else none
  let (output, host) := Host.run command input machine.host
  { machine with host }.withSandbox fun sandbox => sandbox.write output

end Machine

end StepShell

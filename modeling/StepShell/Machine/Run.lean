import StepShell.Machine.Execute
import StepShell.Sandbox.Report

/-! Running a machine: one action, all that is pending, or a whole script. -/

namespace StepShell.Machine

variable {ω η : Type} [Operator ω] [Host η]

/-- Execute the first action; `false` if there is none. An action that is refused because too many
were executed stays pending. -/
def inch : Step ω η Bool :=
  ExceptT.mk fun machine =>
    match machine.pending with
    | [] => (.ok false, machine)
    | action :: rest =>
      match machine.limits.tick machine.ticks with
      | (.error exceeded, ticks) => (.error (.limit exceeded), { machine with ticks })
      | (.ok (), ticks) =>
        let (result, after) :=
          (execute action.operation).run { machine with pending := rest, ticks }
        (result.map fun () => true, after.settle)

/-- Execute up to `count` actions. -/
def inches : Nat → Step ω η Unit
  | 0 => return
  | count + 1 => do
    if ← inch then
      inches count

/-- Execute all that is pending, and all that this puts before it. The limit on actions stops it
after at most one more than so many. -/
def drain : Step ω η Unit := do
  modify fun machine => { machine with ticks := 0 }
  inches ((← get).limits.actions + 1)

/-- Build a node in place of what is pending and execute it. -/
def run (node : Node) : Step ω η Unit := do
  build node false
  drain

/-- Run one node after another. -/
def runAll : List Node → Step ω η Unit
  | [] => return
  | node :: rest => do
    run node
    runAll rest

/-- Run the commands of a script. -/
def runText (script : String) : Step ω η Unit := do
  match Script.parse script with
  | .ok nodes => runAll nodes
  | .error error => throw (.parse error)

omit [Operator ω] [Host η]

/-- The descriptions of what is pending, a line each. -/
def pendingText (machine : Machine ω η) : String :=
  if machine.pending.isEmpty then "Empty\n"
  else String.join (machine.pending.map fun action => action.description ++ "\n")

/-- The sandbox and how much is pending. -/
def text (machine : Machine ω η) (showContents : Bool) : String :=
  machine.sandbox.text showContents ++ s!"\nAction Queue Size: {machine.pending.length}"

end StepShell.Machine

import StepShell.Command
import StepShell.Text.Decimal

/-! Commands on the working directory and the variables. -/

namespace StepShell.Command

/-- Go to a directory, which need not exist, or home. -/
def changeDirectory (args : List String) (sandbox : Sandbox) : Printed × Sandbox :=
  match args with
  | [] => (.nothing, { sandbox with workingDir := Sandbox.home })
  | [target] => (.nothing, { sandbox with workingDir := sandbox.resolve target })
  | _ => (.error "bash: cd: too many arguments" 1, sandbox)

def printDirectory (_ : List String) (sandbox : Sandbox) : Printed × Sandbox :=
  (.ok sandbox.workingDir, sandbox)

/-- Remove a variable, or the function of that name if there is no such variable. -/
def unsetEither (sandbox : Sandbox) (name : String) : Sandbox :=
  if sandbox.vars.contains name then sandbox.unset name else sandbox.undefine name

/-- Remove variables after `-v`, functions after `-f`, either without a flag. -/
def unset (args : List String) (sandbox : Sandbox) : Printed × Sandbox :=
  match args with
  | [] => (.nothing, sandbox)
  | flag :: names =>
    if flag = "-f" then (.nothing, names.foldl Sandbox.undefine sandbox)
    else if flag = "-v" then (.nothing, names.foldl Sandbox.unset sandbox)
    else if flag = "-n" then (.error "unset: -n flag not implemented" 1, sandbox)
    else (.nothing, args.foldl unsetEither sandbox)

/-- Drop as many positional parameters as the first argument says, one if it says nothing. -/
def shift (args : List String) (sandbox : Sandbox) : Printed × Sandbox :=
  let count := (args.head?.bind Text.natural64?).getD 1
  (.nothing, { sandbox with vars := sandbox.vars.shiftBy count })

end StepShell.Command

import StepShell.Failure
import StepShell.Sandbox

/-! Commands that the sandbox runs by itself. They read and change nothing but the sandbox, and ask
the operator for what it does not have. -/

namespace StepShell

/-- What a command prints, and its exit status. -/
structure Printed where
  output : String
  errors : String
  status : Nat
  deriving DecidableEq, Repr, Inhabited

namespace Printed

def ok (output : String) : Printed := ⟨output, "", 0⟩

def nothing : Printed := ok ""

def error (errors : String) (status : Nat) : Printed := ⟨"", errors, status⟩

end Printed

/-- A command is given its expanded arguments, the sandbox and the operator. -/
abbrev Command (ω : Type) := List String → Sandbox → ω → Except Failure Printed × Sandbox × ω

namespace Command

variable {ω : Type}

/-- A command that only looks at its arguments. -/
def ofPrinted (run : List String → Printed) : Command ω :=
  fun args sandbox operator => (.ok (run args), sandbox, operator)

/-- A command that needs no operator. -/
def ofSandbox (run : List String → Sandbox → Printed × Sandbox) : Command ω :=
  fun args sandbox operator =>
    let (printed, sandbox) := run args sandbox
    (.ok printed, sandbox, operator)

/-- Whether an argument starts with a hyphen; a hyphen alone does not count. -/
def isOption (arg : String) : Bool :=
  match arg.toList with
  | '-' :: _ :: _ => true
  | _ => false

/-- The arguments that are not options. -/
def operands (args : List String) : List String :=
  args.filter fun arg => !isOption arg

end Command

end StepShell

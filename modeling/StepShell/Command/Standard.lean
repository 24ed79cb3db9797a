import StepShell.Command.Download
import StepShell.Command.Echo
import StepShell.Command.Files
import StepShell.Command.Settings

/-! The commands that every sandbox knows. -/

namespace StepShell.Command

variable {ω : Type}

def standardList [Operator ω] : List (String × Command ω) :=
  [("echo", ofPrinted echo), ("cat", ofSandbox cat), ("cd", ofSandbox changeDirectory),
    ("pwd", ofSandbox printDirectory), ("chmod", ofSandbox changeMode), ("rm", ofSandbox remove),
    ("mv", ofSandbox move), ("cp", ofSandbox copy), ("touch", ofSandbox touch),
    ("unset", ofSandbox unset), ("shift", ofSandbox shift), ("true", ofPrinted fun _ => .nothing),
    ("false", ofPrinted fun _ => .error "" 1), (":", ofPrinted fun _ => .nothing), ("wget", wget),
    ("curl", curl)]

/-- Commands by name. -/
def standard [Operator ω] : Table (Command ω) :=
  Table.ofList standardList

end StepShell.Command

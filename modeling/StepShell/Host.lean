/-! The host, where a command runs for real. Only the operator's word leads there. -/

namespace StepShell

/-- Running a command gives all that it printed; a failure is printed too. -/
class Host (η : Type) where
  /-- The command, and what it may read if it may read anything. -/
  run : String → Option String → η → String × η

/-- The host that runs nothing. -/
structure Disabled where
  deriving DecidableEq, Repr, Inhabited

namespace Disabled

def refusal (command : String) : String :=
  "host execution disabled: " ++ command

end Disabled

instance : Host Disabled where
  run command _ host := (Disabled.refusal command, host)

/-- A host whose answers are written down beforehand and that keeps the calls in their order. When
the answers are used up it refuses. -/
structure HostRecord where
  answers : List String
  calls : Array (String × Option String)
  deriving DecidableEq, Repr, Inhabited

instance : Host HostRecord where
  run command input host :=
    let calls := host.calls.push (command, input)
    match host.answers with
    | [] => (Disabled.refusal command, { host with calls })
    | answer :: answers => (answer, ⟨answers, calls⟩)

end StepShell

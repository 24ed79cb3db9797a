import StepShell.Action
import StepShell.Failure

/-! The redirects among the parts of a command or group. The last one of a direction is the one that
counts; where it leads is read from the slot when it is carried out, after substitutions. -/

namespace StepShell

structure Redirects where
  /-- The index of the redirect that is read from. -/
  input : Option Nat
  /-- The index of the redirect that is written to, and whether it appends. -/
  output : Option (Nat × Bool)
  deriving DecidableEq, Repr

namespace Redirects

def none : Redirects := ⟨.none, .none⟩

/-- Take one more part into account. -/
def add (redirects : Redirects) (part : Node × Nat) : Except Failure Redirects :=
  match part with
  | (.redirect kind (.word ..) _, index) =>
    .ok (match kind with
      | .input => { redirects with input := some index }
      | .output => { redirects with output := some (index, false) }
      | .append => { redirects with output := some (index, true) })
  | (.redirect _ target _, _) => .error (.structural (.redirectTarget target))
  | _ => .ok redirects

def collect (parts : List Node) : Except Failure Redirects :=
  parts.zipIdx.foldlM add none

/-- The actions before the body, which `kind` names. -/
def opening (redirects : Redirects) (slot : Nat) (kind : String) : List Action :=
  (match redirects.output with
    | some _ => [.plain .beginCapture s!"Prepare {kind} node for redirects"]
    | .none => []) ++
  match redirects.input with
    | some index => [.plain (.readRedirect slot index) "Get information from redirects"]
    | .none => []

/-- The actions after the body. -/
def closing (redirects : Redirects) (slot : Nat) (kind : String) : List Action :=
  match redirects.output with
  | some (index, append) =>
    [.plain .flush s!"Flush {kind} output",
      .plain (.writeRedirect slot index append) "Move information out to redirects",
      .plain .endCapture s!"Exit {kind} node redirects"]
  | .none => []

end Redirects

end StepShell

import StepShell.Limits
import StepShell.Node.Shell
import StepShell.Text.Escape
import StepShell.Token

/-! What makes an operation fail. Unknown commands and undecided conditions are no failures: the
operator decides them. -/

namespace StepShell

/-- A node where the compiler has no place for it. -/
inductive StructuralError where
  | redirectTarget (target : Node)
  | reservedWord (word : String)
  | misplaced (node : Node)

def StructuralError.message : StructuralError → String
  | .redirectTarget target => "redirect target is not a word: " ++ target.shell
  | .reservedWord word => "unsupported reserved word: " ++ word
  | .misplaced node => s!"{node.kind} node cannot be compiled on its own: {node.shell}"

/-- An action that cannot be executed. -/
inductive ExecutionError where
  | staleSlot (slot : Nat)
  | redirectMissing (slot index : Nat)
  | malformedAssignment (text : String)
  | unknownOperator (op : String)
  | substitutionOwnerMissing (slot word : Nat)
  | substitutionNotFound (part : Span)
  | staleSubstitutionTarget (slot word : Nat)
  | spliceIntoOther (kind : String)
  | substitutionResolved (part : Span)
  | substitutionUnmarked (text : String)
  | substitutionUnbalanced (text : String)
  /-- Whatever a registered command reports. -/
  | command (report : String)
  deriving DecidableEq, Repr

def ExecutionError.message : ExecutionError → String
  | .staleSlot slot => s!"stale command slot {slot}"
  | .redirectMissing slot index => s!"redirect missing at {slot}:{index}"
  | .malformedAssignment text => "malformed assignment: " ++ text
  | .unknownOperator op => "operator not implemented in interpreter: " ++ Text.quoted op
  | .substitutionOwnerMissing slot word => s!"substitution owner missing at {slot}:{word}"
  | .substitutionNotFound part => s!"substitution at {part.text} not found"
  | .staleSubstitutionTarget slot word => s!"stale substitution target {slot}:{word}"
  | .spliceIntoOther kind => s!"cannot splice into {kind} node"
  | .substitutionResolved part => s!"substitution at {part.text} already resolved"
  | .substitutionUnmarked text => "no substitution marker in " ++ Text.quoted text
  | .substitutionUnbalanced text => "unbalanced substitution in " ++ Text.quoted text
  | .command report => report

inductive Failure where
  | parse (error : ParseError)
  | structural (error : StructuralError)
  | commandNotFound (name : String)
  | execution (error : ExecutionError)
  /-- A host file that cannot be read or written. -/
  | io
  /-- A text that is no snapshot. -/
  | snapshot
  | limit (exceeded : ExceededLimit)

/-- A check of a limit as a step that may fail. -/
def Failure.ofLimit (check : Except ExceededLimit Unit) : Except Failure Unit :=
  check.mapError .limit

def Failure.message : Failure → String
  | .parse error => error.message
  | .structural error => "invalid node in interpreter: " ++ error.message
  | .commandNotFound name => "command not implemented: " ++ name
  | .execution error => "execution error: " ++ error.message
  | .io => "io error"
  | .snapshot => "snapshot error"
  | .limit exceeded => "resource limit exceeded: " ++ exceeded.message

end StepShell

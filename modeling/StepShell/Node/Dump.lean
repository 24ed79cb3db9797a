import StepShell.Node
import StepShell.Text.Escape

/-! The indented listing of a tree, a line for each node with its span. -/

namespace StepShell

/-- What a dump shows of a node beside its kind. -/
def Node.label : Node → String
  | .word text _ _ _ | .assignment text _ _ => " " ++ Text.quoted text
  | .reserved text _ => " " ++ Text.quoted text
  | .operator op _ => " " ++ Text.quoted op
  | .parameter value _ => " " ++ Text.quoted value
  | .pipe sign _ => " " ++ Text.quoted sign
  | .redirect kind _ _ => " " ++ kind.sign
  | .forLoop name _ _ _ | .function name _ _ => " " ++ name
  | _ => ""

private def indentation (depth : Nat) : String :=
  String.ofList (List.replicate (2 * depth) ' ')

private def Node.headline (depth : Nat) (node : Node) : String :=
  s!"{indentation depth}{node.kind}{node.label} [{node.span.start}, {node.span.stop}]\n"

mutual

/-- The lines of a node that stands `depth` levels deep. -/
def Node.dumpAt (depth : Nat) : Node → String
  | node@(.command parts _) | node@(.word _ parts _ _) | node@(.assignment _ parts _)
  | node@(.pipeline parts _) | node@(.list parts _) =>
    node.headline depth ++ Node.dumpAll (depth + 1) parts
  | node@(.substitution inner _) | node@(.redirect _ inner _) | node@(.function _ inner _) =>
    node.headline depth ++ inner.dumpAt (depth + 1)
  | node@(.compound parts redirects _) =>
    node.headline depth ++ Node.dumpAll (depth + 1) parts ++ Node.dumpAll (depth + 1) redirects
  | node@(.forLoop _ items body _) =>
    node.headline depth ++ Node.dumpAll (depth + 1) items ++ body.dumpAt (depth + 1)
  | node@(.conditional clauses _) => node.headline depth ++ Clause.dumpAll (depth + 1) clauses
  | node@(.parameter _ _) | node@(.pipe _ _) | node@(.operator _ _) | node@(.reserved _ _) =>
    node.headline depth

def Node.dumpAll (depth : Nat) : List Node → String
  | [] => ""
  | node :: rest => node.dumpAt depth ++ Node.dumpAll depth rest

/-- The keyword, and one level deeper the condition, if there is one, and the body. -/
def Clause.dumpAt (depth : Nat) : Clause → String
  | .mk keyword (some condition) body =>
    s!"{indentation depth}{keyword}\n" ++ condition.dumpAt (depth + 1) ++ body.dumpAt (depth + 1)
  | .mk keyword none body => s!"{indentation depth}{keyword}\n" ++ body.dumpAt (depth + 1)

def Clause.dumpAll (depth : Nat) : List Clause → String
  | [] => ""
  | clause :: rest => clause.dumpAt depth ++ Clause.dumpAll depth rest

end

def Node.dump (node : Node) : String :=
  node.dumpAt 0

end StepShell

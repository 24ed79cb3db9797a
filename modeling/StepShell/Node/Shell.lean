import StepShell.Node
import StepShell.Text.Split
import StepShell.Word.Quote

/-! The shell text of a tree. -/

namespace StepShell

/-- The text of an assignment: only its value is quoted. -/
def assignmentText (text : String) : String :=
  match Text.splitOnce '=' text with
  | some (name, value) => if value.isEmpty then name ++ "=" else name ++ "=" ++ Word.quote value
  | none => text

/-- A parenthesis or brace with the space or semicolon it needs beside it. -/
private def reservedInGroup (word : String) : String :=
  if word = "(" then "( "
  else if word = ")" then " )"
  else if word = "\x7b" then "\x7b "
  else if word = "\x7d" then "; \x7d"
  else word

mutual

def Node.shell : Node → String
  | .command parts _ | .pipeline parts _ => Node.shellJoined parts
  | .word text _ _ _ => Word.quote text
  | .assignment text _ _ => assignmentText text
  | .substitution command _ => "$(" ++ command.shell ++ ")"
  | .parameter value _ => value
  | .pipe sign _ => sign
  | .list parts _ => Node.shellList false parts
  | .operator op _ => op
  | .compound parts redirects _ => Node.shellGroup parts ++ Node.shellRedirects redirects
  | .redirect kind target _ => kind.sign ++ " " ++ target.shell
  | .forLoop name items body _ =>
    "for " ++ name ++ " in " ++ Node.shellJoined items ++ "; do " ++ body.shell ++ "; done"
  | .conditional clauses _ => Clause.shellAll clauses ++ "fi"
  | .function name body _ => name ++ "() " ++ body.shell
  | .reserved word _ => word

/-- The texts with single spaces between them. -/
def Node.shellJoined : List Node → String
  | [] => ""
  | [node] => node.shell
  | node :: rest => node.shell ++ " " ++ Node.shellJoined rest

/-- Semicolons stand close to the command before them, a newline stands alone, other operators have
a space on either side; `spaced` says whether a command needs one before it. -/
def Node.shellList (spaced : Bool) : List Node → String
  | [] => ""
  | .operator op _ :: rest =>
    (if op = ";" then ";" else if op = "\n" then "\n" else " " ++ op) ++
      Node.shellList (op != "\n") rest
  | node :: rest => (if spaced then " " else "") ++ node.shell ++ Node.shellList spaced rest

def Node.shellGroup : List Node → String
  | [] => ""
  | .reserved word _ :: rest => reservedInGroup word ++ Node.shellGroup rest
  | node :: rest => node.shell ++ Node.shellGroup rest

def Node.shellRedirects : List Node → String
  | [] => ""
  | node :: rest => " " ++ node.shell ++ Node.shellRedirects rest

def Clause.shell : Clause → String
  | .mk keyword (some condition) body =>
    keyword ++ " " ++ condition.shell ++ "; then " ++ body.shell ++ "; "
  | .mk keyword none body => keyword ++ " " ++ body.shell ++ "; "

def Clause.shellAll : List Clause → String
  | [] => ""
  | clause :: rest => clause.shell ++ Clause.shellAll rest

end

end StepShell

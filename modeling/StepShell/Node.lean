import StepShell.Position

/-! The tree of a script. It stays close to the source: a command is a list of words, assignments
and redirects, a list has its operators between its commands, and a group holds its opening and
closing word beside its body. -/

namespace StepShell

inductive RedirectKind where
  | input
  | output
  | append
  deriving DecidableEq, Repr, Inhabited

/-- How the redirect is written. -/
def RedirectKind.sign : RedirectKind → String
  | .input => "<"
  | .output => ">"
  | .append => ">>"

mutual

inductive Node where
  /-- Words, assignments and redirects. -/
  | command (parts : List Node) (span : Span)
  /-- A word without its quotes; what they guarded is kept behind a backslash. Its parts are the
  parameters and substitutions found in it. -/
  | word (text : String) (parts : List Node) (quoted : Bool) (span : Span)
  /-- A word of the form `name=value` before the command's name. -/
  | assignment (text : String) (parts : List Node) (span : Span)
  | substitution (command : Node) (span : Span)
  | parameter (value : String) (span : Span)
  /-- Commands with pipes between them. -/
  | pipeline (parts : List Node) (span : Span)
  | pipe (sign : String) (span : Span)
  /-- Commands with operators between them. -/
  | list (parts : List Node) (span : Span)
  | operator (op : String) (span : Span)
  /-- A group in parentheses or braces, these included, and the redirects of all of it. -/
  | compound (parts : List Node) (redirects : List Node) (span : Span)
  | redirect (kind : RedirectKind) (target : Node) (span : Span)
  | forLoop (name : String) (items : List Node) (body : Node) (span : Span)
  | conditional (clauses : List Clause) (span : Span)
  | function (name : String) (body : Node) (span : Span)
  | reserved (word : String) (span : Span)

/-- A clause of a conditional; the one after `else` has no condition. -/
inductive Clause where
  | mk (keyword : String) (condition : Option Node) (body : Node)

end

instance : Inhabited Node := ⟨.reserved "" default⟩

namespace Node

/-- The name of the kind of node, as dumps and JSON texts give it. -/
def kind : Node → String
  | .command .. => "command"
  | .word .. => "word"
  | .assignment .. => "assignment"
  | .substitution .. => "commandsubstitution"
  | .parameter .. => "parameter"
  | .pipeline .. => "pipeline"
  | .pipe .. => "pipe"
  | .list .. => "list"
  | .operator .. => "operator"
  | .compound .. => "compound"
  | .redirect .. => "redirect"
  | .forLoop .. => "for"
  | .conditional .. => "if"
  | .function .. => "function"
  | .reserved .. => "reservedword"

def span : Node → Span
  | .command _ span | .word _ _ _ span | .assignment _ _ span | .substitution _ span
  | .parameter _ span | .pipeline _ span | .pipe _ span | .list _ span | .operator _ span
  | .compound _ _ span | .redirect _ _ span | .forLoop _ _ _ span | .conditional _ span
  | .function _ _ span | .reserved _ span => span

end Node

namespace Clause

def keyword : Clause → String
  | .mk keyword _ _ => keyword

def condition : Clause → Option Node
  | .mk _ condition _ => condition

def body : Clause → Node
  | .mk _ _ body => body

end Clause

end StepShell

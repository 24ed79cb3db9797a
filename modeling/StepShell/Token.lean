import StepShell.Node
import StepShell.Word

/-! The tokens of a script, and what can be wrong with a script. -/

namespace StepShell

inductive Token where
  | word (word : Word)
  | newline
  | semicolon
  | pipe
  | and
  | or
  | background
  | redirect (kind : RedirectKind)
  | leftParen
  | rightParen
  deriving DecidableEq, Repr

namespace Token

/-- The text of an unquoted word, which alone can be a keyword. -/
def bare? : Token → Option String
  | .word read => read.bare?
  | _ => none

/-- How messages name the token. -/
def describe : Token → String
  | .word read => "'" ++ read.text ++ "'"
  | .newline => "newline"
  | .semicolon => "';'"
  | .pipe => "'|'"
  | .and => "'&&'"
  | .or => "'||'"
  | .background => "'&'"
  | .redirect kind => "'" ++ kind.sign ++ "'"
  | .leftParen => "'('"
  | .rightParen => "')'"

end Token

/-- A token and where it stands. -/
structure Lexeme where
  token : Token
  start : Position
  stop : Position
  deriving Repr

def Lexeme.span (lexeme : Lexeme) : Span :=
  ⟨lexeme.start.offset, lexeme.stop.offset⟩

/-- What opens and has to be closed again. -/
inductive Delimited where
  | singleQuote
  | doubleQuote
  | parameterExpansion
  | commandSubstitution
  | backquote
  deriving DecidableEq, Repr

def Delimited.name : Delimited → String
  | .singleQuote => "single quote"
  | .doubleQuote => "double quote"
  | .parameterExpansion => "parameter expansion"
  | .commandSubstitution => "command substitution"
  | .backquote => "backquote"

inductive ParseCause where
  | unterminated (what : Delimited)
  | expectedCommand
  | expected (word : String)
  | expectedFileName
  | expectedLoopVariable
  | expectedFunctionName
  | expectedDefinitionParen
  | expectedFunctionBody
  | unexpected (token : Token)
  | unexpectedEnd
  /-- The grammar was left before its nesting was read; no script is nested that deep. -/
  | tooDeep
  deriving Repr

def ParseCause.message : ParseCause → String
  | .unterminated what => "unterminated " ++ what.name
  | .expectedCommand => "expected command"
  | .expected word => "expected '" ++ word ++ "'"
  | .expectedFileName => "expected file name after redirect"
  | .expectedLoopVariable => "expected loop variable name"
  | .expectedFunctionName => "expected function name"
  | .expectedDefinitionParen => "expected ')' in function definition"
  | .expectedFunctionBody => "expected function body"
  | .unexpected token => "unexpected token " ++ token.describe
  | .unexpectedEnd => "unexpected end of input"
  | .tooDeep => "nesting too deep"

/-- Why a text is no script. Only the empty substitution has no place of its own. -/
inductive ParseError where
  | emptySubstitution
  | located (cause : ParseCause) (position : Position)
  deriving Repr

def ParseError.message : ParseError → String
  | .emptySubstitution => "parse error: empty command substitution"
  | .located cause position =>
    s!"parse error at line {position.line}, column {position.column}: {cause.message}"

end StepShell

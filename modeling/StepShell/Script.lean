import StepShell.Text.Split
import StepShell.Token.Lexer

/-! Parsing a script into its commands. The grammar reads tokens; the text of a substitution is a
script of its own, so what parses it is a parameter of the grammar. -/

namespace StepShell

namespace Grammar

/-- The tokens still to be read, the offset where the last one read ends, and where the script
ends. -/
structure Input where
  rest : List Lexeme
  previousStop : Nat
  finish : Position

abbrev Parser (α : Type) := StateT Input (Except ParseError) α

/-- How the text of a substitution is parsed, given the offset where it starts. -/
abbrev Inner := List Char → Nat → Except ParseError (List Node)

/-- Words that end a nested list. -/
def terminators : List String :=
  ["\x7d", "done", "fi", "then", "elif", "else", "do"]

/-- The current token and the two after it, which tell what a command is. -/
def nextTokens : Parser (List Token) :=
  return ((← get).rest.take 3).map Lexeme.token

def current : Parser (Option Token) :=
  return (← get).rest.head?.map Lexeme.token

def advance : Parser Unit :=
  modify fun input =>
    match input.rest with
    | [] => input
    | lexeme :: rest => { input with rest, previousStop := lexeme.stop.offset }

/-- The span of the current token, empty at the end of the script. -/
def here : Parser Span :=
  return match ← get with
  | ⟨lexeme :: _, _, _⟩ => lexeme.span
  | ⟨[], _, finish⟩ => ⟨finish.offset, finish.offset⟩

def previousStop : Parser Nat :=
  return (← get).previousStop

/-- An error at the current token. -/
def fail {α : Type} (cause : ParseCause) : Parser α := do
  match ← get with
  | ⟨lexeme :: _, _, _⟩ => throw (.located cause lexeme.start)
  | ⟨[], _, finish⟩ => throw (.located cause finish)

def unexpected {α : Type} : Parser α := do
  match ← current with
  | some token => fail (.unexpected token)
  | none => fail .unexpectedEnd

def dropNewlines : List Lexeme → Nat → List Lexeme × Nat
  | [], stop => ([], stop)
  | lexeme :: rest, stop =>
    if lexeme.token = .newline then dropNewlines rest lexeme.stop.offset
    else (lexeme :: rest, stop)

def skipNewlines : Parser Unit :=
  modify fun input =>
    let (rest, stop) := dropNewlines input.rest input.previousStop
    { input with rest, previousStop := stop }

/-- Whether the current token is the unquoted word `word`. -/
def atWord (word : String) : Parser Bool :=
  return (← current).bind Token.bare? = some word

def atTerminator : Parser Bool := do
  match ← current with
  | none | some .rightParen => return true
  | some token => return match token.bare? with
    | some word => terminators.contains word
    | none => false

/-- Read the keyword `word`, which has to come next. -/
def expectWord (word : String) : Parser Span := do
  if ← atWord word then
    let span ← here
    advance
    return span
  else fail (.expected word)

/-- From the first node's start to the last one's end. -/
def spanning (nodes : List Node) : Span :=
  let start := (nodes.head?.map (·.span.start)).getD 0
  ⟨start, (nodes.getLast?.map (·.span.stop)).getD start⟩

def isName (text : String) : Bool :=
  match text.toList with
  | [] => false
  | first :: rest => Lexer.isNameStart first && rest.all Lexer.isNameChar

/-- Whether a word has the form of an assignment: a name, then an equals sign. -/
def isAssignment (word : Word) : Bool :=
  match Text.splitOnce '=' word.text with
  | some (name, _) => isName name
  | none => false

/-- The command of a substitution: its only one, or the list of all with newlines between them. -/
def substitutedCommand : List Node → Except ParseError Node
  | [] => .error .emptySubstitution
  | [node] => .ok node
  | first :: rest =>
    let parts := first :: rest.flatMap fun node =>
      [.operator "\n" ⟨node.span.start, node.span.start⟩, node]
    .ok (.list parts (spanning parts))

/-- The parameters and substitutions of a word, in the order in which they stand in it. -/
def partsOf (inner : Inner) : List Word.Piece → Except ParseError (List Node)
  | [] => .ok []
  | .plain _ :: rest | .guarded _ :: rest => partsOf inner rest
  | .reference value span :: rest =>
    return .parameter (String.ofList value) span :: (← partsOf inner rest)
  | .substitution body span bodyStart :: rest => do
    let command ← substitutedCommand (← inner body bodyStart)
    return .substitution command span :: (← partsOf inner rest)

def wordOf (inner : Inner) (word : Word) (span : Span) : Parser Node := do
  return .word word.text (← partsOf inner word.pieces) word.quoted span

def assignmentOf (inner : Inner) (word : Word) (span : Span) : Parser Node := do
  return .assignment word.text (← partsOf inner word.pieces) span

/-- A redirect at the current token. -/
def redirect (inner : Inner) (kind : RedirectKind) : Parser Node := do
  let start := (← here).start
  advance
  let span ← here
  match ← current with
  | some (.word word) =>
    let target ← wordOf inner word span
    advance
    return .redirect kind target ⟨start, span.stop⟩
  | _ => fail .expectedFileName

/-- The list without the semicolons and newlines that end it. -/
def dropSeparators (parts : List Node) : List Node :=
  (parts.reverse.dropWhile fun part =>
    match part with
    | .operator op _ => op = ";" || op = "\n"
    | _ => false).reverse

/-- One node for the parts of a list. -/
def listNode (parts : List Node) : Parser Node :=
  match dropSeparators parts with
  | [] => fail .expectedCommand
  | [node] => return node
  | parts => return .list parts (spanning parts)

mutual

/-- Commands and operators up to a newline at top level, or up to a word that ends a nested list.
Each call of the grammar uses up one unit of `fuel`. -/
def listParts (inner : Inner) (fuel : Nat) (topLevel : Bool) : Parser (List Node) :=
  match fuel with
  | 0 => fail .tooDeep
  | fuel + 1 => do
    if !topLevel then
      skipNewlines
      if ← atTerminator then
        return []
    let parts ← andOr inner fuel
    let span ← here
    let op ← match ← current with
      | some .semicolon => pure (some ";")
      | some .background => pure (some "&")
      | some .newline => pure (if topLevel then none else some "\n")
      | _ => pure none
    match op with
    | none => return parts
    | some op =>
      advance
      if op = "\n" then
        skipNewlines
      let parts := parts ++ [.operator op span]
      match topLevel, ← current with
      | true, none | true, some .newline => return parts
      | _, _ => return parts ++ (← listParts inner fuel topLevel)

def list (inner : Inner) (fuel : Nat) (topLevel : Bool) : Parser Node :=
  match fuel with
  | 0 => fail .tooDeep
  | fuel + 1 => do
    listNode (← listParts inner fuel topLevel)

/-- Pipelines with `&&` and `||` between them. -/
def andOr (inner : Inner) (fuel : Nat) : Parser (List Node) :=
  match fuel with
  | 0 => fail .tooDeep
  | fuel + 1 => do
    let first ← pipeline inner fuel
    let span ← here
    let op ← match ← current with
      | some .and => pure "&&"
      | some .or => pure "||"
      | _ => return [first]
    advance
    skipNewlines
    return first :: .operator op span :: (← andOr inner fuel)

def pipeline (inner : Inner) (fuel : Nat) : Parser Node :=
  match fuel with
  | 0 => fail .tooDeep
  | fuel + 1 => do
    match ← pipelineParts inner fuel with
    | [node] => return node
    | parts => return .pipeline parts (spanning parts)

def pipelineParts (inner : Inner) (fuel : Nat) : Parser (List Node) :=
  match fuel with
  | 0 => fail .tooDeep
  | fuel + 1 => do
    let first ← command inner fuel
    let span ← here
    match ← current with
    | some .pipe =>
      advance
      skipNewlines
      return first :: .pipe "|" span :: (← pipelineParts inner fuel)
    | _ => return [first]

def command (inner : Inner) (fuel : Nat) : Parser Node :=
  match fuel with
  | 0 => fail .tooDeep
  | fuel + 1 => do
    match ← nextTokens with
    | [] => fail .expectedCommand
    | .leftParen :: _ => group inner fuel "(" ")"
    | token :: later =>
      match token.bare? with
      | none => simpleCommand inner fuel
      | some word =>
        if word = "\x7b" then group inner fuel "\x7b" "\x7d"
        else if word = "if" then conditional inner fuel
        else if word = "for" then forLoop inner fuel
        else if word = "function" then definition inner fuel
        else
          match later with
          | .leftParen :: .rightParen :: _ => definition inner fuel
          | _ => simpleCommand inner fuel

def simpleCommand (inner : Inner) (fuel : Nat) : Parser Node :=
  match fuel with
  | 0 => fail .tooDeep
  | fuel + 1 => do
    let start := (← here).start
    let parts ← simpleParts inner fuel false
    if parts.isEmpty then unexpected
    else return .command parts ⟨start, ← previousStop⟩

/-- Words, redirects and, before the first word, assignments. -/
def simpleParts (inner : Inner) (fuel : Nat) (named : Bool) : Parser (List Node) :=
  match fuel with
  | 0 => fail .tooDeep
  | fuel + 1 => do
    let span ← here
    match ← current with
    | some (.word word) =>
      advance
      if !named && isAssignment word then
        let part ← assignmentOf inner word span
        return part :: (← simpleParts inner fuel named)
      else
        let part ← wordOf inner word span
        return part :: (← simpleParts inner fuel true)
    | some (.redirect kind) =>
      let part ← redirect inner kind
      return part :: (← simpleParts inner fuel named)
    | _ => return []

/-- The redirects after a group. -/
def redirects (inner : Inner) (fuel : Nat) : Parser (List Node) :=
  match fuel with
  | 0 => fail .tooDeep
  | fuel + 1 => do
    match ← current with
    | some (.redirect kind) =>
      let first ← redirect inner kind
      return first :: (← redirects inner fuel)
    | _ => return []

/-- A list in parentheses or braces; the current token opens it. -/
def group (inner : Inner) (fuel : Nat) (opening closing : String) : Parser Node :=
  match fuel with
  | 0 => fail .tooDeep
  | fuel + 1 => do
    let openSpan ← here
    advance
    let body ← list inner fuel false
    let closeSpan ← here
    let closed ←
      if closing = ")" then pure (decide ((← current) = some .rightParen)) else atWord closing
    if !closed then
      fail (.expected closing)
    advance
    let after ← redirects inner fuel
    return .compound [.reserved opening openSpan, body, .reserved closing closeSpan] after
      ⟨openSpan.start, ← previousStop⟩

/-- The words from the current token on. -/
def items (inner : Inner) (fuel : Nat) : Parser (List Node) :=
  match fuel with
  | 0 => fail .tooDeep
  | fuel + 1 => do
    let span ← here
    match ← current with
    | some (.word word) =>
      advance
      let item ← wordOf inner word span
      return item :: (← items inner fuel)
    | _ => return []

/-- Semicolons and newlines before the body of a loop. -/
def skipSeparators (fuel : Nat) : Parser Unit :=
  match fuel with
  | 0 => fail .tooDeep
  | fuel + 1 => do
    match ← current with
    | some .semicolon | some .newline =>
      advance
      skipSeparators fuel
    | _ => return

/-- A loop; one without `in` goes through the positional parameters. -/
def forLoop (inner : Inner) (fuel : Nat) : Parser Node :=
  match fuel with
  | 0 => fail .tooDeep
  | fuel + 1 => do
    let start := (← expectWord "for").start
    let name ← match (← current).bind Token.bare? with
      | some name => if isName name then pure name else fail .expectedLoopVariable
      | none => fail .expectedLoopVariable
    advance
    skipNewlines
    let values ← do
      if ← atWord "in" then
        advance
        items inner fuel
      else
        let span ← here
        pure [.word "$@" [.parameter "$@" span] true span]
    skipSeparators fuel
    let _ ← expectWord "do"
    let body ← list inner fuel false
    let stop := (← expectWord "done").stop
    return .forLoop name values body ⟨start, stop⟩

def conditional (inner : Inner) (fuel : Nat) : Parser Node :=
  match fuel with
  | 0 => fail .tooDeep
  | fuel + 1 => do
    let start := (← expectWord "if").start
    let clauses ← clauses inner fuel "if"
    let stop := (← expectWord "fi").stop
    return .conditional clauses ⟨start, stop⟩

/-- The clauses from a condition on, the one that `keyword` began first. -/
def clauses (inner : Inner) (fuel : Nat) (keyword : String) : Parser (List Clause) :=
  match fuel with
  | 0 => fail .tooDeep
  | fuel + 1 => do
    let condition ← list inner fuel false
    let _ ← expectWord "then"
    let body ← list inner fuel false
    let clause := Clause.mk keyword (some condition) body
    if ← atWord "elif" then
      advance
      return clause :: (← clauses inner fuel "elif")
    else if ← atWord "else" then
      advance
      return [clause, .mk "else" none (← list inner fuel false)]
    else return [clause]

/-- A function: its name with the word `function` before it, a pair of parentheses after it, or
both, and a group. -/
def definition (inner : Inner) (fuel : Nat) : Parser Node :=
  match fuel with
  | 0 => fail .tooDeep
  | fuel + 1 => do
    let start := (← here).start
    if ← atWord "function" then
      advance
    let name ← match (← current).bind Token.bare? with
      | some name => pure name
      | none => fail .expectedFunctionName
    advance
    if (← current) = some .leftParen then
      advance
      if (← current) ≠ some .rightParen then
        fail .expectedDefinitionParen
      advance
    skipNewlines
    let body ← do
      if (← current) = some .leftParen then group inner fuel "(" ")"
      else if ← atWord "\x7b" then group inner fuel "\x7b" "\x7d"
      else fail .expectedFunctionBody
    return .function name body ⟨start, ← previousStop⟩

end

/-- The commands of a script, one for each line that ends one. -/
def script (inner : Inner) (fuel : Nat) : Parser (List Node) :=
  match fuel with
  | 0 => fail .tooDeep
  | fuel + 1 => do
    skipNewlines
    if (← current).isNone then
      return []
    let node ← list inner fuel true
    match ← current with
    | none | some .newline => return node :: (← script inner fuel)
    | some _ => unexpected

/-- More than the number of calls that reading so many tokens can nest. -/
def fuelFor (tokens : Nat) : Nat :=
  8 * (tokens + 1)

end Grammar

namespace Script

/-- The commands of a text that starts at an offset of an outer one. The text of a substitution is
shorter than the text around it. -/
def parseAt (text : List Char) (offset : Nat) : Except ParseError (List Node) := do
  let lexemes ← lex text offset
  let finish := (lexemes.getLast?.map (·.stop)).getD (Position.starting offset)
  let inner : Grammar.Inner := fun body start =>
    if body.length < text.length then parseAt body start else .error .emptySubstitution
  let (nodes, _) ← (Grammar.script inner (Grammar.fuelFor lexemes.length)).run
    ⟨lexemes, finish.offset, finish⟩
  return nodes
termination_by text.length

/-- The commands of a script, one for each complete line. -/
def parse (text : String) : Except ParseError (List Node) :=
  parseAt text.toList 0

end Script

end StepShell

import StepShell.Script

/-! The grammar of scripts, apart from what parses it. A rule says which tokens stand for a phrase
and what the phrase is in the tree, so a reading of a script by the rules accounts for each of its
tokens once and in order. What a rule passes over without a trace are the newlines and separators
before a phrase, the parentheses of a definition and the word `function`. -/

namespace StepShell

namespace Grammar

/-- A stretch of a script and what it is in the tree. -/
inductive Phrase where
  /-- The pieces of a word, which are tokens no more. -/
  | pieces (pieces : List Word.Piece) (parts : List Node)
  | word (node : Node)
  | redirect (node : Node)
  | redirects (nodes : List Node)
  /-- The rest of a simple command, with its name read or not. -/
  | parts (named : Bool) (parts : List Node)
  | items (nodes : List Node)
  | group (node : Node)
  | clauses (keyword : String) (clauses : List Clause)
  | command (node : Node)
  /-- Commands with pipes between them. -/
  | stages (parts : List Node)
  | pipeline (node : Node)
  /-- Pipelines with `&&` and `||` between them. -/
  | chain (parts : List Node)
  /-- Chains with separators between and behind them. -/
  | entries (topLevel : Bool) (parts : List Node)
  | list (topLevel : Bool) (node : Node)
  | script (nodes : List Node)

/-- The first of the tokens. -/
def next (lexemes : List Lexeme) : Option Token :=
  lexemes.head?.map Lexeme.token

def pastNewlines (lexemes : List Lexeme) : List Lexeme :=
  lexemes.dropWhile (·.token = .newline)

/-- The tokens behind the semicolons and newlines at the end of the header of a loop. -/
def pastSeparators (lexemes : List Lexeme) : List Lexeme :=
  lexemes.dropWhile fun lexeme => lexeme.token = .semicolon || lexeme.token = .newline

/-- Whether a line ends here. -/
def endsLine (lexemes : List Lexeme) : Bool :=
  next lexemes = none || next lexemes = some .newline

/-- Whether a nested list ends here. -/
def endsList (lexemes : List Lexeme) : Bool :=
  match next lexemes with
  | none | some .rightParen => true
  | some token =>
    match token.bare? with
    | some word => terminators.contains word
    | none => false

/-- What a token between the chains of a list is written as; at top level no newline stands
there. -/
def separator? (topLevel : Bool) : Token → Option String
  | .semicolon => some ";"
  | .background => some "&"
  | .newline => if topLevel then none else some "\n"
  | _ => none

/-- What a token between the pipelines of a chain is written as. -/
def connective? : Token → Option String
  | .and => some "&&"
  | .or => some "||"
  | _ => none

/-- The words that begin a command which is not simple. -/
def keywords : List String :=
  ["\x7b", "if", "for", "function"]

/-- Whether the command here is a simple one, if it is one at all. -/
def beginsSimple : List Lexeme → Bool
  | [] => false
  | first :: later =>
    match first.token.bare? with
    | none => true
    | some word => !keywords.contains word &&
        !(later.map Lexeme.token).take 2 == [.leftParen, .rightParen]

/-- The tokens around a group and how they are written. -/
inductive Brackets : String → String → Token → Token → Prop where
  | parens : Brackets "(" ")" .leftParen .rightParen
  | braces {opener closer : Token} (first : opener.bare? = some "\x7b")
      (last : closer.bare? = some "\x7d") : Brackets "\x7b" "\x7d" opener closer

/-- The parentheses behind the name of a function, which may be left out. -/
inductive Parens : List Lexeme → List Lexeme → Prop where
  | none {lexemes : List Lexeme} (other : next lexemes ≠ some .leftParen) : Parens lexemes lexemes
  | pair {left right : Lexeme} {rest : List Lexeme} (first : left.token = .leftParen)
      (second : right.token = .rightParen) : Parens (left :: right :: rest) rest

/-- Where the first chain of a list begins; a nested list passes over newlines, and it has no chain
where it ends. -/
def Opens : Bool → List Lexeme → List Lexeme → Prop
  | true, before, start => start = before
  | false, before, start => start = pastNewlines before ∧ endsList start = false

/-- Where the last of the nodes ends, if there is one. -/
def stopAfter (stop : Nat) (nodes : List Node) : Nat :=
  (nodes.getLast?.map (·.span.stop)).getD stop

/-- The node for the parts of a list, which lose the semicolons and newlines at their end. -/
def listed? (parts : List Node) : Option Node :=
  match dropSeparators parts with
  | [] => none
  | [node] => some node
  | parts => some (.list parts (spanning parts))

/-- The item of a loop that names none. -/
def positionals (span : Span) : Node :=
  .word "$@" [.parameter "$@" span] true span

/-- The rules of the grammar: the tokens before a phrase, of which the phrase takes its own, and
the tokens after it. Where a phrase can go on, it does. -/
inductive Reads : Phrase → List Lexeme → List Lexeme → Prop where
  | noPieces : Reads (.pieces [] []) [] []
  | plain {c : Char} {rest : List Word.Piece} {parts : List Node}
      (later : Reads (.pieces rest parts) [] []) : Reads (.pieces (.plain c :: rest) parts) [] []
  | guarded {c : Char} {rest : List Word.Piece} {parts : List Node}
      (later : Reads (.pieces rest parts) [] []) :
      Reads (.pieces (.guarded c :: rest) parts) [] []
  | reference {value : List Char} {span : Span} {rest : List Word.Piece} {parts : List Node}
      (later : Reads (.pieces rest parts) [] []) :
      Reads (.pieces (.reference value span :: rest)
        (.parameter (String.ofList value) span :: parts)) [] []
  /-- The text of a substitution is a script. -/
  | substitution {body : List Char} {span : Span} {bodyStart : Nat} {rest : List Word.Piece}
      {parts nodes : List Node} {lexemes : List Lexeme} {command : Node}
      (tokens : lex body bodyStart = .ok lexemes) (inside : Reads (.script nodes) lexemes [])
      (made : substitutedCommand nodes = .ok command)
      (later : Reads (.pieces rest parts) [] []) :
      Reads (.pieces (.substitution body span bodyStart :: rest)
        (.substitution command span :: parts)) [] []
  | word {lexeme : Lexeme} {read : Word} {parts : List Node} {rest : List Lexeme}
      (token : lexeme.token = .word read) (pieces : Reads (.pieces read.pieces parts) [] []) :
      Reads (.word (.word read.text parts read.quoted lexeme.span)) (lexeme :: rest) rest
  | redirect {sign : Lexeme} {kind : RedirectKind} {target : Node} {rest after : List Lexeme}
      (token : sign.token = .redirect kind) (leads : Reads (.word target) rest after) :
      Reads (.redirect (.redirect kind target ⟨sign.span.start, target.span.stop⟩))
        (sign :: rest) after
  | noRedirect {rest : List Lexeme} (other : ∀ kind, next rest ≠ some (.redirect kind)) :
      Reads (.redirects []) rest rest
  | redirects {first : Node} {others : List Node} {before middle after : List Lexeme}
      (here : Reads (.redirect first) before middle)
      (later : Reads (.redirects others) middle after) :
      Reads (.redirects (first :: others)) before after
  | noPart {named : Bool} {rest : List Lexeme} (word : ∀ read, next rest ≠ some (.word read))
      (redirect : ∀ kind, next rest ≠ some (.redirect kind)) : Reads (.parts named []) rest rest
  /-- Assignments stand before the name of the command only. -/
  | assignment {lexeme : Lexeme} {read : Word} {parts others : List Node}
      {rest after : List Lexeme} (token : lexeme.token = .word read)
      (form : isAssignment read = true) (pieces : Reads (.pieces read.pieces parts) [] [])
      (later : Reads (.parts false others) rest after) :
      Reads (.parts false (.assignment read.text parts lexeme.span :: others))
        (lexeme :: rest) after
  | argument {named : Bool} {lexeme : Lexeme} {read : Word} {first : Node} {others : List Node}
      {rest after : List Lexeme} (token : lexeme.token = .word read)
      (form : named = false → isAssignment read = false)
      (here : Reads (.word first) (lexeme :: rest) rest)
      (later : Reads (.parts true others) rest after) :
      Reads (.parts named (first :: others)) (lexeme :: rest) after
  | redirected {named : Bool} {first : Node} {others : List Node}
      {before middle after : List Lexeme} (here : Reads (.redirect first) before middle)
      (later : Reads (.parts named others) middle after) :
      Reads (.parts named (first :: others)) before after
  | noItem {rest : List Lexeme} (other : ∀ read, next rest ≠ some (.word read)) :
      Reads (.items []) rest rest
  | items {first : Node} {others : List Node} {before middle after : List Lexeme}
      (here : Reads (.word first) before middle) (later : Reads (.items others) middle after) :
      Reads (.items (first :: others)) before after
  | group {opener closer : Lexeme} {opening closing : String} {body : Node}
      {redirects : List Node} {rest middle after : List Lexeme}
      (pair : Brackets opening closing opener.token closer.token)
      (inside : Reads (.list false body) rest (closer :: middle))
      (behind : Reads (.redirects redirects) middle after) :
      Reads (.group (.compound [.reserved opening opener.span, body, .reserved closing closer.span]
        redirects ⟨opener.span.start, stopAfter closer.span.stop redirects⟩)) (opener :: rest) after
  | clause {keyword : String} {thenWord : Lexeme} {condition body : Node}
      {before start after : List Lexeme} (test : Reads (.list false condition) before
        (thenWord :: start)) (then_ : thenWord.token.bare? = some "then")
      (inside : Reads (.list false body) start after)
      (noElif : (next after).bind Token.bare? ≠ some "elif")
      (noElse : (next after).bind Token.bare? ≠ some "else") :
      Reads (.clauses keyword [.mk keyword (some condition) body]) before after
  | clauseElse {keyword : String} {thenWord elseWord : Lexeme} {condition body last : Node}
      {before start middle after : List Lexeme} (test : Reads (.list false condition) before
        (thenWord :: start)) (then_ : thenWord.token.bare? = some "then")
      (inside : Reads (.list false body) start (elseWord :: middle))
      (else_ : elseWord.token.bare? = some "else")
      (otherwise : Reads (.list false last) middle after) :
      Reads (.clauses keyword [.mk keyword (some condition) body, .mk "else" none last])
        before after
  | clauseElif {keyword : String} {thenWord elifWord : Lexeme} {condition body : Node}
      {clauses : List Clause} {before start middle after : List Lexeme}
      (test : Reads (.list false condition) before (thenWord :: start))
      (then_ : thenWord.token.bare? = some "then")
      (inside : Reads (.list false body) start (elifWord :: middle))
      (elif_ : elifWord.token.bare? = some "elif")
      (later : Reads (.clauses "elif" clauses) middle after) :
      Reads (.clauses keyword (.mk keyword (some condition) body :: clauses)) before after
  | simple {parts : List Node} {before after : List Lexeme} (simple : beginsSimple before = true)
      (some : parts ≠ []) (read : Reads (.parts false parts) before after) :
      Reads (.command (.command parts (spanning parts))) before after
  | grouped {node : Node} {before after : List Lexeme} (group : Reads (.group node) before after) :
      Reads (.command node) before after
  | forIn {forWord name inWord doWord doneWord : Lexeme} {loopName : String} {items : List Node}
      {body : Node} {rest others middle start after : List Lexeme}
      (for_ : forWord.token.bare? = some "for") (named : name.token.bare? = some loopName)
      (form : isName loopName = true) (newlines : pastNewlines rest = inWord :: others)
      (in_ : inWord.token.bare? = some "in") (values : Reads (.items items) others middle)
      (separators : pastSeparators middle = doWord :: start)
      (do_ : doWord.token.bare? = some "do")
      (inside : Reads (.list false body) start (doneWord :: after))
      (done_ : doneWord.token.bare? = some "done") :
      Reads (.command (.forLoop loopName items body ⟨forWord.span.start, doneWord.span.stop⟩))
        (forWord :: name :: rest) after
  /-- A loop without `in` has an item that no token stands for; it is placed at the token behind
  the variable. -/
  | forEach {forWord name first doWord doneWord : Lexeme} {loopName : String} {body : Node}
      {rest others start after : List Lexeme} (for_ : forWord.token.bare? = some "for")
      (named : name.token.bare? = some loopName) (form : isName loopName = true)
      (newlines : pastNewlines rest = first :: others) (noIn : first.token.bare? ≠ some "in")
      (separators : pastSeparators (first :: others) = doWord :: start)
      (do_ : doWord.token.bare? = some "do")
      (inside : Reads (.list false body) start (doneWord :: after))
      (done_ : doneWord.token.bare? = some "done") :
      Reads (.command (.forLoop loopName [positionals first.span] body
        ⟨forWord.span.start, doneWord.span.stop⟩)) (forWord :: name :: rest) after
  | conditional {ifWord fiWord : Lexeme} {clauses : List Clause} {rest after : List Lexeme}
      (if_ : ifWord.token.bare? = some "if")
      (read : Reads (.clauses "if" clauses) rest (fiWord :: after))
      (fi_ : fiWord.token.bare? = some "fi") :
      Reads (.command (.conditional clauses ⟨ifWord.span.start, fiWord.span.stop⟩))
        (ifWord :: rest) after
  | function {keyword name : Lexeme} {called : String} {body : Node}
      {rest middle after : List Lexeme} (function_ : keyword.token.bare? = some "function")
      (named : name.token.bare? = some called) (parens : Parens rest middle)
      (inside : Reads (.group body) (pastNewlines middle) after) :
      Reads (.command (.function called body ⟨keyword.span.start, body.span.stop⟩))
        (keyword :: name :: rest) after
  | definition {name left right : Lexeme} {called : String} {body : Node}
      {rest after : List Lexeme} (named : name.token.bare? = some called)
      (unreserved : called ∉ keywords) (first : left.token = .leftParen)
      (second : right.token = .rightParen)
      (inside : Reads (.group body) (pastNewlines rest) after) :
      Reads (.command (.function called body ⟨name.span.start, body.span.stop⟩))
        (name :: left :: right :: rest) after
  | stage {node : Node} {before after : List Lexeme} (here : Reads (.command node) before after)
      (last : next after ≠ some .pipe) : Reads (.stages [node]) before after
  | pipe {node : Node} {lexeme : Lexeme} {others : List Node} {before rest after : List Lexeme}
      (here : Reads (.command node) before (lexeme :: rest)) (token : lexeme.token = .pipe)
      (later : Reads (.stages others) (pastNewlines rest) after) :
      Reads (.stages (node :: .pipe "|" lexeme.span :: others)) before after
  | single {node : Node} {before after : List Lexeme} (read : Reads (.stages [node]) before after) :
      Reads (.pipeline node) before after
  | pipeline {parts : List Node} {before after : List Lexeme} (several : parts.length ≠ 1)
      (read : Reads (.stages parts) before after) :
      Reads (.pipeline (.pipeline parts (spanning parts))) before after
  | link {node : Node} {before after : List Lexeme} (here : Reads (.pipeline node) before after)
      (last : (next after).bind connective? = none) : Reads (.chain [node]) before after
  | chain {node : Node} {lexeme : Lexeme} {op : String} {others : List Node}
      {before rest after : List Lexeme} (here : Reads (.pipeline node) before (lexeme :: rest))
      (token : connective? lexeme.token = some op)
      (later : Reads (.chain others) (pastNewlines rest) after) :
      Reads (.chain (node :: .operator op lexeme.span :: others)) before after
  | noEntry {before : List Lexeme} (closed : endsList (pastNewlines before) = true) :
      Reads (.entries false []) before (pastNewlines before)
  | entry {topLevel : Bool} {parts : List Node} {before start after : List Lexeme}
      (opens : Opens topLevel before start) (here : Reads (.chain parts) start after)
      (last : (next after).bind (separator? topLevel) = none) :
      Reads (.entries topLevel parts) before after
  | lastEntry {parts : List Node} {lexeme : Lexeme} {op : String} {before after : List Lexeme}
      (here : Reads (.chain parts) before (lexeme :: after))
      (token : separator? true lexeme.token = some op) (line : endsLine after = true) :
      Reads (.entries true (parts ++ [.operator op lexeme.span])) before after
  | entries {topLevel : Bool} {parts others : List Node} {lexeme : Lexeme} {op : String}
      {before start rest after : List Lexeme} (opens : Opens topLevel before start)
      (here : Reads (.chain parts) start (lexeme :: rest))
      (token : separator? topLevel lexeme.token = some op)
      (goes : topLevel = true → endsLine rest = false)
      (later : Reads (.entries topLevel others) rest after) :
      Reads (.entries topLevel (parts ++ .operator op lexeme.span :: others)) before after
  | list {topLevel : Bool} {parts : List Node} {node : Node} {before after : List Lexeme}
      (read : Reads (.entries topLevel parts) before after) (made : listed? parts = some node) :
      Reads (.list topLevel node) before after
  | ended {before : List Lexeme} (nothing : pastNewlines before = []) :
      Reads (.script []) before []
  | line {node : Node} {others : List Node} {before middle after : List Lexeme}
      (something : pastNewlines before ≠ [])
      (here : Reads (.list true node) (pastNewlines before) middle)
      (line : endsLine middle = true) (later : Reads (.script others) middle after) :
      Reads (.script (node :: others)) before after

end Grammar

end StepShell

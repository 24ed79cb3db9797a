import StepShell.Proofs.Effect
import StepShell.Script

/-! The trees that come of reading scripts. A tree holds no stray word, separator or parenthesis:
each kind of node stands only where compiling has a place for it, and words stand as the lexer read
them. -/

namespace StepShell

/-- What a node is to the node around it. -/
inductive Place where
  /-- A parameter or substitution inside a word. -/
  | piece
  | word
  | redirect
  /-- A word, assignment or redirect of a command. -/
  | part
  | command
  /-- A command of a pipeline, or a pipe between two. -/
  | stage
  /-- A command of a list, or an operator between two. -/
  | entry

/-- The lexer reads this word, at this place, in some text. -/
def Lexed (read : Word) (span : Span) : Prop :=
  ∃ text offset lexemes, lex text offset = .ok lexemes ∧
    ∃ lexeme ∈ lexemes, lexeme.token = .word read ∧ lexeme.span = span

/-- The lexer reads a word if it is among the tokens of some text. -/
theorem Lexed.of_lex {read : Word} {span : Span} (text : List Char) (offset : Nat)
    (found : (lex text offset).toOption.any fun lexemes =>
      lexemes.any fun lexeme => lexeme.token = .word read ∧ lexeme.span = span) :
    Lexed read span := by
  cases tokens : lex text offset with
  | error => simp [tokens, Except.toOption] at found
  | ok lexemes =>
    rw [tokens] at found
    obtain ⟨lexeme, member, same⟩ := List.any_eq_true.mp found
    exact ⟨text, offset, lexemes, tokens, lexeme, member, of_decide_eq_true same⟩

/-- What a list may have between its commands. -/
def Grammar.separators : List String :=
  [";", "\n", "&", "&&", "||"]

/-- The nodes of parsed scripts, each at a place where it may stand. -/
inductive Formed : Place → Node → Prop where
  | parameter {value : String} {span : Span} : Formed .piece (.parameter value span)
  | substitution {inner : Node} {span : Span} (command : Formed .command inner) :
      Formed .piece (.substitution inner span)
  | word {read : Word} {parts : List Node} {span : Span} {inner : Grammar.Inner}
      (lexed : Lexed read span) (made : Grammar.partsOf inner read.pieces = .ok parts)
      (pieces : ∀ part ∈ parts, Formed .piece part) :
      Formed .word (.word read.text parts read.quoted span)
  | positionals {span : Span} : Formed .word (.word "$@" [.parameter "$@" span] true span)
  | redirect {kind : RedirectKind} {target : Node} {span : Span} (leads : Formed .word target) :
      Formed .redirect (.redirect kind target span)
  | argument {node : Node} (word : Formed .word node) : Formed .part node
  | redirection {node : Node} (redirect : Formed .redirect node) : Formed .part node
  | assignment {read : Word} {parts : List Node} {span : Span} {inner : Grammar.Inner}
      (lexed : Lexed read span) (made : Grammar.partsOf inner read.pieces = .ok parts)
      (pieces : ∀ part ∈ parts, Formed .piece part) (form : Grammar.isAssignment read = true) :
      Formed .part (.assignment read.text parts span)
  | command {parts : List Node} {span : Span} (each : ∀ part ∈ parts, Formed .part part) :
      Formed .command (.command parts span)
  | stage {node : Node} (command : Formed .command node) : Formed .stage node
  | pipe {sign : String} {span : Span} : Formed .stage (.pipe sign span)
  | pipeline {parts : List Node} {span : Span} (each : ∀ part ∈ parts, Formed .stage part) :
      Formed .command (.pipeline parts span)
  | entry {node : Node} (command : Formed .command node) : Formed .entry node
  | operator {op : String} {span : Span} (known : op ∈ Grammar.separators) :
      Formed .entry (.operator op span)
  | list {parts : List Node} {span : Span} (each : ∀ part ∈ parts, Formed .entry part) :
      Formed .command (.list parts span)
  | group {opening closing : String} {body : Node} {redirects : List Node}
      {openSpan closeSpan span : Span}
      (pair : opening = "(" ∧ closing = ")" ∨ opening = "\x7b" ∧ closing = "\x7d")
      (inside : Formed .command body) (each : ∀ node ∈ redirects, Formed .redirect node) :
      Formed .command (.compound [.reserved opening openSpan, body, .reserved closing closeSpan]
        redirects span)
  | forLoop {name : String} {items : List Node} {body : Node} {span : Span}
      (each : ∀ item ∈ items, Formed .word item) (inside : Formed .command body) :
      Formed .command (.forLoop name items body span)
  | conditional {clauses : List Clause} {span : Span}
      (conditions : ∀ keyword condition body,
        Clause.mk keyword (some condition) body ∈ clauses → Formed .command condition)
      (bodies : ∀ clause ∈ clauses, Formed .command clause.body) :
      Formed .command (.conditional clauses span)
  | function {name : String} {body : Node} {span : Span} (inside : Formed .command body) :
      Formed .command (.function name body span)

namespace Grammar

/-- Every word still to be read is one that the lexer read. -/
def Input.Known (input : Input) : Prop :=
  ∀ lexeme ∈ input.rest, ∀ read, lexeme.token = .word read → Lexed read lexeme.span

/-- Whatever the parser makes of known words is good, and the words it leaves are known. -/
def Yields {α : Type} (parser : Parser α) (good : α → Prop) : Prop :=
  ∀ before value after, before.Known → parser before = .ok (value, after) →
    good value ∧ after.Known

section
variable {α β : Type} {good : α → Prop} {better : β → Prop}

theorem lift_eq_ok {result : Except ParseError α} {before after : Input} {value : α} :
    (liftM result : Parser α) before = .ok (value, after) ↔
      result = .ok value ∧ after = before := by
  cases result <;> simp [liftM, monadLift, MonadLift.monadLift, StateT.lift, bind, Except.bind,
    pure, Except.pure, eq_comm]

theorem bind_eq_ok {first : Parser α} {next : α → Parser β} {before after : Input} {result : β} :
    (first >>= next) before = .ok (result, after) ↔
      ∃ value middle, first before = .ok (value, middle) ∧
        next value middle = .ok (result, after) := by
  change (first before >>= fun read => next read.1 read.2) = _ ↔ _
  rcases first before with error | ⟨value, middle⟩
  · simp [bind, Except.bind]
  · constructor
    · intro done
      exact ⟨value, middle, rfl, done⟩
    · rintro ⟨_, _, same, done⟩
      cases same
      exact done

theorem Yields.bind {first : Parser α} {next : α → Parser β} (start : Yields first good)
    (rest : ∀ value, good value → Yields (next value) better) :
    Yields (first >>= next) better := by
  intro before result after known done
  obtain ⟨value, middle, read, done⟩ := bind_eq_ok.mp done
  obtain ⟨holds, known⟩ := start before value middle known read
  exact rest value holds middle result after known done

theorem Yields.pure {value : α} (holds : good value) : Yields (pure value : Parser α) good := by
  intro before result after known done
  cases done
  exact ⟨holds, known⟩

theorem Yields.fail {cause : ParseCause} : Yields (Grammar.fail cause : Parser α) good := by
  intro before result after _ done
  obtain ⟨_, _, _, done⟩ := bind_eq_ok.mp done
  split at done <;> cases done

theorem Yields.unexpected : Yields (Grammar.unexpected : Parser α) good := by
  have seen : Yields Grammar.current fun _ => True := by
    intro before result after known done
    cases done
    exact ⟨trivial, known⟩
  refine seen.bind fun token _ => ?_
  split <;> exact Yields.fail

/-- A look at what comes next says nothing and moves nothing. -/
theorem Yields.look {parser : Parser α}
    (still : ∀ before value after, parser before = .ok (value, after) → after = before) :
    Yields parser fun _ => True := by
  intro before value after known done
  exact ⟨trivial, still before value after done ▸ known⟩

end

theorem Yields.current : Yields current fun _ => True :=
  Yields.look fun _ _ _ done => by cases done; rfl

theorem Yields.here : Yields here fun _ => True :=
  Yields.look fun _ _ _ done => by cases done; rfl

theorem Yields.previousStop : Yields previousStop fun _ => True :=
  Yields.look fun _ _ _ done => by cases done; rfl

theorem Yields.nextTokens : Yields nextTokens fun _ => True :=
  Yields.look fun _ _ _ done => by cases done; rfl

theorem Yields.atWord {word : String} : Yields (atWord word) fun _ => True :=
  Yields.look fun _ _ _ done => by cases done; rfl

theorem Yields.atTerminator : Yields atTerminator fun _ => True := by
  refine Yields.current.bind fun token _ => ?_
  split
  · exact Yields.pure trivial
  · exact Yields.pure trivial
  · exact Yields.pure trivial

/-- The span and the word that come next belong together. -/
theorem Yields.word {α : Type} {good : α → Prop} {next : Span → Option Token → Parser α}
    (rest : ∀ span token, (∀ read, token = some (.word read) → Lexed read span) →
      Yields (next span token) good) :
    Yields (do let span ← Grammar.here; let token ← Grammar.current; next span token) good := by
  intro before value after known done
  obtain ⟨span, middle, first, done⟩ := bind_eq_ok.mp done
  obtain ⟨token, last, second, done⟩ := bind_eq_ok.mp done
  cases first
  cases second
  refine rest _ _ ?_ before value after known done
  intro read next
  obtain ⟨lexemes, stop, finish⟩ := before
  cases lexemes with
  | nil => simp at next
  | cons lexeme lexemes =>
    exact known lexeme List.mem_cons_self read (by simpa using next)

theorem Yields.advance : Yields advance fun _ => True := by
  intro before value after known done
  cases done
  refine ⟨trivial, fun lexeme member => known lexeme ?_⟩
  dsimp only at member
  split at member
  · exact member
  · rename_i left
    rw [left]
    exact List.mem_cons_of_mem _ member

private theorem mem_of_mem_dropNewlines {lexeme : Lexeme} (lexemes : List Lexeme) (stop : Nat)
    (member : lexeme ∈ (dropNewlines lexemes stop).1) : lexeme ∈ lexemes := by
  fun_induction dropNewlines lexemes stop with
  | case1 => simp at member
  | case2 first rest _ _ ih => exact List.mem_cons_of_mem _ (ih member)
  | case3 => exact member

theorem Yields.skipNewlines : Yields skipNewlines fun _ => True := by
  intro before value after known done
  cases done
  exact ⟨trivial, fun lexeme member => known lexeme (mem_of_mem_dropNewlines _ _ member)⟩

theorem Yields.expectWord {word : String} : Yields (expectWord word) fun _ => True := by
  refine Yields.atWord.bind fun there _ => ?_
  split
  · exact Yields.here.bind fun _ _ => Yields.advance.bind fun _ _ => Yields.pure trivial
  · exact Yields.fail

/-- The commands of the substitutions in a word are formed. -/
def Inner.Forms (inner : Inner) : Prop :=
  ∀ body start nodes, inner body start = .ok nodes → ∀ node ∈ nodes, Formed .command node

theorem substitutedCommand_formed {nodes : List Node} {command : Node}
    (each : ∀ node ∈ nodes, Formed .command node)
    (made : substitutedCommand nodes = .ok command) : Formed .command command := by
  unfold substitutedCommand at made
  split at made
  · cases made
  · cases made
    exact each _ List.mem_cons_self
  · rename_i first rest _
    cases made
    refine Formed.list fun part member => ?_
    rcases List.mem_cons.mp member with rfl | member
    · exact .entry (each _ List.mem_cons_self)
    · obtain ⟨node, present, member⟩ := List.mem_flatMap.mp member
      rcases List.mem_cons.mp member with rfl | member
      · exact .operator (by decide)
      · obtain rfl := List.mem_singleton.mp member
        exact .entry (each _ (List.mem_cons_of_mem _ present))

section
variable {inner : Inner} (forms : inner.Forms)
include forms

theorem partsOf_formed {pieces : List Word.Piece} {parts : List Node}
    (made : partsOf inner pieces = .ok parts) : ∀ part ∈ parts, Formed .piece part := by
  fun_induction partsOf inner pieces generalizing parts with
  | case1 => cases made; simp
  | case2 _ _ ih => exact ih made
  | case3 _ _ ih => exact ih made
  | case4 value span rest ih =>
    obtain ⟨later, read, made⟩ := except_bind_eq_ok.mp made
    cases made
    exact List.forall_mem_cons.mpr ⟨.parameter, ih read⟩
  | case5 body span bodyStart rest ih =>
    obtain ⟨nodes, parsed, made⟩ := except_bind_eq_ok.mp made
    obtain ⟨command, single, made⟩ := except_bind_eq_ok.mp made
    obtain ⟨later, read, made⟩ := except_bind_eq_ok.mp made
    cases made
    have command := substitutedCommand_formed (forms _ _ _ parsed) single
    exact List.forall_mem_cons.mpr ⟨.substitution command, ih read⟩

theorem Yields.wordOf {read : Word} {span : Span} (lexed : Lexed read span) :
    Yields (wordOf inner read span) (Formed .word) := by
  intro before value after known done
  rw [Grammar.wordOf, bind_eq_ok] at done
  obtain ⟨parts, middle, made, done⟩ := done
  obtain ⟨parsed, rfl⟩ := lift_eq_ok.mp made
  cases done
  exact ⟨.word lexed parsed (partsOf_formed forms parsed), known⟩

theorem Yields.assignmentOf {read : Word} {span : Span} (lexed : Lexed read span)
    (form : isAssignment read = true) :
    Yields (assignmentOf inner read span) (Formed .part) := by
  intro before value after known done
  rw [Grammar.assignmentOf, bind_eq_ok] at done
  obtain ⟨parts, middle, made, done⟩ := done
  obtain ⟨parsed, rfl⟩ := lift_eq_ok.mp made
  cases done
  exact ⟨.assignment lexed parsed (partsOf_formed forms parsed) form, known⟩

theorem Yields.redirect {kind : RedirectKind} :
    Yields (redirect inner kind) (Formed .redirect) := by
  refine Yields.here.bind fun _ _ => Yields.advance.bind fun _ _ => ?_
  refine Yields.word fun span token lexed => ?_
  split
  · refine (Yields.wordOf forms (lexed _ rfl)).bind fun target formed => ?_
    exact Yields.advance.bind fun _ _ => Yields.pure (.redirect formed)
  · exact Yields.fail

end

/-- The parts of a list, of which the first is a command. -/
def Entries (parts : List Node) : Prop :=
  (∀ part ∈ parts, Formed .entry part) ∧ ∀ first ∈ parts.head?, Formed .command first

theorem dropSeparators_starts (parts : List Node) : dropSeparators parts <+: parts := by
  unfold dropSeparators
  rw [← List.reverse_suffix, List.reverse_reverse]
  exact List.dropWhile_suffix _

theorem Yields.listNode {parts : List Node} (entries : Entries parts) :
    Yields (listNode parts) (Formed .command) := by
  unfold Grammar.listNode
  split
  · exact Yields.fail
  · rename_i node single
    obtain ⟨rest, rfl⟩ := single ▸ dropSeparators_starts parts
    exact Yields.pure (entries.2 node rfl)
  · exact Yields.pure (.list fun part member =>
      entries.1 part ((dropSeparators_starts parts).subset member))

/-- The parts of commands with operators between them, which are never none. -/
def Chain (parts : List Node) : Prop :=
  ∃ first rest, parts = first :: rest ∧ Formed .command first ∧ ∀ part ∈ rest, Formed .entry part

theorem Chain.single {node : Node} (formed : Formed .command node) : Chain [node] :=
  ⟨node, [], rfl, formed, by simp⟩

theorem Chain.all {parts : List Node} (chain : Chain parts) :
    ∀ part ∈ parts, Formed .entry part := by
  obtain ⟨first, rest, rfl, formed, later⟩ := chain
  exact List.forall_mem_cons.mpr ⟨.entry formed, later⟩

theorem Chain.append {parts rest : List Node} (chain : Chain parts)
    (later : ∀ part ∈ rest, Formed .entry part) : Chain (parts ++ rest) := by
  obtain ⟨first, others, rfl, formed, each⟩ := chain
  exact ⟨first, others ++ rest, rfl, formed, List.forall_mem_append.mpr ⟨each, later⟩⟩

theorem Chain.entries {parts : List Node} (chain : Chain parts) : Entries parts := by
  refine ⟨chain.all, fun node head => ?_⟩
  obtain ⟨first, rest, rfl, formed, _⟩ := chain
  cases head
  exact formed

/-- The clauses of a conditional. -/
def Clauses (clauses : List Clause) : Prop :=
  (∀ keyword condition body,
    Clause.mk keyword (some condition) body ∈ clauses → Formed .command condition) ∧
  ∀ clause ∈ clauses, Formed .command clause.body

theorem Clauses.last {body : Node} {keyword : String} (formed : Formed .command body) :
    Clauses [.mk keyword none body] := by
  constructor
  · simp
  · simpa [Clause.body] using formed

theorem Clauses.cons {condition body : Node} {keyword : String} {clauses : List Clause}
    (test : Formed .command condition) (formed : Formed .command body) (later : Clauses clauses) :
    Clauses (.mk keyword (some condition) body :: clauses) := by
  refine ⟨fun _ _ _ member => ?_, List.forall_mem_cons.mpr ⟨formed, later.2⟩⟩
  rcases List.mem_cons.mp member with same | member
  · cases same
    exact test
  · exact later.1 _ _ _ member

/-- A nested list is none where a word or parenthesis closes it. -/
theorem Yields.unlessClosed {topLevel : Bool} {rest : Parser (List Node)}
    (onward : Yields rest Entries) :
    Yields (if (!topLevel) = true then do
        Grammar.skipNewlines
        let there ← Grammar.atTerminator
        if there = true then Pure.pure [] else rest
      else rest) Entries := by
  split
  · refine Yields.skipNewlines.bind fun _ _ => Yields.atTerminator.bind fun there _ => ?_
    split
    · exact Yields.pure ⟨by simp, by simp⟩
    · exact onward
  · exact onward

/-- What the functions of the grammar make when they may call each other `fuel` deep. -/
structure Shapes (inner : Inner) (fuel : Nat) : Prop where
  listParts : ∀ topLevel, Yields (listParts inner fuel topLevel) Entries
  list : ∀ topLevel, Yields (list inner fuel topLevel) (Formed .command)
  andOr : Yields (andOr inner fuel) Chain
  pipeline : Yields (pipeline inner fuel) (Formed .command)
  pipelineParts : Yields (pipelineParts inner fuel) fun parts =>
    (∀ part ∈ parts, Formed .stage part) ∧ ∀ node, parts = [node] → Formed .command node
  command : Yields (command inner fuel) (Formed .command)
  simpleCommand : Yields (simpleCommand inner fuel) (Formed .command)
  simpleParts : ∀ named,
    Yields (simpleParts inner fuel named) fun parts => ∀ part ∈ parts, Formed .part part
  redirects : Yields (redirects inner fuel) fun nodes => ∀ node ∈ nodes, Formed .redirect node
  group : ∀ opening closing, opening = "(" ∧ closing = ")" ∨ opening = "\x7b" ∧ closing = "\x7d" →
    Yields (group inner fuel opening closing) (Formed .command)
  items : Yields (items inner fuel) fun nodes => ∀ node ∈ nodes, Formed .word node
  skipSeparators : Yields (skipSeparators fuel) fun _ => True
  forLoop : Yields (forLoop inner fuel) (Formed .command)
  conditional : Yields (conditional inner fuel) (Formed .command)
  clauses : ∀ keyword, Yields (clauses inner fuel keyword) Clauses
  definition : Yields (definition inner fuel) (Formed .command)

theorem Shapes.none (inner : Inner) : Shapes inner 0 := by
  constructor <;> intros <;> exact Yields.fail

section
variable {inner : Inner} {fuel : Nat} (shapes : Shapes inner fuel)
include shapes

theorem Shapes.listParts_succ (topLevel : Bool) :
    Yields (Grammar.listParts inner (fuel + 1) topLevel) Entries := by
  rw [Grammar.listParts]
  refine Yields.unlessClosed (shapes.andOr.bind fun parts chain => ?_)
  refine Yields.here.bind fun span _ => Yields.current.bind fun token _ => ?_
  extract_lets onward
  have continued (op : Option String) (known : ∀ sign ∈ op, sign ∈ separators) :
      Yields (onward op) Entries := by
    rcases op with none | op
    · exact Yields.pure chain.entries
    · refine Yields.advance.bind fun _ _ => ?_
      have grown : Chain (parts ++ [.operator op span]) :=
        chain.append (by simpa using .operator (known op rfl))
      extract_lets longer more
      have later (start : Unit) (_ : True) : Yields (more start) Entries := by
        refine Yields.current.bind fun token _ => ?_
        split
        · exact Yields.pure grown.entries
        · exact Yields.pure grown.entries
        · exact (shapes.listParts topLevel).bind fun rest entries =>
            Yields.pure (grown.append entries.1).entries
      split
      · exact Yields.skipNewlines.bind later
      · exact later () trivial
  split
  · exact (Yields.pure (by decide)).bind continued
  · exact (Yields.pure (by decide)).bind continued
  · cases topLevel <;> exact (Yields.pure (by decide)).bind continued
  · exact (Yields.pure (by decide)).bind continued

theorem Shapes.list_succ (topLevel : Bool) :
    Yields (Grammar.list inner (fuel + 1) topLevel) (Formed .command) := by
  rw [Grammar.list]
  exact (shapes.listParts topLevel).bind fun parts entries => Yields.listNode entries

theorem Shapes.andOr_succ : Yields (Grammar.andOr inner (fuel + 1)) Chain := by
  rw [Grammar.andOr]
  refine shapes.pipeline.bind fun first formed => Yields.here.bind fun span _ =>
    Yields.current.bind fun token _ => ?_
  extract_lets onward
  have each (op : String) (known : op ∈ separators) : Yields (onward op) Chain :=
    Yields.advance.bind fun _ _ => Yields.skipNewlines.bind fun _ _ =>
      shapes.andOr.bind fun later chain => Yields.pure
        ⟨first, _, rfl, formed, List.forall_mem_cons.mpr ⟨.operator known, chain.all⟩⟩
  split
  · exact (Yields.pure (by decide)).bind each
  · exact (Yields.pure (by decide)).bind each
  · exact Yields.pure (.single formed)

theorem Shapes.pipeline_succ : Yields (Grammar.pipeline inner (fuel + 1)) (Formed .command) := by
  rw [Grammar.pipeline]
  refine shapes.pipelineParts.bind fun parts ⟨each, single⟩ => ?_
  split
  · exact Yields.pure (single _ rfl)
  · exact Yields.pure (.pipeline each)

theorem Shapes.pipelineParts_succ : Yields (Grammar.pipelineParts inner (fuel + 1)) fun parts =>
    (∀ part ∈ parts, Formed .stage part) ∧ ∀ node, parts = [node] → Formed .command node := by
  rw [Grammar.pipelineParts]
  refine shapes.command.bind fun first formed => Yields.here.bind fun span _ =>
    Yields.current.bind fun token _ => ?_
  split
  · refine Yields.advance.bind fun _ _ => Yields.skipNewlines.bind fun _ _ =>
      shapes.pipelineParts.bind fun later ⟨each, _⟩ => Yields.pure ⟨?_, by simp⟩
    exact List.forall_mem_cons.mpr ⟨.stage formed, List.forall_mem_cons.mpr ⟨.pipe, each⟩⟩
  · refine Yields.pure ⟨by simpa using .stage formed, fun node same => ?_⟩
    cases same
    exact formed

theorem Shapes.command_succ : Yields (Grammar.command inner (fuel + 1)) (Formed .command) := by
  rw [Grammar.command]
  refine Yields.nextTokens.bind fun tokens _ => ?_
  split
  · exact Yields.fail
  · exact shapes.group "(" ")" (.inl ⟨rfl, rfl⟩)
  · split
    · exact shapes.simpleCommand
    · split
      · exact shapes.group _ _ (.inr ⟨rfl, rfl⟩)
      · split
        · exact shapes.conditional
        · split
          · exact shapes.forLoop
          · split
            · exact shapes.definition
            · split
              · exact shapes.definition
              · exact shapes.simpleCommand

theorem Shapes.simpleCommand_succ :
    Yields (Grammar.simpleCommand inner (fuel + 1)) (Formed .command) := by
  rw [Grammar.simpleCommand]
  refine Yields.here.bind fun start _ => (shapes.simpleParts false).bind fun parts each => ?_
  split
  · exact Yields.unexpected
  · exact Yields.previousStop.bind fun stop _ => Yields.pure (.command each)

end

section
variable {inner : Inner} {fuel : Nat} (forms : inner.Forms) (shapes : Shapes inner fuel)
include forms shapes

theorem Shapes.simpleParts_succ (named : Bool) :
    Yields (Grammar.simpleParts inner (fuel + 1) named) fun parts =>
      ∀ part ∈ parts, Formed .part part := by
  rw [Grammar.simpleParts]
  refine Yields.word fun span token lexed => ?_
  split
  · rename_i read
    have lexed := lexed read rfl
    refine Yields.advance.bind fun _ _ => ?_
    split
    · rename_i first
      have form : isAssignment read = true := by simp_all
      refine (Yields.assignmentOf forms lexed form).bind fun part formed =>
        (shapes.simpleParts named).bind fun later each => Yields.pure ?_
      exact List.forall_mem_cons.mpr ⟨formed, each⟩
    · refine (Yields.wordOf forms lexed).bind fun part formed =>
        (shapes.simpleParts true).bind fun later each => Yields.pure ?_
      exact List.forall_mem_cons.mpr ⟨.argument formed, each⟩
  · refine (Yields.redirect forms).bind fun part formed =>
      (shapes.simpleParts named).bind fun later each => Yields.pure ?_
    exact List.forall_mem_cons.mpr ⟨.redirection formed, each⟩
  · exact Yields.pure (by simp)

theorem Shapes.redirects_succ : Yields (Grammar.redirects inner (fuel + 1)) fun nodes =>
    ∀ node ∈ nodes, Formed .redirect node := by
  rw [Grammar.redirects]
  refine Yields.current.bind fun token _ => ?_
  split
  · refine (Yields.redirect forms).bind fun first formed =>
      shapes.redirects.bind fun later each => Yields.pure ?_
    exact List.forall_mem_cons.mpr ⟨formed, each⟩
  · exact Yields.pure (by simp)

theorem Shapes.items_succ : Yields (Grammar.items inner (fuel + 1)) fun nodes =>
    ∀ node ∈ nodes, Formed .word node := by
  rw [Grammar.items]
  refine Yields.word fun span token lexed => ?_
  split
  · refine Yields.advance.bind fun _ _ => (Yields.wordOf forms (lexed _ rfl)).bind
      fun item formed => shapes.items.bind fun later each => Yields.pure ?_
    exact List.forall_mem_cons.mpr ⟨formed, each⟩
  · exact Yields.pure (by simp)

end

section
variable {inner : Inner} {fuel : Nat} (shapes : Shapes inner fuel)
include shapes

theorem Shapes.group_succ (opening closing : String)
    (pair : opening = "(" ∧ closing = ")" ∨ opening = "\x7b" ∧ closing = "\x7d") :
    Yields (Grammar.group inner (fuel + 1) opening closing) (Formed .command) := by
  rw [Grammar.group]
  refine Yields.here.bind fun openSpan _ => Yields.advance.bind fun _ _ =>
    (shapes.list false).bind fun body inside => Yields.here.bind fun closeSpan _ => ?_
  extract_lets finish onward
  have last (start : Unit) (_ : True) : Yields (finish start) (Formed .command) :=
    Yields.advance.bind fun _ _ => shapes.redirects.bind fun after later =>
      Yields.previousStop.bind fun _ _ => Yields.pure (.group pair inside later)
  have closes (closed : Bool) (_ : True) : Yields (onward closed) (Formed .command) := by
    cases closed
    · exact Yields.fail.bind last
    · exact last () trivial
  split
  · exact Yields.current.bind fun _ _ => (Yields.pure trivial).bind closes
  · exact Yields.atWord.bind closes

theorem Shapes.skipSeparators_succ : Yields (Grammar.skipSeparators (fuel + 1)) fun _ => True := by
  rw [Grammar.skipSeparators]
  refine Yields.current.bind fun token _ => ?_
  split
  · exact Yields.advance.bind fun _ _ => shapes.skipSeparators
  · exact Yields.advance.bind fun _ _ => shapes.skipSeparators
  · exact Yields.pure trivial

theorem Shapes.forLoop_succ : Yields (Grammar.forLoop inner (fuel + 1)) (Formed .command) := by
  rw [Grammar.forLoop]
  refine Yields.expectWord.bind fun start _ => ?_
  extract_lets begin onward
  refine Yields.current.bind fun token _ => ?_
  have each (name : String) (_ : True) : Yields (onward name) (Formed .command) := by
    refine Yields.advance.bind fun _ _ => Yields.skipNewlines.bind fun _ _ =>
      Yields.atWord.bind fun there _ => ?_
    extract_lets body
    have looped (items : List Node) (formed : ∀ item ∈ items, Formed .word item) :
        Yields (body items) (Formed .command) :=
      shapes.skipSeparators.bind fun _ _ => Yields.expectWord.bind fun _ _ =>
        (shapes.list false).bind fun body inside => Yields.expectWord.bind fun _ _ =>
        Yields.pure (.forLoop formed inside)
    split
    · exact Yields.advance.bind fun _ _ => shapes.items.bind looped
    · exact Yields.here.bind fun span _ =>
        (Yields.pure (by simpa using .positionals)).bind looped
  split
  · split
    · exact (Yields.pure trivial).bind each
    · exact Yields.fail.bind each
  · exact Yields.fail.bind each

theorem Shapes.conditional_succ :
    Yields (Grammar.conditional inner (fuel + 1)) (Formed .command) := by
  rw [Grammar.conditional]
  exact Yields.expectWord.bind fun _ _ => (shapes.clauses "if").bind fun clauses formed =>
    Yields.expectWord.bind fun _ _ => Yields.pure (.conditional formed.1 formed.2)

theorem Shapes.clauses_succ (keyword : String) :
    Yields (Grammar.clauses inner (fuel + 1) keyword) Clauses := by
  rw [Grammar.clauses]
  refine (shapes.list false).bind fun condition test => Yields.expectWord.bind fun _ _ =>
    (shapes.list false).bind fun body formed => Yields.atWord.bind fun there _ => ?_
  have alone : Clauses [.mk keyword (some condition) body] := .cons test formed ⟨by simp, by simp⟩
  split
  · exact Yields.advance.bind fun _ _ => (shapes.clauses "elif").bind fun later each =>
      Yields.pure (.cons test formed each)
  · refine Yields.atWord.bind fun there _ => ?_
    split
    · exact Yields.advance.bind fun _ _ => (shapes.list false).bind fun last each =>
        Yields.pure (.cons test formed (.last each))
    · exact Yields.pure alone

theorem Shapes.definition_succ :
    Yields (Grammar.definition inner (fuel + 1)) (Formed .command) := by
  rw [Grammar.definition]
  refine Yields.here.bind fun start _ => ?_
  extract_lets begin named headed
  have called (name : String) (_ : True) : Yields (named name) (Formed .command) := by
    refine Yields.advance.bind fun _ _ => ?_
    extract_lets finish bodied paired
    have last (body : Node) (inside : Formed .command body) :
        Yields (finish body) (Formed .command) :=
      Yields.previousStop.bind fun _ _ => Yields.pure (.function inside)
    have body (start : Unit) (_ : True) : Yields (bodied start) (Formed .command) := by
      refine Yields.skipNewlines.bind fun _ _ => Yields.current.bind fun token _ => ?_
      split
      · exact (shapes.group _ _ (.inl ⟨rfl, rfl⟩)).bind last
      · refine Yields.atWord.bind fun there _ => ?_
        split
        · exact (shapes.group _ _ (.inr ⟨rfl, rfl⟩)).bind last
        · exact Yields.fail.bind last
    have pair (start : Unit) (_ : True) : Yields (paired start) (Formed .command) :=
      Yields.advance.bind body
    refine Yields.current.bind fun token _ => ?_
    split
    · refine Yields.advance.bind fun _ _ => Yields.current.bind fun token _ => ?_
      split
      · exact Yields.fail.bind pair
      · exact pair () trivial
    · exact body () trivial
  have head (start : Unit) (_ : True) : Yields (headed start) (Formed .command) := by
    refine Yields.current.bind fun token _ => ?_
    split
    · exact (Yields.pure trivial).bind called
    · exact Yields.fail.bind called
  refine Yields.atWord.bind fun there _ => ?_
  split
  · exact Yields.advance.bind head
  · exact head () trivial

end

/-- Each function of the grammar, however deep the calls. -/
theorem Shapes.all {inner : Inner} (forms : inner.Forms) (fuel : Nat) : Shapes inner fuel := by
  induction fuel with
  | zero => exact .none inner
  | succ fuel shapes =>
    exact {
      listParts := shapes.listParts_succ
      list := shapes.list_succ
      andOr := shapes.andOr_succ
      pipeline := shapes.pipeline_succ
      pipelineParts := shapes.pipelineParts_succ
      command := shapes.command_succ
      simpleCommand := shapes.simpleCommand_succ
      simpleParts := shapes.simpleParts_succ forms
      redirects := shapes.redirects_succ forms
      group := shapes.group_succ
      items := shapes.items_succ forms
      skipSeparators := shapes.skipSeparators_succ
      forLoop := shapes.forLoop_succ
      conditional := shapes.conditional_succ
      clauses := shapes.clauses_succ
      definition := shapes.definition_succ }

theorem Yields.script {inner : Inner} (forms : inner.Forms) (fuel : Nat) :
    Yields (script inner fuel) fun nodes => ∀ node ∈ nodes, Formed .command node := by
  induction fuel with
  | zero => exact Yields.fail
  | succ fuel ih =>
    rw [Grammar.script]
    refine Yields.skipNewlines.bind fun _ _ => Yields.current.bind fun token _ => ?_
    split
    · exact Yields.pure (by simp)
    · refine ((Shapes.all forms fuel).list true).bind fun node formed =>
        Yields.current.bind fun token _ => ?_
      have onward : Yields (do return node :: (← Grammar.script inner fuel)) fun nodes =>
          ∀ node ∈ nodes, Formed .command node :=
        ih.bind fun later each => Yields.pure (List.forall_mem_cons.mpr ⟨formed, each⟩)
      split
      · exact onward
      · exact onward
      · exact Yields.unexpected

end Grammar

namespace Script

/-- Every command of a parsed text is formed, down to the commands of its substitutions. -/
theorem parseAt_formed (text : List Char) (offset : Nat) (nodes : List Node)
    (parsed : parseAt text offset = .ok nodes) : ∀ node ∈ nodes, Formed .command node := by
  fun_induction parseAt text offset generalizing nodes with
  | case1 text offset ih =>
    obtain ⟨lexemes, read, parsed⟩ := except_bind_eq_ok.mp parsed
    obtain ⟨⟨made, rest⟩, run, parsed⟩ := except_bind_eq_ok.mp parsed
    cases parsed
    refine (Grammar.Yields.script ?_ _ _ _ _ ?_ run).1
    · intro body start nodes parsed
      dsimp only at parsed
      split at parsed
      · exact ih body start ‹_› nodes parsed
      · cases parsed
    · intro lexeme member word token
      exact ⟨text, offset, lexemes, read, lexeme, member, token, rfl⟩

theorem parse_formed {text : String} {nodes : List Node} (parsed : parse text = .ok nodes) :
    ∀ node ∈ nodes, Formed .command node :=
  parseAt_formed _ _ _ parsed

end Script

end StepShell

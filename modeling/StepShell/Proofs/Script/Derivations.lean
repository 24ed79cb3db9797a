import StepShell.Proofs.Script.Steps

/-! What the parser makes of a script is a reading of it by the grammar. -/

namespace StepShell

namespace Grammar

/-- What the parser makes is a phrase, which takes the tokens the parser takes. -/
def Derives {α : Type} (parser : Parser α) (phrase : α → Phrase) : Prop :=
  ∀ before value after, parser before = .ok (value, after) →
    Reads (phrase value) before.rest after.rest

/-- What the parser makes of the text of a substitution is a script. -/
def Inner.Derives (inner : Inner) : Prop :=
  ∀ body start nodes, inner body start = .ok nodes →
    ∃ lexemes, lex body start = .ok lexemes ∧ Reads (.script nodes) lexemes []

/-- What the functions of the grammar derive when they may call each other `fuel` deep. A span ends
where the last token read ends, so that offset is told too. -/
structure Derived (inner : Inner) (fuel : Nat) : Prop where
  listParts : ∀ topLevel, Derives (listParts inner fuel topLevel) (.entries topLevel)
  list : ∀ topLevel, Derives (list inner fuel topLevel) (.list topLevel)
  andOr : Derives (andOr inner fuel) .chain
  pipeline : Derives (pipeline inner fuel) .pipeline
  pipelineParts : Derives (pipelineParts inner fuel) .stages
  command : Derives (command inner fuel) .command
  simpleCommand : ∀ before node after, beginsSimple before.rest = true →
    simpleCommand inner fuel before = .ok (node, after) →
      Reads (.command node) before.rest after.rest
  simpleParts : ∀ named before parts after,
    simpleParts inner fuel named before = .ok (parts, after) →
      Reads (.parts named parts) before.rest after.rest ∧
        after.previousStop = stopAfter before.previousStop parts
  redirects : ∀ before nodes after, redirects inner fuel before = .ok (nodes, after) →
    Reads (.redirects nodes) before.rest after.rest ∧
      after.previousStop = stopAfter before.previousStop nodes
  group : ∀ opening closing opener rest before node after, before.rest = opener :: rest →
    (∀ closer, closes closing (some closer) = true →
      Brackets opening closing opener.token closer) →
    group inner fuel opening closing before = .ok (node, after) →
      Reads (.group node) before.rest after.rest ∧ after.previousStop = node.span.stop
  items : Derives (items inner fuel) .items
  forLoop : Derives (forLoop inner fuel) .command
  conditional : Derives (conditional inner fuel) .command
  clauses : ∀ keyword, Derives (clauses inner fuel keyword) (.clauses keyword)
  definition : ∀ before node after, Defines before.rest →
    definition inner fuel before = .ok (node, after) →
      Reads (.command node) before.rest after.rest

theorem Derived.none (inner : Inner) : Derived inner 0 where
  listParts _ _ _ _ done := absurd done fail_eq_ok
  list _ _ _ _ done := absurd done fail_eq_ok
  andOr _ _ _ done := absurd done fail_eq_ok
  pipeline _ _ _ done := absurd done fail_eq_ok
  pipelineParts _ _ _ done := absurd done fail_eq_ok
  command _ _ _ done := absurd done fail_eq_ok
  simpleCommand _ _ _ _ done := absurd done fail_eq_ok
  simpleParts _ _ _ _ done := absurd done fail_eq_ok
  redirects _ _ _ done := absurd done fail_eq_ok
  group _ _ _ _ _ _ _ _ _ done := absurd done fail_eq_ok
  items _ _ _ done := absurd done fail_eq_ok
  forLoop _ _ _ done := absurd done fail_eq_ok
  conditional _ _ _ done := absurd done fail_eq_ok
  clauses _ _ _ _ done := absurd done fail_eq_ok
  definition _ _ _ _ done := absurd done fail_eq_ok

theorem Input.rest_of_next {input : Input} {token : Token} (seen : next input.rest = some token) :
    ∃ lexeme, input.rest = lexeme :: input.advanced.rest ∧ lexeme.token = token ∧
      input.span = lexeme.span ∧ input.advanced.previousStop = lexeme.span.stop := by
  obtain ⟨_ | ⟨lexeme, rest⟩, stop, finish⟩ := input
  · cases seen
  · exact ⟨lexeme, rfl, Option.some.inj seen, rfl, rfl⟩

theorem Input.rest_of_word {input : Input} {word : String}
    (seen : (next input.rest).bind Token.bare? = some word) :
    ∃ lexeme, input.rest = lexeme :: input.advanced.rest ∧ lexeme.token.bare? = some word ∧
      input.span = lexeme.span ∧ input.advanced.previousStop = lexeme.span.stop := by
  obtain ⟨_ | ⟨lexeme, rest⟩, stop, finish⟩ := input
  · cases seen
  · exact ⟨lexeme, rfl, seen, rfl, rfl⟩

theorem Input.Parens.parens {before after : Input} (passed : before.Parens after) :
    Grammar.Parens before.rest after.rest := by
  rw [Input.Parens] at passed
  split at passed
  · rename_i opens
    obtain ⟨closes, rfl⟩ := passed
    obtain ⟨left, here, first, -⟩ := Input.rest_of_next opens
    obtain ⟨right, there, second, -⟩ := Input.rest_of_next closes
    rw [here, there]
    exact .pair first second
  · rename_i other
    subst passed
    exact .none other

theorem parens_of_take {lexemes : List Lexeme}
    (ahead : (lexemes.map Lexeme.token).take 2 = [.leftParen, .rightParen]) :
    ∃ left right rest, lexemes = left :: right :: rest ∧ left.token = .leftParen ∧
      right.token = .rightParen := by
  rcases lexemes with _ | ⟨left, _ | ⟨right, rest⟩⟩
  · cases ahead
  · simp at ahead
  · obtain ⟨first, second⟩ : left.token = .leftParen ∧ right.token = .rightParen := by
      simpa using ahead
    exact ⟨left, right, rest, rfl, first, second⟩

/-- The first of the parts of a command begins where the first of its tokens does. -/
theorem Reads.parts_start {named : Bool} {first : Node} {others : List Node}
    {before after : List Lexeme} (read : Reads (.parts named (first :: others)) before after) :
    ∃ lexeme rest, before = lexeme :: rest ∧ first.span.start = lexeme.span.start ∧
      lexeme.token ≠ .leftParen := by
  cases read with
  | assignment token => exact ⟨_, _, rfl, rfl, by simp [token]⟩
  | argument token _ here =>
    cases here
    exact ⟨_, _, rfl, rfl, by simp [token]⟩
  | redirected here =>
    cases here with
    | redirect token => exact ⟨_, _, rfl, rfl, by simp [token]⟩

theorem stopAfter_cons (stop : Nat) (first : Node) (others : List Node) :
    stopAfter stop (first :: others) = stopAfter first.span.stop others := by
  cases others with
  | nil => rfl
  | cons second rest =>
    rw [stopAfter, stopAfter, List.getLast?_cons_cons,
      List.getLast?_eq_some_getLast (List.cons_ne_nil second rest)]
    rfl

theorem stopAfter_of_ne_nil {nodes : List Node} (some : nodes ≠ []) (stop other : Nat) :
    stopAfter stop nodes = stopAfter other nodes := by
  obtain ⟨first, others, rfl⟩ := List.exists_cons_of_ne_nil some
  rw [stopAfter_cons, stopAfter_cons]

theorem spanning_eq {first : Node} {others : List Node} (stop : Nat) :
    spanning (first :: others) = ⟨first.span.start, stopAfter stop (first :: others)⟩ := by
  rw [stopAfter_of_ne_nil (List.cons_ne_nil _ _) stop first.span.start]
  rfl

theorem brackets_parens {closer : Token} (closed : closes ")" (some closer) = true) :
    Brackets "(" ")" .leftParen closer := by
  obtain rfl : closer = .rightParen := by simpa [closes] using closed
  exact .parens

theorem brackets_braces {opener closer : Token} (first : opener.bare? = some "\x7b")
    (closed : closes "\x7d" (some closer) = true) : Brackets "\x7b" "\x7d" opener closer :=
  .braces first (by simpa [closes] using closed)

section
variable {inner : Inner} (derives : inner.Derives)
include derives

theorem partsOf_reads {pieces : List Word.Piece} {parts : List Node}
    (made : partsOf inner pieces = .ok parts) : Reads (.pieces pieces parts) [] [] := by
  fun_induction partsOf inner pieces generalizing parts with
  | case1 => cases made; exact .noPieces
  | case2 _ _ ih => exact .plain (ih made)
  | case3 _ _ ih => exact .guarded (ih made)
  | case4 value span rest ih =>
    obtain ⟨later, read, made⟩ := except_bind_eq_ok.mp made
    cases made
    exact .reference (ih read)
  | case5 body span bodyStart rest ih =>
    obtain ⟨nodes, parsed, made⟩ := except_bind_eq_ok.mp made
    obtain ⟨command, single, made⟩ := except_bind_eq_ok.mp made
    obtain ⟨later, read, made⟩ := except_bind_eq_ok.mp made
    cases made
    obtain ⟨lexemes, tokens, inside⟩ := derives _ _ _ parsed
    exact .substitution tokens inside single (ih read)

theorem redirect_reads {kind : RedirectKind} {before after : Input} {node : Node}
    (next : next before.rest = some (.redirect kind))
    (done : redirect inner kind before = .ok (node, after)) :
    Reads (.redirect node) before.rest after.rest ∧ after.previousStop = node.span.stop := by
  obtain ⟨sign, lexeme, rest, read, parts, same, token, made, rfl, rfl⟩ := redirect_eq_ok.mp done
  rw [same] at next ⊢
  exact ⟨.redirect (Option.some.inj next) (.word token (partsOf_reads derives made)), rfl⟩

end

section
variable {inner : Inner} {fuel : Nat} (derived : Derived inner fuel)
include derived

theorem Derived.listParts_succ (topLevel : Bool) :
    Derives (Grammar.listParts inner (fuel + 1) topLevel) (.entries topLevel) := by
  intro before parts after done
  rw [listParts_eq_ok] at done
  split at done
  · rename_i closed
    obtain ⟨rfl, rfl⟩ := done
    obtain ⟨nested, closed⟩ := Bool.and_eq_true_iff.mp closed
    obtain rfl : topLevel = false := by simpa using nested
    rw [Input.skipped_rest]
    exact .noEntry closed
  · rename_i others
    obtain ⟨chain, middle, read, rest⟩ := done
    have read := derived.andOr _ _ _ read
    have opens : Opens topLevel before.rest (before.opened topLevel).rest := by
      cases topLevel with
      | true => rfl
      | false => exact ⟨Input.skipped_rest before, by simpa [Input.opened] using others⟩
    rw [Extends] at rest
    cases sign : (next middle.rest).bind (separator? topLevel) with
    | none =>
      simp only [sign] at rest
      obtain ⟨rfl, rfl⟩ := rest
      exact .entry opens read sign
    | some op =>
      simp only [sign] at rest
      obtain ⟨token, seen, sign⟩ := Option.bind_eq_some_iff.mp sign
      obtain ⟨lexeme, here, rfl, place, -⟩ := Input.rest_of_next seen
      rw [here] at read
      rw [place] at rest
      split at rest
      · rename_i ended
        obtain ⟨rfl, rfl⟩ := rest
        obtain ⟨rfl, line⟩ := Bool.and_eq_true_iff.mp ended
        cases opens
        exact .lastEntry read sign line
      · rename_i goes
        obtain ⟨others, later, rfl⟩ := rest
        exact .entries opens read sign (by simpa using goes) (derived.listParts _ _ _ _ later)

theorem Derived.list_succ (topLevel : Bool) :
    Derives (Grammar.list inner (fuel + 1) topLevel) (.list topLevel) := by
  intro before node after done
  obtain ⟨parts, read, made⟩ := list_eq_ok.mp done
  exact .list (derived.listParts _ _ _ _ read) made

theorem Derived.andOr_succ : Derives (Grammar.andOr inner (fuel + 1)) .chain := by
  intro before parts after done
  obtain ⟨first, middle, read, rest⟩ := andOr_eq_ok.mp done
  have read := derived.pipeline _ _ _ read
  cases sign : (next middle.rest).bind connective? with
  | none =>
    simp only [sign] at rest
    obtain ⟨rfl, rfl⟩ := rest
    exact .link read sign
  | some op =>
    simp only [sign] at rest
    obtain ⟨others, later, rfl⟩ := rest
    obtain ⟨token, seen, sign⟩ := Option.bind_eq_some_iff.mp sign
    obtain ⟨lexeme, here, rfl, place, -⟩ := Input.rest_of_next seen
    rw [here] at read
    rw [place]
    have later := derived.andOr _ _ _ later
    rw [Input.skipped_rest] at later
    exact .chain read sign later

theorem Derived.pipeline_succ : Derives (Grammar.pipeline inner (fuel + 1)) .pipeline := by
  intro before node after done
  obtain ⟨parts, read, made⟩ := pipeline_eq_ok.mp done
  have read := derived.pipelineParts _ _ _ read
  obtain rfl | ⟨several, rfl⟩ := made
  · exact .single read
  · exact .pipeline several read

theorem Derived.pipelineParts_succ : Derives (Grammar.pipelineParts inner (fuel + 1)) .stages := by
  intro before parts after done
  obtain ⟨first, middle, read, rest⟩ := pipelineParts_eq_ok.mp done
  have read := derived.command _ _ _ read
  split at rest
  · rename_i seen
    obtain ⟨others, later, rfl⟩ := rest
    obtain ⟨lexeme, here, token, place, -⟩ := Input.rest_of_next seen
    rw [here] at read
    rw [place]
    have later := derived.pipelineParts _ _ _ later
    rw [Input.skipped_rest] at later
    exact .pipe read token later
  · rename_i last
    obtain ⟨rfl, rfl⟩ := rest
    exact .stage read last

theorem Derived.braces {before after : Input} {node : Node}
    (seen : (next before.rest).bind Token.bare? = some "\x7b")
    (done : Grammar.group inner fuel "\x7b" "\x7d" before = .ok (node, after)) :
    Reads (.group node) before.rest after.rest ∧ after.previousStop = node.span.stop := by
  obtain ⟨lexeme, here, bare, -⟩ := Input.rest_of_word seen
  exact derived.group _ _ _ _ _ _ _ here (fun _ closed => brackets_braces bare closed) done

theorem Derived.parens {before after : Input} {node : Node}
    (seen : next before.rest = some .leftParen)
    (done : Grammar.group inner fuel "(" ")" before = .ok (node, after)) :
    Reads (.group node) before.rest after.rest ∧ after.previousStop = node.span.stop := by
  obtain ⟨lexeme, here, token, -⟩ := Input.rest_of_next seen
  exact derived.group _ _ _ _ _ _ _ here (fun _ closed => token ▸ brackets_parens closed) done

theorem Derived.command_succ : Derives (Grammar.command inner (fuel + 1)) .command := by
  intro before node after done
  obtain ⟨seen, done⟩ | ⟨seen, done⟩ | ⟨seen, done⟩ | ⟨seen, done⟩ | ⟨seen, done⟩ |
    ⟨-, seen, done⟩ := command_eq_ok.mp done
  · exact .grouped (derived.parens seen done).1
  · exact .grouped (derived.braces seen done).1
  · exact derived.conditional _ _ _ done
  · exact derived.forLoop _ _ _ done
  · exact derived.definition _ _ _ seen done
  · exact derived.simpleCommand _ _ _ seen done

theorem Derived.simpleCommand_succ (before : Input) (node : Node) (after : Input)
    (begins : beginsSimple before.rest = true)
    (done : Grammar.simpleCommand inner (fuel + 1) before = .ok (node, after)) :
    Reads (.command node) before.rest after.rest := by
  obtain ⟨parts, read, some, rfl⟩ := simpleCommand_eq_ok.mp done
  obtain ⟨read, stop⟩ := derived.simpleParts _ _ _ _ read
  obtain ⟨first, others, rfl⟩ := List.exists_cons_of_ne_nil some
  obtain ⟨lexeme, rest, here, start, -⟩ := read.parts_start
  have place : before.span.start = lexeme.span.start := by rw [Input.span, here]
  rw [place, ← start, stop, ← spanning_eq]
  exact .simple begins some read

theorem Derived.group_succ (opening closing : String) (opener : Lexeme) (rest : List Lexeme)
    (before : Input) (node : Node) (after : Input) (here : before.rest = opener :: rest)
    (pair : ∀ closer, closes closing (some closer) = true →
      Brackets opening closing opener.token closer)
    (done : Grammar.group inner (fuel + 1) opening closing before = .ok (node, after)) :
    Reads (.group node) before.rest after.rest ∧ after.previousStop = node.span.stop := by
  obtain ⟨body, middle, nodes, inside, closed, behind, rfl⟩ := group_eq_ok.mp done
  have inside := derived.list _ _ _ _ inside
  obtain ⟨behind, stop⟩ := derived.redirects _ _ _ behind
  cases seen : next middle.rest with
  | none => simp [seen, closes] at closed
  | some token =>
    obtain ⟨closer, there, rfl, place, last⟩ := Input.rest_of_next seen
    rw [there] at inside
    have start : before.advanced.rest = rest := by rw [Input.advanced, here]
    have opens : before.span = opener.span := by rw [Input.span, here]
    rw [start] at inside
    rw [last] at stop
    rw [here, opens, place, stop]
    exact ⟨.group (pair _ (seen ▸ closed)) inside behind, rfl⟩

theorem Derived.forLoop_succ : Derives (Grammar.forLoop inner (fuel + 1)) .command := by
  intro before node after done
  obtain ⟨begins, called, named, form, items, middle, goes, start, separators, begun, body, last,
    inside, ended, rfl, rfl⟩ := forLoop_eq_ok.mp done
  obtain ⟨forWord, here, for_, place, -⟩ := Input.rest_of_word begins
  obtain ⟨name, behind, named, -⟩ := Input.rest_of_word named
  obtain ⟨doWord, there, do_, -⟩ := Input.rest_of_word begun
  obtain ⟨doneWord, closing, done_, close, -⟩ := Input.rest_of_word ended
  have inside := derived.list _ _ _ _ inside
  have separators := skipSeparators_eq_ok _ separators
  rw [closing] at inside
  rw [there] at separators
  rw [here, behind, place, close]
  rw [Goes] at goes
  split at goes
  · rename_i seen
    obtain ⟨inWord, newlines, in_, -⟩ := Input.rest_of_word seen
    have values := derived.items _ _ _ goes
    rw [Input.skipped_rest] at newlines
    exact .forIn for_ named form newlines in_ values separators.symm do_ inside done_
  · rename_i noIn
    obtain ⟨rfl, rfl⟩ := goes
    cases newlines : pastNewlines before.advanced.advanced.rest with
    | nil => simp [newlines, pastSeparators] at separators
    | cons first others =>
      have span : before.advanced.advanced.skipped.span = first.span := by
        rw [Input.span, Input.skipped_rest, newlines]
      rw [Input.skipped_rest, newlines] at separators noIn
      rw [span]
      exact .forEach for_ named form newlines noIn separators.symm do_ inside done_

theorem Derived.conditional_succ : Derives (Grammar.conditional inner (fuel + 1)) .command := by
  intro before node after done
  obtain ⟨begins, clauses, last, read, ends, rfl, rfl⟩ := conditional_eq_ok.mp done
  obtain ⟨opener, here, if_, place, -⟩ := Input.rest_of_word begins
  obtain ⟨closer, there, fi_, close, -⟩ := Input.rest_of_word ends
  have read := derived.clauses _ _ _ _ read
  rw [there] at read
  rw [here, place, close]
  exact .conditional if_ read fi_

theorem Derived.clauses_succ (keyword : String) :
    Derives (Grammar.clauses inner (fuel + 1) keyword) (.clauses keyword) := by
  intro before clauses after done
  obtain ⟨condition, middle, test, begun, body, last, inside, rest⟩ := clauses_eq_ok.mp done
  obtain ⟨thenWord, here, then_, -⟩ := Input.rest_of_word begun
  have test := derived.list _ _ _ _ test
  have inside := derived.list _ _ _ _ inside
  rw [here] at test
  split at rest
  · rename_i seen
    obtain ⟨others, later, rfl⟩ := rest
    obtain ⟨elifWord, there, elif_, -⟩ := Input.rest_of_word seen
    rw [there] at inside
    exact .clauseElif test then_ inside elif_ (derived.clauses _ _ _ _ later)
  · rename_i noElif
    split at rest
    · rename_i seen
      obtain ⟨other, otherwise, rfl⟩ := rest
      obtain ⟨elseWord, there, else_, -⟩ := Input.rest_of_word seen
      rw [there] at inside
      exact .clauseElse test then_ inside else_ (derived.list _ _ _ _ otherwise)
    · rename_i noElse
      obtain ⟨rfl, rfl⟩ := rest
      exact .clause test then_ inside noElif noElse

theorem Derived.follows {before after : Input} {body : Node}
    (follows : Follows inner fuel before (body, after)) :
    Reads (.group body) before.rest after.rest ∧ after.previousStop = body.span.stop := by
  obtain ⟨seen, done⟩ | ⟨seen, done⟩ := follows
  · exact derived.parens seen done
  · exact derived.braces seen done

theorem Derived.definition_succ (before : Input) (node : Node) (after : Input)
    (defines : Defines before.rest)
    (done : Grammar.definition inner (fuel + 1) before = .ok (node, after)) :
    Reads (.command node) before.rest after.rest := by
  obtain ⟨called, start, first, named, behind, parens, body, follows, rfl⟩ :=
    definition_eq_ok.mp done
  obtain ⟨inside, stop⟩ := derived.follows follows
  obtain ⟨name, here, bare, -⟩ := Input.rest_of_word named
  rw [Input.skipped_rest] at inside
  rw [stop]
  by_cases leads : (next before.rest).bind Token.bare? = some "function"
  · rw [if_pos leads] at first
    subst start
    obtain ⟨keyword, there, function_, place, -⟩ := Input.rest_of_word leads
    rw [there, here, place]
    exact .function function_ bare (parens.parens) inside
  · rw [if_neg leads] at first
    subst start
    have place : before.span = name.span := by rw [Input.span, here]
    rw [here] at defines leads ⊢
    rw [place]
    obtain same | ⟨called', same, unreserved, ahead⟩ := defines
    · exact absurd same leads
    obtain rfl := Option.some.inj (bare.symm.trans same)
    obtain ⟨left, right, rest, there, first, second⟩ := parens_of_take ahead
    have opens : next before.advanced.rest = some .leftParen := by
      rw [there, ← first]
      rfl
    rw [Input.Parens, if_pos opens] at parens
    obtain rfl : behind = before.advanced.advanced.advanced := parens.2
    have behind : before.advanced.advanced.advanced.rest = rest := by
      rw [Input.advanced, Input.advanced, there]
    rw [behind] at inside
    rw [there]
    exact .definition bare unreserved first second inside

end

section
variable {inner : Inner} {fuel : Nat} (derives : inner.Derives) (derived : Derived inner fuel)
include derives derived

theorem Derived.simpleParts_succ (named : Bool) (before : Input) (parts : List Node) (after : Input)
    (done : Grammar.simpleParts inner (fuel + 1) named before = .ok (parts, after)) :
    Reads (.parts named parts) before.rest after.rest ∧
      after.previousStop = stopAfter before.previousStop parts := by
  rw [simpleParts_eq_ok] at done
  split at done
  · rename_i read seen
    obtain ⟨pieces, others, made, done⟩ := done
    obtain ⟨lexeme, here, token, place, last⟩ := Input.rest_of_next seen
    have made := partsOf_reads derives made
    rw [place] at done
    rw [here]
    split at done
    · rename_i form
      obtain ⟨rfl, form⟩ : named = false ∧ isAssignment read = true := by simpa using form
      obtain ⟨later, rfl⟩ := done
      obtain ⟨later, stop⟩ := derived.simpleParts _ _ _ _ later
      rw [last] at stop
      refine ⟨.assignment token form made later, ?_⟩
      rw [stop, stopAfter_cons]
      rfl
    · rename_i form
      obtain ⟨later, rfl⟩ := done
      obtain ⟨later, stop⟩ := derived.simpleParts _ _ _ _ later
      rw [last] at stop
      refine ⟨.argument token ?_ (.word token made) later, ?_⟩
      · simpa using form
      · rw [stop, stopAfter_cons]
        rfl
  · rename_i kind seen
    obtain ⟨first, middle, others, here, later, rfl⟩ := done
    obtain ⟨here, last⟩ := redirect_reads derives seen here
    obtain ⟨later, stop⟩ := derived.simpleParts _ _ _ _ later
    refine ⟨.redirected here later, ?_⟩
    rw [stop, stopAfter_cons, last]
  · rename_i word redirect
    obtain ⟨rfl, rfl⟩ := done
    exact ⟨.noPart word redirect, rfl⟩

theorem Derived.redirects_succ (before : Input) (nodes : List Node) (after : Input)
    (done : Grammar.redirects inner (fuel + 1) before = .ok (nodes, after)) :
    Reads (.redirects nodes) before.rest after.rest ∧
      after.previousStop = stopAfter before.previousStop nodes := by
  rw [redirects_eq_ok] at done
  split at done
  · rename_i kind seen
    obtain ⟨first, middle, others, here, later, rfl⟩ := done
    obtain ⟨here, last⟩ := redirect_reads derives seen here
    obtain ⟨later, stop⟩ := derived.redirects _ _ _ later
    refine ⟨.redirects here later, ?_⟩
    rw [stop, stopAfter_cons, last]
  · rename_i other
    obtain ⟨rfl, rfl⟩ := done
    exact ⟨.noRedirect other, rfl⟩

theorem Derived.items_succ : Derives (Grammar.items inner (fuel + 1)) .items := by
  intro before nodes after done
  rw [items_eq_ok] at done
  split at done
  · rename_i read seen
    obtain ⟨pieces, others, made, later, rfl⟩ := done
    obtain ⟨lexeme, here, token, place, -⟩ := Input.rest_of_next seen
    rw [here, place]
    exact .items (.word token (partsOf_reads derives made)) (derived.items _ _ _ later)
  · rename_i other
    obtain ⟨rfl, rfl⟩ := done
    exact .noItem other

end

theorem Derived.all {inner : Inner} (derives : inner.Derives) (fuel : Nat) :
    Derived inner fuel := by
  induction fuel with
  | zero => exact .none inner
  | succ fuel derived =>
    exact {
      listParts := derived.listParts_succ
      list := derived.list_succ
      andOr := derived.andOr_succ
      pipeline := derived.pipeline_succ
      pipelineParts := derived.pipelineParts_succ
      command := derived.command_succ
      simpleCommand := derived.simpleCommand_succ
      simpleParts := derived.simpleParts_succ derives
      redirects := derived.redirects_succ derives
      group := derived.group_succ
      items := derived.items_succ derives
      forLoop := derived.forLoop_succ
      conditional := derived.conditional_succ
      clauses := derived.clauses_succ
      definition := derived.definition_succ }

theorem script_reads {inner : Inner} (derives : inner.Derives) {fuel : Nat} {before after : Input}
    {nodes : List Node} (done : script inner fuel before = .ok (nodes, after)) :
    Reads (.script nodes) before.rest [] := by
  induction fuel generalizing before nodes with
  | zero => exact absurd done fail_eq_ok
  | succ fuel ih =>
    rw [script_eq_ok] at done
    split at done
    · rename_i nothing
      obtain ⟨rfl, rfl⟩ := done
      exact .ended nothing
    · rename_i something
      obtain ⟨node, middle, here, line, others, later, rfl⟩ := done
      have here := (Derived.all derives fuel).list _ _ _ _ here
      rw [Input.skipped_rest] at here
      exact .line something here line (ih later)

end Grammar

namespace Script

open Grammar (Reads)

/-- What is parsed is read from the tokens by the rules of the grammar. -/
theorem parseAt_reads (text : List Char) (offset : Nat) (nodes : List Node)
    (parsed : parseAt text offset = .ok nodes) :
    ∃ lexemes, lex text offset = .ok lexemes ∧ Reads (.script nodes) lexemes [] := by
  fun_induction parseAt text offset generalizing nodes with
  | case1 text offset ih =>
    obtain ⟨lexemes, read, parsed⟩ := except_bind_eq_ok.mp parsed
    obtain ⟨⟨made, rest⟩, run, parsed⟩ := except_bind_eq_ok.mp parsed
    cases parsed
    refine ⟨lexemes, read, Grammar.script_reads ?_ run⟩
    intro body start nodes parsed
    dsimp only at parsed
    split at parsed
    · exact ih body start ‹_› nodes parsed
    · cases parsed

end Script

end StepShell

import StepShell.Proofs.Node.Respelling
import StepShell.Proofs.Script.Relocation

/-! The words of a tree are read again of its shell text, and so are the redirects, the parts of
simple commands and the items of loops: their texts spell tokens of which they are read, whatever
of what can stand behind them does so. -/

namespace StepShell

theorem Word.bare?_eq_some {read : Word} {name : String} (bare : read.bare? = some name) :
    read.quoted = false ∧ '\\' ∉ name.toList ∧ read.text = name := by
  rw [bare?] at bare
  split at bare
  · rename_i form
    obtain rfl := Option.some.inj bare
    simp only [Bool.and_eq_true, Bool.not_eq_true', List.contains_eq_mem,
      decide_eq_false_iff_not] at form
    exact ⟨form.1, by rw [text, String.toList_ofList]; exact form.2, rfl⟩
  · cases bare

theorem Token.backslash_not_mem {token : Token} {name : String} (bare : token.bare? = some name) :
    '\\' ∉ name.toList := by
  cases token with
  | word read => exact (Word.bare?_eq_some bare).2.1
  | _ => cases bare

namespace Lexer

theorem Spells.none_of_nil {tokens : List Token} (spells : Spells [] tokens) : tokens = [] := by
  obtain ⟨made, read, rfl⟩ := spells.lex 0
  rw [StepShell.lex, lexemes_nil (by rw [skipBlanks])] at read
  cases read
  rfl

/-- A text of ordinary characters is the word that it is as a keyword or a name. -/
theorem exists_bare {name : String} (solid : Solid name.toList)
    (plain : ∀ c ∈ name.toList, Word.isPlain false c = true) :
    ∃ read : Word, read.bare? = some name ∧ Spells name.toList [.word read] := by
  have speaks (rest : List Char) (ended : EndsWord rest) (position : Position) :
      Speaks [] (word ⟨name.toList ++ rest, position⟩) false name.toList rest := by
    simpa using Speaks.run plain (fun _ => .nil ended.1) position
  obtain ⟨read, names, chars, bare, -⟩ := exists_names ⟨rfl, by simp⟩ speaks
  refine ⟨read, ?_, .alone solid names⟩
  have backslash : '\\' ∉ name.toList := fun member => absurd (plain _ member) (by decide)
  rw [Word.bare?, bare, Word.text, chars, if_pos (by simpa using backslash),
    String.ofList_toList]

theorem exists_name {name : String} (form : Grammar.isName name = true) :
    ∃ read : Word, read.bare? = some name ∧ Spells name.toList [.word read] := by
  have solid := solid_of_isName form []
  rw [List.append_nil] at solid
  exact exists_bare solid (plain_of_isName form)

theorem exists_keyword {name : String} (known : name ∈ "in" :: Grammar.reserved) :
    ∃ read : Word, read.bare? = some name ∧ Spells name.toList [.word read] := by
  have ordinary : ∀ word ∈ "in" :: Grammar.reserved, ∃ c tail, word.toList = c :: tail ∧
      c ≠ '\\' ∧ c ≠ '#' ∧ word.toList.all (Word.isPlain false) = true := by
    simp only [Grammar.reserved, Grammar.keywords, Grammar.terminators, List.cons_append,
      List.nil_append, List.forall_mem_cons, List.not_mem_nil, false_imp_iff, implies_true,
      and_true]
    and_intros <;> exact ⟨_, _, rfl, by decide, by decide, by decide⟩
  obtain ⟨c, tail, chars, backslash, comment, all⟩ := ordinary name known
  have plain := List.all_eq_true.mp all
  refine exists_bare ⟨c, tail, chars, ?_, comment, fun wrong => absurd wrong backslash⟩ plain
  have here := plain c (chars ▸ List.mem_cons_self)
  simp only [Word.isPlain, Bool.false_or, Bool.and_eq_true, Bool.not_eq_true',
    Bool.or_eq_false_iff] at here
  exact here.2.2

end Lexer

namespace Grammar

open Lexer (Apart Spells Names Solid EndsWord Nameable spokenValue)

/-- A word whose substitutions are scripts with commands is one of the grammar's. -/
theorem reads_pieces {pieces : List Word.Piece}
    (holds : ∀ body ∈ pieces.filterMap Word.Piece.body?, Script.Holds body) :
    ∃ parts, Reads (.pieces pieces parts) [] [] := by
  induction pieces with
  | nil => exact ⟨[], .noPieces⟩
  | cons piece rest ih =>
    rw [List.filterMap_cons] at holds
    cases piece with
    | plain => exact (ih holds).imp fun _ => .plain
    | guarded => exact (ih holds).imp fun _ => .guarded
    | reference =>
      obtain ⟨_, later⟩ := ih holds
      exact ⟨_, .reference later⟩
    | substitution body span start =>
      obtain ⟨⟨first, others, parsed⟩, behind⟩ := List.forall_mem_cons.mp holds
      obtain ⟨parts, later⟩ := ih behind
      obtain ⟨nodes, moved, same⟩ := parseAt_moved parsed start
      obtain ⟨lexemes, tokens, script⟩ := Script.parseAt_eq_ok.mp moved
      obtain ⟨command, made⟩ : ∃ command, substitutedCommand (first :: others) = .ok command := by
        cases others <;> exact ⟨_, rfl⟩
      obtain ⟨again, made⟩ := substitutedCommand_isOk made same
      exact ⟨_, .substitution tokens script made later⟩

/-- The characters are read as one word of the grammar. -/
structure Rereads (own : List Char) (read : Word) : Prop where
  spells : Spells own [.word read]
  parts : ∃ parts, Reads (.pieces read.pieces parts) [] []

section
variable {text name value : String}

theorem rereads_word (respells : Word.Respells text) : ∃ read,
    Rereads (Word.quote text).toList read ∧ read.text = Word.respell text ∧
      ∀ word, read.bare? = some word → word = text := by
  obtain ⟨read, names, chars, quoted, shown⟩ := Lexer.names_quoteChars respells
  have holds : ∀ body ∈ read.bodies, Script.Holds body := by
    rw [shown]
    exact respells.bodies_held
  refine ⟨read, ⟨?_, reads_pieces holds⟩, congrArg String.ofList chars, fun word bare => ?_⟩
  · rw [Word.quote, String.toList_ofList]
    exact .alone (Lexer.solid_quoteChars respells) names
  · obtain ⟨unquoted, -, same⟩ := Word.bare?_eq_some bare
    rw [quoted] at unquoted
    rw [Word.text, chars, unquoted, Word.spoken_bare, String.ofList_toList] at same
    exact same.symm

theorem rereads_assignment (form : assigns text = true) (respells : ∀ name value,
      Text.splitOnce '=' text = some (name, value) → value ≠ "" → Word.Respells value) :
    ∃ read, Rereads (assignmentText text).toList read ∧
      read.text = Word.reassign spokenValue text ∧ assigns read.text = true ∧
        ∀ word, read.bare? = some word → '=' ∈ word.toList := by
  rw [assigns] at form
  cases cut : Text.splitOnce '=' text with
  | none => rw [cut] at form; cases form
  | some halves =>
    obtain ⟨name, value⟩ := halves
    rw [cut] at form
    have spelled (some : value.toList ≠ []) : Word.Respells value :=
      respells name value cut fun none => some (by rw [none]; rfl)
    obtain ⟨read, names, chars, shown⟩ := Lexer.names_assignment form spelled
    have holds : ∀ body ∈ read.bodies, Script.Holds body := by
      rw [shown]
      by_cases none : value.toList = []
      · rw [none, Word.groups]
        simp
      · exact (spelled none).bodies_held
    have written : (assignmentText text).toList =
        name.toList ++ '=' :: Lexer.valueChars value.toList := by
      rw [assignmentText, cut, Lexer.valueChars]
      by_cases empty : value = ""
      · subst empty
        simp
      · have some : ¬value.toList.isEmpty = true := by simpa using empty
        simp [empty, Word.quote]
    have same : read.text = Word.reassign spokenValue text := by
      rw [Word.text, chars, Word.reassign_of_some cut]
      exact String.toList_injective (by simp)
    refine ⟨read, ⟨?_, reads_pieces holds⟩, same, ?_, fun word bare => ?_⟩
    · rw [written]
      exact .alone (Lexer.solid_of_isName form _) names
    · rw [same, assigns, Word.splitOnce_reassign cut]
      exact form
    · obtain ⟨-, -, rfl⟩ := Word.bare?_eq_some bare
      rw [Word.text, chars]
      simp

end

/-- Tokens at no place in particular. -/
def loose (tokens : List Token) : List Lexeme :=
  tokens.map fun token => ⟨token, default, default⟩

@[simp] theorem loose_nil : loose [] = [] := rfl

@[simp] theorem loose_cons (token : Token) (tokens : List Token) :
    loose (token :: tokens) = ⟨token, default, default⟩ :: loose tokens := rfl

@[simp] theorem loose_append (first second : List Token) :
    loose (first ++ second) = loose first ++ loose second :=
  List.map_append

/-- No other token stands next. -/
def Behind (allowed : List Token) (after : List Lexeme) : Prop :=
  ∀ token, next after = some token → token ∈ allowed

/-- What may stand behind the pipelines that make up a chain. -/
def afterChain : List Token :=
  [.semicolon, .newline, .background, .rightParen]

def afterPipeline : List Token :=
  .and :: .or :: afterChain

def afterCommand : List Token :=
  .pipe :: afterPipeline

section
variable {allowed others tokens more : List Token} {lexeme : Lexeme} {after rest : List Lexeme}

theorem Behind.nil : Behind allowed [] :=
  fun _ none => by cases none

theorem Behind.cons (member : lexeme.token ∈ allowed) : Behind allowed (lexeme :: rest) :=
  fun _ same => Option.some.inj same ▸ member

theorem Behind.mono (behind : Behind allowed after) (more : allowed ⊆ others) :
    Behind others after :=
  fun token same => more (behind token same)

theorem Behind.ne (behind : Behind allowed after) {token : Token} (other : token ∉ allowed) :
    next after ≠ some token :=
  fun same => other (behind token same)

theorem Behind.not_word (behind : Behind afterCommand after) (read : Word) :
    next after ≠ some (.word read) :=
  behind.ne (by simp [afterCommand, afterPipeline, afterChain])

theorem Behind.not_redirect (behind : Behind afterCommand after) (kind : RedirectKind) :
    next after ≠ some (.redirect kind) :=
  behind.ne (by simp [afterCommand, afterPipeline, afterChain])

/-- The tokens are read as a phrase if one of those that are allowed stands behind them. -/
def Comes {α : Type} (make : α → Phrase) (same : α → Prop) (allowed : List Token)
    (tokens : List Token) : Prop :=
  ∀ after, Behind allowed after →
    ∃ value, Reads (make value) (loose tokens ++ after) after ∧ same value

/-- A command may begin with these tokens, even the first of a nested list. -/
def Starts (tokens : List Token) : Prop :=
  ∃ first rest, tokens = first :: rest ∧ first ≠ .newline ∧ first ≠ .rightParen ∧
    ∀ word, first.bare? = some word → word ∉ terminators

theorem Starts.append (starts : Starts tokens) (more : List Token) : Starts (tokens ++ more) := by
  obtain ⟨first, rest, rfl, other⟩ := starts
  exact ⟨first, rest ++ more, rfl, other⟩

theorem Starts.pastNewlines (starts : Starts tokens) (after : List Lexeme) :
    pastNewlines (loose tokens ++ after) = loose tokens ++ after := by
  obtain ⟨first, rest, rfl, newline, -⟩ := starts
  exact List.dropWhile_cons_of_neg (by simpa using newline)

theorem Starts.opens (starts : Starts tokens) (topLevel : Bool) (after : List Lexeme) :
    Opens topLevel (loose tokens ++ after) (loose tokens ++ after) := by
  cases topLevel with
  | true => exact rfl
  | false =>
    refine ⟨(starts.pastNewlines after).symm, ?_⟩
    obtain ⟨first, rest, rfl, -, paren, word⟩ := starts
    have terminates : first.bare?.any terminators.contains = false := by
      cases bare : first.bare? with
      | none => rfl
      | some name => simpa using word name bare
    simp [endsList_eq, next, paren, terminates]

theorem Starts.endsLine (starts : Starts tokens) (after : List Lexeme) :
    endsLine (loose tokens ++ after) = false := by
  obtain ⟨first, rest, rfl, newline, -⟩ := starts
  simp [Grammar.endsLine, next, newline]

end

/-- The word that a word node is read of again. -/
structure WordAgain (node : Node) (read : Word) : Prop where
  spells : Spells node.shell.toList [.word read]
  text : ∃ text parts quoted span, node = .word text parts quoted span ∧
    read.text = Word.respell text ∧ ∀ word, read.bare? = some word → word = text
  reads : ∀ lexeme after, lexeme.token = .word read →
    ∃ again, Reads (.word again) (lexeme :: after) after ∧ again.shape = node.respelled

theorem wordAgain {text : String} (parts : List Node) (quoted : Bool) (span : Span)
    (respells : Word.Respells text) : ∃ read, WordAgain (.word text parts quoted span) read := by
  obtain ⟨read, again, same, bare⟩ := rereads_word respells
  obtain ⟨made, inside⟩ := again.parts
  exact ⟨read, again.spells, ⟨_, _, _, _, rfl, same, bare⟩, fun lexeme after there =>
    ⟨_, .word there inside, congrArg (Node.word · [] false default) same⟩⟩

theorem Reads.wordAgain {node : Node} {before after : List Lexeme}
    (reads : Reads (.word node) before after) (renderable : node.Renderable) :
    ∃ read, WordAgain node read := by
  cases reads
  exact Grammar.wordAgain _ _ _ renderable.own

theorem spells_redirect {kind : RedirectKind} {target : List Char} {tokens : List Token}
    (spells : Spells target tokens) :
    Spells (kind.sign.toList ++ ' ' :: target) (.redirect kind :: tokens) := by
  cases kind with
  | input => exact .input spells.blank
  | output => exact .once (by decide) rfl spells.blank
  | append => exact .twice (by decide) spells.blank

/-- What is written of a redirect. -/
structure RedirectAgain (node : Node) (tokens : List Token) : Prop where
  spells : Spells node.shell.toList tokens
  begins : ∃ kind rest, tokens = [.redirect kind, .word rest]
  reads : ∀ after, ∃ again, Reads (.redirect again) (loose tokens ++ after) after ∧
    again.shape = node.respelled

theorem Reads.redirectAgain {node : Node} {before after : List Lexeme}
    (reads : Reads (.redirect node) before after) (renderable : node.Renderable) :
    ∃ tokens, RedirectAgain node tokens := by
  cases reads with
  | @redirect sign kind target rest after token leads =>
    obtain ⟨read, word⟩ := leads.wordAgain (renderable.each target (List.mem_singleton_self _))
    refine ⟨[.redirect kind, .word read], ?_, ⟨kind, read, rfl⟩, fun after => ?_⟩
    · have text : (Node.redirect kind target ⟨sign.span.start, target.span.stop⟩).shell.toList =
          kind.sign.toList ++ ' ' :: target.shell.toList := by simp [Node.shell]
      rw [text]
      exact spells_redirect word.spells
    · obtain ⟨again, reads, shape⟩ := word.reads ⟨.word read, default, default⟩ after rfl
      exact ⟨_, .redirect rfl reads, congrArg (Node.redirect kind · default) shape⟩

theorem apart_redirects (nodes : List Node) : Apart (Node.shellRedirects nodes).toList := by
  cases nodes with
  | nil => exact rfl
  | cons node rest =>
    rw [Node.shellRedirects, String.toList_append, String.toList_append]
    exact rfl

theorem spells_joined {node : Node} {nodes : List Node} {first rest : List Token}
    (here : Spells node.shell.toList first) (later : Spells (Node.shellJoined nodes).toList rest) :
    Spells (Node.shellJoined (node :: nodes)).toList (first ++ rest) := by
  cases nodes with
  | nil =>
    obtain rfl := later.none_of_nil
    rwa [List.append_nil]
  | cons second nodes =>
    rw [Node.shellJoined_cons, String.toList_append, String.toList_append, List.append_assoc]
    exact here.append later.blank rfl

/-- All of the nodes come back. -/
def Renderable (nodes : List Node) : Prop :=
  ∀ node ∈ nodes, node.Renderable

/-- What is written of the rest of a simple command. -/
structure PartsAgain (named : Bool) (nodes : List Node) (tokens : List Token) : Prop where
  spells : Spells (Node.shellJoined nodes).toList tokens
  empty : tokens = [] → nodes = []
  inside : ∀ token ∈ tokens, token ∉ Token.leftParen :: afterCommand
  opens : ∀ word ∈ reserved, (tokens.head?.bind Token.bare?) = some word →
    Node.opening? nodes = some word
  comes : Comes (.parts named) (Node.shapeAll · = Node.respelledAll nodes) afterCommand tokens

theorem PartsAgain.nil (named : Bool) : PartsAgain named [] [] where
  spells := .nil
  empty _ := rfl
  inside := by simp
  opens := by simp
  comes _ behind := ⟨[], .noPart behind.not_word behind.not_redirect, rfl⟩

theorem PartsAgain.cons {named deep : Bool} {node : Node} {others : List Node}
    {first rest : List Token} (here : Spells node.shell.toList first) (some : first ≠ [])
    (inside : ∀ token ∈ first, token ∉ Token.leftParen :: afterCommand)
    (opens : ∀ word ∈ reserved, first.head?.bind Token.bare? = .some word →
      Node.opening? (node :: others) = .some word)
    (reads : ∀ value before after, Reads (.parts deep value) before after →
      ∃ again, Reads (.parts named (again :: value)) (loose first ++ before) after ∧
        again.shape = node.respelled)
    (later : PartsAgain deep others rest) : PartsAgain named (node :: others) (first ++ rest) where
  spells := spells_joined here later.spells
  empty none := absurd (List.append_eq_nil_iff.mp none).1 some
  inside := List.forall_mem_append.mpr ⟨inside, later.inside⟩
  opens word known bare := opens word known (by rwa [List.head?_append_of_ne_nil _ some] at bare)
  comes after behind := by
    obtain ⟨value, read, same⟩ := later.comes after behind
    obtain ⟨again, whole, shape⟩ := reads value _ _ read
    rw [loose_append, List.append_assoc]
    exact ⟨_, whole, congrArg₂ List.cons shape same⟩

theorem not_afterCommand_word (read : Word) :
    Token.word read ∉ Token.leftParen :: afterCommand := by
  simp [afterCommand, afterPipeline, afterChain]

theorem not_assigns_reserved {word : String} (known : word ∈ reserved) : '=' ∉ word.toList := by
  revert word
  decide

theorem PartsAgain.assignment {text : String} {parts others : List Node} {span : Span}
    {tokens : List Token} (form : assigns text = true)
    (renderable : (Node.assignment text parts span).Renderable)
    (later : PartsAgain false others tokens) :
    ∃ again, PartsAgain false (.assignment text parts span :: others) again := by
  obtain ⟨read, again, same, still, equals⟩ := rereads_assignment form renderable.own
  obtain ⟨made, inside⟩ := again.parts
  refine ⟨_, .cons again.spells (List.cons_ne_nil _ _) ?_ ?_ ?_ later⟩
  · exact List.forall_mem_singleton.mpr (not_afterCommand_word read)
  · intro word known bare
    exact absurd (equals word bare) (not_assigns_reserved known)
  · intro value before after reads
    exact ⟨_, .assignment rfl still inside reads, congrArg (Node.assignment · [] default) same⟩

theorem PartsAgain.argument {named : Bool} {first : Node} {others : List Node} {tokens : List Token}
    {before after : List Lexeme} (reads : Reads (.word first) before after)
    (renderable : first.Renderable)
    (called : named = false → ∀ text ∈ Node.called? (first :: others),
      assigns (Word.respell text) = false)
    (later : PartsAgain true others tokens) :
    ∃ again, PartsAgain named (first :: others) again := by
  obtain ⟨read, word⟩ := reads.wordAgain renderable
  obtain ⟨text, parts, quoted, span, rfl, same, bare⟩ := word.text
  refine ⟨_, .cons word.spells (List.cons_ne_nil _ _) ?_ ?_ ?_ later⟩
  · exact List.forall_mem_singleton.mpr (not_afterCommand_word read)
  · intro word known seen
    exact congrArg some (bare word seen).symm
  · intro value before after reads
    obtain ⟨again, here, shape⟩ := word.reads ⟨.word read, default, default⟩ before rfl
    refine ⟨again, .argument rfl (fun unnamed => ?_) here reads, shape⟩
    rw [isAssignment_eq, same]
    exact called unnamed text rfl

theorem PartsAgain.redirected {named : Bool} {first : Node} {others : List Node}
    {tokens : List Token} {before after : List Lexeme}
    (reads : Reads (.redirect first) before after) (renderable : first.Renderable)
    (later : PartsAgain named others tokens) :
    ∃ again, PartsAgain named (first :: others) again := by
  obtain ⟨sign, redirect⟩ := reads.redirectAgain renderable
  obtain ⟨kind, read, rfl⟩ := redirect.begins
  refine ⟨_, .cons redirect.spells (List.cons_ne_nil _ _) ?_ (fun _ _ bare => ?_) ?_ later⟩
  · simp [afterCommand, afterPipeline, afterChain]
  · cases bare
  · intro value before after reads
    obtain ⟨again, here, shape⟩ := redirect.reads before
    exact ⟨again, .redirected here reads, shape⟩

/-- What is written of the redirects behind a group. -/
structure RedirectsAgain (nodes : List Node) (tokens : List Token) : Prop where
  spells : Spells (Node.shellRedirects nodes).toList tokens
  comes : Comes .redirects (Node.shapeAll · = Node.respelledAll nodes) afterCommand tokens

theorem RedirectsAgain.nil : RedirectsAgain [] [] where
  spells := .nil
  comes _ behind := ⟨[], .noRedirect behind.not_redirect, rfl⟩

theorem RedirectsAgain.cons {first : Node} {others : List Node} {tokens : List Token}
    {before after : List Lexeme} (reads : Reads (.redirect first) before after)
    (renderable : first.Renderable) (later : RedirectsAgain others tokens) :
    ∃ again, RedirectsAgain (first :: others) again := by
  obtain ⟨sign, redirect⟩ := reads.redirectAgain renderable
  refine ⟨sign ++ tokens, ?_, fun after behind => ?_⟩
  · rw [Node.shellRedirects, String.toList_append, String.toList_append]
    exact redirect.spells.blank.append later.spells (apart_redirects others)
  · obtain ⟨value, read, same⟩ := later.comes after behind
    obtain ⟨again, here, shape⟩ := redirect.reads (loose tokens ++ after)
    rw [loose_append, List.append_assoc]
    exact ⟨_, .redirects here read, congrArg₂ List.cons shape same⟩

/-- What is written of the items of a loop. -/
structure ItemsAgain (nodes : List Node) (tokens : List Token) : Prop where
  spells : Spells (Node.shellJoined nodes).toList tokens
  comes : Comes .items (Node.shapeAll · = Node.respelledAll nodes) afterCommand tokens

theorem ItemsAgain.nil : ItemsAgain [] [] where
  spells := .nil
  comes _ behind := ⟨[], .noItem behind.not_word, rfl⟩

theorem ItemsAgain.cons {first : Node} {others : List Node} {tokens : List Token} {read : Word}
    (word : WordAgain first read) (later : ItemsAgain others tokens) :
    ItemsAgain (first :: others) (.word read :: tokens) where
  spells := spells_joined word.spells later.spells
  comes after behind := by
    obtain ⟨value, items, same⟩ := later.comes after behind
    obtain ⟨again, here, shape⟩ :=
      word.reads ⟨.word read, default, default⟩ (loose tokens ++ after) rfl
    exact ⟨_, .items here items, congrArg₂ List.cons shape same⟩

end Grammar

end StepShell

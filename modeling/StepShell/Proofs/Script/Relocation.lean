import Mathlib.Data.List.Forall2
import StepShell.Proofs.Node.Outline
import StepShell.Proofs.Script.Recognition

/-! A script is parsed alike wherever it stands: the same tokens at other places have the same
readings, apart from the places. -/

namespace StepShell

theorem Token.unplaced_bare? (token : Token) : token.unplaced.bare? = token.bare? := by
  cases token with
  | word read => exact congrArg (fun chars => if !read.quoted && !chars.contains '\\' then
      some (String.ofList chars) else none) read.unplaced_chars
  | _ => rfl

theorem Token.unplaced_unplaced (token : Token) : token.unplaced.unplaced = token.unplaced := by
  cases token with
  | word read =>
    have each (piece : Word.Piece) : piece.unplaced.unplaced = piece.unplaced := by
      cases piece <;> rfl
    simp [Token.unplaced, Word.unplaced, each]
  | _ => rfl

namespace Grammar

/-- The same token at another place. -/
def Same (first second : Lexeme) : Prop :=
  second.token.unplaced = first.token.unplaced

/-- The same tokens at other places. -/
abbrev Moved := List.Forall₂ Same

section
variable {first second : Lexeme} {before moved : List Lexeme}

theorem Same.bare (same : Same first second) : second.token.bare? = first.token.bare? := by
  rw [← Token.unplaced_bare?, same, Token.unplaced_bare?]

theorem Same.word {read : Word} (same : Same first second) (token : first.token = .word read) :
    ∃ again, second.token = .word again ∧ again.unplaced = read.unplaced := by
  rw [Same, token] at same
  cases there : second.token with
  | word again =>
    rw [there] at same
    exact ⟨again, rfl, Token.word.inj same⟩
  | _ =>
    rw [there] at same
    cases same

/-- A token that is no word is the same everywhere. -/
theorem Same.eq {token : Token} (same : Same first second) (here : first.token = token)
    (sign : ∀ read, token ≠ .word read) : second.token = token := by
  subst here
  rw [Same] at same
  cases there : second.token with
  | word read =>
    rw [there] at same
    cases here : first.token with
    | word again => exact absurd here (sign again)
    | _ =>
      rw [here] at same
      cases same
  | _ =>
    rw [there] at same
    cases here : first.token <;> rw [here] at same <;> cases same <;> rfl

theorem Same.symm (same : Same first second) : Same second first :=
  Eq.symm same

theorem Same.iff (same : Same first second) (token : Token) (sign : ∀ read, token ≠ .word read) :
    second.token = token ↔ first.token = token :=
  ⟨fun here => same.symm.eq here sign, fun here => same.eq here sign⟩

theorem Moved.next (moves : Moved before moved) {β : Type} {view : Token → Option β}
    (blind : ∀ token, view token.unplaced = view token) :
    (next moved).bind view = (next before).bind view := by
  cases moves with
  | nil => rfl
  | cons same _ =>
    change view _ = view _
    rw [← blind, same, blind]

theorem Moved.bare (moves : Moved before moved) :
    (Grammar.next moved).bind Token.bare? = (Grammar.next before).bind Token.bare? :=
  moves.next Token.unplaced_bare?

theorem Moved.next_eq (moves : Moved before moved) (token : Token)
    (sign : ∀ read, token ≠ .word read) :
    Grammar.next moved = some token ↔ Grammar.next before = some token := by
  cases moves with
  | nil => rfl
  | cons same _ =>
    change some _ = some _ ↔ some _ = some _
    rw [Option.some.injEq, Option.some.injEq, same.iff token sign]

theorem Moved.next_none (moves : Moved before moved) :
    Grammar.next moved = none ↔ Grammar.next before = none := by
  cases moves with
  | nil => rfl
  | cons => exact iff_of_false (Option.some_ne_none _) (Option.some_ne_none _)

theorem Moved.next_word (moves : Moved before moved)
    (other : ∀ read, Grammar.next before ≠ some (.word read)) (read : Word) :
    Grammar.next moved ≠ some (.word read) := by
  cases moves with
  | nil => exact (Option.some_ne_none _).symm
  | cons same _ =>
    intro here
    obtain ⟨again, there, -⟩ := same.symm.word (Option.some.inj here)
    exact other again (congrArg some there)

theorem Moved.uncons {rest : List Lexeme} (moves : Moved before moved)
    (split : before = first :: rest) :
    ∃ second others, moved = second :: others ∧ Same first second ∧ Moved rest others := by
  subst split
  cases moves with
  | cons same later => exact ⟨_, _, rfl, same, later⟩

theorem Moved.dropWhile (moves : Moved before moved) {keep : Lexeme → Bool}
    (blind : ∀ first second, Same first second → keep second = keep first) :
    Moved (before.dropWhile keep) (moved.dropWhile keep) := by
  induction moves with
  | nil => exact .nil
  | @cons first second _ _ same later ih =>
    rw [List.dropWhile_cons, List.dropWhile_cons, blind first second same]
    split
    · exact ih
    · exact .cons same later

theorem Moved.pastNewlines (moves : Moved before moved) :
    Moved (pastNewlines before) (pastNewlines moved) :=
  moves.dropWhile fun _ _ same => by simp only [same.iff .newline (by simp)]

theorem Moved.pastSeparators (moves : Moved before moved) :
    Moved (pastSeparators before) (pastSeparators moved) :=
  moves.dropWhile fun _ _ same => by
    simp only [same.iff .newline (by simp), same.iff .semicolon (by simp)]

theorem Moved.endsLine (moves : Moved before moved) :
    Grammar.endsLine moved = Grammar.endsLine before := by
  simp only [Grammar.endsLine, moves.next_none, moves.next_eq .newline (by simp)]

theorem endsList_eq (lexemes : List Lexeme) : Grammar.endsList lexemes =
    (Grammar.next lexemes = none || Grammar.next lexemes = some .rightParen ||
      ((Grammar.next lexemes).bind Token.bare?).any terminators.contains) := by
  rw [Grammar.endsList]
  cases Grammar.next lexemes with
  | none => rfl
  | some token =>
    cases token with
    | word read =>
      simp only [Option.bind_some]
      cases (Token.word read).bare? <;> simp
    | _ => rfl

theorem Moved.endsList (moves : Moved before moved) :
    Grammar.endsList moved = Grammar.endsList before := by
  rw [endsList_eq, endsList_eq, moves.bare, decide_eq_decide.mpr moves.next_none,
    decide_eq_decide.mpr (moves.next_eq .rightParen (by simp))]

theorem Moved.looks (moves : Moved before moved) :
    (moved.map Lexeme.token).take 2 = [.leftParen, .rightParen] ↔
      (before.map Lexeme.token).take 2 = [.leftParen, .rightParen] := by
  rcases moves with _ | ⟨first, _ | ⟨second, later⟩⟩
  · rfl
  · simp
  · simp [first.iff .leftParen (by simp), second.iff .rightParen (by simp)]

theorem Moved.beginsSimple (moves : Moved before moved) :
    Grammar.beginsSimple moved = Grammar.beginsSimple before := by
  cases moves with
  | nil => rfl
  | @cons first second rest others same later =>
    have looks : ((others.map Lexeme.token).take 2 == [.leftParen, .rightParen]) =
        ((rest.map Lexeme.token).take 2 == [.leftParen, .rightParen]) :=
      Bool.eq_iff_iff.mpr (by simpa only [beq_iff_eq] using Moved.looks later)
    rw [Grammar.beginsSimple, Grammar.beginsSimple, same.bare, looks]

end

/-- Some value of this kind is read of the tokens. -/
def Found {α : Type} (make : α → Phrase) (same : α → Prop) (before after : List Lexeme) : Prop :=
  ∃ value left, Reads (make value) before left ∧ Moved after left ∧ same value

/-- A phrase of the same shape is read of the tokens `before`, and what it leaves are the tokens
`after`, maybe at other places. -/
def Phrase.Again (before after : List Lexeme) : Phrase → Prop
  | .pieces read _ => ∀ others, others.map Word.Piece.unplaced = read.map Word.Piece.unplaced →
    ∃ made, Reads (.pieces others made) [] []
  | .word node => Found .word (·.shape = node.shape) before after
  | .redirect node => Found .redirect (·.shape = node.shape) before after
  | .redirects nodes => Found .redirects (Node.shapeAll · = Node.shapeAll nodes) before after
  | .parts named nodes => Found (.parts named) (Node.shapeAll · = Node.shapeAll nodes) before after
  | .items nodes => Found .items (Node.shapeAll · = Node.shapeAll nodes) before after
  | .group node => Found .group (·.shape = node.shape) before after
  | .clauses keyword made =>
    Found (.clauses keyword) (Clause.shapeAll · = Clause.shapeAll made) before after
  | .command node => Found .command (·.shape = node.shape) before after
  | .stages nodes => Found .stages (Node.shapeAll · = Node.shapeAll nodes) before after
  | .pipeline node => Found .pipeline (·.shape = node.shape) before after
  | .chain nodes => Found .chain (Node.shapeAll · = Node.shapeAll nodes) before after
  | .entries topLevel nodes =>
    Found (.entries topLevel) (Node.shapeAll · = Node.shapeAll nodes) before after
  | .list topLevel node => Found (.list topLevel) (·.shape = node.shape) before after
  | .script nodes => Found .script (Node.shapeAll · = Node.shapeAll nodes) before after

/-- The pieces of a word but for the first. -/
theorem pieces_cons {piece : Word.Piece} {others rest : List Word.Piece}
    (same : others.map Word.Piece.unplaced = (piece :: rest).map Word.Piece.unplaced) :
    ∃ again more, others = again :: more ∧ again.unplaced = piece.unplaced ∧
      more.map Word.Piece.unplaced = rest.map Word.Piece.unplaced := by
  rw [List.map_cons] at same
  obtain ⟨again, more, rfl, here, later⟩ := List.map_eq_cons_iff.mp same
  exact ⟨again, more, rfl, here, later⟩

theorem moved_of_map {before moved : List Lexeme}
    (same : moved.map (·.token.unplaced) = before.map (·.token.unplaced)) : Moved before moved := by
  induction before generalizing moved with
  | nil =>
    obtain rfl := List.map_eq_nil_iff.mp same
    exact .nil
  | cons first rest ih =>
    obtain ⟨second, others, rfl, here, later⟩ := List.map_eq_cons_iff.mp same
    exact .cons here (ih later)

theorem lex_moved {text : List Char} {offset : Nat} {lexemes : List Lexeme}
    (tokens : lex text offset = .ok lexemes) (other : Nat) :
    ∃ moved, lex text other = .ok moved ∧ Moved lexemes moved := by
  obtain ⟨-, relocates⟩ := Lexer.lexemes_rows _ _ tokens
  obtain ⟨moved, again, same⟩ := relocates (Position.starting other)
  exact ⟨moved, again, moved_of_map same⟩

theorem outlineAll_length {word assigned another other : String → String}
    {first second : List Node}
    (same : Node.outlineAll another other first = Node.outlineAll word assigned second) :
    first.length = second.length := by
  simpa [Node.outlineAll_eq_map] using congrArg List.length same

theorem substitutedCommand_isOk {nodes again : List Node} {command : Node}
    (made : substitutedCommand nodes = .ok command)
    (same : Node.shapeAll again = Node.shapeAll nodes) :
    ∃ other, substitutedCommand again = .ok other := by
  have length := outlineAll_length same
  rcases nodes with _ | ⟨first, rest⟩
  · cases made
  · rcases again with _ | ⟨node, _ | ⟨second, others⟩⟩
    · cases length
    · exact ⟨_, rfl⟩
    · exact ⟨_, rfl⟩

theorem text_of_unplaced {first second : Word} (same : second.unplaced = first.unplaced) :
    second.text = first.text := by
  rw [Word.text, ← Word.unplaced_chars, same, Word.unplaced_chars, Word.text]

theorem Brackets.moved {opening closing : String} {opener closer first last : Lexeme}
    (pair : Brackets opening closing opener.token closer.token) (opens : Same opener first)
    (closes : Same closer last) : Brackets opening closing first.token last.token := by
  generalize there : opener.token = token at pair
  generalize here : closer.token = other at pair
  cases pair with
  | parens =>
    rw [opens.eq there (by simp), closes.eq here (by simp)]
    exact .parens
  | braces begins ends =>
    exact .braces (opens.bare.trans (there ▸ begins)) (closes.bare.trans (here ▸ ends))

theorem Parens.moved {before after moved : List Lexeme} (parens : Parens before after)
    (moves : Moved before moved) : ∃ left, Parens moved left ∧ Moved after left := by
  cases parens with
  | none other => exact ⟨_, .none (mt (moves.next_eq _ (by simp)).mp other), moves⟩
  | pair first second =>
    obtain ⟨left, others, rfl, opens, moves⟩ := moves.uncons rfl
    obtain ⟨right, rest, rfl, closes, moves⟩ := moves.uncons rfl
    exact ⟨_, .pair (opens.eq first (by simp)) (closes.eq second (by simp)), moves⟩

theorem Opens.moved {topLevel : Bool} {before start moved : List Lexeme}
    (opens : Opens topLevel before start) (moves : Moved before moved) :
    ∃ begins, Opens topLevel moved begins ∧ Moved start begins := by
  cases topLevel with
  | true =>
    obtain rfl : start = before := opens
    exact ⟨_, rfl, moves⟩
  | false =>
    obtain ⟨rfl, goes⟩ := opens
    exact ⟨_, ⟨rfl, moves.pastNewlines.endsList.trans goes⟩, moves.pastNewlines⟩

theorem connective?_unplaced (token : Token) : connective? token.unplaced = connective? token := by
  cases token <;> rfl

theorem separator?_unplaced (topLevel : Bool) (token : Token) :
    separator? topLevel token.unplaced = separator? topLevel token := by
  cases token <;> rfl

theorem Same.separator {topLevel : Bool} {first second : Lexeme} (same : Same first second) :
    separator? topLevel second.token = separator? topLevel first.token := by
  rw [← separator?_unplaced, same, separator?_unplaced]

theorem Same.connective {first second : Lexeme} (same : Same first second) :
    connective? second.token = connective? first.token := by
  rw [← connective?_unplaced, same, connective?_unplaced]

/-- What a list loses at its end are operators, which have no place in its shape. -/
theorem dropSeparators_outline (word assigned : String → String) (parts : List Node) :
    Node.outlineAll word assigned (dropSeparators parts) =
      dropSeparators (Node.outlineAll word assigned parts) := by
  have turned : (parts.map (Node.outline word assigned)).reverse =
      parts.reverse.map (Node.outline word assigned) := List.map_reverse.symm
  rw [Node.outlineAll_eq_map, Node.outlineAll_eq_map, dropSeparators, dropSeparators,
    List.map_reverse, turned, List.dropWhile_map]
  congr 3
  funext part
  cases part <;> rfl

/-- Two lists are one node each that comes to the same if their parts do. -/
theorem listed?_outline {word assigned another other : String → String} {parts again : List Node}
    {node : Node} (made : listed? parts = some node)
    (same : Node.outlineAll another other again = Node.outlineAll word assigned parts) :
    ∃ second, listed? again = some second ∧
      second.outline another other = node.outline word assigned := by
  have kept : Node.outlineAll another other (dropSeparators again) =
      Node.outlineAll word assigned (dropSeparators parts) := by
    rw [dropSeparators_outline, dropSeparators_outline]
    exact congrArg dropSeparators same
  have length := outlineAll_length kept
  rw [listed?] at made ⊢
  generalize dropSeparators parts = front at made kept length
  generalize dropSeparators again = tail at kept length
  rcases front with _ | ⟨first, _ | ⟨second, rest⟩⟩
  · cases made
  · cases made
    obtain ⟨single, rfl⟩ := List.length_eq_one_iff.mp length
    exact ⟨single, rfl, (List.cons.inj kept).1⟩
  · cases made
    rcases tail with _ | ⟨head, _ | ⟨next, others⟩⟩
    · cases length
    · simp at length
    · exact ⟨_, rfl, congrArg (Node.list · default) kept⟩

theorem Reads.again {phrase : Phrase} {before after : List Lexeme}
    (reads : Reads phrase before after) :
    ∀ moved, Moved before moved → phrase.Again moved after := by
  induction reads with
  | noPieces =>
    intro _ _ others same
    obtain rfl := List.map_eq_nil_iff.mp same
    exact ⟨[], .noPieces⟩
  | plain later ih =>
    intro _ _ others same
    obtain ⟨again, more, rfl, here, same⟩ := pieces_cons same
    obtain ⟨parts, read⟩ := ih _ .nil more same
    cases again <;> cases here
    exact ⟨parts, .plain read⟩
  | guarded later ih =>
    intro _ _ others same
    obtain ⟨again, more, rfl, here, same⟩ := pieces_cons same
    obtain ⟨parts, read⟩ := ih _ .nil more same
    cases again <;> cases here
    exact ⟨parts, .guarded read⟩
  | reference later ih =>
    intro _ _ others same
    obtain ⟨again, more, rfl, here, same⟩ := pieces_cons same
    obtain ⟨parts, read⟩ := ih _ .nil more same
    cases again <;> cases here
    exact ⟨_, .reference read⟩
  | substitution tokens inside made later ihInside ih =>
    intro _ _ others same
    obtain ⟨again, more, rfl, here, same⟩ := pieces_cons same
    obtain ⟨parts, read⟩ := ih _ .nil more same
    cases again with
    | substitution body span bodyStart =>
      cases here
      obtain ⟨moved, tokens, moves⟩ := lex_moved tokens bodyStart
      obtain ⟨nodes, left, script, rest, shapes⟩ := ihInside moved moves
      obtain ⟨command, made⟩ := substitutedCommand_isOk made shapes
      cases rest
      exact ⟨_, .substitution tokens script made read⟩
    | _ => cases here
  | word token pieces ih =>
    rintro _ (_ | ⟨here, later⟩)
    obtain ⟨again, there, same⟩ := here.word token
    obtain ⟨parts, read⟩ := ih _ .nil again.pieces (congrArg Word.pieces same)
    exact ⟨_, _, .word there read, later,
      congrArg (Node.word · [] false default) (text_of_unplaced same)⟩
  | redirect token leads ih =>
    rintro _ (_ | ⟨here, later⟩)
    obtain ⟨target, left, read, rest, same⟩ := ih _ later
    exact ⟨_, _, .redirect (here.eq token (by simp)) read, rest,
      congrArg (Node.redirect _ · default) same⟩
  | noRedirect other =>
    intro moved moves
    exact ⟨_, _, .noRedirect fun kind => mt (moves.next_eq _ (by simp)).mp (other kind), moves, rfl⟩
  | redirects here later ihHere ihLater =>
    intro moved moves
    obtain ⟨first, middle, read, rest, same⟩ := ihHere moved moves
    obtain ⟨others, left, reads, last, shapes⟩ := ihLater middle rest
    exact ⟨_, _, .redirects read reads, last, congrArg₂ List.cons same shapes⟩
  | noPart word redirect =>
    intro moved moves
    exact ⟨_, _, .noPart (moves.next_word word)
      fun kind => mt (moves.next_eq _ (by simp)).mp (redirect kind), moves, rfl⟩
  | assignment token form pieces later ihPieces ihLater =>
    rintro _ (_ | ⟨here, after⟩)
    obtain ⟨again, there, same⟩ := here.word token
    obtain ⟨parts, read⟩ := ihPieces _ .nil again.pieces (congrArg Word.pieces same)
    obtain ⟨others, left, reads, last, shapes⟩ := ihLater _ after
    have text := text_of_unplaced same
    refine ⟨_, _, .assignment there ?_ read reads, last,
      congrArg₂ List.cons (congrArg (Node.assignment · [] default) text) shapes⟩
    rw [isAssignment, text]
    exact form
  | argument token form here later ihHere ihLater =>
    rintro _ (_ | ⟨same, after⟩)
    obtain ⟨again, there, text⟩ := same.word token
    obtain ⟨first, middle, read, rest, shape⟩ := ihHere _ (.cons same after)
    obtain ⟨others, left, reads, last, shapes⟩ := ihLater _ after
    cases read with
    | word _ pieces =>
      refine ⟨_, _, .argument there ?_ (.word ‹_› pieces) reads, last,
        congrArg₂ List.cons shape shapes⟩
      rw [isAssignment, text_of_unplaced text]
      exact form
  | redirected here later ihHere ihLater =>
    intro moved moves
    obtain ⟨first, middle, read, rest, same⟩ := ihHere moved moves
    obtain ⟨others, left, reads, last, shapes⟩ := ihLater middle rest
    exact ⟨_, _, .redirected read reads, last, congrArg₂ List.cons same shapes⟩
  | noItem other =>
    intro moved moves
    exact ⟨_, _, .noItem (moves.next_word other), moves, rfl⟩
  | items here later ihHere ihLater =>
    intro moved moves
    obtain ⟨first, middle, read, rest, same⟩ := ihHere moved moves
    obtain ⟨others, left, reads, last, shapes⟩ := ihLater middle rest
    exact ⟨_, _, .items read reads, last, congrArg₂ List.cons same shapes⟩
  | group pair inside behind ihInside ihBehind =>
    rintro _ (_ | ⟨opens, later⟩)
    obtain ⟨body, left, read, rest, same⟩ := ihInside _ later
    cases rest with
    | cons closes rest =>
      obtain ⟨redirects, left, reads, last, shapes⟩ := ihBehind _ rest
      exact ⟨_, _, .group (pair.moved opens closes) read reads, last,
        congrArg₂ (fun inside others => Node.compound
          [.reserved _ default, inside, .reserved _ default] others default) same shapes⟩
  | clause test then_ inside noElif noElse ihTest ihInside =>
    intro moved moves
    obtain ⟨condition, middle, read, rest, same⟩ := ihTest moved moves
    cases rest with
    | cons word rest =>
      obtain ⟨body, left, reads, last, shape⟩ := ihInside _ rest
      exact ⟨_, _, .clause read (word.bare.trans then_) reads (last.bare ▸ noElif)
        (last.bare ▸ noElse), last,
        congrArg₂ (fun condition body => [Clause.mk _ (some condition) body]) same shape⟩
  | clauseElse test then_ inside else_ otherwise ihTest ihInside ihOtherwise =>
    intro moved moves
    obtain ⟨condition, middle, read, rest, same⟩ := ihTest moved moves
    cases rest with
    | cons word rest =>
      obtain ⟨body, left, reads, last, shape⟩ := ihInside _ rest
      cases last with
      | cons other last =>
        obtain ⟨final, end_, ends, after, shown⟩ := ihOtherwise _ last
        refine ⟨_, _, .clauseElse read (word.bare.trans then_) reads (other.bare.trans else_) ends,
          after, ?_⟩
        change [Clause.mk _ (some condition.shape) body.shape, .mk _ none final.shape] = _
        rw [same, shape, shown]
        rfl
  | clauseElif test then_ inside elif_ later ihTest ihInside ihLater =>
    intro moved moves
    obtain ⟨condition, middle, read, rest, same⟩ := ihTest moved moves
    cases rest with
    | cons word rest =>
      obtain ⟨body, left, reads, last, shape⟩ := ihInside _ rest
      cases last with
      | cons other last =>
        obtain ⟨clauses, end_, ends, after, shown⟩ := ihLater _ last
        refine ⟨_, _, .clauseElif read (word.bare.trans then_) reads (other.bare.trans elif_) ends,
          after, ?_⟩
        change Clause.mk _ (some condition.shape) body.shape :: Clause.shapeAll clauses = _
        rw [same, shape, shown]
        rfl
  | simple simple some read ih =>
    intro moved moves
    obtain ⟨parts, left, reads, last, shapes⟩ := ih moved moves
    refine ⟨_, _, .simple (moves.beginsSimple.trans simple) ?_ reads, last,
      congrArg (Node.command · default) shapes⟩
    rintro rfl
    exact some (List.eq_nil_of_length_eq_zero (outlineAll_length shapes).symm)
  | grouped group ih =>
    intro moved moves
    obtain ⟨node, left, reads, last, shape⟩ := ih moved moves
    exact ⟨_, _, .grouped reads, last, shape⟩
  | forIn for_ named form newlines in_ values separators do_ inside done_ ihValues ihInside =>
    rintro _ (_ | ⟨first, _ | ⟨second, later⟩⟩)
    obtain ⟨inWord, others, ahead, sameIn, rest⟩ := (Moved.pastNewlines later).uncons newlines
    obtain ⟨items, middle, read, rest, shapes⟩ := ihValues _ rest
    obtain ⟨doWord, start, behind, sameDo, rest⟩ := rest.pastSeparators.uncons separators
    obtain ⟨body, left, reads, last, shape⟩ := ihInside _ rest
    obtain ⟨doneWord, final, rfl, sameDone, last⟩ := last.uncons rfl
    exact ⟨_, _, .forIn (first.bare.trans for_) (second.bare.trans named) form ahead
      (sameIn.bare.trans in_) read behind (sameDo.bare.trans do_) reads (sameDone.bare.trans done_),
      last, congrArg₂ (Node.forLoop _ · · default) shapes shape⟩
  | forEach for_ named form newlines noIn separators do_ inside done_ ihInside =>
    rintro _ (_ | ⟨first, _ | ⟨second, later⟩⟩)
    obtain ⟨head, others, ahead, sameHead, rest⟩ := (Moved.pastNewlines later).uncons newlines
    have tail : Moved _ (head :: others) := .cons sameHead rest
    obtain ⟨doWord, start, behind, sameDo, rest⟩ := tail.pastSeparators.uncons separators
    obtain ⟨body, left, reads, last, shape⟩ := ihInside _ rest
    obtain ⟨doneWord, final, rfl, sameDone, last⟩ := last.uncons rfl
    exact ⟨_, _, .forEach (first.bare.trans for_) (second.bare.trans named) form ahead
      (sameHead.bare ▸ noIn) behind (sameDo.bare.trans do_) reads (sameDone.bare.trans done_),
      last, congrArg (Node.forLoop _ [.word "$@" [] false default] · default) shape⟩
  | conditional if_ read fi_ ih =>
    rintro _ (_ | ⟨first, later⟩)
    obtain ⟨clauses, left, reads, last, shapes⟩ := ih _ later
    cases last with
    | cons word last =>
      exact ⟨_, _, .conditional (first.bare.trans if_) reads (word.bare.trans fi_), last,
        congrArg (Node.conditional · default) shapes⟩
  | function function_ named parens inside ih =>
    rintro _ (_ | ⟨first, _ | ⟨second, later⟩⟩)
    obtain ⟨middle, again, rest⟩ := parens.moved later
    obtain ⟨body, left, reads, last, shape⟩ := ih _ rest.pastNewlines
    exact ⟨_, _, .function (first.bare.trans function_) (second.bare.trans named) again reads, last,
      congrArg (Node.function _ · default) shape⟩
  | definition named unreserved first second inside ih =>
    rintro _ (_ | ⟨name, _ | ⟨left, _ | ⟨right, later⟩⟩⟩)
    obtain ⟨body, left, reads, last, shape⟩ := ih _ (Moved.pastNewlines later)
    exact ⟨_, _, .definition (name.bare.trans named) unreserved (Same.eq ‹_› first (by simp))
      (right.eq second (by simp)) reads, last, congrArg (Node.function _ · default) shape⟩
  | stage here last ih =>
    intro moved moves
    obtain ⟨node, left, reads, rest, shape⟩ := ih moved moves
    exact ⟨_, _, .stage reads (mt (rest.next_eq _ (by simp)).mp last), rest,
      congrArg (fun node => [node]) shape⟩
  | pipe here token later ihHere ihLater =>
    intro moved moves
    obtain ⟨node, left, reads, rest, shape⟩ := ihHere moved moves
    cases rest with
    | cons sign rest =>
      obtain ⟨others, left, further, last, shapes⟩ := ihLater _ (Moved.pastNewlines rest)
      exact ⟨_, _, .pipe reads (sign.eq token (by simp)) further, last,
        congrArg₂ (fun node others => node :: Node.pipe "|" default :: others) shape shapes⟩
  | single read ih =>
    intro moved moves
    obtain ⟨nodes, left, reads, rest, shapes⟩ := ih moved moves
    obtain ⟨node, rfl⟩ := List.length_eq_one_iff.mp (outlineAll_length shapes)
    exact ⟨_, _, .single reads, rest, (List.cons.inj shapes).1⟩
  | pipeline several read ih =>
    intro moved moves
    obtain ⟨nodes, left, reads, rest, shapes⟩ := ih moved moves
    exact ⟨_, _, .pipeline (outlineAll_length shapes ▸ several) reads, rest,
      congrArg (Node.pipeline · default) shapes⟩
  | link here last ih =>
    intro moved moves
    obtain ⟨node, left, reads, rest, shape⟩ := ih moved moves
    exact ⟨_, _, .link reads ((rest.next connective?_unplaced).trans last), rest,
      congrArg (fun node => [node]) shape⟩
  | chain here token later ihHere ihLater =>
    intro moved moves
    obtain ⟨node, left, reads, rest, shape⟩ := ihHere moved moves
    obtain ⟨sign, others, rfl, same, rest⟩ := rest.uncons rfl
    obtain ⟨others, left, further, last, shapes⟩ := ihLater _ rest.pastNewlines
    exact ⟨_, _, .chain reads (same.connective.trans token) further, last,
      congrArg₂ (fun node others => node :: Node.operator _ default :: others) shape shapes⟩
  | noEntry closed =>
    intro moved moves
    exact ⟨_, _, .noEntry (moves.pastNewlines.endsList.trans closed), moves.pastNewlines, rfl⟩
  | entry opens here last ih =>
    intro moved moves
    obtain ⟨begins, again, moves⟩ := opens.moved moves
    obtain ⟨parts, left, reads, rest, shapes⟩ := ih _ moves
    exact ⟨_, _, .entry again reads ((rest.next (separator?_unplaced _)).trans last), rest, shapes⟩
  | lastEntry here token line ih =>
    intro moved moves
    obtain ⟨parts, left, reads, rest, shapes⟩ := ih _ moves
    obtain ⟨sign, others, rfl, same, rest⟩ := rest.uncons rfl
    refine ⟨_, _, .lastEntry reads (same.separator.trans token) (rest.endsLine.trans line), rest,
      ?_⟩
    simp only [Node.shapeAll, Node.outlineAll_append]
    exact congrArg (· ++ [Node.operator _ default]) shapes
  | entries opens here token goes later ihHere ihLater =>
    intro moved moves
    obtain ⟨begins, again, moves⟩ := opens.moved moves
    obtain ⟨parts, left, reads, rest, shapes⟩ := ihHere _ moves
    obtain ⟨sign, others, rfl, same, rest⟩ := rest.uncons rfl
    obtain ⟨others, left, further, last, shown⟩ := ihLater _ rest
    refine ⟨_, _, .entries again reads (same.separator.trans token)
      (fun top => rest.endsLine.trans (goes top)) further, last, ?_⟩
    simp only [Node.shapeAll, Node.outlineAll_append]
    exact congrArg₂ (· ++ Node.operator _ default :: ·) shapes shown
  | list read made ih =>
    intro moved moves
    obtain ⟨parts, left, reads, rest, shapes⟩ := ih _ moves
    obtain ⟨node, again, shape⟩ := listed?_outline made shapes
    exact ⟨_, _, .list reads again, rest, shape⟩
  | ended nothing =>
    intro moved moves
    have none := moves.pastNewlines
    rw [nothing] at none
    exact ⟨_, _, .ended (List.forall₂_nil_left_iff.mp none), .nil, rfl⟩
  | line something here line later ihHere ihLater =>
    intro moved moves
    obtain ⟨node, left, reads, rest, shape⟩ := ihHere _ moves.pastNewlines
    obtain ⟨others, left, further, last, shapes⟩ := ihLater _ rest
    refine ⟨_, _, .line ?_ reads (rest.endsLine.trans line) further, last,
      congrArg₂ List.cons shape shapes⟩
    intro nothing
    have none := moves.pastNewlines
    rw [nothing] at none
    exact something (List.forall₂_nil_right_iff.mp none)

/-- A script is parsed alike wherever it stands. -/
theorem parseAt_moved {text : List Char} {offset : Nat} {nodes : List Node}
    (parsed : Script.parseAt text offset = .ok nodes) (other : Nat) :
    ∃ again, Script.parseAt text other = .ok again ∧ Node.shapeAll again = Node.shapeAll nodes := by
  obtain ⟨lexemes, tokens, reads⟩ := Script.parseAt_eq_ok.mp parsed
  obtain ⟨moved, again, moves⟩ := lex_moved tokens other
  obtain ⟨nodes, left, script, rest, shapes⟩ := reads.again moved moves
  cases rest
  exact ⟨nodes, Script.parseAt_eq_ok.mpr ⟨moved, again, script⟩, shapes⟩

end Grammar

end StepShell

import StepShell.Proofs.Node.Shifting
import StepShell.Proofs.Script.Steps
import StepShell.Proofs.Token.Shifting

/-! The parser makes the same tree of tokens that stand somewhere else, with every place in it as
much further on. No function of the grammar decides anything by a place. -/

namespace StepShell

namespace Grammar

section
variable {lines bytes : Nat}

def Input.shifted (lines bytes : Nat) (input : Input) : Input :=
  ⟨input.rest.map (Lexeme.shifted lines bytes), input.previousStop + bytes,
    input.finish.shifted lines bytes⟩

/-- The second run is the first one with its tokens somewhere else. The line of an error in a
substitution counts from the start of the text between its parentheses, so errors are only alike on
the same line. -/
def Tracks {α : Type} (lines bytes : Nat) (change : α → α) :
    Except ParseError (α × Input) → Except ParseError (α × Input) → Prop
  | .ok (value, after), there => there = .ok (change value, after.shifted lines bytes)
  | .error error, there =>
    ∃ other, there = .error other ∧ (lines = 0 → other = error.shifted 0 bytes)

/-- One run comes to its end exactly when the other does. -/
theorem Tracks.made_iff {α : Type} {change : α → α} {value : α}
    {first second : Except ParseError (α × Input)} (run : Tracks lines bytes change first second) :
    (∃ left, second = .ok (value, left)) ↔
      ∃ made, (∃ left, first = .ok (made, left)) ∧ value = change made := by
  rcases first with error | ⟨made, left⟩
  · obtain ⟨other, failed, -⟩ := run
    rw [failed]
    simp
  · rw [show second = _ from run]
    simp [eq_comm]

/-- The second parser does somewhere else what the first one does. -/
def Shifts {α : Type} (lines bytes : Nat) (change : α → α) (first second : Parser α) : Prop :=
  ∀ input, Tracks lines bytes change (first input) (second (input.shifted lines bytes))

section
variable {α β : Type} {change : α → α} {alter : β → β}

theorem Shifts.bind_made {first second : Parser α} {next again : α → Parser β}
    (start : Shifts lines bytes change first second)
    (rest : ∀ value, (∃ before after, first before = .ok (value, after)) →
      Shifts lines bytes alter (next value) (again (change value))) :
    Shifts lines bytes alter (first >>= next) (second >>= again) := by
  intro input
  have run := start input
  change Tracks lines bytes alter (first input >>= fun read => next read.1 read.2)
    (second (input.shifted lines bytes) >>= fun read => again read.1 read.2)
  rcases made : first input with error | ⟨value, middle⟩
  · rw [made] at run
    obtain ⟨other, there, same⟩ := run
    rw [there]
    exact ⟨other, rfl, same⟩
  · rw [made] at run
    rw [show second _ = _ from run]
    exact rest value ⟨input, middle, made⟩ middle

theorem Shifts.bind {first second : Parser α} {next again : α → Parser β}
    (start : Shifts lines bytes change first second)
    (rest : ∀ value, Shifts lines bytes alter (next value) (again (change value))) :
    Shifts lines bytes alter (first >>= next) (second >>= again) :=
  start.bind_made fun value _ => rest value

theorem Shifts.pure {value again : α} (same : again = change value) :
    Shifts lines bytes change (pure value : Parser α) (pure again) := by
  intro input
  exact same ▸ rfl

theorem Shifts.fail (cause : ParseCause) :
    Shifts lines bytes change (Grammar.fail cause) (Grammar.fail (cause.shifted bytes)) := by
  rintro ⟨_ | ⟨lexeme, rest⟩, stop, finish⟩
  · exact ⟨_, rfl, fun here => by rw [here]; rfl⟩
  · exact ⟨_, rfl, fun here => by rw [here]; rfl⟩

/-- What would come behind an error does not matter. -/
theorem Shifts.fail_bind (cause : ParseCause) {next again : α → Parser β} :
    Shifts lines bytes alter (Grammar.fail cause >>= next)
      (Grammar.fail (cause.shifted bytes) >>= again) := by
  have failed : Shifts lines bytes id (Grammar.fail cause : Parser α) _ := .fail cause
  refine failed.bind_made fun _ made => ?_
  obtain ⟨_, _, made⟩ := made
  exact absurd made fail_eq_ok

theorem Shifts.lift {result there : Except ParseError α}
    (moved : there = ParseError.moved 0 bytes change result) :
    Shifts lines bytes change (liftM result : Parser α) (liftM there) := by
  intro input
  subst moved
  rcases result with error | value
  · exact ⟨_, rfl, fun _ => rfl⟩
  · rfl

end

theorem next_shifted (token : Option Token) (value : Token) (sign : ∀ read, value ≠ .word read) :
    token.map (Token.shifted bytes) = some value ↔ token = some value := by
  cases token with
  | none => simp
  | some token => simp [Token.shifted_eq value sign]

theorem bare_shifted (token : Option Token) :
    (token.map (Token.shifted bytes)).bind Token.bare? = token.bind Token.bare? := by
  cases token with
  | none => rfl
  | some token => exact token.shifted_bare?

theorem shifted_word_bare (read : Word) :
    (Token.word (read.shifted bytes)).bare? = (Token.word read).bare? :=
  (Token.word read).shifted_bare?

theorem Shifts.current : Shifts lines bytes (Option.map (Token.shifted bytes)) current current := by
  rintro ⟨_ | ⟨lexeme, rest⟩, stop, finish⟩ <;> rfl

theorem Shifts.nextTokens :
    Shifts lines bytes (List.map (Token.shifted bytes)) nextTokens nextTokens := by
  intro input
  have ahead : ((input.rest.map (Lexeme.shifted lines bytes)).take 3).map Lexeme.token =
      ((input.rest.take 3).map Lexeme.token).map (Token.shifted bytes) := by
    rw [← List.map_take, List.map_map, List.map_map]
    rfl
  exact congrArg (fun tokens => Except.ok (tokens, input.shifted lines bytes)) ahead

theorem Shifts.here : Shifts lines bytes (Span.shifted bytes) here here := by
  rintro ⟨_ | ⟨lexeme, rest⟩, stop, finish⟩ <;> rfl

theorem Shifts.previousStop : Shifts lines bytes (· + bytes) previousStop previousStop :=
  fun _ => rfl

theorem Shifts.advance : Shifts lines bytes id advance advance := by
  rintro ⟨_ | ⟨lexeme, rest⟩, stop, finish⟩ <;> rfl

theorem Shifts.unexpected {α : Type} {change : α → α} :
    Shifts lines bytes change (unexpected : Parser α) unexpected := by
  refine Shifts.current.bind fun token => ?_
  cases token with
  | none => exact .fail _
  | some token => exact .fail _

theorem dropNewlines_shifted (lexemes : List Lexeme) (stop : Nat) :
    dropNewlines (lexemes.map (Lexeme.shifted lines bytes)) (stop + bytes) =
      ((dropNewlines lexemes stop).1.map (Lexeme.shifted lines bytes),
        (dropNewlines lexemes stop).2 + bytes) := by
  fun_induction dropNewlines lexemes stop with
  | case1 => rfl
  | case2 lexeme rest stop newline ih =>
    rw [List.map_cons, dropNewlines, Lexeme.shifted,
      if_pos ((Token.shifted_eq _ (by simp)).mpr newline)]
    exact ih
  | case3 lexeme rest stop other =>
    rw [List.map_cons, dropNewlines, Lexeme.shifted,
      if_neg (mt (Token.shifted_eq _ (by simp)).mp other)]

theorem Shifts.skipNewlines : Shifts lines bytes id skipNewlines skipNewlines := by
  intro input
  exact congrArg (fun left : List Lexeme × Nat => Except.ok (PUnit.unit, Input.mk left.1 left.2 _))
    (dropNewlines_shifted input.rest input.previousStop)

theorem Shifts.atWord {word : String} : Shifts lines bytes id (atWord word) (atWord word) := by
  refine Shifts.current.bind fun token => .pure ?_
  rw [bare_shifted]
  rfl

theorem Shifts.atTerminator : Shifts lines bytes id atTerminator atTerminator := by
  refine Shifts.current.bind fun token => ?_
  rcases token with _ | token
  · exact .pure rfl
  cases token with
  | word read =>
    refine .pure ?_
    simp only [Token.shifted, shifted_word_bare read]
    rfl
  | _ => exact .pure rfl

theorem Shifts.expectWord {word : String} :
    Shifts lines bytes (Span.shifted bytes) (expectWord word) (expectWord word) := by
  refine Shifts.atWord.bind fun there => ?_
  cases there
  · exact .fail _
  · exact Shifts.here.bind fun _ => Shifts.advance.bind fun _ => .pure rfl

/-- A sequence of nodes begins and ends as much further on. -/
theorem spanning_shifted {nodes : List Node} (some : nodes ≠ []) :
    spanning (Node.shiftedAll bytes nodes) = (spanning nodes).shifted bytes := by
  obtain ⟨first, others, rfl⟩ := List.exists_cons_of_ne_nil some
  rw [spanning, spanning, Node.shiftedAll_eq_map, List.head?_map, List.getLast?_map,
    List.getLast?_eq_some_getLast some]
  simp only [List.head?_cons, Option.map_some, Option.getD_some, Node.shifted_span]
  rfl

theorem list_shifted {parts : List Node} (some : parts ≠ []) :
    Node.list (Node.shiftedAll bytes parts) (spanning (Node.shiftedAll bytes parts)) =
      (Node.list parts (spanning parts)).shifted bytes := by
  rw [spanning_shifted some]
  rfl

theorem dropSeparators_shifted (parts : List Node) :
    dropSeparators (Node.shiftedAll bytes parts) =
      Node.shiftedAll bytes (dropSeparators parts) := by
  have turned : (parts.map (Node.shifted bytes)).reverse =
      parts.reverse.map (Node.shifted bytes) := List.map_reverse.symm
  rw [Node.shiftedAll_eq_map, Node.shiftedAll_eq_map, dropSeparators, dropSeparators,
    List.map_reverse, turned, List.dropWhile_map]
  congr 3
  funext part
  cases part <;> rfl

theorem Shifts.listNode (parts : List Node) : Shifts lines bytes (Node.shifted bytes)
    (listNode parts) (listNode (Node.shiftedAll bytes parts)) := by
  rw [Grammar.listNode, Grammar.listNode, dropSeparators_shifted]
  rcases dropSeparators parts with _ | ⟨first, _ | ⟨second, rest⟩⟩
  · exact .fail _
  · exact .pure rfl
  · exact .pure (list_shifted (List.cons_ne_nil _ _))

theorem substitutedCommand_shifted (nodes : List Node) :
    substitutedCommand (Node.shiftedAll bytes nodes) =
      ParseError.moved 0 bytes (Node.shifted bytes) (substitutedCommand nodes) := by
  have parts (nodes : List Node) :
      (Node.shiftedAll bytes nodes).flatMap (fun node =>
          [.operator "\n" ⟨node.span.start, node.span.start⟩, node]) =
        Node.shiftedAll bytes (nodes.flatMap fun node =>
          [.operator "\n" ⟨node.span.start, node.span.start⟩, node]) := by
    induction nodes with
    | nil => rfl
    | cons node rest ih =>
      rw [Node.shiftedAll, List.flatMap_cons, List.flatMap_cons, Node.shiftedAll_append, ih,
        Node.shifted_span]
      rfl
  rcases nodes with _ | ⟨first, _ | ⟨second, rest⟩⟩
  · rfl
  · rfl
  · have later := congrArg (first.shifted bytes :: ·) (parts (second :: rest))
    exact congrArg Except.ok
      ((congrArg (fun parts => Node.list parts (spanning parts)) later).trans
        (list_shifted (List.cons_ne_nil first _)))

/-- The text of a substitution that begins further on has the same commands, further on. -/
def Inner.Shifts (bytes : Nat) (inner : Inner) : Prop :=
  ∀ body start, inner body (start + bytes) =
    ParseError.moved 0 bytes (Node.shiftedAll bytes) (inner body start)

section
variable {inner : Inner} (moves : inner.Shifts bytes)
include moves

theorem partsOf_shifted (pieces : List Word.Piece) :
    partsOf inner (pieces.map (Word.Piece.shifted bytes)) =
      ParseError.moved 0 bytes (Node.shiftedAll bytes) (partsOf inner pieces) := by
  fun_induction partsOf inner pieces with
  | case1 => rfl
  | case2 _ _ ih => exact ih
  | case3 _ _ ih => exact ih
  | case4 value span rest ih =>
    rw [List.map_cons, Word.Piece.shifted, partsOf, ih]
    cases partsOf inner rest <;> rfl
  | case5 body span bodyStart rest ih =>
    rw [List.map_cons, Word.Piece.shifted, partsOf, ih, moves]
    rcases inner body bodyStart with _ | nodes
    · rfl
    change (substitutedCommand (Node.shiftedAll bytes nodes) >>= _) =
      ParseError.moved 0 bytes _ (substitutedCommand nodes >>= _)
    rw [substitutedCommand_shifted]
    rcases substitutedCommand nodes with _ | command
    · rfl
    rcases partsOf inner rest with _ | parts
    · rfl
    · rfl

theorem Shifts.wordOf (read : Word) (span : Span) : Shifts lines bytes (Node.shifted bytes)
    (wordOf inner read span) (wordOf inner (read.shifted bytes) (span.shifted bytes)) := by
  rw [Grammar.wordOf, Grammar.wordOf, Word.shifted_text]
  exact (Shifts.lift (partsOf_shifted moves _)).bind fun _ => .pure rfl

theorem Shifts.assignmentOf (read : Word) (span : Span) : Shifts lines bytes (Node.shifted bytes)
    (assignmentOf inner read span)
    (assignmentOf inner (read.shifted bytes) (span.shifted bytes)) := by
  rw [Grammar.assignmentOf, Grammar.assignmentOf, Word.shifted_text]
  exact (Shifts.lift (partsOf_shifted moves _)).bind fun _ => .pure rfl

theorem Shifts.redirect (kind : RedirectKind) :
    Shifts lines bytes (Node.shifted bytes) (redirect inner kind) (redirect inner kind) := by
  refine Shifts.here.bind fun _ => Shifts.advance.bind fun _ => Shifts.here.bind fun span =>
    Shifts.current.bind fun token => ?_
  rcases token with _ | (read | _ | _ | _ | _ | _ | _ | _ | _ | _)
  case some.word =>
    exact (Shifts.wordOf moves read span).bind fun _ => Shifts.advance.bind fun _ => .pure rfl
  all_goals exact .fail _

end

theorem Shifts.unlessClosed {topLevel : Bool} {rest again : Parser (List Node)}
    (onward : Shifts lines bytes (Node.shiftedAll bytes) rest again) :
    Shifts lines bytes (Node.shiftedAll bytes)
      (if (!topLevel) = true then do
        Grammar.skipNewlines
        let there ← Grammar.atTerminator
        if there = true then Pure.pure [] else rest
      else rest)
      (if (!topLevel) = true then do
        Grammar.skipNewlines
        let there ← Grammar.atTerminator
        if there = true then Pure.pure [] else again
      else again) := by
  cases topLevel
  · refine Shifts.skipNewlines.bind fun _ => Shifts.atTerminator.bind fun there => ?_
    cases there
    · exact onward
    · exact .pure rfl
  · exact onward

theorem pipelineParts_ne_nil {inner : Inner} {fuel : Nat} {parts : List Node}
    {before after : Input} (made : pipelineParts inner fuel before = .ok (parts, after)) :
    parts ≠ [] := by
  cases fuel with
  | zero => exact absurd made fail_eq_ok
  | succ fuel =>
    obtain ⟨first, middle, -, rest⟩ := pipelineParts_eq_ok.mp made
    split at rest
    · obtain ⟨_, -, rfl⟩ := rest
      exact List.cons_ne_nil _ _
    · exact rest.1 ▸ List.cons_ne_nil _ _

/-- The functions of the grammar do somewhere else what they do here when they may call each other
`fuel` deep. -/
structure Movable (lines bytes : Nat) (inner : Inner) (fuel : Nat) : Prop where
  listParts : ∀ topLevel, Shifts lines bytes (Node.shiftedAll bytes)
    (listParts inner fuel topLevel) (listParts inner fuel topLevel)
  list : ∀ topLevel, Shifts lines bytes (Node.shifted bytes) (list inner fuel topLevel)
    (list inner fuel topLevel)
  andOr : Shifts lines bytes (Node.shiftedAll bytes) (andOr inner fuel) (andOr inner fuel)
  pipeline : Shifts lines bytes (Node.shifted bytes) (pipeline inner fuel) (pipeline inner fuel)
  pipelineParts : Shifts lines bytes (Node.shiftedAll bytes) (pipelineParts inner fuel)
    (pipelineParts inner fuel)
  command : Shifts lines bytes (Node.shifted bytes) (command inner fuel) (command inner fuel)
  simpleCommand : Shifts lines bytes (Node.shifted bytes) (simpleCommand inner fuel)
    (simpleCommand inner fuel)
  simpleParts : ∀ named, Shifts lines bytes (Node.shiftedAll bytes) (simpleParts inner fuel named)
    (simpleParts inner fuel named)
  redirects : Shifts lines bytes (Node.shiftedAll bytes) (redirects inner fuel)
    (redirects inner fuel)
  group : ∀ opening closing, Shifts lines bytes (Node.shifted bytes)
    (group inner fuel opening closing) (group inner fuel opening closing)
  items : Shifts lines bytes (Node.shiftedAll bytes) (items inner fuel) (items inner fuel)
  skipSeparators : Shifts lines bytes id (skipSeparators fuel) (skipSeparators fuel)
  forLoop : Shifts lines bytes (Node.shifted bytes) (forLoop inner fuel) (forLoop inner fuel)
  conditional : Shifts lines bytes (Node.shifted bytes) (conditional inner fuel)
    (conditional inner fuel)
  clauses : ∀ keyword, Shifts lines bytes (Clause.shiftedAll bytes) (clauses inner fuel keyword)
    (clauses inner fuel keyword)
  definition : Shifts lines bytes (Node.shifted bytes) (definition inner fuel)
    (definition inner fuel)

theorem Movable.none (inner : Inner) : Movable lines bytes inner 0 := by
  constructor <;> intros <;> exact .fail .tooDeep

section
variable {inner : Inner} {fuel : Nat} (movable : Movable lines bytes inner fuel)
include movable

theorem Movable.listParts_succ (topLevel : Bool) : Shifts lines bytes (Node.shiftedAll bytes)
    (Grammar.listParts inner (fuel + 1) topLevel)
    (Grammar.listParts inner (fuel + 1) topLevel) := by
  rw [Grammar.listParts]
  refine .unlessClosed (movable.andOr.bind fun parts => Shifts.here.bind fun span =>
    Shifts.current.bind fun token => ?_)
  extract_lets onward again
  have continued (op : Option String) :
      Shifts lines bytes (Node.shiftedAll bytes) (onward op) (again op) := by
    rcases op with _ | op
    · exact .pure rfl
    · refine Shifts.advance.bind fun _ => ?_
      extract_lets longer more moved further
      have grown : moved = Node.shiftedAll bytes longer :=
        (Node.shiftedAll_append parts [.operator op span]).symm
      have later (start : Unit) :
          Shifts lines bytes (Node.shiftedAll bytes) (more start) (further start) := by
        refine Shifts.current.bind fun token => ?_
        rw [grown]
        have onwards : Shifts lines bytes (Node.shiftedAll bytes)
            (do return longer ++ (← Grammar.listParts inner fuel topLevel))
            (do return Node.shiftedAll bytes longer ++
              (← Grammar.listParts inner fuel topLevel)) :=
          (movable.listParts topLevel).bind fun rest =>
            .pure (Node.shiftedAll_append longer rest).symm
        cases topLevel
        case false => exact onwards
        rcases token with _ | (_ | _ | _ | _ | _ | _ | _ | _ | _ | _)
        case none => exact .pure rfl
        case some.newline => exact .pure rfl
        all_goals exact onwards
      split
      · exact Shifts.skipNewlines.bind later
      · exact later ()
  rcases token with _ | (_ | _ | _ | _ | _ | _ | _ | _ | _ | _)
  all_goals exact (Shifts.pure rfl).bind continued

theorem Movable.list_succ (topLevel : Bool) : Shifts lines bytes (Node.shifted bytes)
    (Grammar.list inner (fuel + 1) topLevel) (Grammar.list inner (fuel + 1) topLevel) := by
  rw [Grammar.list]
  exact (movable.listParts topLevel).bind .listNode

theorem Movable.andOr_succ : Shifts lines bytes (Node.shiftedAll bytes)
    (Grammar.andOr inner (fuel + 1)) (Grammar.andOr inner (fuel + 1)) := by
  rw [Grammar.andOr]
  refine movable.pipeline.bind fun first => Shifts.here.bind fun span =>
    Shifts.current.bind fun token => ?_
  extract_lets onward again
  have each (op : String) : Shifts lines bytes (Node.shiftedAll bytes) (onward op) (again op) :=
    Shifts.advance.bind fun _ => Shifts.skipNewlines.bind fun _ =>
      movable.andOr.bind fun _ => .pure rfl
  rcases token with _ | (_ | _ | _ | _ | _ | _ | _ | _ | _ | _)
  case some.and => exact (Shifts.pure rfl).bind each
  case some.or => exact (Shifts.pure rfl).bind each
  all_goals exact .pure rfl

theorem Movable.pipeline_succ : Shifts lines bytes (Node.shifted bytes)
    (Grammar.pipeline inner (fuel + 1)) (Grammar.pipeline inner (fuel + 1)) := by
  rw [Grammar.pipeline]
  -- only a span of no nodes at all would stay where it is
  refine movable.pipelineParts.bind_made fun parts made => ?_
  obtain ⟨before, after, made⟩ := made
  rcases parts with _ | ⟨first, _ | ⟨second, rest⟩⟩
  · exact absurd rfl (pipelineParts_ne_nil made)
  · exact .pure rfl
  · refine .pure ?_
    exact congrArg (Node.pipeline (Node.shiftedAll bytes (first :: second :: rest)))
      (spanning_shifted (List.cons_ne_nil first (second :: rest)))

theorem Movable.pipelineParts_succ : Shifts lines bytes (Node.shiftedAll bytes)
    (Grammar.pipelineParts inner (fuel + 1)) (Grammar.pipelineParts inner (fuel + 1)) := by
  rw [Grammar.pipelineParts]
  refine movable.command.bind fun first => Shifts.here.bind fun span =>
    Shifts.current.bind fun token => ?_
  rcases token with _ | (_ | _ | _ | _ | _ | _ | _ | _ | _ | _)
  case some.pipe =>
    exact Shifts.advance.bind fun _ => Shifts.skipNewlines.bind fun _ =>
      movable.pipelineParts.bind fun _ => .pure rfl
  all_goals exact .pure rfl

theorem Movable.command_succ : Shifts lines bytes (Node.shifted bytes)
    (Grammar.command inner (fuel + 1)) (Grammar.command inner (fuel + 1)) := by
  rw [Grammar.command]
  refine Shifts.nextTokens.bind fun tokens => ?_
  rcases tokens with _ | ⟨token, later⟩
  · exact .fail _
  rcases token with read | _ | _ | _ | _ | _ | _ | _ | _ | _
  case leftParen => exact movable.group "(" ")"
  case word =>
    simp only [List.map_cons, Token.shifted, shifted_word_bare read]
    split
    · exact movable.simpleCommand
    split
    · exact movable.group _ _
    split
    · exact movable.conditional
    split
    · exact movable.forLoop
    split
    · exact movable.definition
    rcases later with _ | ⟨second, later⟩
    · exact movable.simpleCommand
    rcases second with _ | _ | _ | _ | _ | _ | _ | _ | _ | _
    case leftParen =>
      rcases later with _ | ⟨third, later⟩
      · exact movable.simpleCommand
      rcases third with _ | _ | _ | _ | _ | _ | _ | _ | _ | _
      case rightParen => exact movable.definition
      all_goals exact movable.simpleCommand
    all_goals exact movable.simpleCommand
  all_goals exact movable.simpleCommand

theorem Movable.simpleCommand_succ : Shifts lines bytes (Node.shifted bytes)
    (Grammar.simpleCommand inner (fuel + 1)) (Grammar.simpleCommand inner (fuel + 1)) := by
  rw [Grammar.simpleCommand]
  refine Shifts.here.bind fun start => (movable.simpleParts false).bind fun parts => ?_
  cases parts with
  | nil => exact .unexpected
  | cons first others => exact Shifts.previousStop.bind fun _ => .pure rfl

end

section
variable {inner : Inner} {fuel : Nat} (moves : inner.Shifts bytes)
  (movable : Movable lines bytes inner fuel)
include moves movable

theorem Movable.simpleParts_succ (named : Bool) : Shifts lines bytes (Node.shiftedAll bytes)
    (Grammar.simpleParts inner (fuel + 1) named) (Grammar.simpleParts inner (fuel + 1) named) := by
  rw [Grammar.simpleParts]
  refine Shifts.here.bind fun span => Shifts.current.bind fun token => ?_
  rcases token with _ | (read | _ | _ | _ | _ | _ | _ | kind | _ | _)
  case some.word =>
    refine Shifts.advance.bind fun _ => ?_
    have form : isAssignment (read.shifted bytes) = isAssignment read := by
      rw [isAssignment, isAssignment, Word.shifted_text]
    rw [form]
    split
    · exact (Shifts.assignmentOf moves read span).bind fun _ =>
        (movable.simpleParts named).bind fun _ => .pure rfl
    · exact (Shifts.wordOf moves read span).bind fun _ =>
        (movable.simpleParts true).bind fun _ => .pure rfl
  case some.redirect =>
    exact (Shifts.redirect moves kind).bind fun _ => (movable.simpleParts named).bind fun _ =>
      .pure rfl
  all_goals exact .pure rfl

theorem Movable.redirects_succ : Shifts lines bytes (Node.shiftedAll bytes)
    (Grammar.redirects inner (fuel + 1)) (Grammar.redirects inner (fuel + 1)) := by
  rw [Grammar.redirects]
  refine Shifts.current.bind fun token => ?_
  rcases token with _ | (_ | _ | _ | _ | _ | _ | _ | kind | _ | _)
  case some.redirect =>
    exact (Shifts.redirect moves kind).bind fun _ => movable.redirects.bind fun _ => .pure rfl
  all_goals exact .pure rfl

theorem Movable.items_succ : Shifts lines bytes (Node.shiftedAll bytes)
    (Grammar.items inner (fuel + 1)) (Grammar.items inner (fuel + 1)) := by
  rw [Grammar.items]
  refine Shifts.here.bind fun span => Shifts.current.bind fun token => ?_
  rcases token with _ | (read | _ | _ | _ | _ | _ | _ | _ | _ | _)
  case some.word =>
    exact Shifts.advance.bind fun _ => (Shifts.wordOf moves read span).bind fun _ =>
      movable.items.bind fun _ => .pure rfl
  all_goals exact .pure rfl

end

section
variable {inner : Inner} {fuel : Nat} (movable : Movable lines bytes inner fuel)
include movable

theorem Movable.group_succ (opening closing : String) : Shifts lines bytes (Node.shifted bytes)
    (Grammar.group inner (fuel + 1) opening closing)
    (Grammar.group inner (fuel + 1) opening closing) := by
  rw [Grammar.group]
  refine Shifts.here.bind fun openSpan => Shifts.advance.bind fun _ =>
    (movable.list false).bind fun body => Shifts.here.bind fun closeSpan => ?_
  extract_lets finish onward finished again
  have last (start : Unit) :
      Shifts lines bytes (Node.shifted bytes) (finish start) (finished start) :=
    Shifts.advance.bind fun _ => movable.redirects.bind fun _ =>
      Shifts.previousStop.bind fun _ => .pure rfl
  have closes (closed : Bool) :
      Shifts lines bytes (Node.shifted bytes) (onward closed) (again closed) := by
    cases closed
    · exact .fail_bind _
    · exact last ()
  split
  · refine Shifts.current.bind fun token => (Shifts.pure ?_).bind closes
    exact decide_eq_decide.mpr (next_shifted token .rightParen (by simp))
  · exact Shifts.atWord.bind closes

theorem Movable.skipSeparators_succ : Shifts lines bytes id
    (Grammar.skipSeparators (fuel + 1)) (Grammar.skipSeparators (fuel + 1)) := by
  rw [Grammar.skipSeparators]
  refine Shifts.current.bind fun token => ?_
  rcases token with _ | (_ | _ | _ | _ | _ | _ | _ | _ | _ | _)
  case some.newline => exact Shifts.advance.bind fun _ => movable.skipSeparators
  case some.semicolon => exact Shifts.advance.bind fun _ => movable.skipSeparators
  all_goals exact .pure rfl

theorem Movable.forLoop_succ : Shifts lines bytes (Node.shifted bytes)
    (Grammar.forLoop inner (fuel + 1)) (Grammar.forLoop inner (fuel + 1)) := by
  rw [Grammar.forLoop]
  refine Shifts.expectWord.bind fun start => ?_
  extract_lets begin onward further again
  refine Shifts.current.bind fun token => ?_
  have each (name : String) :
      Shifts lines bytes (Node.shifted bytes) (onward name) (again name) := by
    refine Shifts.advance.bind fun _ => Shifts.skipNewlines.bind fun _ =>
      Shifts.atWord.bind fun there => ?_
    extract_lets body others
    have looped (items : List Node) : Shifts lines bytes (Node.shifted bytes) (body items)
        (others (Node.shiftedAll bytes items)) :=
      movable.skipSeparators.bind fun _ => Shifts.expectWord.bind fun _ =>
        (movable.list false).bind fun _ => Shifts.expectWord.bind fun _ => .pure rfl
    cases there
    · exact Shifts.here.bind fun span => (Shifts.pure rfl).bind looped
    · exact Shifts.advance.bind fun _ => movable.items.bind looped
  rw [bare_shifted]
  split
  · split
    · exact (Shifts.pure rfl).bind each
    · exact .fail_bind _
  · exact .fail_bind _

theorem Movable.conditional_succ : Shifts lines bytes (Node.shifted bytes)
    (Grammar.conditional inner (fuel + 1)) (Grammar.conditional inner (fuel + 1)) := by
  rw [Grammar.conditional]
  exact Shifts.expectWord.bind fun _ => (movable.clauses "if").bind fun _ =>
    Shifts.expectWord.bind fun _ => .pure rfl

theorem Movable.clauses_succ (keyword : String) : Shifts lines bytes (Clause.shiftedAll bytes)
    (Grammar.clauses inner (fuel + 1) keyword) (Grammar.clauses inner (fuel + 1) keyword) := by
  rw [Grammar.clauses]
  refine (movable.list false).bind fun condition => Shifts.expectWord.bind fun _ =>
    (movable.list false).bind fun body => Shifts.atWord.bind fun there => ?_
  cases there
  · refine Shifts.atWord.bind fun there => ?_
    cases there
    · exact .pure rfl
    · exact Shifts.advance.bind fun _ => (movable.list false).bind fun _ => .pure rfl
  · exact Shifts.advance.bind fun _ => (movable.clauses "elif").bind fun _ => .pure rfl

theorem Movable.definition_succ : Shifts lines bytes (Node.shifted bytes)
    (Grammar.definition inner (fuel + 1)) (Grammar.definition inner (fuel + 1)) := by
  rw [Grammar.definition]
  refine Shifts.here.bind fun start => ?_
  extract_lets begin named headed further called again
  have each (name : String) :
      Shifts lines bytes (Node.shifted bytes) (named name) (called name) := by
    refine Shifts.advance.bind fun _ => ?_
    extract_lets finish bodied paired finished body pair
    have last (node : Node) :
        Shifts lines bytes (Node.shifted bytes) (finish node) (finished (node.shifted bytes)) :=
      Shifts.previousStop.bind fun _ => .pure rfl
    have inside (start : Unit) :
        Shifts lines bytes (Node.shifted bytes) (bodied start) (body start) := by
      refine Shifts.skipNewlines.bind fun _ => Shifts.current.bind fun token => ?_
      rw [if_congr (next_shifted token .leftParen (by simp)) rfl rfl]
      split
      · exact (movable.group _ _).bind last
      · refine Shifts.atWord.bind fun there => ?_
        cases there
        · exact .fail_bind _
        · exact (movable.group _ _).bind last
    have behind (start : Unit) :
        Shifts lines bytes (Node.shifted bytes) (paired start) (pair start) :=
      Shifts.advance.bind inside
    refine Shifts.current.bind fun token => ?_
    rw [if_congr (next_shifted token .leftParen (by simp)) rfl rfl]
    split
    · refine Shifts.advance.bind fun _ => Shifts.current.bind fun token => ?_
      rw [if_congr (not_congr (next_shifted token .rightParen (by simp))) rfl rfl]
      split
      · exact .fail_bind _
      · exact behind ()
    · exact inside ()
  have head (start : Unit) :
      Shifts lines bytes (Node.shifted bytes) (headed start) (again start) := by
    refine Shifts.current.bind fun token => ?_
    rw [bare_shifted]
    split
    · exact (Shifts.pure rfl).bind each
    · exact .fail_bind _
  refine Shifts.atWord.bind fun there => ?_
  cases there
  · exact head ()
  · exact Shifts.advance.bind head

end

/-- Each function of the grammar, however deep the calls. -/
theorem Movable.all {inner : Inner} (moves : inner.Shifts bytes) (fuel : Nat) :
    Movable lines bytes inner fuel := by
  induction fuel with
  | zero => exact .none inner
  | succ fuel movable =>
    exact {
      listParts := movable.listParts_succ
      list := movable.list_succ
      andOr := movable.andOr_succ
      pipeline := movable.pipeline_succ
      pipelineParts := movable.pipelineParts_succ
      command := movable.command_succ
      simpleCommand := movable.simpleCommand_succ
      simpleParts := movable.simpleParts_succ moves
      redirects := movable.redirects_succ moves
      group := movable.group_succ
      items := movable.items_succ moves
      skipSeparators := movable.skipSeparators_succ
      forLoop := movable.forLoop_succ
      conditional := movable.conditional_succ
      clauses := movable.clauses_succ
      definition := movable.definition_succ }

theorem Shifts.script {inner : Inner} (moves : inner.Shifts bytes) (fuel : Nat) :
    Shifts lines bytes (Node.shiftedAll bytes) (script inner fuel) (script inner fuel) := by
  induction fuel with
  | zero => exact .fail _
  | succ fuel ih =>
    rw [Grammar.script]
    refine Shifts.skipNewlines.bind fun _ => Shifts.current.bind fun token => ?_
    cases token with
    | none => exact .pure rfl
    | some _ =>
      refine ((Movable.all moves fuel).list true).bind fun node =>
        Shifts.current.bind fun token => ?_
      have onward : Shifts lines bytes (Node.shiftedAll bytes)
          (do return node :: (← Grammar.script inner fuel))
          (do return node.shifted bytes :: (← Grammar.script inner fuel)) :=
        ih.bind fun _ => .pure rfl
      rcases token with _ | (_ | _ | _ | _ | _ | _ | _ | _ | _ | _)
      case none => exact onward
      case some.newline => exact onward
      all_goals exact .unexpected

end

end Grammar

namespace Script

/-- A text is parsed at an offset as at any other one: what comes of it, an error too, is as much
further on as the text is. -/
theorem parseAt_shifted (text : List Char) (offset bytes : Nat) :
    parseAt text (offset + bytes) =
      ParseError.moved 0 bytes (Node.shiftedAll bytes) (parseAt text offset) := by
  induction h : text.length using Nat.strong_induction_on generalizing text offset with
  | _ length ih =>
    subst h
    rw [parseAt.eq_def text (offset + bytes), parseAt.eq_def text offset, lex_shifted]
    rcases lex text offset with error | lexemes
    · rfl
    let inner : Grammar.Inner := fun body start =>
      if body.length < text.length then parseAt body start else .error .emptySubstitution
    have moves : inner.Shifts bytes := by
      intro body start
      dsimp only [inner]
      split
      · exact ih _ ‹_› body start rfl
      · rfl
    let finish := (lexemes.getLast?.map (·.stop)).getD (Position.starting offset)
    have ends : (((lexemes.map (Lexeme.shifted 0 bytes)).getLast?.map (·.stop)).getD
        (Position.starting (offset + bytes))) = finish.shifted 0 bytes := by
      rw [List.getLast?_map]
      dsimp only [finish]
      cases lexemes.getLast? <;> rfl
    have run : Grammar.Tracks 0 bytes (Node.shiftedAll bytes) _ _ :=
      Grammar.Shifts.script moves (Grammar.fuelFor lexemes.length) ⟨lexemes, finish.offset, finish⟩
    change (Grammar.script inner (Grammar.fuelFor (lexemes.map _).length)
      ⟨lexemes.map (Lexeme.shifted 0 bytes), _, _⟩ >>= fun read => .ok read.1) =
        ParseError.moved 0 bytes _ (Grammar.script inner (Grammar.fuelFor lexemes.length)
          ⟨lexemes, finish.offset, finish⟩ >>= fun read => .ok read.1)
    rw [ends, List.length_map]
    generalize Grammar.script inner _ ⟨lexemes, finish.offset, finish⟩ = here at run
    rcases here with error | ⟨nodes, left⟩
    · obtain ⟨other, there, same⟩ := run
      obtain rfl := same rfl
      exact congrArg (· >>= fun read => .ok read.1) there
    · exact congrArg (· >>= fun read => .ok read.1) run

end Script

end StepShell

import StepShell.Node.Equality
import StepShell.Proofs.Effect
import StepShell.Proofs.Script.Positions
import StepShell.Proofs.Script.Shifting

/-! A script is read line by line. What is read up to the end of a script is read the same with
another line behind it, unless it could go on there: only a nested list passes over the end of a
line, and it does not come to an end before a token closes it. -/

namespace StepShell

namespace Grammar

section
variable {before after more rest : List Lexeme}

/-- The tokens are those of another line, the end of the line before it first. -/
def Breaks (more : List Lexeme) : Prop :=
  next more = some .newline

theorem next_append (some : after ≠ []) : next (after ++ more) = next after := by
  obtain ⟨first, others, rfl⟩ := List.exists_cons_of_ne_nil some
  rfl

/-- What the next token is not, it is not in another line, if it is no line end. -/
theorem next_append_ne (breaks : Breaks more) {token : Token} (other : next after ≠ some token)
    (line : token ≠ .newline) : next (after ++ more) ≠ some token := by
  cases after with
  | nil =>
    rw [List.nil_append, breaks]
    exact fun same => line (Option.some.inj same).symm
  | cons => exact other

theorem next_append_bind (breaks : Breaks more) {α : Type} {view : Token → Option α}
    (other : (next after).bind view = none) (line : view .newline = none) :
    (next (after ++ more)).bind view = none := by
  cases after with
  | nil => rw [List.nil_append, breaks, Option.bind_some, line]
  | cons => exact other

theorem pastNewlines_append (some : pastNewlines before ≠ []) :
    pastNewlines (before ++ more) = pastNewlines before ++ more := by
  have goes : ¬(before.dropWhile (·.token = .newline)).isEmpty = true :=
    mt List.isEmpty_iff.mp some
  rw [pastNewlines, List.dropWhile_append, if_neg goes]
  rfl

theorem pastNewlines_append_nil (nothing : pastNewlines before = []) :
    pastNewlines (before ++ more) = pastNewlines more := by
  have ended : (before.dropWhile (·.token = .newline)).isEmpty = true :=
    List.isEmpty_iff.mpr nothing
  rw [pastNewlines, List.dropWhile_append, if_pos ended]
  rfl

theorem pastNewlines_append_cons {first : Lexeme} (here : pastNewlines before = first :: rest) :
    pastNewlines (before ++ more) = first :: (rest ++ more) := by
  rw [pastNewlines_append (here ▸ List.cons_ne_nil _ _), here, List.cons_append]

theorem pastSeparators_append_cons {first : Lexeme}
    (here : pastSeparators before = first :: rest) :
    pastSeparators (before ++ more) = first :: (rest ++ more) := by
  rw [pastSeparators, List.dropWhile_append, if_neg]
  · exact congrArg (· ++ more) here
  · rw [show List.dropWhile _ before = _ from here]
    simp

theorem endsList_append (some : before ≠ []) : endsList (before ++ more) = endsList before := by
  rw [endsList, endsList, next_append some]

theorem endsLine_append (breaks : Breaks more) (ends : endsLine after = true) :
    endsLine (after ++ more) = true := by
  cases after with
  | nil => simp [endsLine, show next more = _ from breaks]
  | cons => exact ends

theorem endsLine_append_false (goes : endsLine after = false) :
    endsLine (after ++ more) = false := by
  cases after with
  | nil => cases goes
  | cons => exact goes

theorem Takes.ne_nil {least : Nat} (takes : Takes least before after) (some : 0 < least) :
    before ≠ [] := by
  rintro rfl
  have := takes.length
  rw [List.length_nil] at this
  omega

theorem Reads.chain_ne_nil {parts : List Node} (read : Reads (.chain parts) before after) :
    parts ≠ [] := by
  cases read <;> exact List.cons_ne_nil _ _

theorem Opens.append {topLevel : Bool} (opens : Opens topLevel before rest) :
    Opens topLevel (before ++ more) (rest ++ more) := by
  cases topLevel with
  | true => exact congrArg (· ++ more) opens
  | false =>
    obtain ⟨rfl, goes⟩ := opens
    have some : pastNewlines before ≠ [] := fun nothing => by
      rw [nothing] at goes
      cases goes
    exact ⟨(pastNewlines_append some).symm, (endsList_append some).trans goes⟩

theorem Parens.append (breaks : Breaks more) (parens : Parens before after) :
    Parens (before ++ more) (after ++ more) := by
  cases parens with
  | none other => exact .none (next_append_ne breaks other (by simp))
  | pair first second => exact .pair first second

theorem beginsSimple_append (breaks : Breaks more) (begins : beginsSimple before = true) :
    beginsSimple (before ++ more) = true := by
  rcases before with _ | ⟨first, later⟩
  · cases begins
  rcases more with _ | ⟨line, more⟩
  · cases breaks
  have ends : line.token = .newline := Option.some.inj breaks
  have ahead : (((later ++ line :: more).map Lexeme.token).take 2 == [.leftParen, .rightParen]) =
      ((later.map Lexeme.token).take 2 == [.leftParen, .rightParen]) := by
    rw [Bool.eq_iff_iff, beq_iff_eq, beq_iff_eq]
    rcases later with _ | ⟨second, _ | ⟨third, rest⟩⟩ <;> simp [ends]
  rwa [List.cons_append, beginsSimple, ahead]

theorem Reads.behind {phrase : Phrase} (read : Reads phrase (pastNewlines before ++ more) after)
    (some : pastNewlines before ≠ []) : Reads phrase (pastNewlines (before ++ more)) after := by
  rwa [pastNewlines_append some]

/-- The phrase takes the same tokens with another line behind them. -/
def Phrase.Extended (more before after : List Lexeme) : Phrase → Prop
  | .pieces _ _ | .script _ => True
  | .entries false nodes =>
    after ≠ [] → Reads (.entries false nodes) (before ++ more) (after ++ more)
  | .list false node => after ≠ [] → Reads (.list false node) (before ++ more) (after ++ more)
  | .clauses keyword each =>
    after ≠ [] → Reads (.clauses keyword each) (before ++ more) (after ++ more)
  | phrase => Reads phrase (before ++ more) (after ++ more)

theorem Reads.extended {phrase : Phrase} (breaks : Breaks more)
    (read : Reads phrase before after) : phrase.Extended more before after := by
  induction read with
  | noPieces => trivial
  | plain => trivial
  | guarded => trivial
  | reference => trivial
  | substitution => trivial
  | word token pieces => exact .word token pieces
  | redirect token _ leads => exact .redirect token leads
  -- a phrase that stopped at the last token stops at the line end, with which none goes on
  | noRedirect other =>
    exact .noRedirect fun kind => next_append_ne breaks (other kind) (by simp)
  | redirects _ _ here later => exact .redirects here later
  | noPart word redirect =>
    exact .noPart (fun read => next_append_ne breaks (word read) (by simp))
      fun kind => next_append_ne breaks (redirect kind) (by simp)
  | assignment token form pieces _ _ later => exact .assignment token form pieces later
  | argument token form _ _ here later => exact .argument token form here later
  | redirected _ _ here later => exact .redirected here later
  | noItem other => exact .noItem fun read => next_append_ne breaks (other read) (by simp)
  | items _ _ here later => exact .items here later
  | group pair _ _ inside behind => exact .group pair (inside (List.cons_ne_nil _ _)) behind
  | clause test then_ _ noElif noElse condition inside =>
    intro some
    exact .clause (condition (List.cons_ne_nil _ _)) then_ (inside some)
      (by rwa [next_append some]) (by rwa [next_append some])
  | clauseElse _ then_ _ else_ _ test inside otherwise =>
    intro some
    exact .clauseElse (test (List.cons_ne_nil _ _)) then_ (inside (List.cons_ne_nil _ _)) else_
      (otherwise some)
  | clauseElif _ then_ _ elif_ _ test inside later =>
    intro some
    exact .clauseElif (test (List.cons_ne_nil _ _)) then_ (inside (List.cons_ne_nil _ _)) elif_
      (later some)
  | simple begins some _ read => exact .simple (beginsSimple_append breaks begins) some read
  | grouped _ group => exact .grouped group
  | forIn for_ named form newlines in_ _ separators do_ _ done_ values inside =>
    exact .forIn for_ named form (pastNewlines_append_cons newlines) in_ values
      (pastSeparators_append_cons separators) do_ (inside (List.cons_ne_nil _ _)) done_
  | forEach for_ named form newlines noIn separators do_ _ done_ inside =>
    exact .forEach for_ named form (pastNewlines_append_cons newlines) noIn
      (pastSeparators_append_cons separators) do_ (inside (List.cons_ne_nil _ _)) done_
  | conditional if_ _ fi_ read => exact .conditional if_ (read (List.cons_ne_nil _ _)) fi_
  | function function_ named parens read inside =>
    exact .function function_ named (parens.append breaks)
      (inside.behind (read.takes.ne_nil Nat.one_pos))
  | definition named unreserved first second read inside =>
    exact .definition named unreserved first second (inside.behind (read.takes.ne_nil Nat.one_pos))
  | stage _ last here => exact .stage here (next_append_ne breaks last (by simp))
  | pipe _ token read here later =>
    exact .pipe here token (later.behind
      (read.takes.ne_nil (List.length_pos_of_ne_nil read.stages_ne_nil)))
  | single _ read => exact .single read
  | pipeline several _ read => exact .pipeline several read
  | link _ last here => exact .link here (next_append_bind breaks last rfl)
  | chain _ token read here later =>
    exact .chain here token (later.behind
      (read.takes.ne_nil (List.length_pos_of_ne_nil read.chain_ne_nil)))
  | noEntry closed =>
    intro some
    rw [← pastNewlines_append some]
    refine .noEntry ?_
    rw [pastNewlines_append some, endsList_append some, closed]
  -- a nested list goes on behind a line end, so that it has stopped at a token matters
  | @entry topLevel _ _ _ _ opens _ last here =>
    cases topLevel with
    | true => exact .entry opens.append here (next_append_bind breaks last rfl)
    | false => exact fun some => .entry opens.append here (by rwa [next_append some])
  | lastEntry _ token line here => exact .lastEntry here token (endsLine_append breaks line)
  | @entries topLevel _ _ _ _ _ _ _ _ opens _ token goes _ here later =>
    cases topLevel with
    | true =>
      exact .entries opens.append here token (fun _ => endsLine_append_false (goes rfl)) later
    | false => exact fun some => .entries opens.append here token (by simp) (later some)
  | @list topLevel _ _ _ _ _ made read =>
    cases topLevel with
    | true => exact .list read made
    | false => exact fun some => .list (read some) made
  | ended => trivial
  | line => trivial

/-- The scripts in any words are parsed. -/
theorem parseAt_servesAll (lexemes : List Lexeme) : Inner.ServesAll Script.parseAt lexemes :=
  fun _ _ _ _ body _ start _ _ _ tokens inside => Script.parseAt_of_reads body start tokens inside

/-- The line that begins with these tokens is the only one that does. -/
theorem Reads.list_unique {topLevel : Bool} {node other : Node} {left : List Lexeme}
    (read : Reads (.list topLevel node) before after)
    (again : Reads (.list topLevel other) before left) : other = node ∧ left = after := by
  obtain ⟨_, first, rfl⟩ := read.recognized Script.parseAt_reads (parseAt_servesAll _) _
    (Nat.le_refl _) ⟨before, 0, default⟩ rfl
  obtain ⟨_, second, rfl⟩ := again.recognized Script.parseAt_reads (parseAt_servesAll _) _
    (Nat.le_refl _) ⟨before, 0, default⟩ rfl
  cases first.symm.trans second
  exact ⟨rfl, rfl⟩

/-- A script begins where its first line does. -/
theorem Reads.script_congr {nodes : List Node} {other : List Lexeme}
    (same : pastNewlines before = pastNewlines other) :
    Reads (.script nodes) before after ↔ Reads (.script nodes) other after := by
  have turn {before other : List Lexeme} (same : pastNewlines before = pastNewlines other)
      (read : Reads (.script nodes) before after) : Reads (.script nodes) other after := by
    cases read with
    | ended nothing => exact .ended (same ▸ nothing)
    | line something here line later =>
      exact .line (same ▸ something) (same ▸ here) line later
  exact ⟨turn same, turn same.symm⟩

/-- A script and the lines behind it are read one after the other. -/
theorem Reads.script_append (breaks : Breaks more) {first nodes : List Node}
    (read : Reads (.script first) before []) : Reads (.script nodes) (before ++ more) [] ↔
      ∃ second, Reads (.script second) more [] ∧ nodes = first ++ second := by
  generalize phrase : Phrase.script first = script at read
  generalize ends : ([] : List Lexeme) = after at read
  induction read generalizing first nodes with
  | @ended before nothing =>
    obtain rfl := Phrase.script.inj phrase
    rw [Reads.script_congr (pastNewlines_append_nil nothing)]
    simp
  | @line node others before middle after something here line later _ ih =>
    obtain rfl := Phrase.script.inj phrase
    subst ends
    have some : pastNewlines (before ++ more) ≠ [] := by
      rw [pastNewlines_append something]
      exact List.append_ne_nil_of_left_ne_nil something _
    have here : Reads (.list true node) (pastNewlines (before ++ more)) (middle ++ more) :=
      (here.extended breaks).behind something
    constructor
    · intro read
      cases read with
      | ended nothing => exact absurd nothing some
      | line _ again _ others =>
        -- the line is read as before, so what is left behind it is what was left before
        obtain ⟨rfl, rfl⟩ := here.list_unique again
        obtain ⟨second, read, rfl⟩ := (ih rfl rfl).mp others
        exact ⟨second, read, rfl⟩
    · rintro ⟨second, read, rfl⟩
      exact .line some here (endsLine_append breaks line) ((ih rfl rfl).mpr ⟨second, read, rfl⟩)
  | _ => cases phrase

theorem Reads.script_iff (input : Input) (nodes : List Node) :
    Reads (.script nodes) input.rest [] ↔
      ∃ left, script Script.parseAt (8 * input.rest.length + 4) input = .ok (nodes, left) := by
  constructor
  · intro read
    obtain ⟨left, made, -⟩ := read.recognized Script.parseAt_reads (parseAt_servesAll _) _
      (Nat.le_refl _) input rfl
    exact ⟨left, made⟩
  · rintro ⟨left, made⟩
    exact script_reads Script.parseAt_reads made

/-- Tokens that stand somewhere else are the same script there. -/
theorem Reads.script_shifted {lines bytes : Nat} {lexemes : List Lexeme} {nodes : List Node} :
    Reads (.script nodes) (lexemes.map (Lexeme.shifted lines bytes)) [] ↔
      ∃ earlier, Reads (.script earlier) lexemes [] ∧ nodes = Node.shiftedAll bytes earlier := by
  have moves : Inner.Shifts bytes Script.parseAt := fun body start =>
    Script.parseAt_shifted body start bytes
  have run : Tracks lines bytes (Node.shiftedAll bytes) _ _ :=
    Shifts.script moves (8 * lexemes.length + 4) ⟨lexemes, 0, default⟩
  have there := Reads.script_iff (Input.shifted lines bytes ⟨lexemes, 0, default⟩) nodes
  rw [Input.shifted, List.length_map] at there
  refine (there.trans run.made_iff).trans ?_
  exact exists_congr fun made =>
    and_congr_left' (Reads.script_iff ⟨lexemes, 0, default⟩ made).symm

end

end Grammar

namespace Script

open Grammar (Reads)

/-- The tokens of two lines are those of the first and, behind the end of the line, those of the
second. -/
theorem lex_line {first : List Char} (second : List Char) {offset : Nat} {lexemes : List Lexeme}
    (tokens : lex first offset = .ok lexemes) (whole : first.getLast? ≠ some '\\') :
    ∃ lines, ∃ line : Lexeme, line.token = .newline ∧ lex (first ++ '\n' :: second) offset =
      (ParseError.moved lines (Text.size first + 1)
        (List.map (Lexeme.shifted lines (Text.size first + 1))) (lex second offset)).map
          (lexemes ++ line :: ·) := by
  let stop := (Position.starting offset).after first
  have joins : Lexer.Joins first ('\n' :: second) := .line whole
  have split := Lexer.lexemes_shifted 0 0 ⟨first, .starting offset⟩ joins
  rw [show Lexer.lexemes ⟨first, .starting offset⟩ = _ from tokens] at split
  have begins : stop.advance '\n' =
      (Position.starting offset).shifted stop.line (Text.size first + 1) := by
    have place : stop.offset = offset + Text.size first := Position.after_offset _ first
    rw [Position.advance, if_pos rfl, place, Position.shifted, Nat.add_comm stop.line]
    rfl
  have skipped : Lexer.skipBlanks stop ('\n' :: second) = ⟨'\n' :: second, stop⟩ := by
    rw [Lexer.skipBlanks_cons (by simp)]
    rfl
  have behind : Lexer.lexemes ⟨'\n' :: second, stop⟩ =
      (Lexer.lexemes ⟨second, stop.advance '\n'⟩).map
        (⟨.newline, stop, stop.advance '\n'⟩ :: ·) := by
    rw [Lexer.lexemes_cons skipped]
    rfl
  refine ⟨stop.line, ⟨.newline, stop, stop.advance '\n'⟩, rfl, ?_⟩
  rw [begins, Lexer.lexemes_moved] at behind
  refine split.trans ?_
  change Except.map _ (Lexer.lexemes ⟨'\n' :: second, stop⟩) = _
  rw [behind, List.map_id'' Lexeme.shifted_zero, begins, lex]
  generalize ParseError.moved _ _ _ (Lexer.lexemes ⟨second, .starting offset⟩) = others
  cases others <;> rfl

/-- A script and a line behind it have the commands of the one and, further on, those of the
other. -/
theorem parseAt_line {first second : List Char} {offset : Nat} {nodes made : List Node}
    (parsed : parseAt first offset = .ok nodes) (whole : first.getLast? ≠ some '\\') :
    parseAt (first ++ '\n' :: second) offset = .ok made ↔ ∃ later,
      parseAt second offset = .ok later ∧
        made = nodes ++ Node.shiftedAll (Text.size first + 1) later := by
  obtain ⟨lexemes, tokens, read⟩ := parseAt_eq_ok.mp parsed
  obtain ⟨lines, line, ends, split⟩ := lex_line second tokens whole
  rw [parseAt_eq_ok, split]
  simp only [parseAt_eq_ok]
  rcases lex second offset with error | others
  · constructor
    · rintro ⟨_, wrong, -⟩
      cases wrong
    · rintro ⟨_, ⟨_, wrong, -⟩, -⟩
      cases wrong
  have breaks (moved : List Lexeme) : Grammar.Breaks (line :: moved) := congrArg some ends
  have passed (moved : List Lexeme) :
      Grammar.pastNewlines (line :: moved) = Grammar.pastNewlines moved :=
    List.dropWhile_cons_of_pos (by simpa using ends)
  constructor
  · rintro ⟨_, here, made⟩
    cases here
    obtain ⟨behind, later, rfl⟩ := (Reads.script_append (breaks _) read).mp made
    rw [Reads.script_congr (passed _)] at later
    obtain ⟨earlier, alone, rfl⟩ := Reads.script_shifted.mp later
    exact ⟨earlier, ⟨_, rfl, alone⟩, rfl⟩
  · rintro ⟨earlier, ⟨_, here, later⟩, rfl⟩
    cases here
    refine ⟨_, rfl, (Reads.script_append (breaks _) read).mpr ⟨_, ?_, rfl⟩⟩
    rw [Reads.script_congr (passed _)]
    exact Reads.script_shifted.mpr ⟨earlier, later, rfl⟩

/-- A script that ends in no backslash and any lines behind it are parsed one after the other: what
comes behind has the same commands as alone, with every place in them behind the script and its line
end. Nor does it matter otherwise where a text begins but for the places in what comes of it. -/
theorem parsing_composes :
    (∀ (first second : String) (nodes : List Node), parse first = .ok nodes →
      first.toList.getLast? ≠ some '\\' → ∀ made,
        parse (first ++ "\n" ++ second) = .ok made ↔ ∃ later, parse second = .ok later ∧
          made = nodes ++ Node.shiftedAll (first.utf8ByteSize + 1) later) ∧
    ∀ (text : List Char) (offset : Nat), parseAt text offset =
      ParseError.moved 0 offset (Node.shiftedAll offset) (parseAt text 0) := by
  constructor
  · intro first second nodes parsed whole made
    have split : (first ++ "\n" ++ second).toList = first.toList ++ '\n' :: second.toList := by
      rw [String.toList_append, String.toList_append, List.append_assoc]
      rfl
    rw [parse, split, ← Text.size_toList]
    exact parseAt_line parsed whole
  · intro text offset
    have moved := parseAt_shifted text 0 offset
    rwa [Nat.zero_add] at moved

/-- A comment ends with its line, and the substitution behind it stands further on. -/
theorem parsing_composes_comment :
    parse "echo a # b" =
      .ok [.command [.word "echo" [] false ⟨0, 4⟩, .word "a" [] false ⟨5, 6⟩] ⟨0, 6⟩] ∧
    parse "$(x)" = .ok [.command [.word "$(x)" [.substitution
      (.command [.word "x" [] false ⟨2, 3⟩] ⟨2, 3⟩) ⟨0, 4⟩] false ⟨0, 4⟩] ⟨0, 4⟩] ∧
    parse ("echo a # b" ++ "\n" ++ "$(x)") =
      .ok [.command [.word "echo" [] false ⟨0, 4⟩, .word "a" [] false ⟨5, 6⟩] ⟨0, 6⟩,
        .command [.word "$(x)" [.substitution (.command [.word "x" [] false ⟨13, 14⟩] ⟨13, 14⟩)
          ⟨11, 15⟩] false ⟨11, 15⟩] ⟨11, 15⟩] := by
  have first : parse "echo a # b" = .ok [.command
      [.word "echo" [] false ⟨0, 4⟩, .word "a" [] false ⟨5, 6⟩] ⟨0, 6⟩] :=
    eq_ok_of_toOption (by decide +kernel)
  have second : parse "$(x)" = .ok [.command [.word "$(x)" [.substitution
      (.command [.word "x" [] false ⟨2, 3⟩] ⟨2, 3⟩) ⟨0, 4⟩] false ⟨0, 4⟩] ⟨0, 4⟩] :=
    eq_ok_of_toOption (by decide +kernel)
  exact ⟨first, second, (parsing_composes.1 _ _ _ first (by decide) _).mpr
    ⟨_, second, by decide +kernel⟩⟩

end Script

end StepShell

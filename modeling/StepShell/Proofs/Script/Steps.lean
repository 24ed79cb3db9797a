import Mathlib.Data.List.DropRight
import StepShell.Proofs.Script.Formed
import StepShell.Proofs.Script.Grammar

/-! What each function of the parser makes of the tokens it is given, said by what the functions
it calls make with one unit of fuel less. The small steps look at the tokens that come next, or pass
over them. -/

namespace StepShell

namespace Grammar

/-- The span of the current token. -/
def Input.span (input : Input) : Span :=
  match input.rest with
  | lexeme :: _ => lexeme.span
  | [] => ⟨input.finish.offset, input.finish.offset⟩

def Input.advanced (input : Input) : Input :=
  match input.rest with
  | [] => input
  | lexeme :: rest => { input with rest, previousStop := lexeme.stop.offset }

def Input.skipped (input : Input) : Input :=
  let (rest, stop) := dropNewlines input.rest input.previousStop
  { input with rest, previousStop := stop }

theorem dropNewlines_fst (lexemes : List Lexeme) (stop : Nat) :
    (dropNewlines lexemes stop).1 = pastNewlines lexemes := by
  fun_induction dropNewlines lexemes stop with
  | case1 => rfl
  | case2 lexeme rest stop newline ih =>
    rw [ih, pastNewlines, pastNewlines, List.dropWhile_cons_of_pos (by simpa using newline)]
  | case3 lexeme rest stop other =>
    rw [pastNewlines, List.dropWhile_cons_of_neg (by simpa using other)]

@[simp] theorem Input.skipped_rest (input : Input) : input.skipped.rest = pastNewlines input.rest :=
  dropNewlines_fst _ _

@[simp] theorem Input.skipped_finish (input : Input) : input.skipped.finish = input.finish := rfl

section
variable {α β : Type} {before : Input}

theorem current_bind {next : Option Token → Parser β} :
    (current >>= next) before = next (Grammar.next before.rest) before := rfl

theorem here_bind {next : Span → Parser β} : (here >>= next) before = next before.span before := by
  obtain ⟨rest, stop, finish⟩ := before
  cases rest <;> rfl

theorem advance_bind {next : PUnit → Parser β} :
    (advance >>= next) before = next ⟨⟩ before.advanced := rfl

theorem previousStop_bind {next : Nat → Parser β} :
    (previousStop >>= next) before = next before.previousStop before := rfl

theorem nextTokens_bind {next : List Token → Parser β} :
    (nextTokens >>= next) before = next ((before.rest.take 3).map Lexeme.token) before := rfl

theorem atWord_bind {word : String} {next : Bool → Parser β} :
    (atWord word >>= next) before =
      next (decide ((Grammar.next before.rest).bind Token.bare? = some word)) before := rfl

theorem atTerminator_bind {next : Bool → Parser β} :
    (atTerminator >>= next) before = next (endsList before.rest) before := by
  have seen : atTerminator before = .ok (endsList before.rest, before) := by
    rw [atTerminator, current_bind, endsList]
    cases Grammar.next before.rest with
    | none => rfl
    | some token => cases token <;> rfl
  change (atTerminator before >>= fun read => next read.1 read.2) = _
  rw [seen]
  rfl

theorem skipNewlines_bind {next : PUnit → Parser β} :
    (skipNewlines >>= next) before = next ⟨⟩ before.skipped := rfl

theorem pure_bind {value : α} {next : α → Parser β} :
    ((pure value : Parser α) >>= next) before = next value before := rfl

theorem pure_eq_ok {value result : α} {after : Input} :
    (pure value : Parser α) before = .ok (result, after) ↔ result = value ∧ after = before := by
  change Except.ok (value, before) = .ok (result, after) ↔ _
  simp [eq_comm]

theorem fail_eq_error (cause : ParseCause) (before : Input) :
    ∃ error, (fail cause : Parser α) before = .error error := by
  obtain ⟨rest, stop, finish⟩ := before
  cases rest <;> exact ⟨_, rfl⟩

theorem fail_eq_ok {cause : ParseCause} {result : α × Input} :
    ¬ (fail cause : Parser α) before = .ok result := by
  obtain ⟨error, failed⟩ := fail_eq_error (α := α) cause before
  rw [failed]
  rintro ⟨⟩

theorem fail_bind_eq_ok {cause : ParseCause} {next : α → Parser β} {result : β × Input} :
    ¬ ((fail cause : Parser α) >>= next) before = .ok result := by
  rintro done
  obtain ⟨_, _, failed, _⟩ := bind_eq_ok.mp done
  exact fail_eq_ok failed

theorem unexpected_eq_ok {result : α × Input} :
    ¬ (unexpected : Parser α) before = .ok result := by
  rw [unexpected, current_bind]
  cases next before.rest <;> exact fail_eq_ok

theorem expectWord_bind_eq_ok {word : String} {next : Span → Parser β} {result : β × Input} :
    (expectWord word >>= next) before = .ok result ↔
      (Grammar.next before.rest).bind Token.bare? = some word ∧
        next before.span before.advanced = .ok result := by
  have steps : expectWord word before =
      if decide ((Grammar.next before.rest).bind Token.bare? = some word) = true then
        .ok (before.span, before.advanced) else (fail (.expected word) : Parser Span) before := by
    rw [expectWord, atWord_bind]
    split
    · rw [here_bind, advance_bind]
      rfl
    · rfl
  change ((expectWord word before).bind fun read => next read.1 read.2) = _ ↔ _
  rw [steps]
  by_cases there : (Grammar.next before.rest).bind Token.bare? = some word
  · rw [if_pos (decide_eq_true there)]
    exact (and_iff_right there).symm
  · rw [if_neg (by simpa using there)]
    obtain ⟨error, failed⟩ := fail_eq_error (α := Span) (.expected word) before
    rw [failed]
    exact ⟨fun done => (by cases done), fun both => absurd both.1 there⟩

end

theorem bind_pure_eq_ok {α β : Type} {first : Parser α} {made : α → β} {before after : Input}
    {result : β} : (first >>= fun value => pure (made value)) before = .ok (result, after) ↔
      ∃ value, first before = .ok (value, after) ∧ result = made value := by
  simp only [bind_eq_ok, pure_eq_ok]
  constructor
  · rintro ⟨value, _, read, rfl, rfl⟩
    exact ⟨value, read, rfl⟩
  · rintro ⟨value, read, rfl⟩
    exact ⟨value, _, read, rfl, rfl⟩

theorem wordOf_eq_ok {inner : Inner} {read : Word} {span : Span} {before after : Input}
    {node : Node} : wordOf inner read span before = .ok (node, after) ↔
      ∃ parts, partsOf inner read.pieces = .ok parts ∧
        node = .word read.text parts read.quoted span ∧ after = before := by
  simp only [wordOf, bind_eq_ok, lift_eq_ok, pure_eq_ok]
  constructor
  · rintro ⟨parts, _, ⟨made, rfl⟩, rfl, rfl⟩
    exact ⟨parts, made, rfl, rfl⟩
  · rintro ⟨parts, made, rfl, rfl⟩
    exact ⟨parts, _, ⟨made, rfl⟩, rfl, rfl⟩

theorem assignmentOf_eq_ok {inner : Inner} {read : Word} {span : Span} {before after : Input}
    {node : Node} : assignmentOf inner read span before = .ok (node, after) ↔
      ∃ parts, partsOf inner read.pieces = .ok parts ∧
        node = .assignment read.text parts span ∧ after = before := by
  simp only [assignmentOf, bind_eq_ok, lift_eq_ok, pure_eq_ok]
  constructor
  · rintro ⟨parts, _, ⟨made, rfl⟩, rfl, rfl⟩
    exact ⟨parts, made, rfl, rfl⟩
  · rintro ⟨parts, made, rfl, rfl⟩
    exact ⟨parts, _, ⟨made, rfl⟩, rfl, rfl⟩

/-- A redirect and its target are two tokens. -/
theorem redirect_eq_ok {inner : Inner} {kind : RedirectKind} {before after : Input} {node : Node} :
    redirect inner kind before = .ok (node, after) ↔
      ∃ sign lexeme rest read parts, before.rest = sign :: lexeme :: rest ∧
        lexeme.token = .word read ∧ partsOf inner read.pieces = .ok parts ∧
        node = .redirect kind (.word read.text parts read.quoted lexeme.span)
          ⟨sign.span.start, lexeme.span.stop⟩ ∧
        after = { before with rest, previousStop := lexeme.span.stop } := by
  rw [redirect, here_bind, advance_bind, here_bind, current_bind]
  rcases before with ⟨_ | ⟨sign, _ | ⟨lexeme, rest⟩⟩, stop, finish⟩
  · simp [Input.advanced, next, fail_eq_ok]
  · simp [Input.advanced, next, fail_eq_ok]
  · simp only [Input.advanced, next, List.head?_cons, Option.map_some]
    cases token : lexeme.token with
    | word read =>
      simp only [bind_eq_ok, wordOf_eq_ok, advance_bind, pure_eq_ok]
      constructor
      · rintro ⟨_, _, ⟨parts, made, rfl, rfl⟩, rfl, rfl⟩
        exact ⟨sign, lexeme, rest, read, parts, rfl, token, made, rfl, rfl⟩
      · rintro ⟨_, _, _, _, parts, same, also, made, rfl, rfl⟩
        cases same
        obtain rfl := Token.word.inj (token.symm.trans also)
        exact ⟨_, _, ⟨parts, made, rfl, rfl⟩, rfl, rfl⟩
    | _ =>
      simp only [fail_eq_ok, false_iff]
      rintro ⟨_, _, _, _, _, same, also, _⟩
      cases same
      exact Token.noConfusion (token.symm.trans also)

/-- A nested list passes over the newlines it begins with. -/
def Input.opened (input : Input) : Bool → Input
  | true => input
  | false => input.skipped

theorem Input.skipped_skipped (input : Input) : input.skipped.skipped = input.skipped := by
  have again (lexemes : List Lexeme) (stop : Nat) :
      dropNewlines (dropNewlines lexemes stop).1 (dropNewlines lexemes stop).2 =
        dropNewlines lexemes stop := by
    fun_induction dropNewlines lexemes stop with
    | case1 => rfl
    | case2 _ _ _ _ ih => exact ih
    | case3 _ _ _ other => simp [dropNewlines, other]
  simp only [Input.skipped, again]

section
variable {inner : Inner} {fuel : Nat}

theorem listParts_skipped {input : Input} {result : List Node × Input} :
    listParts inner fuel false input.skipped = .ok result ↔
      listParts inner fuel false input = .ok result := by
  cases fuel with
  | zero =>
    rw [listParts]
    exact iff_of_false fail_eq_ok fail_eq_ok
  | succ =>
    rw [listParts]
    simp only [Bool.not_false, if_true, skipNewlines_bind, Input.skipped_skipped]

/-- What the parts of a list come to behind its first chain. -/
def Extends (inner : Inner) (fuel : Nat) (topLevel : Bool) (chain : List Node) (middle : Input)
    (parts : List Node) (after : Input) : Prop :=
  match (next middle.rest).bind (separator? topLevel) with
  | none => parts = chain ∧ after = middle
  | some op =>
    if topLevel && endsLine middle.advanced.rest then
      parts = chain ++ [.operator op middle.span] ∧ after = middle.advanced
    else ∃ others, listParts inner fuel topLevel middle.advanced = .ok (others, after) ∧
      parts = chain ++ .operator op middle.span :: others

/-- A line ends behind a separator, or else the list goes on. -/
theorem onward_eq_ok {input after : Input} {chain parts : List Node} (separator : Node) :
    (match true, next input.rest with
      | true, none | true, some .newline => pure (chain ++ [separator])
      | _, _ => do
        return chain ++ [separator] ++ (← listParts inner fuel true) : Parser (List Node)) input =
      .ok (parts, after) ↔
      if endsLine input.rest then parts = chain ++ [separator] ∧ after = input
      else ∃ others, listParts inner fuel true input = .ok (others, after) ∧
        parts = chain ++ separator :: others := by
  rw [endsLine]
  rcases next input.rest with _ | (_ | _ | _ | _ | _ | _ | _ | _ | _ | _) <;>
    simp only [bind_pure_eq_ok, List.append_assoc, List.singleton_append, pure_eq_ok] <;>
    simp

theorem listParts_eq_ok {topLevel : Bool} {before after : Input} {parts : List Node} :
    listParts inner (fuel + 1) topLevel before = .ok (parts, after) ↔
      if !topLevel && endsList (pastNewlines before.rest) then
        parts = [] ∧ after = before.skipped
      else ∃ chain middle, andOr inner fuel (before.opened topLevel) = .ok (chain, middle) ∧
        Extends inner fuel topLevel chain middle parts after := by
  rw [listParts]
  cases topLevel with
  | false =>
    simp only [Bool.not_false, if_true, skipNewlines_bind, atTerminator_bind, Bool.true_and,
      Input.skipped_rest]
    split
    · exact pure_eq_ok
    · simp only [@bind_eq_ok _ _ (andOr inner fuel), here_bind, current_bind, Input.opened]
      refine exists_congr fun chain => exists_congr fun middle => and_congr_right fun _ => ?_
      rw [Extends]
      rcases next middle.rest with _ | (_ | _ | _ | _ | _ | _ | _ | _ | _ | _) <;>
        simp only [separator?, pure_bind, advance_bind, current_bind, skipNewlines_bind,
          bind_pure_eq_ok, listParts_skipped, List.append_assoc, List.singleton_append, pure_eq_ok,
          Option.bind, Bool.false_and, Bool.false_eq_true, if_false, if_true, String.reduceEq]
  | true =>
    simp only [Bool.not_true, Bool.false_eq_true, if_false, Bool.false_and,
      @bind_eq_ok _ _ (andOr inner fuel), here_bind, current_bind, Input.opened]
    refine exists_congr fun chain => exists_congr fun middle => and_congr_right fun _ => ?_
    rw [Extends]
    rcases next middle.rest with _ | (_ | _ | _ | _ | _ | _ | _ | _ | _ | _)
    case some.semicolon => exact onward_eq_ok (.operator ";" middle.span)
    case some.background => exact onward_eq_ok (.operator "&" middle.span)
    all_goals
      simp only [separator?, pure_bind, Option.bind, if_true, pure_eq_ok]

theorem list_eq_ok {topLevel : Bool} {before after : Input} {node : Node} :
    list inner (fuel + 1) topLevel before = .ok (node, after) ↔
      ∃ parts, listParts inner fuel topLevel before = .ok (parts, after) ∧
        listed? parts = some node := by
  rw [list, bind_eq_ok]
  refine exists_congr fun parts => ?_
  have single (middle : Input) : listNode parts middle = .ok (node, after) ↔
      listed? parts = some node ∧ after = middle := by
    rw [listNode, listed?]
    rcases dropSeparators parts with _ | ⟨first, _ | ⟨second, rest⟩⟩
    · exact iff_of_false fail_eq_ok (by simp)
    · exact pure_eq_ok.trans (by simp [eq_comm])
    · exact pure_eq_ok.trans (by simp [eq_comm])
  simp only [single]
  constructor
  · rintro ⟨_, read, made, rfl⟩
    exact ⟨read, made⟩
  · rintro ⟨read, made⟩
    exact ⟨after, read, made, rfl⟩

theorem andOr_eq_ok {before after : Input} {parts : List Node} :
    andOr inner (fuel + 1) before = .ok (parts, after) ↔
      ∃ first middle, pipeline inner fuel before = .ok (first, middle) ∧
        match (next middle.rest).bind connective? with
        | none => parts = [first] ∧ after = middle
        | some op => ∃ others, andOr inner fuel middle.advanced.skipped = .ok (others, after) ∧
          parts = first :: .operator op middle.span :: others := by
  rw [andOr]
  simp only [@bind_eq_ok _ _ (pipeline inner fuel), here_bind, current_bind]
  refine exists_congr fun first => exists_congr fun middle => and_congr_right fun _ => ?_
  rcases next middle.rest with _ | (_ | _ | _ | _ | _ | _ | _ | _ | _ | _) <;>
    simp only [connective?, pure_bind, advance_bind, skipNewlines_bind, bind_pure_eq_ok,
      pure_eq_ok, Option.bind]

theorem pipeline_eq_ok {before after : Input} {node : Node} :
    pipeline inner (fuel + 1) before = .ok (node, after) ↔
      ∃ parts, pipelineParts inner fuel before = .ok (parts, after) ∧
        (parts = [node] ∨ parts.length ≠ 1 ∧ node = .pipeline parts (spanning parts)) := by
  rw [pipeline, bind_eq_ok]
  refine exists_congr fun parts => ?_
  constructor
  · rintro ⟨middle, read, done⟩
    split at done <;> obtain ⟨rfl, rfl⟩ := pure_eq_ok.mp done
    · exact ⟨read, .inl rfl⟩
    · rename_i several
      refine ⟨read, .inr ⟨fun one => ?_, rfl⟩⟩
      obtain ⟨only, rfl⟩ := List.length_eq_one_iff.mp one
      exact several only rfl
  · rintro ⟨read, rfl | ⟨several, rfl⟩⟩
    · exact ⟨_, read, rfl⟩
    · refine ⟨_, read, ?_⟩
      split
      · simp at several
      · rfl

theorem pipelineParts_eq_ok {before after : Input} {parts : List Node} :
    pipelineParts inner (fuel + 1) before = .ok (parts, after) ↔
      ∃ first middle, command inner fuel before = .ok (first, middle) ∧
        if next middle.rest = some .pipe then
          ∃ others, pipelineParts inner fuel middle.advanced.skipped = .ok (others, after) ∧
            parts = first :: .pipe "|" middle.span :: others
        else parts = [first] ∧ after = middle := by
  rw [pipelineParts]
  simp only [@bind_eq_ok _ _ (command inner fuel), here_bind, current_bind]
  refine exists_congr fun first => exists_congr fun middle => and_congr_right fun _ => ?_
  rcases next middle.rest with _ | (_ | _ | _ | _ | _ | _ | _ | _ | _ | _) <;>
    simp [advance_bind, skipNewlines_bind, bind_pure_eq_ok, pure_eq_ok, -bind_pure_comp]

/-- A function is defined here. -/
def Defines : List Lexeme → Prop
  | [] => False
  | first :: later => first.token.bare? = some "function" ∨
    ∃ called, first.token.bare? = some called ∧ called ∉ keywords ∧
      (later.map Lexeme.token).take 2 = [.leftParen, .rightParen]

theorem lookAhead_eq {ahead : List Token} {defining other : Parser Node} :
    (match ahead.take 2 with
      | .leftParen :: .rightParen :: _ => defining
      | _ => other) =
    if ahead.take 2 = [.leftParen, .rightParen] then defining else other := by
  split
  · rename_i rest two
    have short := congrArg List.length two
    obtain rfl : rest = [] := List.eq_nil_of_length_eq_zero (by simp at short; omega)
    rw [if_pos two]
  · rename_i unlike
    exact (if_neg (unlike [])).symm

theorem command_eq_ok {before : Input} {result : Node × Input} :
    command inner (fuel + 1) before = .ok result ↔
      next before.rest = some .leftParen ∧ group inner fuel "(" ")" before = .ok result ∨
      (next before.rest).bind Token.bare? = some "\x7b" ∧
        group inner fuel "\x7b" "\x7d" before = .ok result ∨
      (next before.rest).bind Token.bare? = some "if" ∧ conditional inner fuel before = .ok result ∨
      (next before.rest).bind Token.bare? = some "for" ∧ forLoop inner fuel before = .ok result ∨
      Defines before.rest ∧ definition inner fuel before = .ok result ∨
      next before.rest ≠ some .leftParen ∧ beginsSimple before.rest = true ∧
        simpleCommand inner fuel before = .ok result := by
  rw [command, nextTokens_bind]
  rcases before with ⟨_ | ⟨first, later⟩, stop, finish⟩
  · simp [next, Defines, beginsSimple, fail_eq_ok]
  simp only [List.map_take, List.map_cons, List.take_succ_cons, next, List.head?_cons,
    Option.map_some, Option.bind_some, Defines, beginsSimple]
  cases bare : first.token.bare? with
  | none =>
    by_cases paren : first.token = .leftParen <;> simp [bare, paren]
  | some word =>
    have noParen : first.token ≠ .leftParen := by
      intro paren
      rw [paren] at bare
      cases bare
    by_cases keyword : word ∈ keywords
    · simp only [keywords, List.mem_cons, List.not_mem_nil, or_false] at keyword
      rcases keyword with rfl | rfl | rfl | rfl <;> simp [noParen, bare, keywords]
    · have others : word ≠ "\x7b" ∧ word ≠ "if" ∧ word ≠ "for" ∧ word ≠ "function" := by
        simpa [keywords] using keyword
      simp only [noParen, bare, others, keyword, if_false, Option.some.injEq, false_and,
        false_or, not_false_eq_true, true_and, ne_eq, List.contains_eq_mem, decide_false,
        Bool.not_false, Bool.true_and, exists_eq_left']
      refine (iff_of_eq (congrArg (fun parser : Parser Node =>
        parser ⟨first :: later, stop, finish⟩ = .ok result) lookAhead_eq)).trans ?_
      by_cases ahead : (later.map Lexeme.token).take 2 = [.leftParen, .rightParen] <;>
        simp [ahead]

theorem simpleCommand_eq_ok {before after : Input} {node : Node} :
    simpleCommand inner (fuel + 1) before = .ok (node, after) ↔
      ∃ parts, simpleParts inner fuel false before = .ok (parts, after) ∧ parts ≠ [] ∧
        node = .command parts ⟨before.span.start, after.previousStop⟩ := by
  rw [simpleCommand, here_bind, bind_eq_ok]
  refine exists_congr fun parts => ?_
  constructor
  · rintro ⟨middle, read, done⟩
    split at done
    · exact absurd done unexpected_eq_ok
    · rename_i some
      rw [previousStop_bind] at done
      obtain ⟨rfl, rfl⟩ := pure_eq_ok.mp done
      exact ⟨read, by simpa using some, rfl⟩
  · rintro ⟨read, some, rfl⟩
    refine ⟨after, read, ?_⟩
    rw [if_neg (by simpa using some)]
    rfl

theorem simpleParts_eq_ok {named : Bool} {before after : Input} {parts : List Node} :
    simpleParts inner (fuel + 1) named before = .ok (parts, after) ↔
      match next before.rest with
      | some (.word read) =>
        ∃ pieces others, partsOf inner read.pieces = .ok pieces ∧
          if !named && isAssignment read then
            simpleParts inner fuel false before.advanced = .ok (others, after) ∧
              parts = .assignment read.text pieces before.span :: others
          else
            simpleParts inner fuel true before.advanced = .ok (others, after) ∧
              parts = .word read.text pieces read.quoted before.span :: others
      | some (.redirect kind) =>
        ∃ first middle others, redirect inner kind before = .ok (first, middle) ∧
          simpleParts inner fuel named middle = .ok (others, after) ∧ parts = first :: others
      | _ => parts = [] ∧ after = before := by
  rw [simpleParts, here_bind, current_bind]
  rcases next before.rest with _ | (_ | _ | _ | _ | _ | _ | _ | _ | _ | _)
  case some.word read =>
    simp only [advance_bind]
    by_cases form : (!named && isAssignment read) = true
    · obtain rfl : named = false := by simpa using (Bool.and_eq_true_iff.mp form).1
      simp only [form, if_true, bind_eq_ok, assignmentOf_eq_ok, pure_eq_ok]
      constructor
      · rintro ⟨_, _, ⟨pieces, made, rfl, rfl⟩, others, _, read, rfl, rfl⟩
        exact ⟨pieces, others, made, read, rfl⟩
      · rintro ⟨pieces, others, made, read, rfl⟩
        exact ⟨_, _, ⟨pieces, made, rfl, rfl⟩, others, _, read, rfl, rfl⟩
    · simp only [form, Bool.false_eq_true, if_false, bind_eq_ok, wordOf_eq_ok, pure_eq_ok]
      constructor
      · rintro ⟨_, _, ⟨pieces, made, rfl, rfl⟩, others, _, read, rfl, rfl⟩
        exact ⟨pieces, others, made, read, rfl⟩
      · rintro ⟨pieces, others, made, read, rfl⟩
        exact ⟨_, _, ⟨pieces, made, rfl, rfl⟩, others, _, read, rfl, rfl⟩
  case some.redirect kind =>
    simp only [bind_eq_ok, pure_eq_ok]
    constructor
    · rintro ⟨first, middle, here, others, _, read, rfl, rfl⟩
      exact ⟨first, middle, others, here, read, rfl⟩
    · rintro ⟨first, middle, others, here, read, rfl⟩
      exact ⟨first, middle, here, others, _, read, rfl, rfl⟩
  all_goals exact pure_eq_ok

theorem redirects_eq_ok {before after : Input} {nodes : List Node} :
    redirects inner (fuel + 1) before = .ok (nodes, after) ↔
      match next before.rest with
      | some (.redirect kind) =>
        ∃ first middle others, redirect inner kind before = .ok (first, middle) ∧
          redirects inner fuel middle = .ok (others, after) ∧ nodes = first :: others
      | _ => nodes = [] ∧ after = before := by
  rw [redirects, current_bind]
  rcases next before.rest with _ | (_ | _ | _ | _ | _ | _ | _ | _ | _ | _)
  case some.redirect kind =>
    simp only [bind_eq_ok, pure_eq_ok]
    constructor
    · rintro ⟨first, middle, here, others, _, read, rfl, rfl⟩
      exact ⟨first, middle, others, here, read, rfl⟩
    · rintro ⟨first, middle, others, here, read, rfl⟩
      exact ⟨first, middle, here, others, _, read, rfl, rfl⟩
  all_goals exact pure_eq_ok

/-- Whether a token closes the group that `closing` closes. -/
def closes (closing : String) (token : Option Token) : Bool :=
  if closing = ")" then decide (token = some .rightParen)
  else decide (token.bind Token.bare? = some closing)

theorem group_eq_ok {opening closing : String} {before after : Input} {node : Node} :
    group inner (fuel + 1) opening closing before = .ok (node, after) ↔
      ∃ body middle nodes, list inner fuel false before.advanced = .ok (body, middle) ∧
        closes closing (next middle.rest) = true ∧
        redirects inner fuel middle.advanced = .ok (nodes, after) ∧
        node = .compound [.reserved opening before.span, body, .reserved closing middle.span] nodes
          ⟨before.span.start, after.previousStop⟩ := by
  rw [group, here_bind, advance_bind]
  simp only [@bind_eq_ok _ _ (list inner fuel false), here_bind]
  refine exists_congr fun body => exists_congr fun middle => ?_
  rw [exists_and_left]
  refine and_congr_right fun _ => ?_
  have close (there : Bool) : ((if (!there) = true then do
        fail (.expected closing)
        advance
        let nodes ← redirects inner fuel
        return .compound [.reserved opening before.span, body, .reserved closing middle.span] nodes
          ⟨before.span.start, ← previousStop⟩
      else do
        advance
        let nodes ← redirects inner fuel
        return .compound [.reserved opening before.span, body, .reserved closing middle.span] nodes
          ⟨before.span.start, ← previousStop⟩) : Parser Node) middle = .ok (node, after) ↔
      ∃ nodes, there = true ∧ redirects inner fuel middle.advanced = .ok (nodes, after) ∧
        node = .compound [.reserved opening before.span, body, .reserved closing middle.span] nodes
          ⟨before.span.start, after.previousStop⟩ := by
    cases there with
    | false =>
      exact iff_of_false fail_bind_eq_ok (by simp)
    | true =>
      simp only [Bool.not_true, Bool.false_eq_true, if_false, advance_bind, bind_eq_ok,
        previousStop_bind, pure_eq_ok, true_and]
      refine exists_congr fun nodes => ?_
      constructor
      · rintro ⟨_, read, rfl, rfl⟩
        exact ⟨read, rfl⟩
      · rintro ⟨read, rfl⟩
        exact ⟨_, read, rfl, rfl⟩
  rw [closes]
  split <;> exact close _

theorem items_eq_ok {before after : Input} {nodes : List Node} :
    items inner (fuel + 1) before = .ok (nodes, after) ↔
      match next before.rest with
      | some (.word read) =>
        ∃ pieces others, partsOf inner read.pieces = .ok pieces ∧
          items inner fuel before.advanced = .ok (others, after) ∧
          nodes = .word read.text pieces read.quoted before.span :: others
      | _ => nodes = [] ∧ after = before := by
  rw [items, here_bind, current_bind]
  rcases next before.rest with _ | (_ | _ | _ | _ | _ | _ | _ | _ | _ | _)
  case some.word read =>
    simp only [advance_bind, bind_eq_ok, wordOf_eq_ok, pure_eq_ok]
    constructor
    · rintro ⟨_, _, ⟨pieces, made, rfl, rfl⟩, others, _, read, rfl, rfl⟩
      exact ⟨pieces, others, made, read, rfl⟩
    · rintro ⟨pieces, others, made, read, rfl⟩
      exact ⟨_, _, ⟨pieces, made, rfl, rfl⟩, others, _, read, rfl, rfl⟩
  all_goals exact pure_eq_ok

theorem skipSeparators_cons {lexeme : Lexeme} {rest : List Lexeme} {stop : Nat}
    {finish : Position} :
    skipSeparators (fuel + 1) ⟨lexeme :: rest, stop, finish⟩ =
      if lexeme.token = .semicolon || lexeme.token = .newline then
        skipSeparators fuel ⟨rest, lexeme.span.stop, finish⟩
      else .ok (⟨⟩, ⟨lexeme :: rest, stop, finish⟩) := by
  rw [skipSeparators, current_bind]
  simp only [next, List.head?_cons, Option.map_some]
  cases lexeme.token <;> rfl

/-- The separators are passed over when there is a unit of fuel for each. -/
theorem skipSeparators_eq_ok (before : Input) {result : PUnit × Input}
    (skipped : skipSeparators fuel before = .ok result) :
    result.2.rest = pastSeparators before.rest := by
  obtain ⟨rest, stop, finish⟩ := before
  induction rest generalizing fuel stop with
  | nil =>
    cases fuel with
    | zero => exact absurd skipped fail_eq_ok
    | succ fuel => cases skipped; rfl
  | cons lexeme rest ih =>
    cases fuel with
    | zero => exact absurd skipped fail_eq_ok
    | succ fuel =>
      rw [skipSeparators_cons] at skipped
      split at skipped
      · rename_i separator
        rw [ih _ skipped]
        rw [pastSeparators, pastSeparators, List.dropWhile_cons, if_pos separator]
      · rename_i other
        cases skipped
        rw [pastSeparators, List.dropWhile_cons, if_neg other]

theorem skipSeparators_of_lt (before : Input) (enough : before.rest.length < fuel) :
    ∃ result, skipSeparators fuel before = .ok result := by
  obtain ⟨rest, stop, finish⟩ := before
  induction rest generalizing fuel stop with
  | nil =>
    obtain ⟨fuel, rfl⟩ := Nat.exists_eq_succ_of_ne_zero (Nat.ne_of_gt enough)
    exact ⟨_, rfl⟩
  | cons lexeme rest ih =>
    obtain ⟨fuel, rfl⟩ := Nat.exists_eq_succ_of_ne_zero (Nat.ne_of_gt (Nat.zero_lt_of_lt enough))
    rw [skipSeparators_cons]
    split
    · exact ih _ (Nat.lt_of_succ_lt_succ enough)
    · exact ⟨_, rfl⟩

theorem skipSeparators_bind_eq_ok {α : Type} {next : PUnit → Parser α} {before : Input}
    {result : α × Input} : (skipSeparators fuel >>= next) before = .ok result ↔
      ∃ start, skipSeparators fuel before = .ok (⟨⟩, start) ∧ next ⟨⟩ start = .ok result := by
  rw [bind_eq_ok]
  exact ⟨fun ⟨_, start, done⟩ => ⟨start, done⟩, fun ⟨start, done⟩ => ⟨⟨⟩, start, done⟩⟩

/-- The items of a loop, which begin behind its variable. -/
def Goes (inner : Inner) (fuel : Nat) (before : Input) (items : List Node) (middle : Input) :
    Prop :=
  if (next before.rest).bind Token.bare? = some "in" then
    Grammar.items inner fuel before.advanced = .ok (items, middle)
  else items = [positionals before.span] ∧ middle = before

theorem forLoop_eq_ok {before after : Input} {node : Node} :
    forLoop inner (fuel + 1) before = .ok (node, after) ↔
      (next before.rest).bind Token.bare? = some "for" ∧
      ∃ name, (next before.advanced.rest).bind Token.bare? = some name ∧ isName name = true ∧
      ∃ items middle, Goes inner fuel before.advanced.advanced.skipped items middle ∧
      ∃ start, skipSeparators fuel middle = .ok (⟨⟩, start) ∧
        (next start.rest).bind Token.bare? = some "do" ∧
      ∃ body last, list inner fuel false start.advanced = .ok (body, last) ∧
        (next last.rest).bind Token.bare? = some "done" ∧
        node = .forLoop name items body ⟨before.span.start, last.span.stop⟩ ∧
        after = last.advanced := by
  rw [forLoop, expectWord_bind_eq_ok]
  refine and_congr_right fun _ => ?_
  rw [current_bind]
  cases named : (next before.advanced.rest).bind Token.bare? with
  | none =>
    exact iff_of_false fail_bind_eq_ok (by simp)
  | some name =>
    by_cases form : isName name = true
    · simp only [form, if_true, pure_bind, advance_bind, skipNewlines_bind, atWord_bind,
        decide_eq_true_eq, Option.some.injEq, exists_eq_left', true_and, Goes]
      split
      · simp only [advance_bind, @bind_eq_ok _ _ (items inner fuel),
          skipSeparators_bind_eq_ok, expectWord_bind_eq_ok,
          @bind_eq_ok _ _ (list inner fuel false), pure_eq_ok]
      · simp only [here_bind, pure_bind, skipSeparators_bind_eq_ok, expectWord_bind_eq_ok,
          @bind_eq_ok _ _ (list inner fuel false), pure_eq_ok, and_assoc, exists_eq_left,
          exists_and_left, positionals]
    · refine iff_of_false ?_ (by simp [form])
      simp only [form, Bool.false_eq_true, if_false]
      exact fail_bind_eq_ok

theorem conditional_eq_ok {before after : Input} {node : Node} :
    conditional inner (fuel + 1) before = .ok (node, after) ↔
      (next before.rest).bind Token.bare? = some "if" ∧
      ∃ clauses last, Grammar.clauses inner fuel "if" before.advanced = .ok (clauses, last) ∧
        (next last.rest).bind Token.bare? = some "fi" ∧
        node = .conditional clauses ⟨before.span.start, last.span.stop⟩ ∧
        after = last.advanced := by
  rw [conditional, expectWord_bind_eq_ok]
  simp only [@bind_eq_ok _ _ (Grammar.clauses inner fuel "if"), expectWord_bind_eq_ok,
    pure_eq_ok]

theorem clauses_eq_ok {keyword : String} {before after : Input} {clauses : List Clause} :
    Grammar.clauses inner (fuel + 1) keyword before = .ok (clauses, after) ↔
      ∃ condition middle, list inner fuel false before = .ok (condition, middle) ∧
        (next middle.rest).bind Token.bare? = some "then" ∧
      ∃ body last, list inner fuel false middle.advanced = .ok (body, last) ∧
        if (next last.rest).bind Token.bare? = some "elif" then
          ∃ others, Grammar.clauses inner fuel "elif" last.advanced = .ok (others, after) ∧
            clauses = .mk keyword (some condition) body :: others
        else if (next last.rest).bind Token.bare? = some "else" then
          ∃ other, list inner fuel false last.advanced = .ok (other, after) ∧
            clauses = [.mk keyword (some condition) body, .mk "else" none other]
        else clauses = [.mk keyword (some condition) body] ∧ after = last := by
  rw [Grammar.clauses]
  simp only [@bind_eq_ok _ _ (list inner fuel false), expectWord_bind_eq_ok, atWord_bind,
    decide_eq_true_eq]
  refine exists_congr fun condition => exists_congr fun middle => and_congr_right fun _ =>
    and_congr_right fun _ => exists_congr fun body => exists_congr fun last =>
      and_congr_right fun _ => ?_
  split
  · simp only [advance_bind, bind_pure_eq_ok]
  · simp only [atWord_bind, decide_eq_true_eq]
    split
    · simp only [advance_bind, bind_pure_eq_ok]
    · exact pure_eq_ok

/-- What a function runs, which begins behind its name. -/
def Follows (inner : Inner) (fuel : Nat) (before : Input) (result : Node × Input) : Prop :=
  next before.rest = some .leftParen ∧ group inner fuel "(" ")" before = .ok result ∨
    (next before.rest).bind Token.bare? = some "\x7b" ∧
      group inner fuel "\x7b" "\x7d" before = .ok result

/-- The parentheses behind the name of a function, which may be left out. -/
def Input.Parens (before : Input) (after : Input) : Prop :=
  if next before.rest = some .leftParen then
    next before.advanced.rest = some .rightParen ∧ after = before.advanced.advanced
  else after = before

/-- What is left of a definition behind its name and its parentheses. -/
def definedAs (inner : Inner) (fuel : Nat) (start : Nat) (name : String) : Parser Node := do
  skipNewlines
  let body ← do
    if (← current) = some .leftParen then group inner fuel "(" ")"
    else if ← atWord "\x7b" then group inner fuel "\x7b" "\x7d"
    else fail .expectedFunctionBody
  return .function name body ⟨start, ← previousStop⟩

theorem definedAs_eq_ok {start : Nat} {name : String} {before after : Input} {node : Node} :
    definedAs inner fuel start name before = .ok (node, after) ↔
      ∃ body, Follows inner fuel before.skipped (body, after) ∧
        node = .function name body ⟨start, after.previousStop⟩ := by
  rw [definedAs, skipNewlines_bind, current_bind]
  have last (opening closing : String) (input : Input) : (do
        let body ← group inner fuel opening closing
        return .function name body ⟨start, ← previousStop⟩ : Parser Node) input =
        .ok (node, after) ↔
        ∃ body, group inner fuel opening closing input = .ok (body, after) ∧
          node = .function name body ⟨start, after.previousStop⟩ := by
    simp only [@bind_eq_ok _ _ (group inner fuel opening closing), previousStop_bind, pure_eq_ok]
    refine exists_congr fun body => ⟨?_, fun ⟨read, made⟩ => ⟨_, read, made, rfl⟩⟩
    rintro ⟨_, read, rfl, rfl⟩
    exact ⟨read, rfl⟩
  by_cases paren : next before.skipped.rest = some .leftParen
  · rw [if_pos paren, last]
    simp [Follows, paren, Token.bare?, -Input.skipped_rest]
  · rw [if_neg paren, atWord_bind]
    by_cases brace : (next before.skipped.rest).bind Token.bare? = some "\x7b"
    · rw [if_pos (decide_eq_true brace), last]
      simp only [Follows, paren, brace, false_and, false_or, true_and]
    · rw [if_neg (by simpa using brace)]
      exact iff_of_false fail_bind_eq_ok (by simp [Follows, paren, brace, -Input.skipped_rest])

/-- What is left of a definition behind its name. -/
def defined (inner : Inner) (fuel : Nat) (start : Nat) (name : String) : Parser Node := do
  if (← current) = some .leftParen then
    advance
    if (← current) ≠ some .rightParen then
      fail .expectedDefinitionParen
    advance
  definedAs inner fuel start name

theorem defined_eq_ok {start : Nat} {name : String} {before after : Input} {node : Node} :
    defined inner fuel start name before = .ok (node, after) ↔
      ∃ behind, before.Parens behind ∧ ∃ body, Follows inner fuel behind.skipped (body, after) ∧
        node = .function name body ⟨start, after.previousStop⟩ := by
  rw [defined, current_bind]
  simp only [Input.Parens]
  split
  · rw [advance_bind, current_bind]
    by_cases close : next before.advanced.rest = some .rightParen
    · rw [if_neg (not_not.mpr close)]
      have group := @definedAs_eq_ok inner fuel start name before.advanced.advanced after node
      exact group.trans (by simp [close])
    · rw [if_pos close]
      exact iff_of_false fail_bind_eq_ok (by simp [close])
  · exact definedAs_eq_ok.trans (by simp)

/-- A definition from its name on. -/
def named (inner : Inner) (fuel : Nat) (start : Nat) : Parser Node := do
  let name ← match (← current).bind Token.bare? with
    | some name => pure name
    | none => fail .expectedFunctionName
  advance
  defined inner fuel start name

theorem named_eq_ok {start : Nat} {before after : Input} {node : Node} :
    named inner fuel start before = .ok (node, after) ↔
      ∃ called, (next before.rest).bind Token.bare? = some called ∧
      ∃ behind, before.advanced.Parens behind ∧
      ∃ body, Follows inner fuel behind.skipped (body, after) ∧
        node = .function called body ⟨start, after.previousStop⟩ := by
  rw [named, current_bind]
  cases (next before.rest).bind Token.bare? with
  | none => exact iff_of_false fail_bind_eq_ok (by simp)
  | some called =>
    refine (@defined_eq_ok _ _ _ _ before.advanced _ _).trans ?_
    simp

theorem definition_eq_ok {before after : Input} {node : Node} :
    definition inner (fuel + 1) before = .ok (node, after) ↔
      ∃ called start, start = (if (next before.rest).bind Token.bare? = some "function" then
          before.advanced else before) ∧
        (next start.rest).bind Token.bare? = some called ∧
      ∃ behind, start.advanced.Parens behind ∧
      ∃ body, Follows inner fuel behind.skipped (body, after) ∧
        node = .function called body ⟨before.span.start, after.previousStop⟩ := by
  rw [definition, here_bind, atWord_bind]
  simp only [decide_eq_true_eq]
  -- the name may stand behind a word of its own
  split
  · exact (@named_eq_ok _ _ _ before.advanced _ _).trans (by simp)
  · exact (@named_eq_ok _ _ _ before _ _).trans (by simp)

theorem script_eq_ok {before after : Input} {nodes : List Node} :
    script inner (fuel + 1) before = .ok (nodes, after) ↔
      if pastNewlines before.rest = [] then nodes = [] ∧ after = before.skipped
      else ∃ node middle, list inner fuel true before.skipped = .ok (node, middle) ∧
        endsLine middle.rest = true ∧
      ∃ others, script inner fuel middle = .ok (others, after) ∧ nodes = node :: others := by
  rw [script, skipNewlines_bind, current_bind]
  have ended : (next before.skipped.rest).isNone = true ↔ pastNewlines before.rest = [] := by
    simp [next]
  simp only [ended]
  split
  · exact pure_eq_ok
  · simp only [@bind_eq_ok _ _ (list inner fuel true), current_bind]
    refine exists_congr fun node => exists_congr fun middle => and_congr_right fun _ => ?_
    rw [endsLine]
    rcases next middle.rest with _ | (_ | _ | _ | _ | _ | _ | _ | _ | _ | _) <;>
      simp only [bind_pure_eq_ok, unexpected_eq_ok] <;> simp

end

end Grammar

end StepShell

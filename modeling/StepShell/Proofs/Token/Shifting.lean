import StepShell.Proofs.Node.Shifting
import StepShell.Proofs.Token.Spelling

/-! The tokens of a text that stands somewhere else, with another line behind it, or nothing. What
was read of the text alone is read there again, as no token reaches beyond the end of its line. A
reading that failed can go on in the other line, so it fails again only where there is none. -/

namespace StepShell

/-- The cursor in the text somewhere else, with more text behind. -/
def Cursor.shifted (lines bytes : Nat) (more : List Char) (cursor : Cursor) : Cursor :=
  ⟨cursor.rest ++ more, cursor.position.shifted lines bytes⟩

namespace Lexer

open Word (Piece isSpecial)

/-- Another line stands behind the text, or nothing does. A backslash at the end of the text would
escape the line end. -/
inductive Joins (text : List Char) : List Char → Prop where
  | nothing : Joins text []
  | line {rest : List Char} (whole : text.getLast? ≠ some '\\') : Joins text ('\n' :: rest)

theorem Joins.suffix {text rest more : List Char} (joins : Joins text more)
    (suffix : rest <:+ text) : Joins rest more := by
  cases joins with
  | nothing => exact .nothing
  | line whole =>
    refine .line fun last => whole ?_
    obtain ⟨front, rfl⟩ := suffix
    rw [List.getLast?_append, last]
    rfl

theorem Joins.tail {c : Char} {rest more : List Char} (joins : Joins (c :: rest) more) :
    Joins rest more :=
  joins.suffix (List.suffix_cons _ _)

theorem Joins.ended {text more : List Char} (joins : Joins text more) : Joins [] more :=
  joins.suffix List.nil_suffix

/-- Characters that no line end is among stop where the text does. -/
theorem Joins.takeWhile {text more : List Char} (joins : Joins [] more) {keep : Char → Bool}
    (stops : keep '\n' = false) : (text ++ more).takeWhile keep = text.takeWhile keep ∧
      (text ++ more).dropWhile keep = text.dropWhile keep ++ more := by
  induction text with
  | nil =>
    cases joins with
    | nothing => exact ⟨rfl, rfl⟩
    | line =>
      rw [List.nil_append, List.takeWhile_cons_of_neg (by simp [stops]),
        List.dropWhile_cons_of_neg (by simp [stops])]
      exact ⟨rfl, rfl⟩
  | cons c rest ih =>
    rw [List.cons_append, List.takeWhile_cons, List.takeWhile_cons, List.dropWhile_cons,
      List.dropWhile_cons]
    split
    · exact ⟨congrArg (c :: ·) ih.1, ih.2⟩
    · exact ⟨rfl, rfl⟩

section
variable {lines bytes : Nat} {more : List Char} {α β : Type}

/-- The second reading is the first one somewhere else, with more text behind. -/
def Shifts (lines bytes : Nat) (more : List Char) (change : α → α) : Reading α → Reading α → Prop
  | .ok (value, next), there => there = .ok (change value, next.shifted lines bytes more)
  | .error error, there => more = [] → there = .error (error.shifted lines bytes)

theorem Shifts.mapAt {change : α → α} {alter : β → β} {make again : α → Position → β}
    {first second : Reading α} (shifts : Shifts lines bytes more change first second)
    (same : ∀ value position,
      again (change value) (position.shifted lines bytes) = alter (make value position)) :
    Shifts lines bytes more alter (mapAt make first) (mapAt again second) := by
  rcases first with error | ⟨value, next⟩
  · intro nothing
    rw [shifts nothing]
    rfl
  · rw [show second = _ from shifts]
    exact congrArg (fun made => Except.ok (made, _)) (same value next.position)

/-- A reader reads the text somewhere else what it reads here, with more text behind. -/
abbrev Carries (lines bytes : Nat) (more : List Char) (change : α → α)
    (read : Position → List Char → Reading α) (position : Position) (text : List Char) : Prop :=
  Shifts lines bytes more change (read position text)
    (read (position.shifted lines bytes) (text ++ more))

section
variable {read inner : Position → List Char → Reading (List α)} {change : List α → List α}
  {position : Position} {text : List Char}

/-- A reader that passes over some characters and goes on as another reader. -/
theorem Carries.prepend (chunk : List Char) (front : List α)
    (unfolds : ∀ other rest, read other (chunk ++ rest) =
      Lexer.prepend front (inner (other.after chunk) rest))
    (same : ∀ value, front ++ change value = change (front ++ value))
    (carries : Carries lines bytes more change inner (position.after chunk) text) :
    Carries lines bytes more change read position (chunk ++ text) := by
  rw [Carries, List.append_assoc, unfolds, unfolds, Position.shifted_after]
  exact carries.mapAt fun value _ => same value

/-- A reader that stops behind some characters. -/
theorem Carries.last (chunk : List Char) (value : List α)
    (unfolds : ∀ other rest, read other (chunk ++ rest) = .ok (value, ⟨rest, other.after chunk⟩))
    (same : value = change value) :
    Carries lines bytes more change read position (chunk ++ text) := by
  rw [Carries, List.append_assoc, unfolds, unfolds, Position.shifted_after]
  exact congrArg (fun value => Except.ok (value, _)) same

/-- A reader that does not find the end of what it reads. -/
theorem Carries.unterminated (what : Delimited)
    (fails : ∀ other, read other text = Lexer.unterminated what (other.after text)) :
    Carries lines bytes more change read position text := by
  rw [Carries, fails]
  intro nothing
  rw [nothing, List.append_nil, fails, Position.shifted_after]
  rfl

end

theorem singleQuoted_carries (position : Position) (text : List Char) :
    Carries lines bytes more (List.map (Piece.shifted bytes)) singleQuoted position text := by
  fun_induction singleQuoted position text with
  | case1 position => exact .unterminated .singleQuote fun _ => rfl
  | case2 position rest =>
    refine .last ['\''] [] (fun other rest => ?_) rfl
    rw [List.singleton_append, singleQuoted, if_pos rfl]
    rfl
  | case3 position c rest quote ih =>
    refine .prepend [c] [if isSpecial c then .guarded c else .plain c] (fun other rest => ?_)
      (fun value => ?_) ih
    · rw [List.singleton_append, singleQuoted, if_neg quote]
      rfl
    · split <;> rfl

theorem braced_carries (position : Position) (text : List Char) :
    Carries lines bytes more id braced position text := by
  fun_induction braced position text with
  | case1 position => exact .unterminated .parameterExpansion fun _ => rfl
  | case2 position rest =>
    refine .last ['\x7d'] ['\x7d'] (fun other rest => ?_) rfl
    rw [List.singleton_append, braced, if_pos rfl]
    rfl
  | case3 position c rest other ih =>
    refine .prepend [c] [c] (fun _ rest => ?_) (fun _ => rfl) ih
    rw [List.singleton_append, braced, if_neg other]
    rfl

theorem backquoted_carries (position : Position) (text : List Char) :
    Carries lines bytes more id backquoted position text := by
  fun_induction backquoted position text with
  | case1 position => exact .unterminated .backquote fun _ => rfl
  | case2 position c rest ih =>
    refine .prepend ['\\', c] (if isSpecial c then [c] else ['\\', c]) (fun other rest => ?_)
      (fun _ => rfl) ih
    rw [List.cons_append, List.singleton_append, backquoted]
    rfl
  | case3 position rest =>
    refine .last ['\x60'] [] (fun other rest => ?_) rfl
    rw [List.singleton_append, backquoted, if_pos rfl]
    · rfl
    · intro _ _ wrong
      cases wrong
  | case4 position c rest guards quote ih =>
    by_cases backslash : c = '\\'
    · obtain rfl := Word.nil_of_backslash backslash guards
      subst backslash
      exact .unterminated .backquote fun _ => rfl
    refine .prepend [c] [c] (fun other rest => ?_) (fun _ => rfl) ih
    rw [List.singleton_append, backquoted, if_neg quote]
    · rfl
    · exact fun _ _ wrong => absurd wrong backslash

theorem bodyIn_carries (quoting : Word.Quoting) (depth : Nat) (position : Position)
    (text : List Char) : Carries lines bytes more id (bodyIn quoting depth) position text := by
  rw [Carries, bodyIn_eq_answer, bodyIn_eq_answer]
  cases found : Word.closingParen? depth quoting text with
  | some stop =>
    have within := Word.closingParen?_lt stop found
    rw [(Word.closingParen?_append more within).mpr found]
    change answer _ _ (text ++ more) (some stop) = _
    rw [answer, List.take_append_of_le_length (Nat.le_of_lt within),
      List.take_append_of_le_length within, List.drop_append_of_le_length within,
      Position.shifted_after]
    rfl
  | none =>
    rintro rfl
    rw [List.append_nil, found, answer, Position.shifted_after]
    rfl

/-- A dollar sign at the end of a line stands for itself. -/
theorem dollar_ended (joins : Joins [] more) (position : Position) :
    dollar position more = .ok ([.plain '$'], ⟨more, position.advance '$'⟩) := by
  cases joins with
  | nothing => rfl
  | line =>
    rw [dollar_cons _ _ (by decide) (by decide), if_neg (by decide), if_neg (by decide)]

theorem dollar_carries (joins : Joins [] more) (position : Position) (text : List Char) :
    Carries lines bytes more (List.map (Piece.shifted bytes)) dollar position text := by
  rcases text with _ | ⟨c, tail⟩
  · rw [Carries, List.nil_append, dollar_ended joins, Position.shifted_advance]
    rfl
  by_cases group : c = '('
  · subst group
    rw [Carries, List.cons_append, dollar_group, dollar_group, Position.shifted_advance,
      Position.shifted_advance]
    exact (bodyIn_carries .plain _ _ _).mapAt fun _ _ => rfl
  by_cases brace : c = '\x7b'
  · subst brace
    rw [Carries, List.cons_append, dollar_brace, dollar_brace, Position.shifted_advance,
      Position.shifted_advance]
    exact (braced_carries _ _).mapAt fun _ _ => rfl
  rw [Carries, List.cons_append, dollar_cons _ _ group brace, dollar_cons _ _ group brace,
    Position.shifted_advance, Position.shifted_advance, ← List.cons_append,
    (joins.takeWhile rfl).1, (joins.takeWhile rfl).2, Position.shifted_after]
  split
  · rfl
  · split <;> rfl

theorem backquote_carries (position : Position) (text : List Char) :
    Carries lines bytes more (List.map (Piece.shifted bytes)) backquote position text := by
  rw [Carries, backquote_eq, backquote_eq, Position.shifted_advance]
  exact (backquoted_carries _ _).mapAt fun _ _ => rfl

theorem quotedPiece_shifts (joins : Joins [] more) (position : Position) (c : Char)
    (text : List Char) : Shifts lines bytes more (List.map (Piece.shifted bytes))
      (quotedPiece position c text)
      (quotedPiece (position.shifted lines bytes) c (text ++ more)) := by
  rw [quotedPiece.eq_def, quotedPiece.eq_def]
  by_cases dollar : c = '$'
  · rw [if_pos dollar, if_pos dollar]
    exact dollar_carries joins position text
  rw [if_neg dollar, if_neg dollar]
  by_cases backquote : c = '\x60'
  · rw [if_pos backquote, if_pos backquote]
    exact backquote_carries position text
  rw [if_neg backquote, if_neg backquote, Position.shifted_advance]
  by_cases backslash : c = '\\'
  · rw [if_pos backslash, if_pos backslash]
    rcases text with _ | ⟨d, tail⟩
    · intro nothing
      rw [nothing]
      rfl
    · dsimp only [List.cons_append]
      rw [Position.shifted_advance]
      split_ifs <;> rfl
  · rw [if_neg backslash, if_neg backslash]
    rfl

/-- What was read first, and behind it what another reader makes of the text there. -/
def onward [Append α] (read : Cursor → Reading α) : Reading α → Reading α
  | .error error => .error error
  | .ok (value, next) => Lexer.mapAt (fun later _ => value ++ later) (read next)

theorem Shifts.onward [Append α] {change : α → α} {read : Cursor → Reading α}
    {first second : Reading α} (here : Shifts lines bytes more change first second)
    (later : ∀ value next, first = .ok (value, next) → Shifts lines bytes more change (read next)
      (read (next.shifted lines bytes more)))
    (joins : ∀ one other, change one ++ change other = change (one ++ other)) :
    Shifts lines bytes more change (onward read first) (onward read second) := by
  rcases first with error | ⟨value, next⟩
  · intro nothing
    rw [here nothing]
    rfl
  · rw [show second = _ from here, Lexer.onward, Lexer.onward]
    exact (later value next rfl).mapAt fun made _ => joins value made

theorem doubleQuoted_onward {position : Position} {c : Char} {rest : List Char}
    (inside : c ≠ '"') :
    doubleQuoted ⟨c :: rest, position⟩ = onward doubleQuoted (quotedPiece position c rest) := by
  rw [doubleQuoted_cons inside]
  cases quotedPiece position c rest <;> rfl

theorem doubleQuoted_shifts (joins : Joins [] more) (cursor : Cursor) :
    Shifts lines bytes more (List.map (Piece.shifted bytes)) (doubleQuoted cursor)
      (doubleQuoted (cursor.shifted lines bytes more)) := by
  fun_induction doubleQuoted cursor with
  | case1 cursor left =>
    intro nothing
    rw [Cursor.shifted, left, nothing, List.nil_append, doubleQuoted]
    rfl
  | case2 cursor rest left =>
    rw [Cursor.shifted, left, List.cons_append, doubleQuoted]
    exact (if_pos rfl).trans (by rw [Position.shifted_advance]; rfl)
  | case3 cursor c rest left inside error here =>
    have first : Shifts lines bytes more _ _ _ := quotedPiece_shifts joins cursor.position c rest
    rw [Cursor.shifted, left, List.cons_append, doubleQuoted_onward inside]
    rw [here] at first
    exact first.onward (fun _ _ wrong => by cases wrong) fun _ _ => List.map_append.symm
  | case4 cursor c rest left inside pieces middle here ih =>
    have first : Shifts lines bytes more _ _ _ := quotedPiece_shifts joins cursor.position c rest
    rw [Cursor.shifted, left, List.cons_append, doubleQuoted_onward inside]
    rw [here] at first
    refine first.onward (fun value next there => ?_) fun _ _ => List.map_append.symm
    cases there
    exact ih

theorem segment_shifts {c : Char} {text : List Char} (joins : Joins (c :: text) more)
    (position : Position) : Shifts lines bytes more (Word.shifted bytes) (segment position c text)
      (segment (position.shifted lines bytes) c (text ++ more)) := by
  rw [segment.eq_def, segment.eq_def]
  dsimp only
  rw [Position.shifted_advance]
  by_cases single : c = '\''
  · rw [if_pos single, if_pos single]
    exact (singleQuoted_carries _ _).mapAt fun _ _ => rfl
  rw [if_neg single, if_neg single]
  by_cases double : c = '"'
  · rw [if_pos double, if_pos double]
    exact (doubleQuoted_shifts joins.ended ⟨text, position.advance c⟩).mapAt fun _ _ => rfl
  rw [if_neg double, if_neg double]
  by_cases dollar : c = '$'
  · rw [if_pos dollar, if_pos dollar]
    exact (dollar_carries joins.ended _ _).mapAt fun _ _ => rfl
  rw [if_neg dollar, if_neg dollar]
  by_cases backquote : c = '\x60'
  · rw [if_pos backquote, if_pos backquote]
    exact (backquote_carries _ _).mapAt fun _ _ => rfl
  rw [if_neg backquote, if_neg backquote]
  by_cases backslash : c = '\\'
  · rw [if_pos backslash, if_pos backslash]
    subst backslash
    rcases text with _ | ⟨d, tail⟩
    · cases joins with
      | nothing => rfl
      | line whole => exact absurd rfl whole
    · by_cases line : d = '\n'
      · subst line
        dsimp only [List.cons_append]
        rw [Position.shifted_advance]
        rfl
      · simp only [List.cons_append, Position.shifted_advance]
        rfl
  · rw [if_neg backslash, if_neg backslash]
    rfl

theorem word_onward {position : Position} {c : Char} {rest : List Char}
    (inside : endsWord c = false) :
    word ⟨c :: rest, position⟩ = onward word (segment position c rest) := by
  rw [word_cons inside]
  cases segment position c rest <;> rfl

theorem word_shifts (cursor : Cursor) (joins : Joins cursor.rest more) :
    Shifts lines bytes more (Word.shifted bytes) (word cursor)
      (word (cursor.shifted lines bytes more)) := by
  fun_induction word cursor with
  | case1 cursor left =>
    rw [Cursor.shifted, left, List.nil_append, word_ended]
    · rw [Shifts, Cursor.shifted, left]
      rfl
    · cases joins <;> rfl
  | case2 cursor c rest left ends =>
    rw [Cursor.shifted, left, List.cons_append, word_ended (by exact ends), Shifts,
      Cursor.shifted, left]
    rfl
  | case3 cursor c rest left inside error here =>
    rw [left] at joins
    have first : Shifts lines bytes more _ _ _ := segment_shifts joins cursor.position
    rw [Cursor.shifted, left, List.cons_append, word_onward (eq_false_of_ne_true inside)]
    rw [here] at first
    exact first.onward (fun _ _ wrong => by cases wrong) fun _ _ => (Word.shifted_append _ _).symm
  | case4 cursor c rest left inside value middle here ih =>
    rw [left] at joins
    have first : Shifts lines bytes more _ _ _ := segment_shifts joins cursor.position
    rw [Cursor.shifted, left, List.cons_append, word_onward (eq_false_of_ne_true inside)]
    rw [here] at first
    refine first.onward (fun _ _ there => ?_) fun _ _ => (Word.shifted_append _ _).symm
    cases there
    obtain ⟨own, split, -⟩ := segment_spreads cursor.position c rest _ _ here
    exact ih (joins.suffix ⟨own, split.symm⟩)

theorem token_twice_shifts (joins : Joins [] more) {position : Position} {c : Char}
    {text : List Char} (double single : Token) (plain : double.shifted bytes = double)
    (simple : single.shifted bytes = single) (other : c ≠ '\n')
    (unfolds : ∀ position rest, token position c rest =
      match rest with
      | d :: tail =>
        if d = c then .ok (double, ⟨tail, (position.advance c).advance d⟩)
        else .ok (single, ⟨rest, position.advance c⟩)
      | [] => .ok (single, ⟨rest, position.advance c⟩)) :
    Shifts lines bytes more (Token.shifted bytes) (token position c text)
      (token (position.shifted lines bytes) c (text ++ more)) := by
  have ended (position : Position) : token position c more =
      .ok (single, ⟨more, position.advance c⟩) := by
    rw [unfolds]
    cases joins with
    | nothing => rfl
    | line => exact if_neg fun same => other same.symm
  rcases text with _ | ⟨d, tail⟩
  · rw [List.nil_append, ended, unfolds, Shifts, simple, Position.shifted_advance]
    rfl
  · rw [List.cons_append, unfolds, unfolds]
    dsimp only
    rw [Position.shifted_advance, Position.shifted_advance]
    split
    · rw [Shifts, plain]
      rfl
    · rw [Shifts, simple]
      rfl

theorem token_shifts {c : Char} {text : List Char} (joins : Joins (c :: text) more)
    (blank : ¬(c = ' ' || c = '\t' || c = '\r') = true) (position : Position) :
    Shifts lines bytes more (Token.shifted bytes) (token position c text)
      (token (position.shifted lines bytes) c (text ++ more)) := by
  rcases token_begins blank with ⟨value, sign, unfolds⟩ |
    ⟨double, single, plain, simple, other, unfolds⟩ | begins
  · rw [unfolds, unfolds, Shifts, Token.shifted_sign sign, Position.shifted_advance]
    rfl
  · exact token_twice_shifts joins.ended double single (Token.shifted_sign plain)
      (Token.shifted_sign simple) other unfolds
  · rw [token_word begins, token_word begins]
    exact (word_shifts ⟨c :: text, position⟩ joins).mapAt fun _ _ => rfl

theorem skipComment_shifted (joins : Joins [] more) (position : Position) (text : List Char) :
    skipComment (position.shifted lines bytes) (text ++ more) =
      (skipComment position text).shifted lines bytes more := by
  induction text generalizing position with
  | nil =>
    rw [skipComment]
    cases joins with
    | nothing =>
      rw [List.nil_append, skipComment]
      rfl
    | line =>
      rw [List.nil_append, skipComment, if_pos rfl]
      rfl
  | cons c rest ih =>
    rw [List.cons_append, skipComment, skipComment, Position.shifted_advance, ih]
    split <;> rfl

theorem skipBlanks_shifted {text : List Char} (joins : Joins text more) (position : Position) :
    skipBlanks (position.shifted lines bytes) (text ++ more) =
      (skipBlanks position text).shifted lines bytes more := by
  induction h : text.length using Nat.strong_induction_on generalizing text position with
  | _ length ih =>
    subst h
    rcases text with _ | ⟨c, rest⟩
    · rw [skipBlanks]
      cases joins with
      | nothing =>
        rw [List.nil_append, skipBlanks]
        rfl
      | line =>
        rw [List.nil_append, skipBlanks_cons fun _ wrong => by cases wrong]
        rfl
    by_cases escaped : ∃ tail, c = '\\' ∧ rest = '\n' :: tail
    · obtain ⟨tail, rfl, rfl⟩ := escaped
      rw [List.cons_append, List.cons_append, skipBlanks, skipBlanks, Position.shifted_advance,
        Position.shifted_advance]
      exact ih _ (by simp only [List.length_cons]; omega) joins.tail.tail _ rfl
    have guards : ∀ tail, c = '\\' → rest = '\n' :: tail → False :=
      fun tail backslash line => escaped ⟨tail, backslash, line⟩
    have guarded : ∀ tail, c = '\\' → rest ++ more = '\n' :: tail → False := by
      rintro tail rfl line
      rcases rest with _ | ⟨d, rest⟩
      · cases joins with
        | nothing => cases line
        | line whole => exact whole rfl
      · obtain rfl := (List.cons.inj line).1
        exact guards rest rfl rfl
    rw [List.cons_append, skipBlanks_cons guards, skipBlanks_cons guarded,
      Position.shifted_advance, ih _ (by simp) joins.tail _ rfl,
      skipComment_shifted joins.ended]
    split_ifs <;> rfl

/-- Where the first token begins. -/
theorem skipBlanks_begins {cursor : Cursor} {c : Char} {rest : List Char}
    (joins : Joins cursor.rest more)
    (left : (skipBlanks cursor.position cursor.rest).rest = c :: rest) :
    ∃ gap, cursor.rest = gap ++ (c :: rest) ∧
      (skipBlanks cursor.position cursor.rest).position = cursor.position.after gap ∧
      skipBlanks (cursor.position.shifted lines bytes) (cursor.rest ++ more) = ⟨c :: (rest ++ more),
        (skipBlanks cursor.position cursor.rest).position.shifted lines bytes⟩ ∧
      ¬(c = ' ' || c = '\t' || c = '\r') = true := by
  obtain ⟨gap, behind, split, runs, settled⟩ := skipBlanks_passes cursor.rest
  have place := runs cursor.position
  obtain rfl : behind = c :: rest := (congrArg Cursor.rest place).symm.trans left
  refine ⟨gap, split, by rw [place], ?_, settled.not_blank⟩
  rw [skipBlanks_shifted joins, place]
  rfl

/-- The tokens of a text are the first ones of the text and the line behind it, and the line has
the others. -/
theorem lexemes_shifted (lines bytes : Nat) (cursor : Cursor) (joins : Joins cursor.rest more) :
    match lexemes cursor with
    | .ok found => lexemes (cursor.shifted lines bytes more) =
      (lexemes ⟨more, (cursor.position.after cursor.rest).shifted lines bytes⟩).map
        (found.map (Lexeme.shifted lines bytes) ++ ·)
    | .error error => more = [] →
      lexemes (cursor.shifted lines bytes more) = .error (error.shifted lines bytes) := by
  fun_induction lexemes cursor with
  | case1 cursor start left =>
    obtain ⟨gap, rest, split, runs, -⟩ := skipBlanks_passes cursor.rest
    have place := runs cursor.position
    obtain rfl : rest = [] := (congrArg Cursor.rest place).symm.trans left
    rw [List.append_nil] at split
    -- what is left of the text when its blanks are passed over is left of nothing at its end
    have skipped : skipBlanks (cursor.position.shifted lines bytes) (cursor.rest ++ more) =
        skipBlanks ((cursor.position.after cursor.rest).shifted lines bytes) ([] ++ more) := by
      rw [skipBlanks_shifted joins, skipBlanks_shifted joins.ended, place, ← split, skipBlanks]
    have same : lexemes (cursor.shifted lines bytes more) =
        lexemes ⟨more, (cursor.position.after cursor.rest).shifted lines bytes⟩ :=
      lexemes_skipped skipped
    dsimp only
    rw [same]
    generalize lexemes ⟨more, _⟩ = others
    cases others <;> rfl
  | case2 cursor start c rest left error here =>
    intro nothing
    obtain ⟨gap, split, place, begins, blank⟩ := skipBlanks_begins joins left
    have first : Shifts lines bytes more _ (token start.position c rest) _ :=
      token_shifts (joins.suffix ⟨gap, split.symm⟩) blank _
    rw [here] at first
    rw [lexemes_cons begins, first nothing]
  | case3 cursor start c rest left read next here ih =>
    obtain ⟨gap, split, place, begins, blank⟩ := skipBlanks_begins joins left
    have joins : Joins (c :: rest) more := joins.suffix ⟨gap, split.symm⟩
    have first : Shifts lines bytes more _ (token start.position c rest) _ :=
      token_shifts joins blank _
    rw [here] at first
    obtain ⟨own, whole, stops, -⟩ := token_stretches start.position c rest blank read next here
    have later := ih (joins.suffix ⟨own, whole.symm⟩)
    have ends : next.position.after next.rest = cursor.position.after cursor.rest := by
      rw [stops, place, split, whole, Position.after_append, Position.after_append]
    have unfolds : lexemes (cursor.shifted lines bytes more) =
        (lexemes (next.shifted lines bytes more)).map (Lexeme.shifted lines bytes
          ⟨read, start.position, next.position⟩ :: ·) := by
      rw [lexemes_cons begins, show token _ c (rest ++ more) = _ from first]
      rfl
    rw [unfolds]
    cases others : lexemes next with
    | error error =>
      rw [others] at later
      intro nothing
      rw [later nothing]
      rfl
    | ok found =>
      rw [others, ends] at later
      dsimp only [Except.map]
      rw [later]
      generalize lexemes ⟨more, _⟩ = behind
      cases behind <;> rfl

/-- With nothing behind it, the text has the same tokens or the same error. -/
theorem lexemes_moved (lines bytes : Nat) (text : List Char) (position : Position) :
    lexemes ⟨text, position.shifted lines bytes⟩ =
      ParseError.moved lines bytes (List.map (Lexeme.shifted lines bytes))
        (lexemes ⟨text, position⟩) := by
  have moves := lexemes_shifted lines bytes ⟨text, position⟩ .nothing
  rw [Cursor.shifted, List.append_nil] at moves
  rcases found : lexemes ⟨text, position⟩ with error | found
  · rw [found] at moves
    exact moves rfl
  · rw [found] at moves
    rw [moves, lexemes_nil (by rw [skipBlanks])]
    exact congrArg Except.ok (List.append_nil _)

end

end Lexer

theorem lex_shifted (text : List Char) (offset bytes : Nat) : lex text (offset + bytes) =
    ParseError.moved 0 bytes (List.map (Lexeme.shifted 0 bytes)) (lex text offset) :=
  Lexer.lexemes_moved 0 bytes text (.starting offset)

end StepShell

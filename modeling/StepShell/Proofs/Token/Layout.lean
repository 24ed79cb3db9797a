import StepShell.Proofs.Token.Extent
import StepShell.Proofs.Word.Segments

/-! How the tokens of a text stand in it: one after the other, with nothing but blanks, escaped line
ends and comments between them. -/

namespace StepShell

/-- A token apart from its place. -/
def Token.unplaced : Token → Token
  | .word read => .word read.unplaced
  | token => token

/-- What a token is like that is read of a stretch of text. -/
def Token.Fits (start : Nat) (own : List Char) : Token → Prop
  | .word read => read.Rests start own
  | _ => True

theorem Token.fits_sign {start : Nat} {own : List Char} {token : Token}
    (sign : ∀ read, token ≠ .word read) : token.Fits start own := by
  cases token with
  | word read => exact absurd rfl (sign read)
  | _ => trivial

namespace Lexer

open Word (Piece Spread)

/-- No blank, comment or escaped line end begins a text, nor what is left of it when it is cut. -/
def Settled (text : List Char) : Prop :=
  ∀ less, less <+: text → ∀ position, skipBlanks position less = ⟨less, position⟩

/-- What is passed over is a stretch of the text, wherever it stands. -/
def Passes (skip : Position → List Char → Cursor) (text : List Char) : Prop :=
  ∃ gap rest, text = gap ++ rest ∧ (∀ other, skip other text = ⟨rest, other.after gap⟩) ∧
    Settled rest

theorem skipBlanks_cons {position : Position} {c : Char} {rest : List Char}
    (guards : ∀ tail, c = '\\' → rest = '\n' :: tail → False) :
    skipBlanks position (c :: rest) =
      if c = ' ' || c = '\t' || c = '\r' then skipBlanks (position.advance c) rest
      else if c = '#' then skipComment (position.advance c) rest
      else ⟨c :: rest, position⟩ := by
  rw [skipBlanks]
  exact guards

theorem settled_nil : Settled [] := by
  intro less ahead position
  obtain rfl := List.prefix_nil.mp ahead
  rw [skipBlanks]

theorem settled_cons {c : Char} {rest : List Char}
    (guards : ∀ tail, c = '\\' → rest = '\n' :: tail → False)
    (blank : ¬(c = ' ' || c = '\t' || c = '\r') = true) (comment : c ≠ '#') :
    Settled (c :: rest) := by
  intro less ahead position
  cases less with
  | nil => rw [skipBlanks]
  | cons d less =>
    obtain ⟨more, same⟩ := ahead
    obtain ⟨rfl, rfl⟩ := List.cons.inj same
    rw [skipBlanks_cons, if_neg blank, if_neg comment]
    rintro tail backslash rfl
    exact guards (tail ++ more) backslash rfl

theorem Settled.not_blank {c : Char} {rest : List Char} (settled : Settled (c :: rest)) :
    ¬(c = ' ' || c = '\t' || c = '\r') = true := by
  intro blank
  have stays := settled _ (List.prefix_refl _) default
  rw [skipBlanks_cons (by rintro _ rfl _; simp at blank), if_pos blank] at stays
  have shorter := skipBlanks_shorter ((default : Position).advance c) rest
  rw [stays, List.length_cons] at shorter
  omega

theorem Passes.step {skip inner : Position → List Char → Cursor} {text : List Char}
    (chunk : List Char)
    (unfolds : ∀ other, skip other (chunk ++ text) = inner (other.after chunk) text)
    (passes : Passes inner text) : Passes skip (chunk ++ text) := by
  obtain ⟨gap, rest, rfl, runs, settled⟩ := passes
  refine ⟨chunk ++ gap, rest, by rw [List.append_assoc], fun other => ?_, settled⟩
  rw [unfolds, runs, Position.after_append]

theorem Passes.stop {skip : Position → List Char → Cursor} {text : List Char}
    (unfolds : ∀ other, skip other text = ⟨text, other⟩) (settled : Settled text) :
    Passes skip text :=
  ⟨[], text, rfl, unfolds, settled⟩

theorem skipComment_passes (text : List Char) : Passes skipComment text := by
  induction text with
  | nil => exact .stop (fun _ => by rw [skipComment]) settled_nil
  | cons c rest ih =>
    by_cases line : c = '\n'
    · subst line
      refine .stop (fun _ => by rw [skipComment, if_pos rfl]) ?_
      exact settled_cons (by simp) (by decide) (by decide)
    · refine .step [c] (fun _ => ?_) ih
      rw [List.singleton_append, skipComment, if_neg line]
      rfl

theorem skipBlanks_passes (text : List Char) : Passes skipBlanks text := by
  induction h : text.length using Nat.strong_induction_on generalizing text with
  | _ length ih =>
    subst h
    rcases text with _ | ⟨c, rest⟩
    · exact .stop (fun _ => by rw [skipBlanks]) settled_nil
    by_cases escaped : ∃ tail, c = '\\' ∧ rest = '\n' :: tail
    · obtain ⟨tail, rfl, rfl⟩ := escaped
      refine .step ['\\', '\n'] (fun _ => ?_)
        (ih _ (by simp only [List.length_cons]; omega) _ rfl)
      rw [List.cons_append, List.singleton_append, skipBlanks]
      rfl
    have guards : ∀ tail, c = '\\' → rest = '\n' :: tail → False :=
      fun tail backslash line => escaped ⟨tail, backslash, line⟩
    by_cases blank : (c = ' ' || c = '\t' || c = '\r') = true
    · refine .step [c] (fun _ => ?_) (ih _ (by simp) rest rfl)
      rw [List.singleton_append, skipBlanks_cons guards, if_pos blank]
      rfl
    by_cases comment : c = '#'
    · refine .step [c] (fun _ => ?_) (skipComment_passes rest)
      rw [List.singleton_append, skipBlanks_cons guards, if_neg blank, if_pos comment]
      rfl
    · refine .stop (fun _ => ?_) (settled_cons guards blank comment)
      rw [skipBlanks_cons guards, if_neg blank, if_neg comment]

section
variable {position : Position} {c : Char} {text : List Char}

theorem token_single (value : Token) (simple : ∀ start own, Token.Fits start own value)
    (unfolds : ∀ other rest, token other c rest = .ok (value, ⟨rest, other.advance c⟩)) :
    Stretches (headed token) Token.unplaced Token.Fits position (c :: text) := by
  intro read next done
  cases (unfolds position text).symm.trans done
  exact ⟨[c], rfl, rfl, simple _ _, fun other rest _ => ⟨value, unfolds other rest, rfl⟩⟩

/-- A sign that may stand twice is one token where it does. -/
theorem token_twice (double single : Token) (simple : ∀ start own, Token.Fits start own double)
    (plain : ∀ start own, Token.Fits start own single)
    (unfolds : ∀ other rest, token other c rest =
      match rest with
      | d :: tail =>
        if d = c then .ok (double, ⟨tail, (other.advance c).advance d⟩)
        else .ok (single, ⟨rest, other.advance c⟩)
      | [] => .ok (single, ⟨rest, other.advance c⟩)) :
    Stretches (headed token) Token.unplaced Token.Fits position (c :: text) := by
  intro read next done
  have once (other : Position) (rest : List Char) (ahead : rest.head? ≠ some c) :
      headed token other (c :: rest) = .ok (single, ⟨rest, other.advance c⟩) := by
    refine (unfolds other rest).trans ?_
    cases rest with
    | nil => rfl
    | cons d tail => exact if_neg fun same => ahead (congrArg some same)
  by_cases ahead : text.head? = some c
  · obtain ⟨tail, rfl⟩ := List.head?_eq_some_iff.mp ahead
    have done := (unfolds position (c :: tail)).symm.trans done
    simp only [if_true] at done
    cases done
    refine ⟨[c, c], rfl, rfl, simple _ _, fun other rest _ => ⟨double, ?_, rfl⟩⟩
    exact (unfolds other (c :: rest)).trans (if_pos rfl)
  · cases (once position text ahead).symm.trans done
    refine ⟨[c], rfl, rfl, plain _ _, fun other rest before => ⟨single, once other rest ?_, rfl⟩⟩
    obtain ⟨more, rfl⟩ := before
    cases rest with
    | nil => simp
    | cons => exact ahead

/-- What begins with a character is a sign that stands once, a sign that may stand twice, or a
word. -/
theorem token_begins (blank : ¬(c = ' ' || c = '\t' || c = '\r') = true) :
    (∃ value, (∀ read, value ≠ .word read) ∧
      ∀ other rest, token other c rest = .ok (value, ⟨rest, other.advance c⟩)) ∨
    (∃ double single, (∀ read, double ≠ .word read) ∧ (∀ read, single ≠ .word read) ∧ c ≠ '\n' ∧
      ∀ other rest, token other c rest =
        match rest with
        | d :: tail =>
          if d = c then .ok (double, ⟨tail, (other.advance c).advance d⟩)
          else .ok (single, ⟨rest, other.advance c⟩)
        | [] => .ok (single, ⟨rest, other.advance c⟩)) ∨
    endsWord c = false := by
  by_cases newline : c = '\n'
  · subst newline
    exact .inl ⟨.newline, by simp, fun _ _ => rfl⟩
  by_cases semicolon : c = ';'
  · subst semicolon
    exact .inl ⟨.semicolon, by simp, fun _ _ => rfl⟩
  by_cases bar : c = '|'
  · subst bar
    exact .inr (.inl ⟨.or, .pipe, by simp, by simp, newline, fun _ _ => rfl⟩)
  by_cases ampersand : c = '&'
  · subst ampersand
    exact .inr (.inl ⟨.and, .background, by simp, by simp, newline, fun _ _ => rfl⟩)
  by_cases greater : c = '>'
  · subst greater
    exact .inr (.inl ⟨.redirect .append, .redirect .output, by simp, by simp, newline,
      fun _ _ => rfl⟩)
  by_cases less : c = '<'
  · subst less
    exact .inl ⟨.redirect .input, by simp, fun _ _ => rfl⟩
  by_cases left : c = '('
  · subst left
    exact .inl ⟨.leftParen, by simp, fun _ _ => rfl⟩
  by_cases right : c = ')'
  · subst right
    exact .inl ⟨.rightParen, by simp, fun _ _ => rfl⟩
  · right
    right
    simp_all [endsWord]

end

theorem token_stretches (position : Position) (c : Char) (text : List Char)
    (blank : ¬(c = ' ' || c = '\t' || c = '\r') = true) :
    Stretches (headed token) Token.unplaced Token.Fits position (c :: text) := by
  rcases token_begins blank with ⟨value, sign, unfolds⟩ |
    ⟨double, single, plain, simple, -, unfolds⟩ | begins
  · exact token_single value (fun _ _ => Token.fits_sign sign) unfolds
  · exact token_twice double single (fun _ _ => Token.fits_sign plain)
      (fun _ _ => Token.fits_sign simple) unfolds
  have whole : Stretches (fun position text =>
      mapAt (fun read _ => Token.word read) (word ⟨text, position⟩)) Token.unplaced Token.Fits
      position (c :: text) := by
    refine Stretches.map [] .word (fun _ _ => rfl) (word_spreads ⟨c :: text, position⟩)
      ?_ id
    intro one other equal
    rw [Token.unplaced, Token.unplaced, equal]
  refine whole.congr (fun _ _ => token_word begins) fun done => ?_
  exact token_shorter ((token_word begins).trans done)

/-- A word is read of its own characters, and nothing but it, wherever they stand. -/
def Alone (own : List Char) (read : Word) : Prop :=
  ∀ offset, ∃ again, lex own offset =
    .ok [⟨.word again, .starting offset, (Position.starting offset).after own⟩] ∧
      again.unplaced = read.unplaced

/-- Tokens that stand in a text one after the other, where the text begins at a position. -/
inductive Rows : Position → List Char → List Lexeme → Prop where
  | nil {position : Position} {text : List Char} : Rows position text []
  | cons {position : Position} {gap own behind : List Char} {lexeme : Lexeme}
      {rest : List Lexeme} (starts : lexeme.start = position.after gap)
      (stops : lexeme.stop = lexeme.start.after own) (some : own ≠ [])
      (fits : lexeme.token.Fits lexeme.start.offset own)
      (alone : ∀ read, lexeme.token = .word read → Alone own read)
      (later : Rows lexeme.stop behind rest) :
      Rows position (gap ++ (own ++ behind)) (lexeme :: rest)

theorem Rows.mem {position : Position} {text : List Char} {found : List Lexeme}
    (rows : Rows position text found) {lexeme : Lexeme} (member : lexeme ∈ found) :
    ∃ gap own behind, text = gap ++ (own ++ behind) ∧ lexeme.start = position.after gap ∧
      lexeme.stop = lexeme.start.after own ∧ lexeme.token.Fits lexeme.start.offset own ∧
      ∀ read, lexeme.token = .word read → Alone own read := by
  induction rows with
  | nil => cases member
  | @cons position gap own behind first rest starts stops some fits alone later ih =>
    rcases List.mem_cons.mp member with rfl | member
    · exact ⟨gap, own, behind, rfl, starts, stops, fits, alone⟩
    · obtain ⟨further, inside, last, rfl, begins, others⟩ := ih member
      refine ⟨gap ++ own ++ further, inside, last, by simp only [List.append_assoc], ?_, others⟩
      rw [begins, stops, starts, Position.after_append, Position.after_append]

section
variable {cursor : Cursor} {position : Position}

theorem lexemes_nil (nothing : skipBlanks cursor.position cursor.rest = ⟨[], position⟩) :
    lexemes cursor = .ok [] := by
  rw [lexemes]
  split
  · rfl
  · rename_i left
    rw [nothing] at left
    cases left

theorem lexemes_cons {c : Char} {rest : List Char}
    (start : skipBlanks cursor.position cursor.rest = ⟨c :: rest, position⟩) :
    lexemes cursor = match token position c rest with
      | .error error => .error error
      | .ok (read, next) =>
        (lexemes next).map fun later => ⟨read, position, next.position⟩ :: later := by
  rw [lexemes]
  split
  · rename_i left
    rw [start] at left
    cases left
  · rename_i d tail left
    rw [start] at left
    cases left
    split
    · rename_i here
      rw [start] at here
      rw [here]
    · rename_i here
      rw [start] at here ⊢
      rw [here]

end

/-- A word that a token begins with is read of its characters alone. -/
theorem alone_of_token {c : Char} {text own : List Char} {read : Word}
    {next : Cursor} (settled : Settled (c :: text)) (split : c :: text = own ++ next.rest)
    (some : own ≠ [])
    (again : ∀ other rest, rest <+: next.rest → ∃ again,
      headed token other (own ++ rest) = .ok (again, ⟨rest, other.after own⟩) ∧
        again.unplaced = (Token.word read).unplaced) : Alone own read := by
  intro offset
  obtain ⟨made, ran, equal⟩ := again (.starting offset) [] List.nil_prefix
  rw [List.append_nil] at ran
  cases made with
  | word made =>
    refine ⟨made, ?_, Token.word.inj equal⟩
    obtain ⟨d, own, rfl⟩ := List.exists_cons_of_ne_nil some
    have start := settled (d :: own) (split ▸ List.prefix_append _ _) (.starting offset)
    change token _ d own = _ at ran
    rw [lex, lexemes_cons start, ran]
    dsimp only
    rw [lexemes_nil (by rw [skipBlanks])]
    rfl
  | _ => cases equal

theorem lexemes_rows (cursor : Cursor) : ∀ found, lexemes cursor = .ok found →
    Rows cursor.position cursor.rest found ∧
      ∀ other, ∃ again, lexemes ⟨cursor.rest, other⟩ = .ok again ∧
        again.map (·.token.unplaced) = found.map (·.token.unplaced) := by
  fun_induction lexemes cursor with
  | case1 cursor start left =>
    intro _ done
    cases done
    obtain ⟨gap, rest, -, runs, -⟩ := skipBlanks_passes cursor.rest
    obtain rfl : rest = [] := (congrArg Cursor.rest (runs cursor.position)).symm.trans left
    exact ⟨.nil, fun other => ⟨[], lexemes_nil (runs other), rfl⟩⟩
  | case2 => intro _ done; cases done
  | case3 cursor start c rest left read next here ih =>
    intro found done
    obtain ⟨gap, behind, split, runs, settled⟩ := skipBlanks_passes cursor.rest
    have place := runs cursor.position
    obtain rfl : behind = c :: rest := (congrArg Cursor.rest place).symm.trans left
    have begins : start.position = cursor.position.after gap := congrArg Cursor.position place
    cases later : lexemes next with
    | error error =>
      rw [later] at done
      cases done
    | ok lexemes =>
      rw [later] at done
      cases done
      obtain ⟨own, whole, ends, fits, again⟩ :=
        token_stretches start.position c rest settled.not_blank read next here
      have some : own ≠ [] := by
        rintro rfl
        have shorter := token_shorter here
        have longer := congrArg List.length whole
        simp only [List.length_cons, List.nil_append] at longer
        omega
      obtain ⟨rows, relocates⟩ := ih _ later
      constructor
      · rw [split, whole]
        refine .cons begins ends some fits ?_ rows
        rintro word rfl
        exact alone_of_token settled whole some again
      · intro other
        obtain ⟨made, ran, equal⟩ := again (other.after gap) next.rest (List.prefix_refl _)
        rw [← whole] at ran
        change token _ c rest = _ at ran
        obtain ⟨others, runs', same⟩ := relocates ((other.after gap).after own)
        refine ⟨⟨made, other.after gap, (other.after gap).after own⟩ :: others, ?_, ?_⟩
        · rw [lexemes_cons (runs other), ran]
          dsimp only
          rw [runs']
          rfl
        · rw [List.map_cons, List.map_cons, equal, same]

end Lexer

/-- The text of a substitution is shorter than the text around it. -/
theorem lex_short {text body : List Char} {offset start : Nat} {lexemes : List Lexeme}
    {lexeme : Lexeme} {read : Word} {span : Span} (tokens : lex text offset = .ok lexemes)
    (member : lexeme ∈ lexemes) (word : lexeme.token = .word read)
    (piece : .substitution body span start ∈ read.pieces) : body.length < text.length := by
  obtain ⟨gap, own, behind, rfl, -, -, fits, -⟩ :=
    (Lexer.lexemes_rows _ _ tokens).1.mem member
  rw [word] at fits
  obtain ⟨before, inside, after, rfl, rests⟩ := fits.spread.mem piece
  have := rests.short
  simp only [List.length_append]
  omega

end StepShell

import StepShell.Proofs.Token.Scanning

/-! How the pieces of a word stand in the source. They stand in order, and no two substitutions
start at one place; no piece but a guarded backslash ends in one; and what the lexer takes for the
text of a substitution in parentheses is what a later search takes for it. -/

namespace StepShell

namespace Word

/-- The parenthesis put behind a text is the one that closes its group. -/
def Balanced (body : List Char) : Prop :=
  closingParen? 0 .plain (body ++ [')']) = some body.length

/-- What a piece is like that stands in the source from `start` on and before `stop`. The text of a
substitution is balanced, unless it stands directly behind a backquote. -/
def Piece.Stands (start stop : Nat) : Piece → Prop
  | .plain c => c ≠ '\\'
  | .guarded _ => True
  | .reference value _ => ∃ first last, value = first ++ [last] ∧ last ≠ '\\'
  | .substitution body span bodyStart =>
    start ≤ span.start ∧ span.start < stop ∧ (bodyStart = span.start + 1 ∨ Balanced body)

/-- Pieces that stand in the source one after the other, from `start` on and before `stop`. -/
inductive Laid : Nat → List Piece → Nat → Prop where
  | nil {start stop : Nat} (order : start ≤ stop) : Laid start [] stop
  | cons {start middle stop : Nat} {piece : Piece} {rest : List Piece} (order : start ≤ middle)
      (first : piece.Stands start middle) (later : Laid middle rest stop) :
      Laid start (piece :: rest) stop

namespace Laid

variable {start middle stop : Nat} {first second pieces : List Piece}

theorem order (laid : Laid start pieces stop) : start ≤ stop := by
  induction laid with
  | nil order => exact order
  | cons order _ _ ih => exact Nat.le_trans order ih

theorem append (laid : Laid start first middle) (later : Laid middle second stop) :
    Laid start (first ++ second) stop := by
  induction laid with
  | nil order =>
    cases later with
    | nil further => exact .nil (Nat.le_trans order further)
    | @cons _ next _ piece rest further stands later =>
      refine .cons (Nat.le_trans order further) ?_ later
      cases piece with
      | plain c => exact stands
      | guarded c => exact stands
      | reference value span => exact stands
      | substitution body span bodyStart => exact ⟨Nat.le_trans order stands.1, stands.2⟩
  | cons order stands _ ih => exact .cons order stands (ih later)

theorem single {piece : Piece} (order : start ≤ stop) (stands : piece.Stands start stop) :
    Laid start [piece] stop :=
  .cons order stands (.nil (Nat.le_refl _))

theorem left (laid : Laid start (first ++ second) stop) : Laid start first stop := by
  induction first generalizing start with
  | nil => exact .nil laid.order
  | cons piece rest ih =>
    cases laid with
    | cons order stands later => exact .cons order stands (ih later)

/-- Pieces may stand in a longer stretch of the source than they take up. -/
theorem from_le {earlier : Nat} (before : earlier ≤ start) (laid : Laid start pieces stop) :
    Laid earlier pieces stop :=
  append (.nil before) laid

end Laid

end Word

namespace Lexer

open Word (Piece Laid Balanced)

theorem prepend_eq_ok {α : Type} {text : List α} {reading : Reading (List α)} {made : List α}
    {next : Cursor} (done : prepend text reading = .ok (made, next)) :
    ∃ read, reading = .ok (read, next) ∧ made = text ++ read := by
  obtain ⟨read, inner, same⟩ := mapAt_eq_ok.mp done
  exact ⟨read, inner, same.symm⟩

/-- What was read at an offset are pieces that stand in the source from there on. -/
def Lays (start : Nat) (reading : Reading (List Piece)) : Prop :=
  ∀ pieces next, reading = .ok (pieces, next) → Laid start pieces next.position.offset

theorem Lays.prepend {start : Nat} {position : Position} {pieces : List Piece}
    {reading : Reading (List Piece)} (first : Laid start pieces position.offset)
    (later : Lays position.offset reading) : Lays start (prepend pieces reading) := by
  intro made next done
  obtain ⟨read, inner, rfl⟩ := prepend_eq_ok done
  exact first.append (later _ _ inner)

theorem offset_lt_advance (position : Position) (c : Char) :
    position.offset < (position.advance c).offset := by
  rw [Position.advance_offset]
  exact Nat.lt_add_of_pos_right c.utf8Size_pos

theorem offset_le_after (position : Position) (text : List Char) :
    position.offset ≤ (position.after text).offset := by
  induction text generalizing position with
  | nil => exact Nat.le_refl _
  | cons c rest ih => exact Nat.le_trans (Nat.le_of_lt (offset_lt_advance position c)) (ih _)

theorem singleQuoted_lays (position : Position) (text : List Char) :
    Lays position.offset (singleQuoted position text) := by
  fun_induction singleQuoted position text with
  | case1 => intro _ _ done; cases done
  | case2 position rest =>
    intro _ _ done
    cases done
    exact .nil (Nat.le_of_lt (offset_lt_advance _ _))
  | case3 position c rest quote ih =>
    refine Lays.prepend (.single (Nat.le_of_lt (offset_lt_advance _ _)) ?_) ih
    split
    · exact trivial
    · rename_i ordinary
      rintro rfl
      exact ordinary rfl

theorem braced_ends (position : Position) (text : List Char) :
    ∀ value next, braced position text = .ok (value, next) →
      position.offset ≤ next.position.offset ∧ ∃ first, value = first ++ ['\x7d'] := by
  fun_induction braced position text with
  | case1 => intro _ _ done; cases done
  | case2 position rest =>
    intro _ _ done
    cases done
    exact ⟨Nat.le_of_lt (offset_lt_advance _ _), [], rfl⟩
  | case3 position c rest other ih =>
    intro _ _ done
    obtain ⟨read, inner, rfl⟩ := prepend_eq_ok done
    obtain ⟨order, first, rfl⟩ := ih _ _ inner
    exact ⟨Nat.le_trans (Nat.le_of_lt (offset_lt_advance _ _)) order, c :: first, rfl⟩

theorem backquoted_order (position : Position) (text : List Char) :
    ∀ value next, backquoted position text = .ok (value, next) →
      position.offset ≤ next.position.offset := by
  fun_induction backquoted position text with
  | case1 => intro _ _ done; cases done
  | case2 position c rest ih =>
    intro _ _ done
    obtain ⟨read, inner, rfl⟩ := prepend_eq_ok done
    have order := ih _ _ inner
    simp only [Position.advance_offset] at order
    omega
  | case3 position rest =>
    intro _ _ done
    cases done
    exact Nat.le_of_lt (offset_lt_advance _ _)
  | case4 position c rest _ _ ih =>
    intro _ _ done
    obtain ⟨read, inner, rfl⟩ := prepend_eq_ok done
    exact Nat.le_trans (Nat.le_of_lt (offset_lt_advance _ _)) (ih _ _ inner)

/-- What the lexer takes for the text of a substitution is balanced. -/
theorem body_balanced {position : Position} {text value : List Char} {next : Cursor}
    (done : body 0 position text = .ok (value, next)) :
    position.offset < next.position.offset ∧ Balanced value := by
  obtain ⟨closes, rfl, stop⟩ := bodyIn_eq_ok (show bodyIn .plain 0 position text = _ from done)
  constructor
  · have order := offset_le_after position value
    have further := offset_lt_advance (position.after value) ')'
    rw [stop, Position.after_append]
    exact Nat.lt_of_le_of_lt order further
  · have within : value.length < (value ++ [')']).length := by simp
    rw [Word.Balanced, ← Word.closingParen?_append next.rest within, List.append_assoc]
    exact closes

/-- A name does not end in a backslash. -/
theorem reference_ends {name : List Char} (named : name.all isNameChar = true) :
    ∃ first last, '$' :: name = first ++ [last] ∧ last ≠ '\\' := by
  rcases List.eq_nil_or_concat name with rfl | ⟨first, last, rfl⟩
  · exact ⟨[], '$', rfl, by decide⟩
  · refine ⟨'$' :: first, last, by rw [List.concat_eq_append, List.cons_append], ?_⟩
    rintro rfl
    have wrong := List.all_eq_true.mp named '\\' (by simp)
    exact absurd wrong (by decide)

theorem dollar_lays (start : Position) (rest : List Char) :
    Lays start.offset (dollar start rest) := by
  have inside := offset_lt_advance start '$'
  intro pieces next done
  unfold dollar at done
  split at done
  · cases done
    exact .single (Nat.le_of_lt inside) (show '$' ≠ '\\' by decide)
  · rename_i tail
    obtain ⟨text, read, rfl⟩ := mapAt_eq_ok.mp done
    have paren := offset_lt_advance (start.advance '$') '('
    obtain ⟨order, balanced⟩ := body_balanced read
    refine .single (by omega) ⟨Nat.le_refl _, ?_, .inr balanced⟩
    change start.offset < next.position.offset
    omega
  · rename_i tail
    obtain ⟨text, read, rfl⟩ := mapAt_eq_ok.mp done
    have brace := offset_lt_advance (start.advance '$') '\x7b'
    obtain ⟨order, first, rfl⟩ := braced_ends _ _ _ _ read
    exact .single (by omega) ⟨'$' :: '\x7b' :: first, '\x7d', rfl, by decide⟩
  · rename_i c tail _ _
    dsimp only at done
    split at done
    · cases done
      have after := offset_le_after (start.advance '$') ((c :: tail).takeWhile isNameChar)
      exact .single (Nat.le_trans (Nat.le_of_lt inside) after) (reference_ends List.all_takeWhile)
    · split at done
      · rename_i special
        cases done
        have after := offset_lt_advance (start.advance '$') c
        refine .single (Nat.le_of_lt (Nat.lt_trans inside after)) ⟨['$'], c, rfl, ?_⟩
        rintro rfl
        exact absurd special (by decide)
      · cases done
        exact .single (Nat.le_of_lt inside) (show '$' ≠ '\\' by decide)

theorem backquote_lays (start : Position) (rest : List Char) :
    Lays start.offset (backquote start rest) := by
  intro pieces next done
  unfold backquote at done
  obtain ⟨text, read, rfl⟩ := mapAt_eq_ok.mp done
  have inside := offset_lt_advance start '\x60'
  have order := backquoted_order _ _ _ _ read
  refine .single (by omega) ⟨Nat.le_refl _, ?_, .inl (Position.advance_offset _ _)⟩
  change start.offset < next.position.offset
  omega

theorem quotedPiece_lays (position : Position) (c : Char) (rest : List Char) :
    Lays position.offset (quotedPiece position c rest) := by
  intro pieces next done
  have first := offset_lt_advance position c
  unfold quotedPiece at done
  split at done
  · exact dollar_lays _ _ _ _ done
  · split at done
    · exact backquote_lays _ _ _ _ done
    · split at done
      · split at done
        · cases done
        · rename_i follower tail
          have second := offset_lt_advance (position.advance c) follower
          have both := Nat.le_of_lt (Nat.lt_trans first second)
          dsimp only at done
          split at done
          · cases done
            exact .nil both
          · split at done
            · cases done
              exact .single both (show '"' ≠ '\\' by decide)
            · split at done
              · cases done
                exact .single both trivial
              · rename_i ordinary
                cases done
                refine .cons (Nat.le_refl _) trivial (.single both ?_)
                rintro rfl
                exact ordinary rfl
      · rename_i ordinary
        cases done
        exact .single (Nat.le_of_lt first) ordinary

theorem doubleQuoted_lays (cursor : Cursor) :
    Lays cursor.position.offset (doubleQuoted cursor) := by
  fun_induction doubleQuoted cursor with
  | case1 => intro _ _ done; cases done
  | case2 cursor rest left =>
    intro _ _ done
    cases done
    exact .nil (Nat.le_of_lt (offset_lt_advance _ _))
  | case3 => intro _ _ done; cases done
  | case4 cursor c rest left quote pieces middle here ih =>
    exact Lays.prepend (quotedPiece_lays _ _ _ _ _ here) ih

theorem segment_laid {position : Position} {c : Char} {rest : List Char} {read : Word}
    {next : Cursor} (done : segment position c rest = .ok (read, next)) :
    Laid position.offset read.pieces next.position.offset := by
  have first := offset_lt_advance position c
  simp only [segment] at done
  split at done
  · obtain ⟨pieces, inner, rfl⟩ := mapAt_eq_ok.mp done
    exact (singleQuoted_lays _ _ _ _ inner).from_le (Nat.le_of_lt first)
  · split at done
    · obtain ⟨pieces, inner, rfl⟩ := mapAt_eq_ok.mp done
      exact (doubleQuoted_lays _ _ _ inner).from_le (Nat.le_of_lt first)
    · split at done
      · obtain ⟨pieces, inner, rfl⟩ := mapAt_eq_ok.mp done
        exact dollar_lays _ _ _ _ inner
      · split at done
        · obtain ⟨pieces, inner, rfl⟩ := mapAt_eq_ok.mp done
          exact backquote_lays _ _ _ _ inner
        · split at done
          · split at done
            · cases done
              exact .single (Nat.le_of_lt first) trivial
            · cases done
              have second := offset_lt_advance (position.advance c) '\n'
              exact .nil (Nat.le_of_lt (Nat.lt_trans first second))
            · rename_i follower tail _
              cases done
              have second := offset_lt_advance (position.advance c) follower
              exact .single (Nat.le_of_lt (Nat.lt_trans first second)) trivial
          · rename_i ordinary
            cases done
            exact .single (Nat.le_of_lt first) ordinary

theorem word_laid (cursor : Cursor) : ∀ read next, word cursor = .ok (read, next) →
    Laid cursor.position.offset read.pieces next.position.offset := by
  fun_induction word cursor with
  | case1 =>
    intro _ _ done
    cases done
    exact .nil (Nat.le_refl _)
  | case2 =>
    intro _ _ done
    cases done
    exact .nil (Nat.le_refl _)
  | case3 => intro _ _ done; cases done
  | case4 cursor c rest left ends first middle here ih =>
    intro _ _ done
    obtain ⟨later, inner, rfl⟩ := mapAt_eq_ok.mp done
    exact (segment_laid here).append (ih _ _ inner)

/-- A word stands where its token does. -/
theorem token_laid {position : Position} {c : Char} {rest : List Char} {read : Word}
    {next : Cursor} (done : token position c rest = .ok (.word read, next)) :
    Laid position.offset read.pieces next.position.offset := by
  unfold token at done
  simp only at done
  repeat' split at done
  all_goals try cases done
  rename_i first cursor here
  obtain ⟨later, inner, same⟩ := mapAt_eq_ok.mp done
  cases same
  exact (segment_laid here).append (word_laid _ _ _ inner)

theorem lexemes_laid (cursor : Cursor) : ∀ found, lexemes cursor = .ok found →
    ∀ lexeme ∈ found, ∀ read, lexeme.token = .word read →
      Laid lexeme.start.offset read.pieces lexeme.stop.offset := by
  fun_induction lexemes cursor with
  | case1 =>
    intro _ done
    cases done
    simp
  | case2 => intro _ done; cases done
  | case3 cursor start c rest left read next here ih =>
    intro found done
    cases later : lexemes next with
    | error error =>
      rw [later] at done
      cases done
    | ok lexemes =>
      rw [later] at done
      cases done
      intro lexeme member word same
      rcases List.mem_cons.mp member with rfl | old
      · dsimp only at same
        subst same
        exact token_laid here
      · exact ih _ later lexeme old word same

end Lexer

end StepShell

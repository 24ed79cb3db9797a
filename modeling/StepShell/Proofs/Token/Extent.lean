import Mathlib.Data.List.DropRight
import StepShell.Proofs.Expansion.Closure
import StepShell.Proofs.Token.Pieces

/-! How far a reading of the lexer goes. What is read is a stretch at the head of the text; it is
read the same wherever it stands, and if less stands behind it. The pieces of a word stand in that
stretch one after the other, each at the place it is recorded with. -/

namespace StepShell

/-- The bytes of a text. -/
def Text.size : List Char → Nat
  | [] => 0
  | c :: rest => c.utf8Size + size rest

namespace Text

@[simp] theorem size_nil : size [] = 0 := rfl

@[simp] theorem size_cons (c : Char) (text : List Char) :
    size (c :: text) = c.utf8Size + size text := rfl

@[simp] theorem size_append (first second : List Char) :
    size (first ++ second) = size first + size second := by
  induction first with
  | nil => rw [List.nil_append, size_nil, Nat.zero_add]
  | cons c rest ih => rw [List.cons_append, size_cons, size_cons, ih, Nat.add_assoc]

theorem size_le_of_sublist {first second : List Char} (sublist : first.Sublist second) :
    size first ≤ size second := by
  induction sublist with
  | slnil => exact Nat.le_refl _
  | cons c _ ih => rw [size_cons]; omega
  | cons_cons c _ ih => rw [size_cons, size_cons]; omega

theorem size_pos {text : List Char} (some : text ≠ []) : 0 < size text := by
  obtain ⟨c, rest, rfl⟩ := List.exists_cons_of_ne_nil some
  have := c.utf8Size_pos
  rw [size_cons]
  omega

/-- No two beginnings of a text end at one offset. -/
theorem eq_of_size_eq {text first second : List Char} (one : first <+: text)
    (other : second <+: text) (same : size first = size second) : first = second := by
  wlog shorter : first <+: second
  · obtain ahead | ahead := List.prefix_or_prefix_of_prefix one other
    · exact absurd ahead shorter
    · exact (this other one same.symm ahead).symm
  obtain ⟨more, rfl⟩ := shorter
  rw [size_append] at same
  by_cases none : more = []
  · rw [none, List.append_nil]
  · have := size_pos none
    omega

end Text

theorem Position.after_offset (position : Position) (text : List Char) :
    (position.after text).offset = position.offset + Text.size text := by
  induction text generalizing position with
  | nil => rfl
  | cons c rest ih =>
    rw [Position.after_cons, ih, Position.advance_offset, Text.size_cons, Nat.add_assoc]

namespace Word

/-- A piece apart from its place. -/
def Piece.unplaced : Piece → Piece
  | .reference value _ => .reference value default
  | .substitution body _ _ => .substitution body default 0
  | piece => piece

theorem Piece.unplaced_text (piece : Piece) : piece.unplaced.text = piece.text := by
  cases piece <;> rfl

/-- A word apart from its place. -/
def unplaced (word : Word) : Word :=
  ⟨word.pieces.map Piece.unplaced, word.quoted⟩

theorem unplaced_append (first second : Word) :
    (first ++ second).unplaced = first.unplaced ++ second.unplaced := by
  change Word.mk (List.map _ (first.pieces ++ second.pieces)) _ = _
  rw [List.map_append]
  rfl

theorem unplaced_chars (word : Word) : word.unplaced.chars = word.chars := by
  simp [chars, unplaced, List.flatMap_map, Piece.unplaced_text]

/-- How a piece is recorded whose characters begin at the offset `start`. The text of a substitution
stands between its parentheses; that between backquotes may have lost some backslashes. -/
def Piece.Rests (start : Nat) (own : List Char) : Piece → Prop
  | .plain _ | .guarded _ => True
  | .reference _ span => span = ⟨start, start + Text.size own⟩
  | .substitution body span bodyStart => span = ⟨start, start + Text.size own⟩ ∧
    (own = '$' :: '(' :: (body ++ [')']) ∧ bodyStart = start + 2 ∨
      ∃ inside, own = '\x60' :: (inside ++ ['\x60']) ∧ body.Sublist inside ∧ bodyStart = start + 1)

/-- Pieces that stand in a text one after the other, where the text begins at the offset `start`. -/
inductive Spread : Nat → List Char → List Piece → Prop where
  | nil {start : Nat} {text : List Char} : Spread start text []
  | cons {start : Nat} {before own behind : List Char} {piece : Piece} {rest : List Piece}
      (first : piece.Rests (start + Text.size before) own)
      (later : Spread (start + Text.size before + Text.size own) behind rest) :
      Spread start (before ++ (own ++ behind)) (piece :: rest)

namespace Spread

variable {start : Nat} {text before after : List Char} {pieces first second : List Piece}

theorem behind (spread : Spread (start + Text.size before) text pieces) :
    Spread start (before ++ text) pieces := by
  cases spread with
  | nil => exact .nil
  | @cons _ earlier own behind piece rest first later =>
    rw [← List.append_assoc]
    refine .cons ?_ ?_
    · rwa [Text.size_append, ← Nat.add_assoc]
    · rwa [Text.size_append, ← Nat.add_assoc]

theorem append (here : Spread start before first)
    (there : Spread (start + Text.size before) after second) :
    Spread start (before ++ after) (first ++ second) := by
  induction here with
  | nil => exact there.behind
  | @cons start before own rest piece pieces stands later ih =>
    rw [List.append_assoc, List.append_assoc, List.cons_append]
    refine .cons stands (ih ?_)
    simpa [Nat.add_assoc] using there

theorem single {piece : Piece} (stands : piece.Rests start text) : Spread start text [piece] := by
  have spread : Spread start ([] ++ (text ++ [])) [piece] := .cons (by simpa using stands) .nil
  simpa using spread

theorem mem (spread : Spread start text pieces) {piece : Piece} (member : piece ∈ pieces) :
    ∃ before own behind, text = before ++ (own ++ behind) ∧
      piece.Rests (start + Text.size before) own := by
  induction spread with
  | nil => cases member
  | @cons start before own behind first rest stands later ih =>
    rcases List.mem_cons.mp member with rfl | member
    · exact ⟨before, own, behind, rfl, stands⟩
    · obtain ⟨further, inside, last, rfl, rests⟩ := ih member
      refine ⟨before ++ own ++ further, inside, last, by simp only [List.append_assoc], ?_⟩
      simpa only [Text.size_append, Nat.add_assoc] using rests

end Spread

/-- The text of a substitution is shorter than what it stands in. -/
theorem Piece.Rests.short {start bodyStart : Nat} {own body : List Char} {span : Span}
    (rests : (Piece.substitution body span bodyStart).Rests start own) :
    body.length < own.length := by
  obtain ⟨-, ⟨rfl, -⟩ | ⟨inside, rfl, sublist, -⟩⟩ := rests
  · simp only [List.length_cons, List.length_append, List.length_nil]
    omega
  · have := sublist.length_le
    simp only [List.length_cons, List.length_append, List.length_nil]
    omega

/-- A word of characters that begin at the offset `start`. No parameter in a quoted word takes all
of them, since the quotes are among them. -/
structure Rests (start : Nat) (own : List Char) (read : Word) : Prop where
  spread : Spread start own read.pieces
  quotes : read.quoted = true → own ≠ [] ∧ ∀ value span, .reference value span ∈ read.pieces →
    span.stop < span.start + Text.size own

theorem Spread.reference {start : Nat} {text : List Char} {pieces : List Piece}
    (spread : Spread start text pieces) {value : List Char} {span : Span}
    (member : .reference value span ∈ pieces) : span.stop ≤ span.start + Text.size text := by
  obtain ⟨before, own, behind, rfl, rests⟩ := spread.mem member
  rw [Piece.Rests] at rests
  subst rests
  simp only [Text.size_append]
  omega

theorem Rests.append {start : Nat} {own behind : List Char} {first second : Word}
    (here : Rests start own first) (there : Rests (start + Text.size own) behind second) :
    Rests start (own ++ behind) (first ++ second) := by
  refine ⟨here.spread.append there.spread, fun quoted => ?_⟩
  rw [Text.size_append]
  obtain quoted | quoted := Bool.or_eq_true_iff.mp quoted
  · obtain ⟨some, inside⟩ := here.quotes quoted
    have := Text.size_pos some
    refine ⟨List.append_ne_nil_of_left_ne_nil some _, fun value span member => ?_⟩
    rcases List.mem_append.mp member with member | member
    · have := inside value span member
      omega
    · have := there.spread.reference member
      omega
  · obtain ⟨some, inside⟩ := there.quotes quoted
    have := Text.size_pos some
    refine ⟨List.append_ne_nil_of_right_ne_nil _ some, fun value span member => ?_⟩
    rcases List.mem_append.mp member with member | member
    · have := here.spread.reference member
      omega
    · have := inside value span member
      omega

end Word

namespace Lexer

open Word (Piece Spread isSpecial)

/-- What is read at a place is a stretch of the text there, which fits what is read. The same is
read of the stretch elsewhere and before less of the text behind it, `bare` of the place. -/
def Stretches {α β : Type} (read : Position → List Char → Reading α) (bare : α → β)
    (fits : Nat → List Char → α → Prop) (position : Position) (text : List Char) : Prop :=
  ∀ value next, read position text = .ok (value, next) →
    ∃ own, text = own ++ next.rest ∧ next.position = position.after own ∧
      fits position.offset own value ∧
      ∀ other rest, rest <+: next.rest → ∃ again,
        read other (own ++ rest) = .ok (again, ⟨rest, other.after own⟩) ∧ bare again = bare value

theorem prepend_ok {α : Type} (front : List α) (read : List α) (next : Cursor) :
    prepend front (.ok (read, next)) = .ok (front ++ read, next) := rfl

section
variable {α : Type} {read inner : Position → List Char → Reading (List α)} {bare : α → α}
  {fits later : Nat → List Char → List α → Prop} {position : Position} {text : List Char}

/-- A stretch that begins with some characters and goes on as another reader says. -/
theorem Stretches.prepend (chunk : List Char) (front : List α)
    (unfolds : ∀ other rest, read other (chunk ++ rest) =
      Lexer.prepend front (inner (other.after chunk) rest))
    (stretches : Stretches inner (List.map bare) later (position.after chunk) text)
    (grows : ∀ own value, later (position.after chunk).offset own value →
      fits position.offset (chunk ++ own) (front ++ value)) :
    Stretches read (List.map bare) fits position (chunk ++ text) := by
  intro _ _ done
  rw [unfolds] at done
  obtain ⟨value, ran, rfl⟩ := prepend_eq_ok done
  obtain ⟨own, rfl, place, fit, again⟩ := stretches _ _ ran
  refine ⟨chunk ++ own, by rw [List.append_assoc], by rw [place, Position.after_append],
    grows _ _ fit, fun other rest ahead => ?_⟩
  obtain ⟨same, ran, equal⟩ := again (other.after chunk) rest ahead
  refine ⟨front ++ same, ?_, by rw [List.map_append, List.map_append, equal]⟩
  rw [List.append_assoc, unfolds, ran, prepend_ok, Position.after_append]

/-- A stretch that ends with some characters. -/
theorem Stretches.last (chunk : List Char) (value : List α)
    (unfolds : ∀ other rest, read other (chunk ++ rest) = .ok (value, ⟨rest, other.after chunk⟩))
    (fit : fits position.offset chunk value) :
    Stretches read (List.map bare) fits position (chunk ++ text) := by
  intro _ _ done
  rw [unfolds] at done
  cases done
  exact ⟨chunk, rfl, rfl, fit, fun other rest _ => ⟨value, unfolds other rest, rfl⟩⟩

theorem Stretches.error {error : ParseError} (fails : read position text = .error error) :
    Stretches read (List.map bare) fits position text := by
  intro _ _ done
  rw [fails] at done
  cases done

end

/-- Readers that agree where a text begins with a character. -/
theorem Stretches.congr {α β : Type} {read again : Position → List Char → Reading α} {bare : α → β}
    {fits : Nat → List Char → α → Prop} {position : Position} {c : Char} {text : List Char}
    (stretches : Stretches read bare fits position (c :: text))
    (same : ∀ other rest, again other (c :: rest) = read other (c :: rest))
    (shorter : ∀ {value next}, read position (c :: text) = .ok (value, next) →
      next.rest.length ≤ text.length) : Stretches again bare fits position (c :: text) := by
  intro value next done
  rw [same] at done
  obtain ⟨_ | ⟨d, own⟩, split, place, fit, repeats⟩ := stretches value next done
  · have longer := congrArg List.length split
    have := shorter done
    simp only [List.length_cons, List.nil_append] at longer
    omega
  · obtain rfl := (List.cons.inj split).1
    exact ⟨c :: own, split, place, fit, fun other rest ahead => same other (own ++ rest) ▸
      repeats other rest ahead⟩

/-- Pieces that are characters. -/
def Literal (pieces : List Piece) : Prop :=
  ∀ piece ∈ pieces, ∀ start own, piece.Rests start own

theorem Literal.spread {pieces : List Piece} (literal : Literal pieces) (start : Nat)
    (text : List Char) : Spread start text pieces := by
  induction pieces with
  | nil => exact .nil
  | cons piece rest ih =>
    have later := ih fun other member => literal other (List.mem_cons_of_mem _ member)
    have spread : Spread start ([] ++ ([] ++ text)) (piece :: rest) :=
      .cons (literal piece List.mem_cons_self _ _) later
    simpa using spread

theorem singleQuoted_stretches (position : Position) (text : List Char) :
    Stretches singleQuoted (List.map Piece.unplaced) (fun _ _ pieces => Literal pieces) position
      text := by
  fun_induction singleQuoted position text with
  | case1 => exact .error rfl
  | case2 position rest =>
    refine .last ['\''] [] (fun other rest => ?_) (by simp [Literal])
    rw [List.singleton_append, singleQuoted, if_pos rfl]
    rfl
  | case3 position c rest quote ih =>
    refine .prepend [c] [if isSpecial c then .guarded c else .plain c] (fun other rest => ?_) ih
      fun own value fit => ?_
    · rw [List.singleton_append, singleQuoted, if_neg quote]
      rfl
    · refine List.forall_mem_append.mpr ⟨?_, fit⟩
      rw [List.forall_mem_singleton]
      split <;> exact fun _ _ => trivial

theorem braced_stretches (position : Position) (text : List Char) :
    Stretches braced (List.map id) (fun _ own value => own = value) position text := by
  fun_induction braced position text with
  | case1 => exact .error rfl
  | case2 position rest =>
    refine .last ['\x7d'] ['\x7d'] (fun other rest => ?_) rfl
    rw [List.singleton_append, braced, if_pos rfl]
    rfl
  | case3 position c rest other ih =>
    refine .prepend [c] [c] (fun other rest => ?_) ih
      fun own value fit => ?_
    · rw [List.singleton_append, braced, if_neg ‹_›]
      rfl
    · rw [fit]

theorem backquoted_stretches (position : Position) (text : List Char) :
    Stretches backquoted (List.map id)
      (fun _ own value => ∃ inside, own = inside ++ ['\x60'] ∧ value.Sublist inside)
      position text := by
  fun_induction backquoted position text with
  | case1 => exact .error rfl
  | case2 position c rest ih =>
    refine .prepend ['\\', c] (if isSpecial c then [c] else ['\\', c])
      (fun other rest => ?_) ih ?_
    · rw [List.cons_append, List.singleton_append, backquoted]
      rfl
    · rintro own value ⟨inside, rfl, sublist⟩
      refine ⟨'\\' :: c :: inside, rfl, ?_⟩
      split
      · exact (sublist.cons_cons c).cons _
      · exact (sublist.cons_cons c).cons_cons _
  | case3 position rest =>
    refine .last ['\x60'] [] (fun other rest => ?_)
      ⟨[], rfl, List.Sublist.slnil⟩
    rw [List.singleton_append, backquoted, if_pos rfl]
    · rfl
    · intro _ _ wrong
      cases wrong
  | case4 position c rest guards quote ih =>
    by_cases backslash : c = '\\'
    · obtain rfl := Word.nil_of_backslash backslash guards
      subst backslash
      exact .error rfl
    refine .prepend [c] [c] (fun other rest => ?_) ih ?_
    · rw [List.singleton_append, backquoted, if_neg quote]
      · rfl
      · exact fun _ _ wrong => absurd wrong backslash
    · rintro own value ⟨inside, rfl, sublist⟩
      exact ⟨c :: inside, rfl, sublist.cons_cons c⟩

/-- The text of a substitution ends before a parenthesis. -/
theorem bodyIn_encloses (quoting : Word.Quoting) (depth : Nat) (position : Position)
    (text : List Char) : Stretches (bodyIn quoting depth) (List.map id)
      (fun _ own value => own = value ++ [')']) position text := by
  intro value next done
  obtain ⟨closes, rfl, place⟩ := bodyIn_eq_ok done
  have within : value.length < (value ++ [')']).length := by simp
  have split (rest : List Char) : value ++ ')' :: rest = (value ++ [')']) ++ rest := by simp
  refine ⟨value ++ [')'], split next.rest, place, rfl, fun other rest _ => ⟨value, ?_, rfl⟩⟩
  rw [← split]
  refine bodyIn_closed ?_ other
  rw [split, Word.closingParen?_append _ within] at closes ⊢
  exact closes

/-- A reader that is given the first character apart from the others. -/
def headed {α : Type} (read : Position → Char → List Char → Reading α) :
    Position → List Char → Reading α
  | _, [] => .error .emptySubstitution
  | position, c :: rest => read position c rest

/-- A reader of pieces, which stand one after the other in what is read. -/
abbrev Spreads (read : Position → List Char → Reading (List Piece)) :=
  Stretches read (List.map Piece.unplaced) Spread

/-- What ends a name ends it as well when less stands behind it. -/
theorem takeWhile_of_prefix {keep : Char → Bool} {text rest : List Char}
    (ahead : rest <+: text.dropWhile keep) :
    (text.takeWhile keep ++ rest).takeWhile keep = text.takeWhile keep ∧
      (text.takeWhile keep ++ rest).dropWhile keep = rest := by
  have ends : rest.dropWhile keep = rest := by
    cases rest with
    | nil => rfl
    | cons c rest =>
      obtain ⟨more, same⟩ := ahead
      have stops := List.dropWhile_idempotent keep text
      rw [← same, List.cons_append, List.dropWhile_cons] at stops
      split at stops
      · have shorter := congrArg List.length stops
        have := (List.dropWhile_sublist keep (l := rest ++ more)).length_le
        rw [List.length_cons] at shorter
        omega
      · rename_i other
        rw [List.dropWhile_cons, if_neg other]
  have stops : rest.takeWhile keep = [] := by
    have whole := List.takeWhile_append_dropWhile (p := keep) (l := rest)
    rw [ends] at whole
    exact List.append_left_eq_self.mp whole
  have all : ∀ c ∈ text.takeWhile keep, keep c = true := fun c member =>
    List.mem_takeWhile_imp member
  constructor
  · rw [List.takeWhile_append_of_pos all, stops, List.append_nil]
  · rw [List.dropWhile_append_of_pos all, ends]

section
variable {start : Position} {c : Char} {tail : List Char}

theorem dollar_group : dollar start ('(' :: tail) =
    mapAt (fun text stop =>
        [.substitution text ⟨start.offset, stop.offset⟩ ((start.advance '$').advance '(').offset])
      (body 0 ((start.advance '$').advance '(') tail) := rfl

theorem dollar_brace : dollar start ('\x7b' :: tail) =
    mapAt (fun text stop => [.reference ('$' :: '\x7b' :: text) ⟨start.offset, stop.offset⟩])
      (braced ((start.advance '$').advance '\x7b') tail) := rfl

theorem dollar_cons (start : Position) (tail : List Char) (group : c ≠ '(')
    (brace : c ≠ '\x7b') : dollar start (c :: tail) =
    if isNameStart c then
      .ok ([.reference ('$' :: (c :: tail).takeWhile isNameChar) ⟨start.offset,
          ((start.advance '$').after ((c :: tail).takeWhile isNameChar)).offset⟩],
        ⟨(c :: tail).dropWhile isNameChar,
          (start.advance '$').after ((c :: tail).takeWhile isNameChar)⟩)
    else if isSpecialParameter c then
      .ok ([.reference ['$', c] ⟨start.offset, ((start.advance '$').advance c).offset⟩],
        ⟨tail, (start.advance '$').advance c⟩)
    else .ok ([.plain '$'], ⟨c :: tail, start.advance '$'⟩) := by
  rw [dollar]
  · exact group
  · exact brace

end

section
variable (position : Position) (c : Char) (text : List Char)

theorem dollar_group_spreads :
    Spreads (headed fun position _ => dollar position) position ('$' :: '(' :: text) := by
  intro pieces next done
  change dollar position ('(' :: text) = .ok (pieces, next) at done
  rw [dollar_group] at done
  obtain ⟨inside, read, rfl⟩ := mapAt_eq_ok.mp done
  obtain ⟨own, rfl, place, rfl, again⟩ := bodyIn_encloses .plain _ _ _ _ _ read
  refine ⟨'$' :: '(' :: (inside ++ [')']), rfl, place, .single ⟨?_, .inl ⟨rfl, ?_⟩⟩,
    fun other rest ahead => ?_⟩
  · rw [place, ← Position.after_offset]
    rfl
  · rw [Position.advance_offset, Position.advance_offset]
    rfl
  · obtain ⟨same, ran, equal⟩ := again ((other.advance '$').advance '(') rest ahead
    obtain rfl : same = inside := by simpa using equal
    exact ⟨_, dollar_group.trans (mapAt_eq_ok.mpr ⟨same, ran, rfl⟩), rfl⟩

theorem dollar_brace_spreads :
    Spreads (headed fun position _ => dollar position) position ('$' :: '\x7b' :: text) := by
  intro pieces next done
  change dollar position ('\x7b' :: text) = .ok (pieces, next) at done
  rw [dollar_brace] at done
  obtain ⟨inside, read, rfl⟩ := mapAt_eq_ok.mp done
  obtain ⟨own, rfl, place, rfl, again⟩ := braced_stretches _ _ _ _ read
  refine ⟨'$' :: '\x7b' :: own, rfl, place, .single ?_, fun other rest ahead => ?_⟩
  · rw [Piece.Rests, place, ← Position.after_offset]
    rfl
  · obtain ⟨same, ran, equal⟩ := again ((other.advance '$').advance '\x7b') rest ahead
    obtain rfl : same = own := by simpa using equal
    exact ⟨_, dollar_brace.trans (mapAt_eq_ok.mpr ⟨same, ran, rfl⟩), rfl⟩

variable {c} (group : c ≠ '(') (brace : c ≠ '\x7b')
include group brace

theorem dollar_name_spreads (start : isNameStart c = true) :
    Spreads (headed fun position _ => dollar position) position ('$' :: c :: text) := by
  intro pieces next done
  change dollar position (c :: text) = .ok (pieces, next) at done
  rw [dollar_cons _ _ group brace, if_pos start] at done
  cases done
  have named := Expansion.isNameChar_of_isNameStart start
  refine ⟨'$' :: (c :: text).takeWhile isNameChar, ?_, rfl, .single ?_,
    fun other rest ahead => ?_⟩
  · rw [List.cons_append, List.takeWhile_append_dropWhile]
  · rw [Piece.Rests, Position.after_offset, Position.advance_offset, Text.size_cons,
      Nat.add_assoc]
  · obtain ⟨whole, behind⟩ := takeWhile_of_prefix ahead
    rw [List.takeWhile_cons_of_pos named] at *
    rw [List.cons_append] at whole behind
    have run := dollar_cons other (text.takeWhile isNameChar ++ rest) group brace
    rw [if_pos start, whole, behind] at run
    exact ⟨_, run, rfl⟩

theorem dollar_special_spreads (unnamed : ¬ isNameStart c = true)
    (special : isSpecialParameter c = true) :
    Spreads (headed fun position _ => dollar position) position ('$' :: c :: text) := by
  have reads (other : Position) (rest : List Char) := dollar_cons other rest group brace
  simp only [if_neg unnamed, if_pos special] at reads
  intro pieces next done
  cases (reads position text).symm.trans done
  refine ⟨['$', c], rfl, rfl, .single ?_, fun other rest _ => ⟨_, reads other rest, rfl⟩⟩
  rw [Piece.Rests, Position.advance_offset, Position.advance_offset, Text.size_cons,
    Text.size_cons, Text.size_nil, Nat.add_zero, Nat.add_assoc]

/-- The sign stands for itself, and what follows it is left. -/
theorem dollar_alone_spreads (unnamed : ¬ isNameStart c = true)
    (ordinary : ¬ isSpecialParameter c = true) :
    Spreads (headed fun position _ => dollar position) position ('$' :: c :: text) := by
  intro pieces next done
  change dollar position (c :: text) = .ok (pieces, next) at done
  rw [dollar_cons _ _ group brace, if_neg unnamed, if_neg ordinary] at done
  cases done
  refine ⟨['$'], rfl, rfl, .single trivial, fun other rest ahead => ⟨[.plain '$'], ?_, rfl⟩⟩
  change dollar other rest = _
  rcases rest with _ | ⟨d, rest⟩
  · rfl
  · obtain ⟨more, same⟩ := ahead
    obtain rfl := (List.cons.inj same).1
    rw [dollar_cons _ _ group brace, if_neg unnamed, if_neg ordinary]
    rfl

end

theorem dollar_spreads (position : Position) (text : List Char) :
    Spreads (headed fun position _ => dollar position) position ('$' :: text) := by
  rcases text with _ | ⟨c, tail⟩
  · intro pieces next done
    cases done
    refine ⟨['$'], rfl, rfl, .single trivial, fun other rest ahead => ?_⟩
    obtain rfl := List.prefix_nil.mp ahead
    exact ⟨_, rfl, rfl⟩
  by_cases group : c = '('
  · subst group
    exact dollar_group_spreads position tail
  by_cases brace : c = '\x7b'
  · subst brace
    exact dollar_brace_spreads position tail
  by_cases start : isNameStart c = true
  · exact dollar_name_spreads position tail group brace start
  by_cases special : isSpecialParameter c = true
  · exact dollar_special_spreads position tail group brace start special
  · exact dollar_alone_spreads position tail group brace start special

theorem backquote_eq {start : Position} {rest : List Char} : backquote start rest =
    mapAt (fun text stop =>
        [.substitution text ⟨start.offset, stop.offset⟩ (start.advance '\x60').offset])
      (backquoted (start.advance '\x60') rest) := rfl

theorem backquote_spreads (position : Position) (text : List Char) :
    Spreads (headed fun position _ => backquote position) position ('\x60' :: text) := by
  intro pieces next done
  change backquote position text = .ok (pieces, next) at done
  rw [backquote_eq] at done
  obtain ⟨body, read, rfl⟩ := mapAt_eq_ok.mp done
  obtain ⟨own, rfl, place, ⟨inside, rfl, sublist⟩, again⟩ := backquoted_stretches _ _ _ _ read
  refine ⟨'\x60' :: (inside ++ ['\x60']), rfl, place,
    .single ⟨?_, .inr ⟨inside, rfl, sublist, ?_⟩⟩, fun other rest ahead => ?_⟩
  · rw [place, ← Position.after_offset]
    rfl
  · rw [Position.advance_offset]
    rfl
  · obtain ⟨same, ran, equal⟩ := again (other.advance '\x60') rest ahead
    obtain rfl : same = body := by simpa using equal
    exact ⟨_, backquote_eq.trans (mapAt_eq_ok.mpr ⟨same, ran, rfl⟩), rfl⟩

theorem quotedPiece_spreads (position : Position) (c : Char) (text : List Char) :
    Spreads (headed quotedPiece) position (c :: text) := by
  by_cases dollar : c = '$'
  · subst dollar
    exact (dollar_spreads position text).congr (fun _ _ => rfl) dollar_shorter
  by_cases backquote : c = '\x60'
  · subst backquote
    exact (backquote_spreads position text).congr (fun _ _ => rfl) backquote_shorter
  intro pieces next done
  change quotedPiece position c text = .ok (pieces, next) at done
  by_cases backslash : c = '\\'
  · subst backslash
    rcases text with _ | ⟨d, tail⟩
    · cases done
    have escapes (other : Position) (rest : List Char) :
        quotedPiece other '\\' (d :: rest) = .ok (if d = '\n' then []
          else if d = '"' then [.plain '"'] else if isSpecial d then [.guarded d]
          else [.guarded '\\', .plain d],
          ⟨rest, (other.advance '\\').advance d⟩) := by
      rw [quotedPiece, if_neg (by decide), if_neg (by decide), if_pos rfl]
      split_ifs <;> rfl
    rw [escapes] at done
    cases done
    refine ⟨['\\', d], rfl, rfl, Literal.spread ?_ _ _,
      fun other rest _ => ⟨_, escapes other rest, rfl⟩⟩
    split_ifs <;> simp [Literal, Piece.Rests]
  have plain (other : Position) (rest : List Char) :
      quotedPiece other c rest = .ok ([.plain c], ⟨rest, other.advance c⟩) := by
    simp only [quotedPiece, dollar, backquote, backslash, if_false]
  rw [plain] at done
  cases done
  exact ⟨[c], rfl, rfl, .single trivial, fun other rest _ => ⟨_, plain other rest, rfl⟩⟩

theorem doubleQuoted_cons {position : Position} {c : Char} {rest : List Char}
    (inside : c ≠ '"') : doubleQuoted ⟨c :: rest, position⟩ =
      match quotedPiece position c rest with
      | .error error => .error error
      | .ok (pieces, next) => prepend pieces (doubleQuoted next) := by
  rw [doubleQuoted]
  simp only [inside, if_false]
  split <;> simp_all

/-- A first stretch and, behind it, what another reader makes of the text there. -/
theorem Stretches.append {α β : Type} [Append α]
    {first second read : Position → List Char → Reading α} {bare : α → β}
    {fits : Nat → List Char → α → Prop} {position : Position} {c : Char} {text : List Char}
    {value : α} {middle : Cursor}
    (here : first position (c :: text) = .ok (value, middle))
    (shorter : middle.rest.length ≤ text.length)
    (stretches : Stretches first bare fits position (c :: text))
    (later : Stretches second bare fits middle.position middle.rest)
    (unfolds : ∀ other rest value middle, first other (c :: rest) = .ok (value, middle) →
      read other (c :: rest) =
        mapAt (fun more _ => value ++ more) (second middle.position middle.rest))
    (bares : ∀ {one other two further : α}, bare one = bare other → bare two = bare further →
      bare (one ++ two) = bare (other ++ further))
    (joins : ∀ {start own behind} {one two : α}, fits start own one →
      fits (start + Text.size own) behind two → fits start (own ++ behind) (one ++ two)) :
    Stretches read bare fits position (c :: text) := by
  intro made next done
  rw [unfolds _ _ _ _ here] at done
  obtain ⟨more, ran, rfl⟩ := mapAt_eq_ok.mp done
  obtain ⟨_ | ⟨d, own⟩, split, place, fit, repeats⟩ := stretches value middle here
  · have longer := congrArg List.length split
    simp only [List.length_cons, List.nil_append] at longer
    omega
  obtain rfl := (List.cons.inj split).1
  obtain ⟨behind, rest, further, suit, again⟩ := later more next ran
  refine ⟨c :: own ++ behind, by rw [split, rest, List.append_assoc], ?_, ?_, ?_⟩
  · rw [further, place, Position.after_append]
  · rw [place, Position.after_offset] at suit
    exact joins fit suit
  · intro other less ahead
    obtain ⟨one, ran, equal⟩ := repeats other (behind ++ less)
      (rest ▸ (List.prefix_append_right_inj behind).mpr ahead)
    obtain ⟨two, runs, same⟩ := again (other.after (c :: own)) less ahead
    have run := unfolds other (own ++ (behind ++ less)) _ _ ran
    refine ⟨one ++ two, ?_, bares equal same⟩
    rw [List.append_assoc, Position.after_append]
    exact run.trans (mapAt_eq_ok.mpr ⟨two, runs, rfl⟩)

theorem doubleQuoted_spreads (cursor : Cursor) :
    Spreads (fun position text => doubleQuoted ⟨text, position⟩) cursor.position cursor.rest := by
  fun_induction doubleQuoted cursor with
  | case1 cursor left =>
    rw [left]
    exact .error (by rw [doubleQuoted]; rfl)
  | case2 cursor rest left =>
    rw [left]
    refine .last ['"'] [] (fun other rest => ?_) .nil
    rw [List.singleton_append, doubleQuoted]
    exact if_pos rfl
  | case3 cursor c rest left inside error here =>
    rw [left]
    exact .error (by rw [doubleQuoted_cons inside, here])
  | case4 cursor c rest left inside pieces middle here ih =>
    rw [left]
    refine .append here (quotedPiece_shorter here) (quotedPiece_spreads _ _ _) ih ?_ ?_ .append
    · intro other rest value middle here
      change quotedPiece other c rest = _ at here
      rw [doubleQuoted_cons inside, here]
      rfl
    · intro one other two further equal same
      rw [List.map_append, List.map_append, equal, same]

/-- What another reader makes of the text behind some characters, changed. -/
theorem Stretches.map {α β γ δ : Type} {inner : Position → List Char → Reading α}
    {read : Position → List Char → Reading γ} {bare : α → β} {plain : γ → δ}
    {fits : Nat → List Char → α → Prop} {suits : Nat → List Char → γ → Prop} {position : Position}
    {text : List Char} (chunk : List Char) (change : α → γ)
    (unfolds : ∀ other rest, read other (chunk ++ rest) =
      mapAt (fun value _ => change value) (inner (other.after chunk) rest))
    (later : Stretches inner bare fits (position.after chunk) text)
    (bares : ∀ {one other}, bare one = bare other → plain (change one) = plain (change other))
    (grows : ∀ {start own value}, fits (start + Text.size chunk) own value →
      suits start (chunk ++ own) (change value)) :
    Stretches read plain suits position (chunk ++ text) := by
  intro made next done
  rw [unfolds] at done
  obtain ⟨value, ran, rfl⟩ := mapAt_eq_ok.mp done
  obtain ⟨own, rfl, place, fit, again⟩ := later _ _ ran
  rw [Position.after_offset] at fit
  refine ⟨chunk ++ own, by rw [List.append_assoc], by rw [place, Position.after_append],
    grows fit, fun other rest ahead => ?_⟩
  obtain ⟨same, runs, equal⟩ := again (other.after chunk) rest ahead
  refine ⟨change same, ?_, bares equal⟩
  rw [List.append_assoc, unfolds, Position.after_append]
  exact mapAt_eq_ok.mpr ⟨same, runs, rfl⟩

/-- A reader of words, whose pieces stand one after the other in what is read. -/
abbrev SpreadsWord (read : Position → List Char → Reading Word) :=
  Stretches read Word.unplaced Word.Rests

theorem SpreadsWord.char {read : Position → List Char → Reading Word} {position : Position}
    {text : List Char} (chunk : List Char) (value : Word) (literal : Literal value.pieces)
    (bare : value.quoted = false)
    (unfolds : ∀ other rest, read other (chunk ++ rest) =
      .ok (value, ⟨rest, other.after chunk⟩)) :
    SpreadsWord read position (chunk ++ text) := by
  intro _ _ done
  rw [unfolds] at done
  cases done
  exact ⟨chunk, rfl, rfl, ⟨literal.spread _ _, by simp [bare]⟩, fun other rest _ =>
    ⟨value, unfolds other rest, rfl⟩⟩

theorem Spreads.bare {read : Position → List Char → Reading (List Piece)} {position : Position}
    {text : List Char} (spreads : Spreads read position text) :
    SpreadsWord (fun position text => mapAt (fun pieces _ => ⟨pieces, false⟩) (read position text))
      position text := by
  refine .map [] (fun pieces => ⟨pieces, false⟩) (fun _ _ => rfl) spreads ?_ ?_
  · intro one other equal
    rw [Word.unplaced, Word.unplaced, equal]
  · intro start own pieces spread
    exact ⟨spread, by simp⟩

theorem segment_spreads (position : Position) (c : Char) (text : List Char) :
    SpreadsWord (headed segment) position (c :: text) := by
  by_cases single : c = '\''
  · subst single
    refine .map ['\''] (fun pieces => ⟨pieces, true⟩) (fun _ _ => rfl)
      (singleQuoted_stretches _ _) ?_ ?_
    · intro one other equal
      rw [Word.unplaced, Word.unplaced, equal]
    · intro start own pieces literal
      refine ⟨literal.spread _ _, fun _ => ⟨List.cons_ne_nil _ _, fun value span member => ?_⟩⟩
      have rests := literal _ member 0 []
      have longer := literal _ member 1 []
      rw [Piece.Rests] at rests longer
      rw [rests] at longer
      cases longer
  by_cases double : c = '"'
  · subst double
    refine .map ['"'] (fun pieces => ⟨pieces, true⟩) (fun _ _ => rfl)
      (doubleQuoted_spreads ⟨text, position.advance '"'⟩) ?_ ?_
    · intro one other equal
      rw [Word.unplaced, Word.unplaced, equal]
    · intro start own pieces spread
      refine ⟨spread.behind, fun _ => ⟨List.cons_ne_nil _ _, fun value span member => ?_⟩⟩
      have := Spread.reference spread member
      have := ('"').utf8Size_pos
      rw [List.singleton_append, Text.size_cons]
      omega
  by_cases dollar : c = '$'
  · subst dollar
    refine (dollar_spreads position text).bare.congr (fun _ _ => rfl) fun done => ?_
    obtain ⟨_, ran, _⟩ := mapAt_eq_ok.mp done
    exact dollar_shorter ran
  by_cases backquote : c = '\x60'
  · subst backquote
    refine (backquote_spreads position text).bare.congr (fun _ _ => rfl) fun done => ?_
    obtain ⟨_, ran, _⟩ := mapAt_eq_ok.mp done
    exact backquote_shorter ran
  by_cases backslash : c = '\\'
  · subst backslash
    rcases text with _ | ⟨d, tail⟩
    · intro _ _ done
      cases done
      refine ⟨['\\'], rfl, rfl, ⟨.single trivial, by simp⟩, fun other rest ahead => ?_⟩
      obtain rfl := List.prefix_nil.mp ahead
      exact ⟨_, rfl, rfl⟩
    · by_cases line : d = '\n'
      · subst line
        exact SpreadsWord.char ['\\', '\n'] Word.empty
          (by simp [Literal, Word.empty]) rfl fun _ _ => rfl
      · refine SpreadsWord.char ['\\', d] ⟨[.guarded d], false⟩
          (by simp [Literal, Piece.Rests]) rfl fun other rest => ?_
        change segment other '\\' (d :: rest) = _
        simp [segment]
  refine SpreadsWord.char [c] ⟨[.plain c], false⟩
    (by simp [Literal, Piece.Rests]) rfl fun other rest => ?_
  change segment other c rest = _
  simp [segment, *]

theorem word_cons {position : Position} {c : Char} {rest : List Char}
    (inside : endsWord c = false) :
    word ⟨c :: rest, position⟩ =
      match segment position c rest with
      | .error error => .error error
      | .ok (first, next) => mapAt (fun later _ => first ++ later) (word next) := by
  rw [word]
  simp only [inside, Bool.false_eq_true, if_false]
  split <;> simp_all

theorem word_ended {rest : List Char} (ends : rest.head?.all endsWord = true)
    (position : Position) : word ⟨rest, position⟩ = .ok (Word.empty, ⟨rest, position⟩) := by
  cases rest with
  | nil => rw [word]
  | cons c rest =>
    rw [word]
    exact if_pos ends

theorem word_spreads (cursor : Cursor) :
    SpreadsWord (fun position text => word ⟨text, position⟩) cursor.position cursor.rest := by
  -- a word that no character begins is empty
  have ended {position : Position} {text : List Char} (ends : text.head?.all endsWord = true) :
      SpreadsWord (fun position text => word ⟨text, position⟩) position text := by
    intro _ _ done
    cases (word_ended ends position).symm.trans done
    refine ⟨[], rfl, rfl, ⟨.nil, fun wrong => by cases wrong⟩, fun other rest ahead =>
      ⟨Word.empty, word_ended ?_ _, rfl⟩⟩
    obtain ⟨more, rfl⟩ := ahead
    cases rest with
    | nil => rfl
    | cons => exact ends
  fun_induction word cursor with
  | case1 cursor left => exact ended (by rw [left]; rfl)
  | case2 cursor c rest left ends => exact ended (by rw [left]; exact ends)
  | case3 cursor c rest left inside error here =>
    intro _ _ done
    dsimp only at done
    rw [left, word_cons (eq_false_of_ne_true inside), here] at done
    cases done
  | case4 cursor c rest left inside first middle here ih =>
    rw [left]
    refine .append here (segment_shorter here) (segment_spreads _ _ _) ih ?_ ?_ .append
    · intro other rest value middle here
      change segment other c rest = _ at here
      rw [word_cons (eq_false_of_ne_true inside), here]
    · intro one other two further equal same
      rw [Word.unplaced_append, Word.unplaced_append, equal, same]

end Lexer

end StepShell

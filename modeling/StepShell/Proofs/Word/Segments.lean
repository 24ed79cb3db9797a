import Mathlib.Data.List.DropRight
import StepShell.Proofs.Expansion.Closure
import StepShell.Proofs.Token.Pieces

/-! The segments that a word is written in: characters, backslashes, quotes and parameters, as they
stand in the script. The text of a word without substitutions is put together from its segments one
by one, and the parameters that are recorded for it are those of its segments. -/

namespace StepShell

namespace Text

theorem takeWhile_dropWhile (keep : Char → Bool) (text : List Char) :
    (text.dropWhile keep).takeWhile keep = [] :=
  List.takeWhile_eq_nil_iff.mpr
    (List.dropWhile_eq_self_iff.mp (List.dropWhile_idempotent keep text))

/-- Texts that end at the first mark end at one place. -/
theorem takeWhile_of_head {keep : Char → Bool} {text : List Char}
    (ends : text.head?.any keep = false) :
    text.takeWhile keep = [] ∧ text.dropWhile keep = text := by
  cases text with
  | nil => exact ⟨rfl, rfl⟩
  | cons c tail =>
    have other : ¬keep c = true := by simpa using ends
    rw [List.takeWhile_cons, List.dropWhile_cons, if_neg other, if_neg other]
    exact ⟨rfl, rfl⟩

theorem append_inj_of_not_mem {mark : Char} {first second rest more : List Char}
    (absent : mark ∉ first) (missing : mark ∉ second)
    (same : first ++ mark :: rest = second ++ mark :: more) : first = second ∧ rest = more := by
  have before := congrArg (cutOnce mark) same
  rw [cutOnce_of_none _ (cutOnce_eq_none absent),
    cutOnce_of_none _ (cutOnce_eq_none missing)] at before
  cases before
  exact ⟨rfl, rfl⟩

/-- Texts that are as long as they can be end at one place. -/
theorem append_inj_of_all {keep : Char → Bool} {first second rest more : List Char}
    (here : first.all keep = true) (there : second.all keep = true)
    (ends : rest.takeWhile keep = []) (stops : more.takeWhile keep = [])
    (same : first ++ rest = second ++ more) : first = second ∧ rest = more := by
  have before := congrArg (List.takeWhile keep) same
  rw [List.takeWhile_append_of_pos (by simpa using here),
    List.takeWhile_append_of_pos (by simpa using there), ends, stops, List.append_nil,
    List.append_nil] at before
  subst before
  exact ⟨rfl, List.append_cancel_left same⟩

end Text

namespace Word

/-- The parameter that is recorded for a piece. -/
def Piece.parameter? : Piece → Option (List Char)
  | .reference value _ => some value
  | _ => none

def Piece.isSubstitution : Piece → Bool
  | .substitution _ _ _ => true
  | _ => false

/-- One part of a word as a script writes it. -/
inductive Segment where
  /-- A character that stands for itself. -/
  | bare (c : Char)
  /-- A backslash and the character behind it, inside double quotes or outside. -/
  | escaped (quoted : Bool) (c : Char)
  /-- The backslash that a script ends with. -/
  | hanging
  | single (inside : List Char)
  /-- A double quote, which opens or closes. -/
  | quote
  /-- A dollar sign that begins nothing. -/
  | lone
  | braced (inside : List Char)
  | named (name : List Char)
  | special (c : Char)
  deriving DecidableEq, Repr

namespace Segment

/-- The parameter that the segment refers to. -/
def parameter? : Segment → Option (List Char)
  | .braced inside => some ('$' :: '\x7b' :: (inside ++ ['\x7d']))
  | .named name => some ('$' :: name)
  | .special c => some ['$', c]
  | _ => none

/-- What a segment that refers to no parameter stands for. Inside double quotes a backslash stays
before a character that needs none. -/
def literal : Segment → List Char
  | .bare c => [c]
  | .escaped quoted c =>
    if c = '\n' then []
    else if quoted && !(isSpecial c || c == '"') then ['\\', c]
    else [c]
  | .hanging => ['\\']
  | .single inside => inside
  | .lone => ['$']
  | .quote | .braced _ | .named _ | .special _ => []

/-- What the text of the word has for the segment. -/
def text : Segment → List Char
  | .bare c => [c]
  | .escaped quoted c =>
    if c = '\n' then []
    else if quoted then
      if c = '"' then [c] else if isSpecial c then ['\\', c] else ['\\', '\\', c]
    else ['\\', c]
  | .hanging => ['\\', '\\']
  | .single inside => Expansion.protectChars inside
  | .lone => ['$']
  | .quote => []
  | .braced inside => '$' :: '\x7b' :: (inside ++ ['\x7d'])
  | .named name => '$' :: name
  | .special c => ['$', c]

end Segment

/-- Characters that are nothing but themselves, inside double quotes or outside. -/
def isPlain (quoted : Bool) (c : Char) : Bool :=
  !(isSpecial c || c == '"') && (quoted || !(c == '\'' || Lexer.endsWord c))

/-- Whether a dollar sign begins a parameter or a substitution if this character is next. -/
def follows (c : Char) : Bool :=
  c == '(' || c == '\x7b' || Lexer.isNameStart c || Lexer.isSpecialParameter c

/-- The segment that a text begins with, and what is left behind it, each inside double quotes or
outside. A name is as long as it can be. -/
inductive Begins : Bool → List Char → Segment → Bool → List Char → Prop where
  | bare {quoted : Bool} {c : Char} {rest : List Char} (plain : isPlain quoted c = true) :
      Begins quoted (c :: rest) (.bare c) quoted rest
  | escaped {quoted : Bool} {c : Char} {rest : List Char} :
      Begins quoted ('\\' :: c :: rest) (.escaped quoted c) quoted rest
  | hanging : Begins false ['\\'] .hanging false []
  | single {inside rest : List Char} (absent : '\'' ∉ inside) :
      Begins false ('\'' :: (inside ++ '\'' :: rest)) (.single inside) false rest
  | quote {quoted : Bool} {rest : List Char} :
      Begins quoted ('"' :: rest) .quote (!quoted) rest
  | lone {quoted : Bool} {rest : List Char} (ends : rest.head?.any follows = false) :
      Begins quoted ('$' :: rest) .lone quoted rest
  | braced {quoted : Bool} {inside rest : List Char} (absent : '\x7d' ∉ inside) :
      Begins quoted ('$' :: '\x7b' :: (inside ++ '\x7d' :: rest)) (.braced inside) quoted rest
  | named {quoted : Bool} {first : Char} {name rest : List Char}
      (start : Lexer.isNameStart first = true) (named : name.all Lexer.isNameChar = true)
      (ends : rest.takeWhile Lexer.isNameChar = []) :
      Begins quoted ('$' :: (first :: name ++ rest)) (.named (first :: name)) quoted rest
  | special {quoted : Bool} {c : Char} {rest : List Char}
      (parameter : Lexer.isSpecialParameter c = true) :
      Begins quoted ('$' :: c :: rest) (.special c) quoted rest

section Begins

variable {quoted still ends : Bool} {text left other : List Char} {segment first second : Segment}

/-- A text begins with one segment only. -/
theorem Begins.unique (here : Begins quoted text first still left)
    (there : Begins quoted text second ends other) :
    first = second ∧ still = ends ∧ left = other := by
  generalize same : text = again at there
  cases here <;> cases there
  -- The first characters do not tell where single quotes, braces and names end.
  case single.single absent _ missing =>
    have inside := (List.cons.inj same).2
    obtain ⟨rfl, rfl⟩ := Text.append_inj_of_not_mem absent missing inside
    exact ⟨rfl, rfl, rfl⟩
  case braced.braced absent _ missing =>
    have inside := (List.cons.inj (List.cons.inj same).2).2
    obtain ⟨rfl, rfl⟩ := Text.append_inj_of_not_mem absent missing inside
    exact ⟨rfl, rfl, rfl⟩
  case named.named start named ends _ _ begins name stops =>
    have here := Expansion.isNameChar_of_isNameStart start
    have there := Expansion.isNameChar_of_isNameStart begins
    obtain ⟨whole, rfl⟩ := Text.append_inj_of_all (by rw [List.all_cons, here, named]; rfl)
      (by rw [List.all_cons, there, name]; rfl) ends stops (List.cons.inj same).2
    rw [whole]
    exact ⟨rfl, rfl, rfl⟩
  case braced.named start _ _ =>
    cases (List.cons.inj (List.cons.inj same).2).1
    exact absurd start (by decide)
  case named.braced start _ _ _ _ =>
    cases (List.cons.inj (List.cons.inj same).2).1
    exact absurd start (by decide)
  all_goals
    have brace : Lexer.isSpecialParameter '\x7b' = false := rfl
    cases same <;>
    first
    | exact ⟨rfl, rfl, rfl⟩
    | simp_all [isPlain, isSpecial, follows, Expansion.isNameStart_not_parameter]

theorem Begins.not_ended (begins : Begins false text segment still left) :
    text.head?.all Lexer.endsWord = false := by
  cases begins with
  | bare plain =>
    simp only [isPlain, Bool.false_or, Bool.and_eq_true, Bool.not_eq_true',
      Bool.or_eq_false_iff] at plain
    exact plain.2.2
  | escaped => rfl
  | hanging => rfl
  | single absent => rfl
  | quote => rfl
  | lone ends => rfl
  | braced absent => rfl
  | named start named ends => rfl
  | special parameter => rfl

end Begins

/-- The segments that a text begins with, one after the other, and what is left behind them. -/
inductive Written : Bool → List Char → List Segment → Bool → List Char → Prop where
  | done {quoted : Bool} {text : List Char} : Written quoted text [] quoted text
  | next {quoted between still : Bool} {text middle left : List Char} {segment : Segment}
      {segments : List Segment} (first : Begins quoted text segment between middle)
      (later : Written between middle segments still left) :
      Written quoted text (segment :: segments) still left

theorem Written.append {quoted between still : Bool} {text middle left : List Char}
    {first second : List Segment} (here : Written quoted text first between middle)
    (later : Written between middle second still left) :
    Written quoted text (first ++ second) still left := by
  induction here with
  | done => exact later
  | next begins _ ih => exact .next begins (ih later)

/-- The segments of a word that no character goes on are determined by the text. -/
theorem Written.unique {quoted still : Bool} {text left other : List Char}
    {first second : List Segment} (here : Written quoted text first still left)
    (outside : still = false) (ends : left.head?.all Lexer.endsWord = true)
    (there : Written quoted text second false other)
    (stops : other.head?.all Lexer.endsWord = true) : first = second ∧ left = other := by
  induction here generalizing second with
  | done =>
    subst outside
    cases there with
    | done => exact ⟨rfl, rfl⟩
    | next begins _ =>
      rw [begins.not_ended] at ends
      cases ends
  | next begins _ ih =>
    cases there with
    | done =>
      rw [begins.not_ended] at stops
      cases stops
    | next again later =>
      obtain ⟨rfl, rfl, rfl⟩ := begins.unique again
      obtain ⟨rfl, rfl⟩ := ih outside ends later
      exact ⟨rfl, rfl⟩

/-- The pieces are what the segments at the head of a text leave. -/
def Leaves (quoted : Bool) (text : List Char) (pieces : List Piece) (still : Bool)
    (left : List Char) : Prop :=
  ∃ segments, Written quoted text segments still left ∧
    pieces.flatMap Piece.text = segments.flatMap Segment.text ∧
    pieces.filterMap Piece.parameter? = segments.filterMap Segment.parameter?

namespace Leaves

variable {quoted between still : Bool} {text middle left : List Char} {pieces more : List Piece}

theorem nil : Leaves quoted text [] quoted text :=
  ⟨[], .done, rfl, rfl⟩

theorem single {segment : Segment} (begins : Begins quoted text segment still left)
    (made : pieces.flatMap Piece.text = segment.text)
    (recorded : pieces.filterMap Piece.parameter? = segment.parameter?.toList) :
    Leaves quoted text pieces still left := by
  refine ⟨[segment], .next begins .done, ?_, ?_⟩
  · rw [made, List.flatMap_singleton]
  · rw [recorded, List.filterMap_cons]
    cases segment.parameter? <;> rfl

theorem piece {piece : Piece} {segment : Segment}
    (begins : Begins quoted text segment still left) (made : piece.text = segment.text)
    (recorded : piece.parameter? = segment.parameter?) :
    Leaves quoted text [piece] still left := by
  refine .single begins (by rw [List.flatMap_singleton, made]) ?_
  rw [← recorded, List.filterMap_cons]
  cases piece.parameter? <;> rfl

theorem append (first : Leaves quoted text pieces between middle)
    (later : Leaves between middle more still left) :
    Leaves quoted text (pieces ++ more) still left := by
  obtain ⟨here, written, made, recorded⟩ := first
  obtain ⟨there, further, after, others⟩ := later
  refine ⟨here ++ there, written.append further, ?_, ?_⟩
  · rw [List.flatMap_append, List.flatMap_append, made, after]
  · rw [List.filterMap_append, List.filterMap_append, recorded, others]

end Leaves

end Word

namespace Lexer

open Word (Piece Segment Begins Leaves isSpecial isPlain follows)
open Expansion (isNameChar_of_isNameStart)

theorem singleQuoted_inside (position : Position) (text : List Char) :
    ∀ pieces next, singleQuoted position text = .ok (pieces, next) →
      ∃ inside, text = inside ++ '\'' :: next.rest ∧ '\'' ∉ inside ∧
        pieces.flatMap Piece.text = Expansion.protectChars inside ∧
        pieces.filterMap Piece.parameter? = [] := by
  fun_induction singleQuoted position text with
  | case1 => intro _ _ done; cases done
  | case2 position rest =>
    intro _ _ done
    cases done
    exact ⟨[], rfl, List.not_mem_nil, rfl, rfl⟩
  | case3 position c rest other ih =>
    intro _ _ done
    obtain ⟨read, inner, rfl⟩ := prepend_eq_ok done
    obtain ⟨inside, rfl, absent, made, recorded⟩ := ih _ _ inner
    refine ⟨c :: inside, rfl, List.not_mem_cons_of_ne_of_not_mem (Ne.symm other) absent, ?_, ?_⟩
    · rw [List.flatMap_append, made]
      simp only [Expansion.protectChars, List.flatMap_cons]
      split <;> rfl
    · rw [List.filterMap_append, recorded]
      split <;> rfl

theorem braced_inside (position : Position) (text : List Char) :
    ∀ value next, braced position text = .ok (value, next) →
      ∃ inside, text = inside ++ '\x7d' :: next.rest ∧ '\x7d' ∉ inside ∧
        value = inside ++ ['\x7d'] := by
  fun_induction braced position text with
  | case1 => intro _ _ done; cases done
  | case2 position rest =>
    intro _ _ done
    cases done
    exact ⟨[], rfl, List.not_mem_nil, rfl⟩
  | case3 position c rest other ih =>
    intro _ _ done
    obtain ⟨read, inner, rfl⟩ := prepend_eq_ok done
    obtain ⟨inside, rfl, absent, rfl⟩ := ih _ _ inner
    exact ⟨c :: inside, rfl, List.not_mem_cons_of_ne_of_not_mem (Ne.symm other) absent, rfl⟩

theorem dollar_leaves (quoted : Bool) {start : Position} {rest : List Char} {pieces : List Piece}
    {next : Cursor} (done : dollar start rest = .ok (pieces, next))
    (direct : ∀ piece ∈ pieces, piece.isSubstitution = false) :
    Leaves quoted ('$' :: rest) pieces quoted next.rest := by
  unfold dollar at done
  split at done
  · cases done
    exact .piece (.lone rfl) rfl rfl
  · obtain ⟨text, read, rfl⟩ := mapAt_eq_ok.mp done
    cases direct _ (List.mem_singleton_self _)
  · obtain ⟨text, read, rfl⟩ := mapAt_eq_ok.mp done
    obtain ⟨inside, rfl, absent, rfl⟩ := braced_inside _ _ _ _ read
    exact .piece (.braced absent) rfl rfl
  · rename_i c tail group brace
    dsimp only at done
    split at done
    · rename_i start
      cases done
      have named := isNameChar_of_isNameStart start
      have begins : Begins quoted ('$' :: (c :: tail.takeWhile isNameChar ++
          tail.dropWhile isNameChar)) (.named (c :: tail.takeWhile isNameChar)) quoted
          (tail.dropWhile isNameChar) :=
        .named start List.all_takeWhile (Text.takeWhile_dropWhile _ _)
      rw [List.cons_append, List.takeWhile_append_dropWhile] at begins
      simp only [List.takeWhile_cons, List.dropWhile_cons, named, if_true]
      exact .piece begins rfl rfl
    · rename_i unnamed
      split at done
      · rename_i special
        cases done
        exact .piece (.special special) rfl rfl
      · rename_i ordinary
        cases done
        refine .piece (.lone ?_) rfl rfl
        simp_all [follows]

theorem backquote_substitutes {start : Position} {rest : List Char} {pieces : List Piece}
    {next : Cursor} (done : backquote start rest = .ok (pieces, next)) :
    ¬∀ piece ∈ pieces, piece.isSubstitution = false := by
  intro direct
  unfold backquote at done
  obtain ⟨text, read, rfl⟩ := mapAt_eq_ok.mp done
  cases direct _ (List.mem_singleton_self _)

theorem quotedPiece_leaves {position : Position} {c : Char} {rest : List Char}
    {pieces : List Piece} {next : Cursor} (inside : c ≠ '"')
    (done : quotedPiece position c rest = .ok (pieces, next))
    (direct : ∀ piece ∈ pieces, piece.isSubstitution = false) :
    Leaves true (c :: rest) pieces true next.rest := by
  unfold quotedPiece at done
  split at done
  · rename_i dollar
    subst dollar
    exact dollar_leaves true done direct
  · rename_i notDollar
    split at done
    · cases backquote_substitutes done direct
    · rename_i notBackquote
      split at done
      · rename_i backslash
        subst backslash
        split at done
        · cases done
        · rename_i follower tail
          dsimp only at done
          split at done
          · rename_i newline
            cases done
            exact .single .escaped (by simp [Segment.text, newline]) rfl
          · rename_i inline
            split at done
            · rename_i quote
              cases done
              subst quote
              exact .single .escaped rfl rfl
            · rename_i other
              split at done
              · rename_i special
                cases done
                exact .single .escaped (by simp [Segment.text, Piece.text, *]) rfl
              · rename_i ordinary
                cases done
                exact .single .escaped (by simp [Segment.text, Piece.text, *]) rfl
      · rename_i notBackslash
        cases done
        exact .single (.bare (by simp [isPlain, isSpecial, *])) rfl rfl

theorem doubleQuoted_leaves (cursor : Cursor) : ∀ pieces next,
    doubleQuoted cursor = .ok (pieces, next) →
      (∀ piece ∈ pieces, piece.isSubstitution = false) →
      Leaves true cursor.rest pieces false next.rest := by
  fun_induction doubleQuoted cursor with
  | case1 => intro _ _ done; cases done
  | case2 cursor rest left =>
    intro _ _ done _
    cases done
    rw [left]
    exact .single .quote rfl rfl
  | case3 => intro _ _ done; cases done
  | case4 cursor c rest left inside pieces middle here ih =>
    intro _ _ done direct
    obtain ⟨later, inner, rfl⟩ := prepend_eq_ok done
    obtain ⟨first, others⟩ := List.forall_mem_append.mp direct
    rw [left]
    exact (quotedPiece_leaves inside here first).append (ih _ _ inner others)

theorem segment_leaves {position : Position} {c : Char} {rest : List Char} {read : Word}
    {next : Cursor} (inside : endsWord c = false)
    (done : segment position c rest = .ok (read, next))
    (direct : ∀ piece ∈ read.pieces, piece.isSubstitution = false) :
    Leaves false (c :: rest) read.pieces false next.rest := by
  simp only [segment] at done
  split at done
  · rename_i quote
    subst quote
    obtain ⟨pieces, inner, rfl⟩ := mapAt_eq_ok.mp done
    obtain ⟨inside, rfl, absent, made, recorded⟩ := singleQuoted_inside _ _ _ _ inner
    exact .single (.single absent) made recorded
  · rename_i notSingle
    split at done
    · rename_i quote
      subst quote
      obtain ⟨pieces, inner, rfl⟩ := mapAt_eq_ok.mp done
      have opening : Leaves false ('"' :: rest) [] true rest := .single .quote rfl rfl
      exact opening.append (doubleQuoted_leaves _ _ _ inner direct)
    · rename_i notDouble
      split at done
      · rename_i dollar
        subst dollar
        obtain ⟨pieces, inner, rfl⟩ := mapAt_eq_ok.mp done
        exact dollar_leaves false inner direct
      · rename_i notDollar
        split at done
        · obtain ⟨pieces, inner, rfl⟩ := mapAt_eq_ok.mp done
          cases backquote_substitutes inner direct
        · rename_i notBackquote
          split at done
          · rename_i backslash
            subst backslash
            split at done
            · cases done
              exact .single .hanging rfl rfl
            · cases done
              exact .single .escaped (by simp [Segment.text, Word.empty]) rfl
            · rename_i follower tail inline
              cases done
              refine .single .escaped ?_ rfl
              have line : follower ≠ '\n' := fun same => inline same
              simp [Segment.text, Piece.text, line]
          · rename_i notBackslash
            cases done
            exact .single (.bare (by simp [isPlain, isSpecial, *])) rfl rfl

/-- A word without substitutions is read segment by segment, up to a character that ends it. -/
theorem word_leaves (cursor : Cursor) : ∀ read next, word cursor = .ok (read, next) →
    (∀ piece ∈ read.pieces, piece.isSubstitution = false) →
    Leaves false cursor.rest read.pieces false next.rest ∧
      next.rest.head?.all endsWord = true := by
  fun_induction word cursor with
  | case1 cursor left =>
    intro _ _ done _
    cases done
    exact ⟨.nil, by rw [left]; rfl⟩
  | case2 cursor c rest left ends =>
    intro _ _ done _
    cases done
    exact ⟨.nil, by rw [left]; exact ends⟩
  | case3 => intro _ _ done; cases done
  | case4 cursor c rest left inside first middle here ih =>
    intro _ _ done direct
    obtain ⟨later, inner, rfl⟩ := mapAt_eq_ok.mp done
    obtain ⟨before, after⟩ := List.forall_mem_append.mp direct
    obtain ⟨leaves, ends⟩ := ih _ _ inner after
    rw [left]
    exact ⟨(segment_leaves (eq_false_of_ne_true inside) here before).append leaves, ends⟩

/-- A token that begins with no separator is the word that is read there. -/
theorem token_word {position : Position} {c : Char} {rest : List Char}
    (begins : endsWord c = false) :
    token position c rest = mapAt (fun read _ => .word read) (word ⟨c :: rest, position⟩) := by
  have other : ∀ mark, endsWord mark = true → c ≠ mark := by
    rintro mark ends rfl
    rw [begins] at ends
    cases ends
  rw [token, word]
  simp only [other '\n' rfl, other ';' rfl, other '|' rfl, other '&' rfl, other '>' rfl,
    other '<' rfl, other '(' rfl, other ')' rfl, begins, if_false, Bool.false_eq_true]
  cases segment position c rest with
  | error => rfl
  | ok read =>
    dsimp only
    cases word read.2 <;> rfl

end Lexer

end StepShell

import StepShell.Proofs.Word.Region
import StepShell.Token.Lexer

/-! One scan behind two readers. The search for the parenthesis that closes a group and the lexer of
the text of a substitution both go over a text in one state: how many groups are open, in which
quotes they are, and whether a backslash guards the next character. At each character they make the
same choice, so what the lexer reads, or fails with, is decided by what the search finds. -/

namespace StepShell

namespace Word

/-- What is open when a text ends there. -/
def Quoting.opened : Quoting → Delimited
  | .plain => .commandSubstitution
  | .single => .singleQuote
  | .double => .doubleQuote

/-- Where a scan has come to. -/
structure Scan where
  /-- The parentheses that were opened less those that were closed. -/
  depth : Int
  quoting : Quoting
  /-- Whether a backslash guards the next character. -/
  guarded : Bool
  deriving DecidableEq

namespace Scan

def next (scan : Scan) (c : Char) : Scan :=
  if scan.guarded then { scan with guarded := false }
  else match scan.quoting with
    | .single => if c = '\'' then { scan with quoting := .plain } else scan
    | .double =>
      if c = '\\' then { scan with guarded := true }
      else if c = '"' then { scan with quoting := .plain }
      else scan
    | .plain =>
      if c = '\\' then { scan with guarded := true }
      else if c = ')' then { scan with depth := scan.depth - 1 }
      else if c = '(' then { scan with depth := scan.depth + 1 }
      else if c = '\'' then { scan with quoting := .single }
      else if c = '"' then { scan with quoting := .double }
      else scan

/-- The scan after some text. -/
def after (scan : Scan) (text : List Char) : Scan :=
  text.foldl next scan

/-- A scan that has seen nothing. -/
def start : Scan := ⟨0, .plain, false⟩

/-- A scan inside a group, and inside `depth` further ones. -/
def inside (depth : Nat) (quoting : Quoting) : Scan := ⟨depth + 1, quoting, false⟩

/-- The group is closed by the character at `stop`, and not before. -/
structure ClosesAt (scan : Scan) (text : List Char) (stop : Nat) : Prop where
  within : stop < text.length
  closed : (scan.after (text.take (stop + 1))).depth = 0
  opened : ∀ count ≤ stop, 0 < (scan.after (text.take count)).depth

/-- The end of the group is found, if it has one. -/
def Finds (scan : Scan) (text : List Char) : Option Nat → Prop
  | some stop => scan.ClosesAt text stop
  | none => ∀ count, 0 < (scan.after (text.take count)).depth

variable {scan : Scan} {c : Char} {text rest : List Char} {stop other : Nat}

@[simp] theorem after_nil (scan : Scan) : scan.after [] = scan := rfl

@[simp] theorem after_cons (scan : Scan) (c : Char) (rest : List Char) :
    scan.after (c :: rest) = (scan.next c).after rest := rfl

theorem inside_depth (depth : Nat) (quoting : Quoting) : 0 < (inside depth quoting).depth :=
  Int.natCast_succ_pos depth

theorem inside_guarded {depth : Nat} {quoting : Quoting} (quoted : quoting ≠ .single) :
    (inside depth quoting).next '\\' = { inside depth quoting with guarded := true } := by
  cases quoting with
  | single => exact absurd rfl quoted
  | plain | double => rfl

theorem inside_escape {depth : Nat} {quoting : Quoting} (quoted : quoting ≠ .single) (c : Char) :
    ((inside depth quoting).next '\\').next c = inside depth quoting := by
  rw [inside_guarded quoted]
  rfl

theorem Finds.cons {found : Option Nat} (opened : 0 < scan.depth)
    (finds : (scan.next c).Finds rest found) : scan.Finds (c :: rest) (found.map (· + 1)) := by
  cases found with
  | none =>
    intro count
    cases count with
    | zero => exact opened
    | succ count => exact finds count
  | some stop =>
    refine ⟨Nat.succ_lt_succ finds.within, finds.closed, fun count below => ?_⟩
    cases count with
    | zero => exact opened
    | succ count => exact finds.opened count (Nat.le_of_succ_le_succ below)

theorem ClosesAt.unique (first : scan.ClosesAt text stop) (second : scan.ClosesAt text other) :
    stop = other := by
  have apart {early late : Nat} (here : scan.ClosesAt text early)
      (there : scan.ClosesAt text late) : ¬early < late := by
    intro before
    have still := there.opened (early + 1) before
    rw [here.closed] at still
    exact absurd still (Int.lt_irrefl 0)
  exact Nat.le_antisymm (Nat.le_of_not_lt (apart second first))
    (Nat.le_of_not_lt (apart first second))

end Scan

end Word

namespace Lexer

open Word (Quoting Scan closingParen?)

/-- What reads the text of a substitution where it stands in a quoting. -/
def bodyIn : Quoting → Nat → Position → List Char → Reading (List Char)
  | .plain => body
  | .single => bodySingle
  | .double => bodyDouble

theorem body_cons {depth : Nat} {position : Position} {c : Char} {rest : List Char}
    (guards : ∀ next tail, c = '\\' → rest = next :: tail → False) :
    body depth position (c :: rest) =
      if c = ')' then
        match depth with
        | 0 => .ok ([], ⟨rest, position.advance c⟩)
        | depth + 1 => Lexer.prepend [c] (body depth (position.advance c) rest)
      else if c = '(' then Lexer.prepend [c] (body (depth + 1) (position.advance c) rest)
      else if c = '\'' then Lexer.prepend [c] (bodySingle depth (position.advance c) rest)
      else if c = '"' then Lexer.prepend [c] (bodyDouble depth (position.advance c) rest)
      else Lexer.prepend [c] (body depth (position.advance c) rest) := by
  cases depth <;> rw [body] <;> exact guards

theorem bodyDouble_cons {depth : Nat} {position : Position} {c : Char} {rest : List Char}
    (guards : ∀ next tail, c = '\\' → rest = next :: tail → False) :
    bodyDouble depth position (c :: rest) =
      if c = '"' then Lexer.prepend [c] (body depth (position.advance c) rest)
      else Lexer.prepend [c] (bodyDouble depth (position.advance c) rest) := by
  rw [bodyDouble]
  exact guards

/-- At a character that neither closes the outer group nor guards the next one, all go on: the scan,
the search and the lexer. -/
structure Steps (depth : Nat) (quoting : Quoting) (c : Char) (deeper : Nat) (inside : Quoting) :
    Prop where
  scan : (Scan.inside depth quoting).next c = Scan.inside deeper inside
  search : ∀ rest, closingParen? depth quoting (c :: rest) =
    (closingParen? deeper inside rest).map (· + 1)
  reading : ∀ position rest, bodyIn quoting depth position (c :: rest) =
    prepend [c] (bodyIn inside deeper (position.advance c) rest)

section Steps

variable {depth : Nat} {quoting : Quoting} {c : Char}

theorem Steps.single (depth : Nat) (c : Char) :
    ∃ inside, Steps depth .single c depth inside := by
  by_cases quote : c = '\''
  · refine ⟨.plain, if_pos quote, fun _ => ?_, fun _ _ => ?_⟩
    · rw [closingParen?, if_pos quote]
    · change bodySingle _ _ _ = _
      rw [bodySingle, if_pos quote]
      rfl
  · refine ⟨.single, if_neg quote, fun _ => ?_, fun _ _ => ?_⟩
    · rw [closingParen?, if_neg quote]
    · change bodySingle _ _ _ = _
      rw [bodySingle, if_neg quote]
      rfl

theorem Steps.double (depth : Nat) (ordinary : c ≠ '\\') :
    ∃ inside, Steps depth .double c depth inside := by
  have search (rest : List Char) : closingParen? depth .double (c :: rest) = _ :=
    Word.closingParen?_double ordinary
  have reading (position : Position) (rest : List Char) :
      bodyIn .double depth position (c :: rest) = _ :=
    bodyDouble_cons fun _ _ same _ => ordinary same
  by_cases quote : c = '"'
  · refine ⟨.plain, ?_, fun _ => ?_, fun _ _ => ?_⟩
    · exact (if_neg ordinary).trans (if_pos quote)
    · rw [search, if_pos quote]
    · rw [reading, if_pos quote]
      rfl
  · refine ⟨.double, ?_, fun _ => ?_, fun _ _ => ?_⟩
    · exact (if_neg ordinary).trans (if_neg quote)
    · rw [search, if_neg quote]
    · rw [reading, if_neg quote]
      rfl

theorem Steps.plain (ordinary : c ≠ '\\') (goes : ¬(c = ')' ∧ depth = 0)) :
    ∃ deeper inside, Steps depth .plain c deeper inside := by
  have search (rest : List Char) : closingParen? depth .plain (c :: rest) = _ :=
    Word.closingParen?_plain ordinary
  have reading (position : Position) (rest : List Char) :
      bodyIn .plain depth position (c :: rest) = _ := body_cons fun _ _ same _ => ordinary same
  by_cases close : c = ')'
  · obtain ⟨depth, rfl⟩ := Nat.exists_eq_succ_of_ne_zero fun zero => goes ⟨close, zero⟩
    refine ⟨depth, .plain, ?_, fun _ => ?_, fun _ _ => ?_⟩
    · simp [Scan.next, Scan.inside, close]
    · rw [search, if_pos close]
    · rw [reading, if_pos close]
      rfl
  by_cases opening : c = '('
  · refine ⟨depth + 1, .plain, ?_, fun _ => ?_, fun _ _ => ?_⟩
    · simp [Scan.next, Scan.inside, opening]
    · rw [search, if_neg close, if_pos opening]
    · rw [reading, if_neg close, if_pos opening]
      rfl
  by_cases single : c = '\''
  · refine ⟨depth, .single, ?_, fun _ => ?_, fun _ _ => ?_⟩
    · simp [Scan.next, Scan.inside, single]
    · rw [search, if_neg close, if_neg opening, if_pos single]
    · rw [reading, if_neg close, if_neg opening, if_pos single]
      rfl
  by_cases double : c = '"'
  · refine ⟨depth, .double, ?_, fun _ => ?_, fun _ _ => ?_⟩
    · simp [Scan.next, Scan.inside, double]
    · rw [search, if_neg close, if_neg opening, if_neg single, if_pos double]
    · rw [reading, if_neg close, if_neg opening, if_neg single, if_pos double]
      rfl
  · refine ⟨depth, .plain, ?_, fun _ => ?_, fun _ _ => ?_⟩
    · simp [Scan.next, Scan.inside, ordinary, close, opening, single, double]
    · rw [search, if_neg close, if_neg opening, if_neg single, if_neg double]
    · rw [reading, if_neg close, if_neg opening, if_neg single, if_neg double]
      rfl

theorem closingParen?_escape (quoted : quoting ≠ .single) (c : Char) (rest : List Char) :
    closingParen? depth quoting ('\\' :: c :: rest) =
      ((closingParen? depth quoting rest).map (· + 1)).map (· + 1) := by
  rw [Option.map_map]
  cases quoting with
  | single => exact absurd rfl quoted
  | plain | double => rw [closingParen?]; rfl

theorem bodyIn_escape (quoted : quoting ≠ .single) (position : Position) (c : Char)
    (rest : List Char) :
    bodyIn quoting depth position ('\\' :: c :: rest) =
      prepend ['\\'] (prepend [c]
        (bodyIn quoting depth ((position.advance '\\').advance c) rest)) := by
  have both (reading : Reading (List Char)) :
      prepend ['\\', c] reading = prepend ['\\'] (prepend [c] reading) := by
    cases reading <;> rfl
  rw [← both]
  cases quoting with
  | single => exact absurd rfl quoted
  | plain =>
    change body _ _ _ = _
    rw [body]
    rfl
  | double =>
    change bodyDouble _ _ _ = _
    rw [bodyDouble]
    rfl

theorem closingParen?_lone (quoted : quoting ≠ .single) :
    closingParen? depth quoting ['\\'] = none := by
  cases quoting with
  | single => exact absurd rfl quoted
  | plain | double => rfl

theorem bodyIn_nil (quoting : Quoting) (position : Position) :
    bodyIn quoting depth position [] = unterminated quoting.opened position := by
  cases quoting with
  | plain =>
    change body _ _ _ = _
    rw [body]
    rfl
  | single =>
    change bodySingle _ _ _ = _
    rw [bodySingle]
    rfl
  | double =>
    change bodyDouble _ _ _ = _
    rw [bodyDouble]
    rfl

theorem bodyIn_lone (quoted : quoting ≠ .single) (position : Position) :
    bodyIn quoting depth position ['\\'] =
      prepend ['\\'] (bodyIn quoting depth (position.advance '\\') []) := by
  cases quoting with
  | single => exact absurd rfl quoted
  | plain =>
    change body _ _ _ = _
    rw [body_cons (by simp)]
    rfl
  | double =>
    change bodyDouble _ _ _ = _
    rw [bodyDouble_cons (by simp)]
    rfl

end Steps

/-- A text in a group ends, closes the group, ends in a backslash that guards nothing, or goes on
behind a character or one that is guarded. -/
theorem scan_induction {holds : Nat → Quoting → List Char → Prop}
    (ends : ∀ depth quoting, holds depth quoting [])
    (closes : ∀ rest, holds 0 .plain (')' :: rest))
    (lone : ∀ depth quoting, quoting ≠ .single → holds depth quoting ['\\'])
    (step : ∀ {depth deeper quoting inside c}, Steps depth quoting c deeper inside →
      ∀ rest, holds deeper inside rest → holds depth quoting (c :: rest))
    (escape : ∀ depth {quoting}, quoting ≠ .single →
      ∀ c rest, holds depth quoting rest → holds depth quoting ('\\' :: c :: rest))
    (depth : Nat) (quoting : Quoting) (text : List Char) : holds depth quoting text := by
  induction size : text.length using Nat.strongRecOn generalizing depth quoting text with
  | ind size ih =>
    subst size
    rcases text with _ | ⟨c, rest⟩
    · exact ends depth quoting
    have later (depth : Nat) (quoting : Quoting) : holds depth quoting rest :=
      ih _ (Nat.lt_succ_self _) depth quoting rest rfl
    by_cases single : quoting = .single
    · subst single
      obtain ⟨inside, steps⟩ := Steps.single depth c
      exact step steps rest (later _ _)
    by_cases backslash : c = '\\'
    · subst backslash
      rcases rest with _ | ⟨d, rest⟩
      · exact lone depth quoting single
      · exact escape depth single d rest (ih _ (by simp only [List.length_cons]; omega) _ _ _ rfl)
    cases quoting with
    | single => exact absurd rfl single
    | double =>
      obtain ⟨inside, steps⟩ := Steps.double depth backslash
      exact step steps rest (later _ _)
    | plain =>
      by_cases close : c = ')' ∧ depth = 0
      · obtain ⟨rfl, rfl⟩ := close
        exact closes rest
      · obtain ⟨deeper, inside, steps⟩ := Steps.plain backslash close
        exact step steps rest (later _ _)

/-- What the lexer makes of a text in which the search has found the end of the group or has not. -/
def answer (scan : Scan) (position : Position) (text : List Char) :
    Option Nat → Reading (List Char)
  | some stop =>
    .ok (text.take stop, ⟨text.drop (stop + 1), position.after (text.take (stop + 1))⟩)
  | none => unterminated (scan.after text).quoting.opened (position.after text)

theorem prepend_answer (scan : Scan) (position : Position) (c : Char) (rest : List Char)
    (found : Option Nat) :
    prepend [c] (answer (scan.next c) (position.advance c) rest found) =
      answer scan position (c :: rest) (found.map (· + 1)) := by
  cases found <;> rfl

/-- The lexer reads up to the parenthesis that the search finds. Where it finds none, the lexer
fails at the end of the text, for want of what the scan is in there. -/
theorem bodyIn_eq_answer (depth : Nat) (quoting : Quoting) (text : List Char) :
    ∀ position, bodyIn quoting depth position text =
      answer (.inside depth quoting) position text (closingParen? depth quoting text) := by
  induction depth, quoting, text using scan_induction with
  | ends depth quoting =>
    intro position
    rw [bodyIn_nil]
    rfl
  | closes rest =>
    intro position
    change body _ _ _ = _
    rw [body_cons (by simp), if_pos rfl]
    rfl
  | lone depth quoting quoted =>
    intro position
    rw [bodyIn_lone quoted, closingParen?_lone quoted, bodyIn_nil, answer, Scan.after_cons,
      Scan.inside_guarded quoted]
    rfl
  | step steps rest ih =>
    intro position
    rw [steps.reading, ih, steps.search, ← prepend_answer, steps.scan]
  | @escape depth quoting quoted c rest ih =>
    intro position
    rw [bodyIn_escape quoted, closingParen?_escape quoted, ih, ← prepend_answer, ← prepend_answer,
      Scan.inside_escape quoted]

/-- The search finds the first place where no group is open any more, and nothing if some group is
open throughout. -/
theorem closingParen?_finds (depth : Nat) (quoting : Quoting) (text : List Char) :
    (Scan.inside depth quoting).Finds text (closingParen? depth quoting text) := by
  induction depth, quoting, text using scan_induction with
  | ends depth quoting =>
    intro count
    rw [List.take_nil]
    exact Scan.inside_depth depth quoting
  | closes rest =>
    refine ⟨Nat.succ_pos _, rfl, fun count below => ?_⟩
    rw [Nat.le_zero.mp below]
    exact Scan.inside_depth 0 .plain
  | lone depth quoting quoted =>
    rw [closingParen?_lone quoted]
    have nothing : ((Scan.inside depth quoting).next '\\').Finds [] none := by
      intro count
      rw [List.take_nil, Scan.inside_guarded quoted]
      exact Scan.inside_depth depth quoting
    exact nothing.cons (Scan.inside_depth depth quoting)
  | step steps rest ih =>
    rw [steps.search]
    exact .cons (Scan.inside_depth _ _) (steps.scan ▸ ih)
  | @escape depth quoting quoted c rest ih =>
    rw [closingParen?_escape quoted]
    have opened : 0 < ((Scan.inside depth quoting).next '\\').depth := by
      rw [Scan.inside_guarded quoted]
      exact Scan.inside_depth depth quoting
    rw [← Scan.inside_escape quoted c] at ih
    exact (ih.cons opened).cons (Scan.inside_depth depth quoting)

/-- What is found is a parenthesis. -/
theorem closingParen?_paren (depth : Nat) (quoting : Quoting) (text : List Char) :
    ∀ stop, closingParen? depth quoting text = some stop → text[stop]? = some ')' := by
  induction depth, quoting, text using scan_induction with
  | ends => exact nofun
  | closes rest =>
    intro stop found
    cases found
    rfl
  | lone depth quoting quoted =>
    intro stop found
    rw [closingParen?_lone quoted] at found
    cases found
  | step steps rest ih =>
    intro stop found
    rw [steps.search] at found
    obtain ⟨stop, later, rfl⟩ := Option.map_eq_some_iff.mp found
    exact ih stop later
  | escape depth quoted c rest ih =>
    intro stop found
    rw [closingParen?_escape quoted, Option.map_map] at found
    obtain ⟨stop, later, rfl⟩ := Option.map_eq_some_iff.mp found
    exact ih stop later

section Answers

variable {depth : Nat} {quoting : Quoting} {position : Position} {text value rest : List Char}
  {next : Cursor}

/-- The lexer reads up to a parenthesis if the search finds it. -/
theorem bodyIn_closed
    (closes : closingParen? depth quoting (value ++ ')' :: rest) = some value.length)
    (position : Position) : bodyIn quoting depth position (value ++ ')' :: rest) =
      .ok (value, ⟨rest, position.after (value ++ [')'])⟩) := by
  have split : value ++ ')' :: rest = (value ++ [')']) ++ rest := by simp
  have size : (value ++ [')']).length = value.length + 1 := by simp
  rw [bodyIn_eq_answer, closes, answer, List.take_left, split, ← size, List.take_left,
    List.drop_left]

/-- What is read ends before the parenthesis that the search finds. -/
theorem bodyIn_eq_ok (done : bodyIn quoting depth position text = .ok (value, next)) :
    closingParen? depth quoting text = some value.length ∧ text = value ++ ')' :: next.rest ∧
      next.position = position.after (value ++ [')']) := by
  rw [bodyIn_eq_answer] at done
  cases found : closingParen? depth quoting text with
  | none =>
    rw [found] at done
    cases done
  | some stop =>
    have paren := closingParen?_paren depth quoting text stop found
    obtain ⟨within, here⟩ := List.getElem?_eq_some_iff.mp paren
    have split : text = text.take stop ++ ')' :: text.drop (stop + 1) := by
      rw [← here, List.getElem_cons_drop, List.take_append_drop]
    rw [found] at done
    cases done
    refine ⟨?_, split, ?_⟩
    · rw [List.length_take_of_le (Nat.le_of_lt within)]
    · rw [← here, List.take_append_getElem]

end Answers

end Lexer

end StepShell

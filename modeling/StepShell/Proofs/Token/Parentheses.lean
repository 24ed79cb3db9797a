import StepShell.Proofs.Token.Layout
import StepShell.Proofs.Word.Splicing

/-! The parenthesis that matches one in a text. The search for it and the lexer of a substitution's
text find the same one or none, and so the parenthesis that closes a substitution in a script is the
one that closes it in the text of its word. -/

namespace StepShell

namespace Word

/-- Where the parenthesis stands that matches the one at `start`. -/
def matchingParen? (text : List Char) (start : Nat) : Option Nat :=
  (groupEnd? (text.drop start)).map (start + ·)

/-- How many parentheses are open in front of `stop`, of those from `start` on. -/
def depthAt (text : List Char) (start stop : Nat) : Int :=
  (Scan.start.after ((text.drop start).take (stop - start))).depth

/-- The lexer, put behind the parenthesis at `start`, reads up to the one at `stop`. -/
def LexedTo (text : List Char) (start stop : Nat) (position : Position) : Prop :=
  ∃ inner next, Lexer.body 0 position (text.drop (start + 1)) = .ok (inner, next) ∧
    text.drop (start + 1) = inner ++ ')' :: next.rest ∧ stop = start + 1 + inner.length

/-- The lexer, put behind the parenthesis at `start`, comes to the end of the text inside the
substitution or inside quotes. -/
def Unterminated (text : List Char) (start : Nat) (position : Position) : Prop :=
  ∃ what ∈ [Delimited.commandSubstitution, .singleQuote, .doubleQuote], ∃ place,
    Lexer.body 0 position (text.drop (start + 1)) = Lexer.unterminated what place

/-- What the two scanners make of the parenthesis at `start`. -/
structure ScannersAgree (text : List Char) (start : Nat) : Prop where
  closed : ∀ position stop,
    LexedTo text start stop position ↔ matchingParen? text start = some stop
  unclosed : ∀ position, Unterminated text start position ↔ matchingParen? text start = none
  /-- The search stops where no parenthesis is open any more. -/
  first : ∀ stop, matchingParen? text start = some stop ↔
    start < stop ∧ stop < text.length ∧ depthAt text start (stop + 1) = 0 ∧
      ∀ place, start < place → place ≤ stop → 0 < depthAt text start place
  /-- As far as the search goes, there are never more parentheses closed than opened. -/
  depth : ∀ place, (∀ stop, matchingParen? text start = some stop → place ≤ stop + 1) →
    0 ≤ depthAt text start place

section Scanners

variable {text : List Char} {start stop : Nat}

theorem drop_of_open (opens : text[start]? = some '(') :
    text.drop start = '(' :: text.drop (start + 1) := by
  obtain ⟨within, here⟩ := List.getElem?_eq_some_iff.mp opens
  rw [List.drop_eq_getElem_cons within, here]

theorem matchingParen?_eq (opens : text[start]? = some '(') :
    matchingParen? text start =
      (closingParen? 0 .plain (text.drop (start + 1))).map (start + 1 + ·) := by
  rw [matchingParen?, drop_of_open opens, groupEnd?, Option.map_map]
  congr 1
  funext index
  simp only [Function.comp_apply]
  omega

theorem depthAt_succ (opens : text[start]? = some '(') (count : Nat) :
    depthAt text start (start + 1 + count) =
      ((Scan.inside 0 .plain).after ((text.drop (start + 1)).take count)).depth := by
  rw [depthAt, drop_of_open opens, show start + 1 + count - start = count + 1 by omega]
  rfl

theorem Scan.Finds.eq_some_iff {scan : Scan} {found : Option Nat} (finds : scan.Finds text found) :
    found = some stop ↔ scan.ClosesAt text stop := by
  constructor
  · rintro rfl
    exact finds
  · intro closes
    cases found with
    | none => exact absurd closes.closed (Int.ne_of_gt (finds (stop + 1)))
    | some other => exact congrArg some (finds.unique closes)

theorem opened_mem (quoting : Quoting) :
    quoting.opened ∈ [Delimited.commandSubstitution, .singleQuote, .doubleQuote] := by
  cases quoting <;> simp [Quoting.opened]

theorem lexedTo_iff (opens : text[start]? = some '(') (position : Position) :
    LexedTo text start stop position ↔ matchingParen? text start = some stop := by
  rw [matchingParen?_eq opens]
  constructor
  · rintro ⟨inner, next, done, -, rfl⟩
    have ran : Lexer.bodyIn .plain 0 position _ = _ := done
    obtain ⟨closes, -, -⟩ := Lexer.bodyIn_eq_ok ran
    rw [closes]
    rfl
  · intro found
    obtain ⟨index, closes, rfl⟩ := Option.map_eq_some_iff.mp found
    have ran := Lexer.bodyIn_eq_answer 0 .plain (text.drop (start + 1)) position
    rw [closes] at ran
    obtain ⟨again, split, -⟩ := Lexer.bodyIn_eq_ok ran
    have size := Option.some.inj (closes.symm.trans again)
    exact ⟨_, _, ran, split, congrArg (start + 1 + ·) size⟩

theorem unterminated_iff (opens : text[start]? = some '(') (position : Position) :
    Unterminated text start position ↔ matchingParen? text start = none := by
  constructor
  · rintro ⟨what, -, place, failed⟩
    cases found : matchingParen? text start with
    | none => rfl
    | some stop =>
      obtain ⟨inner, next, done, -⟩ := (lexedTo_iff opens position).mpr found
      rw [done] at failed
      cases failed
  · intro none
    rw [matchingParen?_eq opens, Option.map_eq_none_iff] at none
    have ran := Lexer.bodyIn_eq_answer 0 .plain (text.drop (start + 1)) position
    rw [none] at ran
    exact ⟨_, opened_mem _, _, ran⟩

/-- The search from a parenthesis on goes as the scan behind it does. -/
theorem closesAt_iff (opens : text[start]? = some '(') (count : Nat) :
    (Scan.inside 0 .plain).ClosesAt (text.drop (start + 1)) count ↔
      start + 1 + count < text.length ∧ depthAt text start (start + 1 + count + 1) = 0 ∧
        ∀ place, start < place → place ≤ start + 1 + count → 0 < depthAt text start place := by
  constructor
  · intro closes
    refine ⟨?_, ?_, fun place after before => ?_⟩
    · have within := closes.within
      rw [List.length_drop] at within
      omega
    · exact (depthAt_succ opens (count + 1)).trans closes.closed
    · obtain ⟨further, rfl⟩ := Nat.exists_eq_add_of_le (Nat.succ_le_of_lt after)
      rw [Nat.succ_eq_add_one, depthAt_succ opens]
      exact closes.opened further (by omega)
  · rintro ⟨within, closed, opened⟩
    refine ⟨?_, ?_, fun further before => ?_⟩
    · rw [List.length_drop]
      omega
    · rw [← depthAt_succ opens]
      exact closed
    · rw [← depthAt_succ opens]
      exact opened _ (by omega) (by omega)

theorem matchingParen?_eq_some_iff (opens : text[start]? = some '(') :
    matchingParen? text start = some stop ↔
      start < stop ∧ stop < text.length ∧ depthAt text start (stop + 1) = 0 ∧
        ∀ place, start < place → place ≤ stop → 0 < depthAt text start place := by
  have finds := Lexer.closingParen?_finds 0 .plain (text.drop (start + 1))
  rw [matchingParen?_eq opens, Option.map_eq_some_iff]
  constructor
  · rintro ⟨index, closes, rfl⟩
    exact ⟨by omega, (closesAt_iff opens index).mp (finds.eq_some_iff.mp closes)⟩
  · rintro ⟨after, rest⟩
    obtain ⟨index, rfl⟩ := Nat.exists_eq_add_of_le (Nat.succ_le_of_lt after)
    exact ⟨index, finds.eq_some_iff.mpr ((closesAt_iff opens index).mpr rest), rfl⟩

theorem depthAt_nonneg (opens : text[start]? = some '(') (place : Nat)
    (searched : ∀ stop, matchingParen? text start = some stop → place ≤ stop + 1) :
    0 ≤ depthAt text start place := by
  by_cases before : place ≤ start
  · rw [depthAt, Nat.sub_eq_zero_of_le before]
    exact Int.le_refl 0
  have after : start < place := Nat.lt_of_not_le before
  cases found : matchingParen? text start with
  | none =>
    have finds := Lexer.closingParen?_finds 0 .plain (text.drop (start + 1))
    rw [matchingParen?_eq opens, Option.map_eq_none_iff] at found
    rw [found] at finds
    obtain ⟨count, rfl⟩ := Nat.exists_eq_add_of_le (Nat.succ_le_of_lt after)
    rw [Nat.succ_eq_add_one, depthAt_succ opens]
    exact Int.le_of_lt (finds count)
  | some stop =>
    obtain ⟨-, -, closed, opened⟩ := (matchingParen?_eq_some_iff opens).mp found
    obtain last | within := Nat.eq_or_lt_of_le (searched stop found)
    · subst last
      exact Int.le_of_eq closed.symm
    · exact Int.le_of_lt (opened place after (Nat.le_of_lt_succ within))

theorem ScannersAgree.of_open (opens : text[start]? = some '(') : ScannersAgree text start where
  closed position _ := lexedTo_iff opens position
  unclosed := unterminated_iff opens
  first _ := matchingParen?_eq_some_iff opens
  depth := depthAt_nonneg opens

end Scanners

/-- A group with this text begins at `start`, and the search finds where it ends. -/
def Groups (text : List Char) (start : Nat) (body : List Char) : Prop :=
  (∃ rest, text.drop start = '(' :: (body ++ ')' :: rest)) ∧
    matchingParen? text start = some (start + 1 + body.length)

theorem Balanced.groups {body : List Char} (balanced : Balanced body) (before rest : List Char) :
    Groups (before ++ '(' :: (body ++ ')' :: rest)) before.length body := by
  have group : (before ++ '(' :: (body ++ ')' :: rest)).drop before.length =
      '(' :: (body ++ ')' :: rest) := List.drop_left
  refine ⟨⟨rest, group⟩, ?_⟩
  rw [matchingParen?, group, groupEnd?, (balanced_iff rest).mp balanced, Option.map_some,
    Option.map_some, Nat.add_assoc, Nat.add_comm 1]

/-- A substitution in parentheses stands in its word as it does in the source. -/
theorem substitution_stands {text : List Char} {offset : Nat} {lexemes : List Lexeme}
    (tokens : lex text offset = .ok lexemes) {lexeme : Lexeme} (member : lexeme ∈ lexemes)
    {read : Word} (word : lexeme.token = .word read) {body : List Char} {place : Span}
    {bodyStart : Nat} (piece : .substitution body place bodyStart ∈ read.pieces)
    {before tail : List Char} (source : text = before ++ '$' :: tail)
    (here : place.start = offset + Text.size before) :
    (∃ rest, tail = '(' :: (body ++ ')' :: rest)) ∧ bodyStart = place.start + 2 := by
  obtain ⟨gap, own, behind, split, start, -, fits, -⟩ :=
    (Lexer.lexemes_rows _ _ tokens).1.mem member
  rw [word] at fits
  obtain ⟨first, inside, last, rfl, span, stands⟩ := fits.spread.mem piece
  have place_start : place.start = offset + Text.size (gap ++ first) := by
    rw [span, start, Position.after_offset, Text.size_append, ← Nat.add_assoc]
    rfl
  have whole : text = (gap ++ first) ++ (inside ++ (last ++ behind)) := by
    simpa only [List.append_assoc] using split
  -- both texts end at the offset that is recorded for the substitution
  have ahead : before = gap ++ first :=
    Text.eq_of_size_eq (source ▸ List.prefix_append _ _) (whole ▸ List.prefix_append _ _)
      (by omega)
  rw [source, ahead, List.append_cancel_left_eq] at whole
  obtain ⟨rfl, follows⟩ | ⟨quoted, rfl, -, -⟩ := stands
  · refine ⟨⟨last ++ behind, ?_⟩, by rw [follows, span]⟩
    simpa using whole
  · -- a backquote would stand where the source has a dollar sign
    exact absurd (List.cons.inj whole).1 (by decide)

/-- The search and the lexer find the same parenthesis behind each one. So what the lexer takes for
the text of a substitution in parentheses, inside quotes or outside them, is a group in the source,
and one in the text of the word. -/
theorem parentheses_agree :
    (∀ text start, text[start]? = some '(' → ScannersAgree text start) ∧
    ∀ text offset lexemes, lex text offset = .ok lexemes →
      ∀ lexeme ∈ lexemes, ∀ read, lexeme.token = .word read →
      ∀ first body place bodyStart last,
        read.pieces = first ++ .substitution body place bodyStart :: last →
      ∀ before tail, text = before ++ '$' :: tail → place.start = offset + Text.size before →
        Groups text (before.length + 1) body ∧
          Groups read.chars ((first.flatMap Piece.text).length + 1) body := by
  refine ⟨fun _ _ => .of_open, ?_⟩
  intro text offset lexemes tokens lexeme member read word first body place bodyStart last pieces
    before tail source here
  have piece : .substitution body place bodyStart ∈ read.pieces := by
    rw [pieces]
    exact List.mem_append_right _ List.mem_cons_self
  obtain ⟨⟨rest, rfl⟩, follows⟩ := substitution_stands tokens member word piece source here
  have laid := Lexer.lexemes_laid _ _ tokens lexeme member read word
  have balanced : Balanced body := (laid.balanced piece).resolve_left (by omega)
  constructor
  · have groups := balanced.groups (before ++ ['$']) rest
    rwa [List.length_append, List.append_assoc, List.singleton_append, ← source] at groups
  · have groups := balanced.groups (first.flatMap Piece.text ++ ['$']) (last.flatMap Piece.text)
    have text : read.chars =
        first.flatMap Piece.text ++ '$' :: '(' :: (body ++ ')' :: last.flatMap Piece.text) := by
      simp [Word.chars, pieces, Piece.text]
    rwa [List.length_append, List.append_assoc, List.singleton_append, ← text] at groups

/-- Parentheses that quotes and backslashes hide stand beside ones that count. -/
theorem parentheses_agree_hidden :
    let body := "f ')' \"\\\"(\" \\) (g)".toList
    let text := "é\"\\\"$(f ')' \"\\\"(\" \\) (g))\" y".toList
    let read : Word := ⟨[.plain 'é', .plain '"', .substitution body ⟨5, 26⟩ 7], true⟩
    let lexemes : List Lexeme := [⟨.word read, ⟨1, 1, 0⟩, ⟨1, 27, 27⟩⟩,
      ⟨.word ⟨[.plain 'y'], false⟩, ⟨1, 28, 28⟩, ⟨1, 29, 29⟩⟩]
    text[5]? = some '(' ∧ lex text 0 = .ok lexemes ∧ ScannersAgree text 5 ∧
      Groups text 5 body ∧ Groups read.chars 3 body := by
  intro body text read lexemes
  have opens : text[5]? = some '(' := by decide +kernel
  have lexed : lex text 0 = .ok lexemes := by with_unfolding_all rfl
  have source : text = text.take 4 ++ '$' :: text.drop 5 := by decide +kernel
  have place : 5 = 0 + Text.size (text.take 4) := by decide +kernel
  obtain ⟨scanned, spliced⟩ := parentheses_agree
  exact ⟨opens, lexed, scanned text 5 opens,
    spliced text 0 lexemes lexed _ List.mem_cons_self read rfl [.plain 'é', .plain '"'] body
      ⟨5, 26⟩ 7 [] rfl (text.take 4) (text.drop 5) source place⟩

end Word

end StepShell

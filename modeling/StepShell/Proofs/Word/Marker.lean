import StepShell.Proofs.Token.Pieces
import StepShell.Word.Splice

/-! Replacing the region of one substitution. What stands between the text before the region and the
text after it is the protected output exactly if the search for the nearest marker comes upon the
region's start, and if the region ends with the parenthesis that closes it. -/

namespace StepShell

namespace Word

/-- How many backslashes a text ends in. -/
def backslashes (text : List Char) : Nat :=
  (text.reverse.takeWhile (· == '\\')).length

theorem backslashes_none {text : List Char} {c : Char} (plain : c ≠ '\\') :
    backslashes (text ++ [c]) = 0 := by
  rw [backslashes, List.reverse_append, List.reverse_singleton, List.singleton_append,
    List.takeWhile_cons, if_neg (by simpa using plain)]
  rfl

theorem Piece.backslashes_even {start stop : Nat} {piece : Piece} {text : List Char}
    (stands : piece.Stands start stop) (even : backslashes text % 2 = 0) :
    backslashes (text ++ piece.text) % 2 = 0 := by
  cases piece with
  | plain c => rw [Piece.text, backslashes_none stands]
  | guarded c =>
    by_cases backslash : c = '\\'
    · subst backslash
      have two : backslashes (text ++ ['\\', '\\']) = backslashes text + 2 := by
        rw [backslashes, List.reverse_append]
        rfl
      rw [Piece.text, two, Nat.add_mod_right, even]
    · change backslashes (text ++ (['\\'] ++ [c])) % 2 = 0
      rw [← List.append_assoc, backslashes_none backslash]
  | reference value span =>
    obtain ⟨first, last, rfl, plain⟩ := stands
    rw [Piece.text, ← List.append_assoc, backslashes_none plain]
  | substitution body span bodyStart =>
    rw [Piece.text, ← List.append_assoc, backslashes_none (by decide)]

/-- Behind the pieces of a word no backslash is left that would guard what follows. -/
theorem Laid.backslashes_even {start stop : Nat} {pieces : List Piece} {text : List Char}
    (laid : Laid start pieces stop) (even : backslashes text % 2 = 0) :
    backslashes (text ++ pieces.flatMap Piece.text) % 2 = 0 := by
  induction laid generalizing text with
  | nil => rwa [List.flatMap_nil, List.append_nil]
  | cons _ stands _ ih =>
    rw [List.flatMap_cons, ← List.append_assoc]
    exact ih (Piece.backslashes_even stands even)

/-- The region of a substitution starts with a marker. -/
theorem Laid.marked {start stop : Nat} {pieces : List Piece} (laid : Laid start pieces stop)
    (more : List Char) :
    isMarker (pieces.flatMap Piece.text ++ '$' :: '(' :: more)
      (pieces.flatMap Piece.text).length = true := by
  have even : backslashes ([] ++ pieces.flatMap Piece.text) % 2 = 0 := laid.backslashes_even rfl
  rw [Word.isMarker, List.drop_left, List.take_left]
  exact beq_iff_eq.mpr even

section
variable {text : List Char} {hint start : Nat}

/-- How far apart two places are. -/
def apart (first second : Nat) : Nat :=
  (first - second) + (second - first)

/-- No marker is nearer to the hint than `start` is, and none above it is as near. -/
def Nearest (text : List Char) (hint start : Nat) : Prop :=
  apart hint start ≤ text.length ∧
    ∀ other, isMarker text other = true →
      apart hint start < apart hint other ∨ apart hint start = apart hint other ∧ start ≤ other

theorem findSome?_range {α : Type} {find : Nat → Option α} {bound : Nat} {found : α} :
    (List.range bound).findSome? find = some found ↔
      ∃ index < bound, find index = some found ∧ ∀ earlier < index, find earlier = none := by
  induction bound with
  | zero => simp
  | succ bound ih =>
    rw [List.range_succ, List.findSome?_append, Option.or_eq_some_iff, ih]
    constructor
    · rintro (⟨index, within, here, none⟩ | ⟨none, here⟩)
      · exact ⟨index, by omega, here, none⟩
      · refine ⟨bound, by omega, by simpa using here, fun earlier before => ?_⟩
        exact List.findSome?_eq_none_iff.mp none earlier (List.mem_range.mpr before)
    · rintro ⟨index, within, here, none⟩
      by_cases last : index = bound
      · subst last
        refine .inr ⟨List.findSome?_eq_none_iff.mpr fun earlier before => ?_, by simpa using here⟩
        exact none earlier (List.mem_range.mp before)
      · exact .inl ⟨index, by omega, here, none⟩

theorem markerAt?_eq_none_iff {distance : Nat} (small : hint + distance < wordBound) :
    markerAt? text hint distance = none ↔
      ∀ other, isMarker text other = true → apart hint other ≠ distance := by
  unfold markerAt? apart
  rw [Nat.mod_eq_of_lt small]
  constructor
  · intro none other marker gap
    dsimp only at none
    split at none
    · cases none
    · rename_i below
      split at none
      · cases none
      · rename_i above
        by_cases order : other ≤ hint
        · refine below ⟨by omega, ?_⟩
          rwa [show hint - distance = other by omega]
        · refine above ⟨by omega, ?_⟩
          rwa [show hint + distance = other by omega]
  · intro none
    dsimp only
    rw [if_neg, if_neg]
    · rintro ⟨positive, marker⟩
      exact none _ marker (by omega)
    · rintro ⟨order, marker⟩
      exact none _ marker (by omega)

theorem markerAt?_eq_some_iff {distance : Nat} (small : hint + distance < wordBound) :
    markerAt? text hint distance = some start ↔
      isMarker text start = true ∧ apart hint start = distance ∧
        ∀ other, isMarker text other = true → apart hint other = distance → start ≤ other := by
  unfold markerAt? apart
  rw [Nat.mod_eq_of_lt small]
  dsimp only
  split
  · rename_i below
    constructor
    · rintro ⟨⟩
      exact ⟨below.2, by omega, by omega⟩
    · rintro ⟨marker, gap, least⟩
      have := least _ below.2 (by omega)
      exact congrArg some (by omega)
  · rename_i below
    split
    · rename_i above
      constructor
      · rintro ⟨⟩
        refine ⟨above.2, by omega, fun other marker gap => ?_⟩
        by_cases order : other ≤ hint
        · refine absurd ⟨by omega, ?_⟩ below
          rwa [show hint - distance = other by omega]
        · omega
      · rintro ⟨marker, gap, least⟩
        have := least _ above.2 (by omega)
        by_cases order : start ≤ hint
        · refine absurd ⟨by omega, ?_⟩ below
          rwa [show hint - distance = start by omega]
        · exact congrArg some (by omega)
    · rename_i above
      constructor
      · rintro ⟨⟩
      · rintro ⟨marker, gap, least⟩
        by_cases order : start ≤ hint
        · refine absurd ⟨by omega, ?_⟩ below
          rwa [show hint - distance = start by omega]
        · refine absurd ⟨by omega, ?_⟩ above
          rwa [show hint + distance = start by omega]

/-- Where no offset passes the bound of a machine word, the search finds the nearest marker. -/
theorem nearestMarker?_eq_some_iff (small : hint + text.length < wordBound) :
    nearestMarker? text hint = some start ↔
      isMarker text start = true ∧ Nearest text hint start := by
  rw [nearestMarker?, findSome?_range]
  constructor
  · rintro ⟨distance, within, found, none⟩
    obtain ⟨marker, gap, least⟩ := (markerAt?_eq_some_iff (by omega)).mp found
    refine ⟨marker, by omega, fun other also => ?_⟩
    rcases Nat.lt_trichotomy (apart hint other) distance with nearer | same | farther
    · exact absurd rfl ((markerAt?_eq_none_iff (by omega)).mp (none _ nearer) other also)
    · exact .inr ⟨by omega, least other also same⟩
    · exact .inl (by omega)
  · rintro ⟨marker, within, nearest⟩
    refine ⟨apart hint start, by omega, ?_, fun earlier before => ?_⟩
    · refine (markerAt?_eq_some_iff (by omega)).mpr ⟨marker, rfl, fun other also gap => ?_⟩
      rcases nearest other also with nearer | ⟨_, order⟩
      · omega
      · exact order
    · refine (markerAt?_eq_none_iff (by omega)).mpr fun other also gap => ?_
      rcases nearest other also with nearer | ⟨same, _⟩ <;> omega

end

/-- The region of a substitution that stands behind the pieces of a word is found unless its start
is out of reach or another marker is nearer. -/
theorem Laid.nearestMarker?_region {start stop hint : Nat} {pieces : List Piece}
    (laid : Laid start pieces stop) (more : List Char)
    (small : hint + (pieces.flatMap Piece.text ++ '$' :: '(' :: more).length < wordBound) :
    nearestMarker? (pieces.flatMap Piece.text ++ '$' :: '(' :: more) hint =
        some (pieces.flatMap Piece.text).length ↔
      Nearest (pieces.flatMap Piece.text ++ '$' :: '(' :: more) hint
        (pieces.flatMap Piece.text).length := by
  rw [nearestMarker?_eq_some_iff small]
  exact and_iff_right (laid.marked more)

/-- A marker at the hint itself is found at once. -/
theorem nearestMarker?_self {text : List Char} {hint : Nat} (marker : isMarker text hint = true) :
    nearestMarker? text hint = some hint := by
  refine findSome?_range.mpr ⟨0, Nat.succ_pos _, ?_, fun earlier before => ?_⟩
  · exact if_pos ⟨Nat.zero_le _, marker⟩
  · exact absurd before (Nat.not_lt_zero _)

theorem balanced_iff {body : List Char} (after : List Char) :
    Balanced body ↔ closingParen? 0 .plain (body ++ ')' :: after) = some body.length := by
  have within : body.length < (body ++ [')']).length := by simp
  rw [Balanced, ← closingParen?_append after within, List.append_assoc, List.singleton_append]

/-- The text with the group replaced that a substitution at `start` opens. -/
theorem replaceMarked_eq_ok {text : List Char} {hint : Nat} {output replaced : String} :
    replaceMarked (String.ofList text) hint output = .ok replaced ↔
      ∃ start length, nearestMarker? text hint = some start ∧
        groupEnd? (text.drop (start + 1)) = some length ∧
        replaced = String.ofList (text.take start ++ Expansion.protectChars output.toList ++
          text.drop (start + 1 + length + 1)) := by
  unfold replaceMarked
  rw [String.toList_ofList]
  dsimp only
  constructor
  · intro done
    split at done
    · cases done
    · rename_i start found
      split at done
      · cases done
      · rename_i length ends
        exact ⟨start, length, found, ends, (Except.ok.inj done).symm⟩
  · rintro ⟨start, length, found, ends, rfl⟩
    rw [found]
    dsimp only
    rw [ends]

/-- Two texts are the same on both sides of a character that may be one or another. -/
theorem sides_eq {α : Type} {first second left right : List α} {x y : α} (different : x ≠ y)
    (one : first ++ x :: second = left ++ x :: right)
    (another : first ++ y :: second = left ++ y :: right) : first = left ∧ second = right := by
  induction first generalizing left with
  | nil =>
    cases left with
    | nil => exact ⟨rfl, (List.cons.inj one).2⟩
    | cons head tail =>
      have same := (List.cons.inj one).1
      rw [← (List.cons.inj another).1] at same
      exact absurd same different
  | cons c rest ih =>
    cases left with
    | nil =>
      have same := (List.cons.inj one).1
      rw [(List.cons.inj another).1] at same
      exact absurd same.symm different
    | cons head tail =>
      obtain ⟨same, later⟩ := ih (List.cons.inj one).2 (List.cons.inj another).2
      exact ⟨by rw [(List.cons.inj one).1, same], later⟩

/-- What is replaced is the region of the substitution exactly if the nearest marker is its own and
its text is balanced. -/
theorem replaceMarked_iff {before body after : List Char} {hint : Nat} :
    (∀ output, replaceMarked (String.ofList (before ++ '$' :: '(' :: (body ++ ')' :: after))) hint
        output =
      .ok (String.ofList (before ++ Expansion.protectChars output.toList ++ after))) ↔
      nearestMarker? (before ++ '$' :: '(' :: (body ++ ')' :: after)) hint = some before.length ∧
        Balanced body := by
  have group : (before ++ '$' :: '(' :: (body ++ ')' :: after)).drop (before.length + 1) =
      '(' :: (body ++ ')' :: after) := by
    rw [List.drop_length_add_append]
    rfl
  constructor
  · intro replaced
    obtain ⟨start, length, nearest, ends, one⟩ := replaceMarked_eq_ok.mp (replaced "a")
    obtain ⟨start', length', nearest', ends', another⟩ := replaceMarked_eq_ok.mp (replaced "b")
    obtain rfl := Option.some.inj (nearest.symm.trans nearest')
    obtain rfl := Option.some.inj (ends.symm.trans ends')
    have protected_a : Expansion.protectChars "a".toList = ['a'] := by decide
    have protected_b : Expansion.protectChars "b".toList = ['b'] := by decide
    rw [String.ofList_inj, protected_a, List.append_assoc, List.append_assoc,
      List.singleton_append, List.singleton_append] at one
    rw [String.ofList_inj, protected_b, List.append_assoc, List.append_assoc,
      List.singleton_append, List.singleton_append] at another
    obtain ⟨left, right⟩ := sides_eq (by decide) one.symm another.symm
    have bound := groupEnd?_lt ends
    have starts := congrArg List.length left
    have leaves := congrArg List.length right
    simp only [List.length_take, List.length_drop, List.length_append, List.length_cons]
      at bound starts leaves
    obtain rfl : start = before.length := by omega
    obtain rfl : length = body.length + 1 := by omega
    refine ⟨nearest, (balanced_iff after).mpr ?_⟩
    rw [group, groupEnd?, Option.map_eq_some_iff] at ends
    obtain ⟨index, closes, same⟩ := ends
    rwa [← Nat.succ.inj same]
  · rintro ⟨nearest, balanced⟩ output
    refine replaceMarked_eq_ok.mpr ⟨before.length, body.length + 1, nearest, ?_, ?_⟩
    · rw [group, groupEnd?, (balanced_iff after).mp balanced]
      rfl
    · rw [List.take_left, Nat.add_assoc, Nat.add_assoc, List.drop_length_add_append]
      congr 2
      rw [show 1 + (body.length + 1 + 1) = body.length + 1 + 1 + 1 by omega,
        List.drop_succ_cons, List.drop_succ_cons, List.drop_length_add_append]
      rfl

end Word

end StepShell

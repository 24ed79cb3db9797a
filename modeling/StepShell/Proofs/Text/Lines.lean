import StepShell.Text.Blank

/-! Texts that are one line, and the lines of a text that was put together from such. -/

namespace StepShell.Text

/-- A text that stays when trimmed has no blank at its start. -/
theorem solid_of_trimmed {text : List Char} (trimmed : trimChars text = text) :
    ∀ c ∈ text.head?, isBlank c = false := by
  intro c first
  cases text with
  | nil => cases first
  | cons head rest =>
    cases first
    cases blank : isBlank c with
    | false => rfl
    | true =>
      have shorter : (trimChars (c :: rest)).length ≤ rest.length := by
        rw [trimChars, dropEndWhile, List.dropWhile_cons_of_pos blank, List.length_reverse]
        refine Nat.le_trans (List.dropWhile_suffix _).length_le ?_
        rw [List.length_reverse]
        exact (List.dropWhile_suffix _).length_le
      rw [trimmed] at shorter
      exact absurd shorter (Nat.not_le.mpr (Nat.lt_succ_self _))

/-- A text stays when trimmed if it has no blank at either end. -/
theorem trimChars_eq_self {text : List Char} (first : ∀ c ∈ text.head?, isBlank c = false)
    (last : ∀ c ∈ text.getLast?, isBlank c = false) : trimChars text = text := by
  have kept : ∀ text : List Char, (∀ c ∈ text.head?, isBlank c = false) →
      text.dropWhile isBlank = text := by
    intro text first
    cases text with
    | nil => rfl
    | cons c rest => exact List.dropWhile_cons_of_neg (by simp [first c rfl])
  rw [trimChars, dropEndWhile, kept text first, kept text.reverse, List.reverse_reverse]
  rwa [List.head?_reverse]

theorem trim_eq_self_iff {text : String} :
    trim text = text ↔ trimChars text.toList = text.toList := by
  rw [trim]
  constructor
  · intro same
    have chars := congrArg String.toList same
    rwa [String.toList_ofList] at chars
  · intro same
    rw [same, String.ofList_toList]

/-- A text that stays as it is as a line among others. -/
structure IsLine (text : List Char) : Prop where
  newline : '\n' ∉ text
  ending : text.getLast? ≠ some '\r'

namespace IsLine

variable {text further : List Char}

theorem append (first : IsLine text) (second : IsLine further) : IsLine (text ++ further) where
  newline member := (List.mem_append.mp member).elim first.newline second.newline
  ending last := by
    rw [List.getLast?_append, Option.or_eq_some_iff] at last
    obtain found | ⟨_, found⟩ := last
    · exact second.ending found
    · exact first.ending found

theorem join {text further : String} (first : IsLine text.toList)
    (second : IsLine further.toList) : IsLine (text ++ further).toList := by
  rw [String.toList_append]
  exact first.append second

theorem of_forall (free : ∀ c ∈ text, c ≠ '\n' ∧ c ≠ '\r') : IsLine text where
  newline member := (free _ member).1 rfl
  ending last := (free _ (List.mem_of_getLast? last)).2 rfl

theorem of_all (text : String)
    (free : (text.toList.all fun c => c != '\n' && c != '\r') = true) : IsLine text.toList :=
  of_forall fun c member => by simpa using List.all_eq_true.mp free c member

/-- A text without a blank at its end. -/
theorem of_trimmed (newline : '\n' ∉ text) (trimmed : trimChars text = text) : IsLine text where
  newline
  ending last := by
    rw [← trimmed, trimChars, dropEndWhile, List.getLast?_reverse] at last
    have solid := List.head?_dropWhile_not isBlank (text.dropWhile isBlank).reverse
    rw [last] at solid
    cases solid

end IsLine

theorem cutAt_append {stop : Char → Bool} {mark : Char} (stops : stop mark) {piece : List Char}
    (free : ∀ c ∈ piece, stop c = false) (rest : List Char) :
    cutAt stop (piece ++ mark :: rest) = piece :: cutAt stop rest := by
  induction piece with
  | nil => rw [List.nil_append, cutAt, if_pos stops]
  | cons c piece ih =>
    obtain ⟨first, later⟩ := List.forall_mem_cons.mp free
    rw [List.cons_append, cutAt, if_neg (by simp [first]), ih later]

theorem cutAt_of_free {stop : Char → Bool} {piece : List Char}
    (free : ∀ c ∈ piece, stop c = false) : cutAt stop piece = [piece] := by
  induction piece with
  | nil => rfl
  | cons c piece ih =>
    obtain ⟨first, later⟩ := List.forall_mem_cons.mp free
    rw [cutAt, if_neg (by simp [first]), ih later]

theorem IsLine.free {text : List Char} (line : IsLine text) : ∀ c ∈ text, (c == '\n') = false :=
  fun _ member => beq_eq_false_iff_ne.mpr fun same => line.newline (same ▸ member)

/-- A line is the first one of a text that goes on behind it. -/
theorem linePieces_append {text : List Char} (line : IsLine text) (rest : List Char) :
    linePieces (cutAt (· == '\n') (text ++ '\n' :: rest)) =
      text :: linePieces (cutAt (· == '\n') rest) := by
  have kept : stripReturn text = text := if_neg line.ending
  rw [cutAt_append rfl line.free]
  cases later : cutAt (· == '\n') rest with
  | nil => exact absurd later (cutAt_ne_nil _ _)
  | cons piece pieces => rw [linePieces, kept]; simp

/-- Lines with newlines between them, and perhaps one behind the last, are read as these lines. -/
theorem lines_intercalate {texts : List String} (some : texts ≠ [])
    (each : ∀ text ∈ texts, IsLine text.toList ∧ text ≠ "") {ending : String}
    (ended : ending = "" ∨ ending = "\n") :
    lines ("\n".intercalate texts ++ ending) = texts := by
  have pieces : linePieces (cutAt (· == '\n') ("\n".intercalate texts ++ ending).toList) =
      texts.map String.toList := by
    induction texts with
    | nil => exact absurd rfl some
    | cons text texts ih =>
      obtain ⟨⟨line, written⟩, later⟩ := List.forall_mem_cons.mp each
      cases texts with
      | nil =>
        obtain rfl | rfl := ended
        · rw [String.intercalate_singleton, String.append_empty, cutAt_of_free line.free]
          simp [linePieces, written]
        · rw [String.intercalate_singleton, String.toList_append]
          exact (linePieces_append line []).trans rfl
      | cons next texts =>
        rw [String.intercalate_cons_cons, String.append_assoc, String.append_assoc,
          String.toList_append, String.toList_append]
        exact (linePieces_append line _).trans
          (congrArg (text.toList :: ·) (ih (List.cons_ne_nil _ _) later))
  rw [lines, pieces, List.map_map]
  simp

end StepShell.Text

import StepShell.Word.Region

/-! Where a group ends does not depend on what follows it. -/

namespace StepShell.Word

/-- Only at the end of a text does a backslash not guard anything. -/
theorem nil_of_backslash {c : Char} {rest : List Char} (backslash : c = '\\')
    (guards : ∀ next tail, c = '\\' → rest = next :: tail → False) : rest = [] := by
  cases rest with
  | nil => rfl
  | cons next tail => exact (guards next tail backslash rfl).elim

theorem closingParen?_double {depth : Nat} {c : Char} {rest : List Char} (plain : c ≠ '\\') :
    closingParen? depth .double (c :: rest) =
      (closingParen? depth (if c = '"' then .plain else .double) rest).map (· + 1) := by
  rw [closingParen?]
  exact fun _ _ same _ => plain same

theorem closingParen?_plain {depth : Nat} {c : Char} {rest : List Char} (plain : c ≠ '\\') :
    closingParen? depth .plain (c :: rest) =
      if c = ')' then
        match depth with
        | 0 => some 0
        | depth + 1 => (closingParen? depth .plain rest).map (· + 1)
      else if c = '(' then (closingParen? (depth + 1) .plain rest).map (· + 1)
      else if c = '\'' then (closingParen? depth .single rest).map (· + 1)
      else if c = '"' then (closingParen? depth .double rest).map (· + 1)
      else (closingParen? depth .plain rest).map (· + 1) := by
  cases depth <;> rw [closingParen?] <;> exact fun _ _ same _ => plain same

theorem map_add_iff {first second : Option Nat} {skipped bound index : Nat}
    (same : ∀ inner < bound, first = some inner ↔ second = some inner)
    (within : index < bound + skipped) :
    first.map (· + skipped) = some index ↔ second.map (· + skipped) = some index := by
  rw [Option.map_eq_some_iff, Option.map_eq_some_iff]
  constructor
  · rintro ⟨inner, found, rfl⟩
    exact ⟨inner, (same inner (by omega)).mp found, rfl⟩
  · rintro ⟨inner, found, rfl⟩
    exact ⟨inner, (same inner (by omega)).mpr found, rfl⟩

/-- Outside single quotes no group ends at a backslash. -/
theorem closingParen?_backslash {depth : Nat} {quoting : Quoting} (quoted : quoting ≠ .single)
    (rest : List Char) : closingParen? depth quoting ('\\' :: rest) ≠ some 0 := by
  cases quoting with
  | single => exact absurd rfl quoted
  | plain | double => cases rest <;> cases depth <;> simp [closingParen?]

/-- Whether a group ends at an index is decided by the text up to there. -/
theorem closingParen?_append {depth : Nat} {quoting : Quoting} {text : List Char} {index : Nat}
    (more : List Char) (within : index < text.length) :
    closingParen? depth quoting (text ++ more) = some index ↔
      closingParen? depth quoting text = some index := by
  fun_induction closingParen? depth quoting text generalizing index with
  | case1 => simp at within
  | case2 depth c rest ih =>
    rw [List.cons_append, closingParen?]
    exact map_add_iff (fun inner => ih) within
  | case3 depth c rest ih =>
    rw [List.cons_append, List.cons_append, closingParen?]
    exact map_add_iff (fun inner => ih) within
  | case4 depth c rest guards ih =>
    by_cases backslash : c = '\\'
    · obtain rfl := nil_of_backslash backslash guards
      obtain rfl : index = 0 := by simpa using within
      subst backslash
      simp [closingParen?, closingParen?_backslash]
    · rw [List.cons_append, closingParen?_double backslash]
      exact map_add_iff (fun inner => ih) within
  | case5 depth c rest ih =>
    rw [List.cons_append, List.cons_append, closingParen?]
    exact map_add_iff (fun inner => ih) within
  | case6 rest guards => rw [List.cons_append, closingParen?_plain (by decide), if_pos rfl]
  | case7 rest guards depth ih =>
    rw [List.cons_append, closingParen?_plain (by decide), if_pos rfl]
    exact map_add_iff (fun inner => ih) within
  | case8 depth rest guards different ih =>
    rw [List.cons_append, closingParen?_plain (by decide), if_neg different, if_pos rfl]
    exact map_add_iff (fun inner => ih) within
  | case9 depth rest guards close opening ih =>
    rw [List.cons_append, closingParen?_plain (by decide), if_neg close, if_neg opening, if_pos rfl]
    exact map_add_iff (fun inner => ih) within
  | case10 depth rest guards close opening single ih =>
    rw [List.cons_append, closingParen?_plain (by decide), if_neg close, if_neg opening,
      if_neg single, if_pos rfl]
    exact map_add_iff (fun inner => ih) within
  | case11 depth c rest guards close opening single double ih =>
    by_cases backslash : c = '\\'
    · obtain rfl := nil_of_backslash backslash guards
      obtain rfl : index = 0 := by simpa using within
      subst backslash
      simp [closingParen?, closingParen?_backslash]
    · rw [List.cons_append, closingParen?_plain backslash, if_neg close, if_neg opening,
        if_neg single, if_neg double]
      exact map_add_iff (fun inner => ih) within

theorem groupEnd?_append {text : List Char} {index : Nat} (more : List Char)
    (within : index < text.length) :
    groupEnd? (text ++ more) = some index ↔ groupEnd? text = some index := by
  cases text with
  | nil => simp at within
  | cons c rest =>
    by_cases group : c = '('
    · subst group
      exact map_add_iff (fun inner bound => closingParen?_append more bound) within
    · have none : ∀ tail, groupEnd? (c :: tail) = none := by
        intro tail
        rw [groupEnd?]
        exact fun _ same => group (List.cons.inj same).1
      rw [List.cons_append, none, none]

/-- A group that is not closed goes on into what follows it. -/
theorem groupLength_append {text more : List Char} (unclosed : groupEnd? text = none)
    (follows : more ≠ []) : text.length < groupLength (text ++ more) := by
  unfold groupLength
  split
  · rename_i index found
    by_cases within : index < text.length
    · have closed := (groupEnd?_append more within).mp found
      rw [unclosed] at closed
      cases closed
    · omega
  · rw [List.length_append]
    have := List.length_pos_iff.mpr follows
    omega

theorem groupLength_pos (text : List Char) (some : text ≠ []) : 0 < groupLength text := by
  unfold groupLength
  split
  · exact Nat.succ_pos _
  · exact List.length_pos_iff.mpr some

/-- A group stays the same without what follows it. -/
theorem groupLength_take (text : List Char) :
    groupLength (text.take (groupLength text)) = groupLength text := by
  cases closed : groupEnd? text with
  | none =>
    have whole : groupLength text = text.length := by rw [groupLength, closed]
    rw [whole, List.take_length, whole]
  | some index =>
    have bound := groupEnd?_lt closed
    have extent : groupLength text = index + 1 := by rw [groupLength, closed]
    have within : index < (text.take (index + 1)).length := by
      rw [List.length_take]
      omega
    have same := groupEnd?_append (text.drop (index + 1)) within
    rw [List.take_append_drop] at same
    rw [extent, groupLength, same.mp closed]

end StepShell.Word

/-! Cutting a text at a separating character. -/

namespace StepShell.Text

/-- What stands before and after the first `mark`. -/
def cutOnce (mark : Char) : List Char → Option (List Char × List Char)
  | [] => none
  | c :: rest =>
    if c = mark then some ([], rest)
    else (cutOnce mark rest).map fun halves => (c :: halves.1, halves.2)

theorem eq_append_of_cutOnce {mark : Char} {chars before after : List Char}
    (cut : cutOnce mark chars = some (before, after)) :
    chars = before ++ mark :: after ∧ mark ∉ before := by
  induction chars generalizing before with
  | nil => simp [cutOnce] at cut
  | cons c rest ih =>
    unfold cutOnce at cut
    split at cut
    · rename_i same
      obtain ⟨rfl, rfl⟩ := by simpa using cut
      simp [same]
    · rename_i different
      obtain ⟨⟨first, second⟩, found, made⟩ := Option.map_eq_some_iff.mp cut
      obtain ⟨rfl, rfl⟩ := by simpa using made
      obtain ⟨rfl, absent⟩ := ih found
      simp [absent, Ne.symm different]

theorem cutOnce_append {mark : Char} {text before after : List Char} (more : List Char)
    (cut : cutOnce mark text = some (before, after)) :
    cutOnce mark (text ++ more) = some (before, after ++ more) := by
  induction text generalizing before with
  | nil => simp [cutOnce] at cut
  | cons c rest ih =>
    unfold cutOnce at cut
    rw [List.cons_append, cutOnce]
    split at cut
    · rename_i same
      cases cut
      rw [if_pos same]
    · rename_i different
      obtain ⟨⟨first, second⟩, found, made⟩ := Option.map_eq_some_iff.mp cut
      cases made
      rw [if_neg different, ih found, Option.map_some]

theorem cutOnce_of_none {mark : Char} {text : List Char} (more : List Char)
    (uncut : cutOnce mark text = none) :
    cutOnce mark (text ++ mark :: more) = some (text, more) := by
  induction text with
  | nil => rw [List.nil_append, cutOnce, if_pos rfl]
  | cons c rest ih =>
    unfold cutOnce at uncut
    rw [List.cons_append, cutOnce]
    split at uncut
    · cases uncut
    · rename_i different
      rw [if_neg different, ih (Option.map_eq_none_iff.mp uncut), Option.map_some]

theorem cutOnce_eq_none {mark : Char} {text : List Char} (absent : mark ∉ text) :
    cutOnce mark text = none := by
  cases cut : cutOnce mark text with
  | none => rfl
  | some halves =>
    rw [(eq_append_of_cutOnce cut).1] at absent
    exact absurd (List.mem_append_right _ List.mem_cons_self) absent

/-- The halves of a text around the first `mark`. -/
def splitOnce (mark : Char) (text : String) : Option (String × String) :=
  (cutOnce mark text.toList).map fun halves => (String.ofList halves.1, String.ofList halves.2)

/-- The halves of a text around the last `mark`. -/
def splitLast (mark : Char) (text : String) : Option (String × String) :=
  (cutOnce mark text.toList.reverse).map fun halves =>
    (String.ofList halves.2.reverse, String.ofList halves.1.reverse)

variable {mark : Char} {text before after : String}

theorem splitOnce_eq (whole : text.toList = before.toList ++ mark :: after.toList)
    (absent : mark ∉ before.toList) : splitOnce mark text = some (before, after) := by
  rw [splitOnce, whole, cutOnce_of_none _ (cutOnce_eq_none absent), Option.map_some,
    String.ofList_toList, String.ofList_toList]

theorem splitLast_eq (whole : text.toList = before.toList ++ mark :: after.toList)
    (absent : mark ∉ after.toList) : splitLast mark text = some (before, after) := by
  have reversed : text.toList.reverse = after.toList.reverse ++ mark :: before.toList.reverse := by
    rw [whole, List.reverse_append, List.reverse_cons, List.append_assoc, List.singleton_append]
  have absent : mark ∉ after.toList.reverse := fun member => absent (List.mem_reverse.mp member)
  rw [splitLast, reversed, cutOnce_of_none _ (cutOnce_eq_none absent), Option.map_some,
    List.reverse_reverse, List.reverse_reverse, String.ofList_toList, String.ofList_toList]

end StepShell.Text

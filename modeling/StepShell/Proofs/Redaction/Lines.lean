import StepShell.Proofs.Redaction.Addresses

/-! Lines of a log. What is told of a script or a variable has no control character in it, so it
cannot pass for a line of its own, and a text that is cut short loses whole characters only. -/

namespace StepShell

namespace Redaction

variable {redaction : Redaction} {text : String}

/-- No control character stands in the text. -/
def Unbroken (text : String) : Prop :=
  ∀ c ∈ text.toList, isControl c = false

instance : DecidablePred Unbroken :=
  fun text => List.decidableBAll (fun c => isControl c = false) text.toList

section Sanitizing

theorem Unbroken.append {other : String} (first : Unbroken text) (second : Unbroken other) :
    Unbroken (text ++ other) := by
  intro c member
  rw [String.toList_append] at member
  exact (List.mem_append.mp member).elim (first c) (second c)

theorem Unbroken.ofList {chars : List Char} (plain : ∀ c ∈ chars, isControl c = false) :
    Unbroken (String.ofList chars) := by
  rwa [Unbroken, String.toList_ofList]

/-- What a character is spelled as has no control character. -/
theorem isControl_of_mem_sanitizeChar {c spelled : Char} (member : spelled ∈ sanitizeChar c) :
    isControl spelled = false := by
  have escaped : ∀ letter : Char, isControl letter = false → spelled ∈ ['\\', letter] →
      isControl spelled = false := by
    intro letter plain member
    rcases List.mem_cons.mp member with rfl | member
    · rfl
    · rwa [List.mem_singleton.mp member]
  unfold sanitizeChar at member
  split at member
  · exact escaped 'n' rfl member
  · split at member
    · exact escaped 'r' rfl member
    · split at member
      · exact escaped 't' rfl member
      · split at member
        · cases member
        · rename_i plain
          rw [List.mem_singleton.mp member]
          exact Bool.eq_false_iff.mpr plain

theorem sanitize_unbroken (text : String) : Unbroken (sanitize text) := by
  refine .ofList fun spelled member => ?_
  obtain ⟨c, _, among⟩ := List.mem_flatMap.mp member
  exact isControl_of_mem_sanitizeChar among

theorem sanitizeChar_of_plain {c : Char} (plain : isControl c = false) : sanitizeChar c = [c] := by
  have ordinary : c ≠ '\n' ∧ c ≠ '\r' ∧ c ≠ '\t' := by
    refine ⟨?_, ?_, ?_⟩ <;>
      · rintro rfl
        exact absurd plain (by decide)
  rw [sanitizeChar, if_neg ordinary.1, if_neg ordinary.2.1, if_neg ordinary.2.2, plain,
    if_neg Bool.false_ne_true]

/-- A text without control characters is told as it is. -/
theorem Unbroken.sanitize_eq (unbroken : Unbroken text) : sanitize text = text := by
  have same : text.toList.map sanitizeChar = text.toList.map fun c => [c] :=
    List.map_congr_left fun c member => sanitizeChar_of_plain (unbroken c member)
  rw [sanitize, List.flatMap_def, same, ← List.flatMap_def, List.flatMap_singleton',
    String.ofList_toList]

end Sanitizing

section Numbers

theorem isControl_of_isDigit {c : Char} (digit : c.isDigit = true) : isControl c = false := by
  unfold isControl
  simp only [Char.isDigit, Bool.and_eq_true, decide_eq_true_eq] at digit
  have low : 48 ≤ c.toNat := digit.1
  have high : c.toNat ≤ 57 := digit.2
  simp
  omega

theorem unbroken_toString (number : Nat) : Unbroken (toString number) := by
  intro c member
  rw [Nat.toString_eq_ofList_toDigits, String.toList_ofList] at member
  exact isControl_of_isDigit (Nat.isDigit_of_mem_toDigits (by decide) (by decide) member)

theorem omission_unbroken (bytes : Nat) : Unbroken (omission bytes) := by
  have before : Unbroken "...[truncated " := by decide +kernel
  have after : Unbroken " bytes]" := by decide +kernel
  exact (before.append (unbroken_toString bytes)).append after

theorem size_unbroken (lines bytes : Nat) :
    Unbroken s!"[script: {lines} lines, {bytes} bytes]" := by
  have before : Unbroken "[script: " := by decide +kernel
  have between : Unbroken " lines, " := by decide +kernel
  have after : Unbroken " bytes]" := by decide +kernel
  exact (((before.append (unbroken_toString lines)).append between).append
    (unbroken_toString bytes)).append after

end Numbers

section Cutting

theorem utf8ByteSize_ofList_cons (c : Char) (rest : List Char) :
    (String.ofList (c :: rest)).utf8ByteSize = c.utf8Size + (String.ofList rest).utf8ByteSize := by
  rw [String.ofList_cons, String.utf8ByteSize_append, String.utf8ByteSize_singleton]

theorem takeBytes_le (limit : Nat) (chars : List Char) :
    (String.ofList (takeBytes limit chars)).utf8ByteSize ≤ limit := by
  induction chars generalizing limit with
  | nil => exact Nat.zero_le limit
  | cons c rest ih =>
    rw [takeBytes]
    split
    · rename_i fits
      rw [utf8ByteSize_ofList_cons]
      have later := ih (limit - c.utf8Size)
      omega
    · exact Nat.zero_le limit

/-- No longer start of the text has so few bytes. -/
theorem prefix_takeBytes {limit : Nat} {start chars : List Char} (first : start <+: chars)
    (within : (String.ofList start).utf8ByteSize ≤ limit) : start <+: takeBytes limit chars := by
  induction chars generalizing limit start with
  | nil =>
    rw [List.prefix_nil.mp first]
    exact List.nil_prefix
  | cons c rest ih =>
    cases start with
    | nil => exact List.nil_prefix
    | cons head start =>
      obtain ⟨rfl, later⟩ := List.cons_prefix_cons.mp first
      rw [utf8ByteSize_ofList_cons] at within
      have fits : head.utf8Size ≤ limit := by omega
      rw [takeBytes, if_pos fits]
      exact List.cons_prefix_cons.mpr ⟨rfl, ih later (by omega)⟩

theorem utf8ByteSize_le_of_prefix {start chars : List Char} (first : start <+: chars) :
    (String.ofList start).utf8ByteSize ≤ (String.ofList chars).utf8ByteSize := by
  obtain ⟨rest, rfl⟩ := first
  rw [String.ofList_append, String.utf8ByteSize_append]
  exact Nat.le_add_right _ _

/-- What is told of a text of which so many bytes may be told: the whole text if it has no more, and
else all that stands in front of the last boundary between characters within the limit, with the
number of the bytes behind it. -/
def CutTo (limit : Nat) (text told : String) : Prop :=
  (text.utf8ByteSize ≤ limit → told = text) ∧
    (limit < text.utf8ByteSize → ∃ kept left bytes, text = kept ++ left ∧
      told = kept ++ omission bytes ∧ kept.utf8ByteSize + bytes = text.utf8ByteSize ∧
      kept.utf8ByteSize ≤ limit ∧
      ∀ place : String.Pos.Raw, place.IsValid text → place.byteIdx ≤ limit →
        place.byteIdx ≤ kept.utf8ByteSize)

theorem truncate_cutTo (redaction : Redaction) (text : String) :
    CutTo redaction.limit text (redaction.truncate text) := by
  refine ⟨fun short => if_pos short, fun long => ?_⟩
  let kept := String.ofList (takeBytes redaction.limit text.toList)
  obtain ⟨left, whole⟩ := takeBytes_prefix redaction.limit text.toList
  have text_eq : text = kept ++ String.ofList left := by
    rw [← String.toList_inj, String.toList_append, String.toList_ofList, String.toList_ofList,
      whole]
  have fits : kept.utf8ByteSize ≤ text.utf8ByteSize := by
    have size := congrArg String.utf8ByteSize text_eq
    rw [String.utf8ByteSize_append] at size
    omega
  refine ⟨kept, String.ofList left, text.utf8ByteSize - kept.utf8ByteSize, text_eq,
    if_neg (Nat.not_le.mpr long), Nat.add_sub_cancel' fits, takeBytes_le _ _, ?_⟩
  intro place valid within
  obtain ⟨start, behind, split, rfl⟩ := String.Pos.Raw.isValid_iff_exists_append.mp valid
  have first : start.toList <+: text.toList := ⟨behind.toList, by rw [split, String.toList_append]⟩
  have small : (String.ofList start.toList).utf8ByteSize ≤ redaction.limit := by
    rw [String.ofList_toList]
    exact within
  have shorter := utf8ByteSize_le_of_prefix (prefix_takeBytes first small)
  rw [String.ofList_toList] at shorter
  exact shorter

theorem Unbroken.truncate (unbroken : Unbroken text) (redaction : Redaction) :
    Unbroken (redaction.truncate text) := by
  obtain whole | ⟨kept, bytes, first, told⟩ := truncate_cases redaction text
  · rwa [whole]
  · intro c member
    rw [told] at member
    rcases List.mem_append.mp member with before | omitted
    · exact unbroken c (first.subset before)
    · exact omission_unbroken bytes c omitted

end Cutting

section Telling

theorem assignment_unbroken (redaction : Redaction) (name value : String) :
    Unbroken (redaction.assignment name value) := by
  have sign : Unbroken "=" := by decide +kernel
  exact ((sanitize_unbroken name).append sign).append (sanitize_unbroken _)

theorem script_unbroken (redaction : Redaction) (text : String) :
    Unbroken (redaction.script text) := by
  unfold script
  split
  · exact (sanitize_unbroken text).truncate redaction
  · exact size_unbroken _ _

theorem assignment_hidden {name : String} (hidden : redaction.hidesName name = true)
    (value : String) : redaction.assignment name value = sanitize name ++ "=" ++ sanitize mark := by
  rw [assignment, if_pos hidden]

/-- Nothing that is told breaks its line, however texts are hidden and cut short; cutting a text
short leaves the longest start that ends between two characters, and says how much is missing; and
the value of a secret variable has no part in what is told. -/
theorem told_lines_unbroken (redaction : Redaction) :
    (∀ name value, Unbroken (redaction.assignment name value)) ∧
      (∀ text, Unbroken (redaction.script text)) ∧
      (∀ text, Unbroken (sanitize text) ∧ sanitize (sanitize text) = sanitize text) ∧
      (∀ text, CutTo redaction.limit text (redaction.truncate text)) ∧
      ∀ name, redaction.hidesName name = true → ∀ value other,
        redaction.assignment name value = redaction.assignment name other := by
  refine ⟨redaction.assignment_unbroken, redaction.script_unbroken, fun text => ?_,
    redaction.truncate_cutTo, fun name hidden value other => ?_⟩
  · exact ⟨sanitize_unbroken text, (sanitize_unbroken text).sanitize_eq⟩
  · rw [assignment_hidden hidden value, assignment_hidden hidden other]

/-- With three bytes to be told, of a text in which the fourth byte is the second one of a
character, and of a variable with a fragment of its own. -/
theorem told_lines_unbroken_within_character :
    let redaction := ({ standard with limit := 3 } : Redaction).withFragment "payload"
    redaction.hidesName "c2_payload" = true ∧
      redaction.assignment "c2_payload" "one\ntwo" = redaction.assignment "c2_payload" "" ∧
      Unbroken (redaction.assignment "c2\nINFO" "ab\x1b[31m") ∧
      CutTo 3 "ééé" (redaction.truncate "ééé") ∧
      redaction.truncate "ééé" = "é...[truncated 4 bytes]" := by
  intro redaction
  have hidden : redaction.hidesName "c2_payload" = true := by decide +kernel
  obtain ⟨assignments, _, _, cuts, secrets⟩ := told_lines_unbroken redaction
  exact ⟨hidden, secrets _ hidden _ _, assignments _ _, cuts _, by decide +kernel⟩

end Telling

end Redaction

end StepShell

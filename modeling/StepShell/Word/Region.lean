/-! Where a substitution in the text of a word ends: at the parenthesis that closes it, with those
inside quotes and behind backslashes passed over. -/

namespace StepShell.Word

/-- What a scan stands in. -/
inductive Quoting where
  | plain
  | single
  | double
  deriving DecidableEq, Repr

/-- Index of the parenthesis that closes `depth` inner groups and then the outer one. -/
def closingParen? : Nat → Quoting → List Char → Option Nat
  | _, _, [] => none
  | depth, .single, c :: rest =>
    (closingParen? depth (if c = '\'' then .plain else .single) rest).map (· + 1)
  | depth, .double, '\\' :: _ :: rest => (closingParen? depth .double rest).map (· + 2)
  | depth, .double, c :: rest =>
    (closingParen? depth (if c = '"' then .plain else .double) rest).map (· + 1)
  | depth, .plain, '\\' :: _ :: rest => (closingParen? depth .plain rest).map (· + 2)
  | depth, .plain, c :: rest =>
    if c = ')' then
      match depth with
      | 0 => some 0
      | depth + 1 => (closingParen? depth .plain rest).map (· + 1)
    else if c = '(' then (closingParen? (depth + 1) .plain rest).map (· + 1)
    else if c = '\'' then (closingParen? depth .single rest).map (· + 1)
    else if c = '"' then (closingParen? depth .double rest).map (· + 1)
    else (closingParen? depth .plain rest).map (· + 1)

/-- Index of the parenthesis that matches the one the text begins with. -/
def groupEnd? : List Char → Option Nat
  | '(' :: rest => (closingParen? 0 .plain rest).map (· + 1)
  | _ => none

/-- How many characters belong to the group that the text begins with; all, if it is not closed. -/
def groupLength (text : List Char) : Nat :=
  match groupEnd? text with
  | some index => index + 1
  | none => text.length

theorem closingParen?_lt {depth : Nat} {quoting : Quoting} {text : List Char} :
    ∀ index, closingParen? depth quoting text = some index → index < text.length := by
  fun_induction closingParen? depth quoting text <;> grind [Option.map_eq_some_iff]

theorem groupEnd?_lt {text : List Char} {index : Nat}
    (found : groupEnd? text = some index) : index < text.length := by
  unfold groupEnd? at found
  split at found
  · obtain ⟨inner, inside, rfl⟩ := Option.map_eq_some_iff.mp found
    have := closingParen?_lt inner inside
    simp
    omega
  · simp at found

theorem groupLength_le (text : List Char) : groupLength text ≤ text.length := by
  unfold groupLength
  split
  · rename_i found
    exact groupEnd?_lt found
  · exact Nat.le_refl _

end StepShell.Word

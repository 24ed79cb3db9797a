/-! Places in a script: a position for error messages, a span for the nodes of the tree. -/

namespace StepShell

/-- Lines and columns count from one, the offset counts the bytes before it from zero. -/
structure Position where
  line : Nat
  column : Nat
  offset : Nat
  deriving DecidableEq, Repr, Inhabited

namespace Position

/-- The first line and column, at an offset of its own, as the text of a substitution starts. -/
def starting (offset : Nat) : Position := ⟨1, 1, offset⟩

/-- The position after one more character. -/
def advance (position : Position) (c : Char) : Position :=
  if c = '\n' then ⟨position.line + 1, 1, position.offset + c.utf8Size⟩
  else ⟨position.line, position.column + 1, position.offset + c.utf8Size⟩

/-- The position after a text. -/
def after (position : Position) (text : List Char) : Position :=
  text.foldl advance position

@[simp] theorem advance_offset (position : Position) (c : Char) :
    (position.advance c).offset = position.offset + c.utf8Size := by
  unfold advance
  split <;> rfl

@[simp] theorem after_nil (position : Position) : position.after [] = position := rfl

@[simp] theorem after_cons (position : Position) (c : Char) (text : List Char) :
    position.after (c :: text) = (position.advance c).after text := rfl

theorem after_append (position : Position) (first second : List Char) :
    position.after (first ++ second) = (position.after first).after second := by
  simp [after]

end Position

/-- The bytes from `start` up to `stop`, which is not one of them. -/
structure Span where
  start : Nat
  stop : Nat
  deriving DecidableEq, Repr, Inhabited

namespace Span

/-- The two offsets between parentheses. -/
def text (span : Span) : String :=
  s!"({span.start}, {span.stop})"

end Span

end StepShell

import StepShell.Text.Blank
import StepShell.Url.Domain.Characters

/-! Which way a label runs. In a name with letters that run from right to left every label must run
one way as a whole, so that it is read in one order only. -/

namespace StepShell.Url.Domain

inductive Direction where
  | rightToLeft
  | arabicDigit
  | europeanDigit
  | mark
  | neutral
  | leftToRight
  deriving DecidableEq, Repr

namespace Direction

def ofChar (c : Char) : Direction :=
  if leftward.contains c then .rightToLeft
  else if arabicDigits.contains c then .arabicDigit
  else if europeanDigits.contains c then .europeanDigit
  else if rightwardMarks.contains c then .leftToRight
  else if nonspacingMarks.contains c then .mark
  else if neutrals.contains c then .neutral
  else .leftToRight

/-- Whether a character makes the name one that runs from right to left somewhere. -/
def isReversing (direction : Direction) : Bool :=
  direction == .rightToLeft || direction == .arabicDigit

/-- Whether the rest of a label that runs from left to right may follow its first letter. -/
def followsLeft (rest : List Direction) : Bool :=
  match (Text.dropEndWhile (· == mark) rest).getLast? with
  | some last => (last == .leftToRight || last == .europeanDigit) && !rest.any isReversing
  | none => true

/-- Whether the rest of a label that runs from right to left may follow its first letter. -/
def followsRight (rest : List Direction) : Bool :=
  match (Text.dropEndWhile (· == mark) rest).getLast? with
  | some last =>
    (last == .rightToLeft || last == .arabicDigit || last == .europeanDigit) &&
      !rest.contains .leftToRight && !(rest.contains .arabicDigit && rest.contains .europeanDigit)
  | none => true

/-- Whether a label begins with a letter and runs its way to the end, marks aside. -/
def isUniform : List Direction → Bool
  | [] => true
  | .leftToRight :: rest => followsLeft rest
  | .rightToLeft :: rest => followsRight rest
  | _ => false

end Direction

/-- Whether every label of a name runs one way, if any of its letters runs from right to left. -/
def runsOneWay (labels : List (List Char)) : Bool :=
  let directions := labels.map (·.map Direction.ofChar)
  !directions.any (·.any Direction.isReversing) || directions.all Direction.isUniform

end StepShell.Url.Domain

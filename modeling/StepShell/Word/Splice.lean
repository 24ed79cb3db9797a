import StepShell.Expansion
import StepShell.Failure
import StepShell.Node.Json
import StepShell.Word.Region

/-! Putting the output of a substitution in the place where it stood. The output is protected, so it
is never expanded again. -/

namespace StepShell

namespace Word

/-- Whether a substitution that no backslash guards starts at `index`. -/
def isMarker (text : List Char) (index : Nat) : Bool :=
  match text.drop index with
  | '$' :: '(' :: _ => ((text.take index).reverse.takeWhile (· == '\\')).length % 2 == 0
  | _ => false

/-- The start of a substitution at that distance from `hint`, below it or else above. Offsets are
machine words, so they start again at zero. -/
def markerAt? (text : List Char) (hint distance : Nat) : Option Nat :=
  let above := (hint + distance) % wordBound
  if distance ≤ hint ∧ isMarker text (hint - distance) then some (hint - distance)
  else if 0 < distance ∧ isMarker text above then some above
  else none

/-- The start of the substitution nearest to `hint`. The hint is an offset in the source, from which
the word differs by its quotes; those after the right one are resolved before it. -/
def nearestMarker? (text : List Char) (hint : Nat) : Option Nat :=
  (List.range (text.length + 1)).findSome? (markerAt? text hint)

/-- The text with the region of the substitution nearest to `hint` replaced. -/
def replaceMarked (text : String) (hint : Nat) (output : String) : Except ExecutionError String :=
  let chars := text.toList
  match nearestMarker? chars hint with
  | none => .error (.substitutionUnmarked text)
  | some start =>
    match groupEnd? (chars.drop (start + 1)) with
    | none => .error (.substitutionUnbalanced text)
    | some length =>
      .ok (String.ofList (chars.take start ++ Expansion.protectChars output.toList ++
        chars.drop (start + 1 + length + 1)))

end Word

namespace Node

/-- Whether a part of a word is the substitution with this span. -/
def isSubstitution (place : Span) : Node → Bool
  | .substitution _ span => span == place
  | _ => false

/-- The word that a part of a command is or leads to. -/
def owner : Node → Node
  | .redirect _ target _ => target
  | node => node

/-- The parts of a word or assignment. -/
def ownParts? : Node → Option (List Node)
  | .word _ parts _ _ | .assignment _ parts _ => some parts
  | _ => none

/-- The text and parts of a word after the substitution at `place` is resolved; `start` is where the
word starts. -/
def resolved (place : Span) (output : String) (text : String) (parts : List Node) (start : Nat) :
    Except ExecutionError (String × List Node) := do
  match parts.findIdx? (isSubstitution place) with
  | none => .error (.substitutionResolved place)
  | some index =>
    let replaced ← Word.replaceMarked text (place.start - start) output
    .ok (replaced, parts.eraseIdx index)

/-- A word or assignment with the substitution at `place` replaced by its output. -/
def splice (place : Span) (output : String) : Node → Except ExecutionError Node
  | .word text parts quoted span => do
    let (text, parts) ← resolved place output text parts span.start
    .ok (.word text parts quoted span)
  | .assignment text parts span => do
    let (text, parts) ← resolved place output text parts span.start
    .ok (.assignment text parts span)
  | node => .error (.spliceIntoOther node.kind)

/-- The same in a part of a command, which may be a redirect. -/
def spliceTarget (place : Span) (output : String) : Node → Except ExecutionError Node
  | .redirect kind target span => do .ok (.redirect kind (← target.splice place output) span)
  | node => node.splice place output

/-- The command of the substitution at `place` among the parts of a word. -/
def substitutedAt? (place : Span) (parts : List Node) : Option Node :=
  parts.findSome? fun
    | .substitution inner span => if span = place then some inner else none
    | _ => none

end Node

end StepShell

import StepShell.Position

/-! A word as it is read from a script: the pieces that its quotes and references leave. -/

namespace StepShell

/-- A piece of a word, with what a later expansion will make of it decided already. -/
inductive Word.Piece where
  /-- A character that stands for itself. -/
  | plain (c : Char)
  /-- A character that its quotes or a backslash protect from expansion. -/
  | guarded (c : Char)
  /-- A parameter, its dollar sign and braces included. -/
  | reference (value : List Char) (span : Span)
  /-- A command substitution: the text of the command, and the offset where that starts. -/
  | substitution (body : List Char) (span : Span) (bodyStart : Nat)
  deriving DecidableEq, Repr

structure Word where
  pieces : List Word.Piece
  /-- Whether any part of the word stood between quotes. -/
  quoted : Bool
  deriving DecidableEq, Repr

namespace Word

/-- The text that stands for a piece: what is guarded is kept behind a backslash, and both forms of
substitution are written with parentheses. -/
def Piece.text : Piece → List Char
  | .plain c => [c]
  | .guarded c => ['\\', c]
  | .reference value _ => value
  | .substitution body _ _ => '$' :: '(' :: body ++ [')']

def chars (word : Word) : List Char :=
  word.pieces.flatMap Piece.text

def text (word : Word) : String :=
  String.ofList word.chars

def empty : Word := ⟨[], false⟩

instance : Inhabited Word := ⟨empty⟩

instance : Append Word := ⟨fun first second =>
  ⟨first.pieces ++ second.pieces, first.quoted || second.quoted⟩⟩

theorem chars_append (first second : Word) :
    (first ++ second).chars = first.chars ++ second.chars :=
  List.flatMap_append

/-- The text of a word that may be a keyword or a name: one without quotes and backslashes. -/
def bare? (word : Word) : Option String :=
  if !word.quoted && !word.chars.contains '\\' then some word.text else none

end Word

end StepShell

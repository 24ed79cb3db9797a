import StepShell.Token

/-! What is read of a script that stands somewhere else: all that has a place has it so many bytes
further on, at every depth. Only a position knows of lines, and it stays in its column. -/

namespace StepShell

def Position.shifted (lines bytes : Nat) (position : Position) : Position :=
  ⟨position.line + lines, position.column, position.offset + bytes⟩

def Span.shifted (bytes : Nat) (span : Span) : Span :=
  ⟨span.start + bytes, span.stop + bytes⟩

mutual

/-- The tree with every place in it so many bytes further on. -/
def Node.shifted (bytes : Nat) : Node → Node
  | .command parts span => .command (Node.shiftedAll bytes parts) (span.shifted bytes)
  | .word text parts quoted span =>
    .word text (Node.shiftedAll bytes parts) quoted (span.shifted bytes)
  | .assignment text parts span =>
    .assignment text (Node.shiftedAll bytes parts) (span.shifted bytes)
  | .substitution command span => .substitution (command.shifted bytes) (span.shifted bytes)
  | .parameter value span => .parameter value (span.shifted bytes)
  | .pipeline parts span => .pipeline (Node.shiftedAll bytes parts) (span.shifted bytes)
  | .pipe sign span => .pipe sign (span.shifted bytes)
  | .list parts span => .list (Node.shiftedAll bytes parts) (span.shifted bytes)
  | .operator op span => .operator op (span.shifted bytes)
  | .compound parts redirects span =>
    .compound (Node.shiftedAll bytes parts) (Node.shiftedAll bytes redirects) (span.shifted bytes)
  | .redirect kind target span => .redirect kind (target.shifted bytes) (span.shifted bytes)
  | .forLoop name items body span =>
    .forLoop name (Node.shiftedAll bytes items) (body.shifted bytes) (span.shifted bytes)
  | .conditional clauses span =>
    .conditional (Clause.shiftedAll bytes clauses) (span.shifted bytes)
  | .function name body span => .function name (body.shifted bytes) (span.shifted bytes)
  | .reserved word span => .reserved word (span.shifted bytes)

def Node.shiftedAll (bytes : Nat) : List Node → List Node
  | [] => []
  | node :: rest => node.shifted bytes :: Node.shiftedAll bytes rest

def Clause.shifted (bytes : Nat) : Clause → Clause
  | .mk keyword none body => .mk keyword none (body.shifted bytes)
  | .mk keyword (some condition) body =>
    .mk keyword (some (condition.shifted bytes)) (body.shifted bytes)

def Clause.shiftedAll (bytes : Nat) : List Clause → List Clause
  | [] => []
  | clause :: rest => clause.shifted bytes :: Clause.shiftedAll bytes rest

end

def Word.Piece.shifted (bytes : Nat) : Word.Piece → Word.Piece
  | .reference value span => .reference value (span.shifted bytes)
  | .substitution body span bodyStart =>
    .substitution body (span.shifted bytes) (bodyStart + bytes)
  | piece => piece

def Word.shifted (bytes : Nat) (read : Word) : Word :=
  ⟨read.pieces.map (Piece.shifted bytes), read.quoted⟩

def Token.shifted (bytes : Nat) : Token → Token
  | .word read => .word (read.shifted bytes)
  | token => token

def Lexeme.shifted (lines bytes : Nat) (lexeme : Lexeme) : Lexeme :=
  ⟨lexeme.token.shifted bytes, lexeme.start.shifted lines bytes, lexeme.stop.shifted lines bytes⟩

def ParseCause.shifted (bytes : Nat) : ParseCause → ParseCause
  | .unexpected token => .unexpected (token.shifted bytes)
  | cause => cause

/-- The empty substitution has no place. -/
def ParseError.shifted (lines bytes : Nat) : ParseError → ParseError
  | .emptySubstitution => .emptySubstitution
  | .located cause position =>
    .located (cause.shifted bytes) (position.shifted lines bytes)

/-- What is moved nowhere stays as it is. -/
theorem Lexeme.shifted_zero (lexeme : Lexeme) : lexeme.shifted 0 0 = lexeme := by
  have piece (piece : Word.Piece) : piece.shifted 0 = piece := by
    cases piece <;> rfl
  have token (token : Token) : token.shifted 0 = token := by
    cases token with
    | word read => rw [Token.shifted, Word.shifted, List.map_id'' piece]
    | _ => rfl
  rw [shifted, token]
  rfl

/-- The same result somewhere else. -/
def ParseError.moved {α : Type} (lines bytes : Nat) (change : α → α)
    (result : Except ParseError α) : Except ParseError α :=
  (result.map change).mapError (ParseError.shifted lines bytes)

section
variable {lines bytes : Nat}

@[simp] theorem Position.shifted_advance (position : Position) (c : Char) :
    (position.shifted lines bytes).advance c = (position.advance c).shifted lines bytes := by
  unfold advance shifted
  split
  · simp only [Position.mk.injEq, true_and]
    omega
  · simp only [Position.mk.injEq, true_and]
    omega

@[simp] theorem Position.shifted_after (position : Position) (text : List Char) :
    (position.shifted lines bytes).after text = (position.after text).shifted lines bytes := by
  induction text generalizing position with
  | nil => rfl
  | cons c rest ih => rw [after_cons, after_cons, shifted_advance, ih]

theorem Node.shiftedAll_eq_map (nodes : List Node) :
    Node.shiftedAll bytes nodes = nodes.map (Node.shifted bytes) := by
  induction nodes with
  | nil => rfl
  | cons node rest ih => rw [shiftedAll, ih, List.map_cons]

theorem Node.shiftedAll_append (first second : List Node) :
    Node.shiftedAll bytes (first ++ second) =
      Node.shiftedAll bytes first ++ Node.shiftedAll bytes second := by
  simp only [shiftedAll_eq_map, List.map_append]

@[simp] theorem Node.shifted_span (node : Node) :
    (node.shifted bytes).span = node.span.shifted bytes := by
  cases node <;> rfl

@[simp] theorem Word.Piece.shifted_text (piece : Word.Piece) :
    (piece.shifted bytes).text = piece.text := by
  cases piece <;> rfl

@[simp] theorem Word.shifted_chars (read : Word) : (read.shifted bytes).chars = read.chars := by
  rw [chars, shifted, List.flatMap_map]
  simp only [Piece.shifted_text]
  rfl

@[simp] theorem Word.shifted_text (read : Word) : (read.shifted bytes).text = read.text := by
  rw [text, shifted_chars, text]

theorem Word.shifted_append (first second : Word) :
    (first ++ second).shifted bytes = first.shifted bytes ++ second.shifted bytes := by
  change Word.mk _ _ = Word.mk _ _
  rw [show (first ++ second).pieces = first.pieces ++ second.pieces from rfl, List.map_append]
  rfl

@[simp] theorem Token.shifted_bare? (token : Token) :
    (token.shifted bytes).bare? = token.bare? := by
  cases token with
  | word read =>
    change (read.shifted bytes).bare? = read.bare?
    rw [Word.bare?, Word.shifted_chars, Word.shifted_text]
    rfl
  | _ => rfl

theorem Token.shifted_sign {token : Token} (sign : ∀ read, token ≠ .word read) :
    token.shifted bytes = token := by
  cases token with
  | word read => exact absurd rfl (sign read)
  | _ => rfl

theorem Token.shifted_eq {token : Token} (value : Token) (sign : ∀ read, value ≠ .word read) :
    token.shifted bytes = value ↔ token = value := by
  cases token with
  | word read =>
    exact iff_of_false (fun same => sign _ same.symm) fun same => sign _ same.symm
  | _ => exact Iff.rfl

end

end StepShell

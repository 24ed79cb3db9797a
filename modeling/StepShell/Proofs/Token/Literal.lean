import StepShell.Proofs.Token.Layout

/-! Text that quotes protect. Between single quotes, and between double quotes with a backslash
before each character that means something there, a text is one word, which refers to nothing and
stands for the text. -/

namespace StepShell

namespace Word

/-- The piece that stands for a character and nothing else. -/
def Piece.literal (c : Char) : Piece :=
  if isSpecial c then .guarded c else .plain c

/-- The word that stands for a text between quotes. -/
def literal (text : List Char) : Word :=
  ⟨text.map Piece.literal, true⟩

def singleQuotes (text : List Char) : List Char :=
  '\'' :: (text ++ ['\''])

/-- A character as it stands between double quotes. -/
def escaped (c : Char) : List Char :=
  if isSpecial c || c == '"' then ['\\', c] else [c]

def doubleQuotes (text : List Char) : List Char :=
  '"' :: (text.flatMap escaped ++ ['"'])

/-- What a literal word says is what expansion leaves alone. -/
theorem literal_chars (text : List Char) :
    (literal text).chars = Expansion.protectChars text := by
  unfold chars literal Expansion.protectChars
  rw [List.flatMap_map]
  congr 1
  funext c
  rw [Piece.literal]
  split <;> rfl

theorem literal_refers_to_nothing (text : List Char) :
    ∀ piece ∈ (literal text).pieces, piece.parameter? = none ∧ piece.isSubstitution = false := by
  intro piece member
  obtain ⟨c, -, rfl⟩ := List.mem_map.mp member
  rw [Piece.literal]
  split <;> exact ⟨rfl, rfl⟩

end Word

namespace Lexer

open Word (Piece isSpecial escaped literal singleQuotes doubleQuotes)

/-- Between single quotes each character is read as itself, up to the first single quote. -/
theorem singleQuoted_literal {text : List Char} (absent : '\'' ∉ text) (position : Position)
    (rest : List Char) :
    singleQuoted position (text ++ '\'' :: rest) =
      .ok (text.map .literal, ⟨rest, (position.after text).advance '\''⟩) := by
  induction text generalizing position with
  | nil => rfl
  | cons c text ih =>
    obtain ⟨other, later⟩ := not_or.mp fun among => absent (List.mem_cons.mpr among)
    rw [List.cons_append, singleQuoted, if_neg (Ne.symm other), ih later, prepend_ok]
    rfl

/-- What a character is written as between double quotes is read as the character. -/
theorem quotedPiece_escaped (position : Position) (c : Char) (rest : List Char) :
    ∃ first more, escaped c = first :: more ∧ first ≠ '"' ∧
      quotedPiece position first (more ++ rest) =
        .ok ([.literal c], ⟨rest, position.after (escaped c)⟩) := by
  unfold escaped Piece.literal
  cases special : isSpecial c with
  | true =>
    refine ⟨'\\', [c], rfl, by decide, ?_⟩
    simp only [isSpecial, Bool.or_eq_true, beq_iff_eq] at special
    rcases special with (rfl | rfl) | rfl <;> rfl
  | false =>
    by_cases quote : c = '"'
    · subst quote
      exact ⟨'\\', ['"'], rfl, by decide, rfl⟩
    · refine ⟨c, [], by simp [quote], quote, ?_⟩
      simp only [isSpecial, Bool.or_eq_false_iff, beq_eq_false_iff_ne] at special
      simp [quotedPiece, special, quote]

/-- Between double quotes an escaped text is read as itself, up to the closing quote. -/
theorem doubleQuoted_literal (text : List Char) (position : Position) (rest : List Char) :
    doubleQuoted ⟨text.flatMap escaped ++ '"' :: rest, position⟩ =
      .ok (text.map .literal, ⟨rest, (position.after (text.flatMap escaped)).advance '"'⟩) := by
  induction text generalizing position with
  | nil =>
    rw [doubleQuoted]
    rfl
  | cons c text ih =>
    obtain ⟨first, more, written, inside, piece⟩ :=
      quotedPiece_escaped position c (text.flatMap escaped ++ '"' :: rest)
    rw [List.flatMap_cons, List.append_assoc, Position.after_append]
    rw [written] at piece ⊢
    rw [List.cons_append, doubleQuoted_cons inside, piece]
    dsimp only
    rw [ih, prepend_ok]
    rfl

/-- A text that begins with a quote and is one segment is one word. -/
theorem lex_of_segment {quote : Char} (opens : quote = '\'' ∨ quote = '"') {text : List Char}
    {read : Word} {stop : Position} {offset : Nat}
    (segment : Lexer.segment (.starting offset) quote text = .ok (read, ⟨[], stop⟩)) :
    lex (quote :: text) offset = .ok [⟨.word read, .starting offset, stop⟩] := by
  have start : skipBlanks (.starting offset) (quote :: text) =
      ⟨quote :: text, .starting offset⟩ := by
    rcases opens with rfl | rfl <;> rfl
  have begins : token (.starting offset) quote text =
      .ok (.word (read ++ Word.empty), ⟨[], stop⟩) := by
    have ended : word ⟨[], stop⟩ = .ok (Word.empty, ⟨[], stop⟩) := word_ended rfl stop
    rcases opens with rfl | rfl
    all_goals
      unfold token
      simp [segment, ended, mapAt, Except.map]
  have whole : read ++ Word.empty = read := by
    change Word.mk (read.pieces ++ []) (read.quoted || false) = read
    rw [List.append_nil, Bool.or_false]
  rw [lex, lexemes_cons start, begins, whole]
  dsimp only
  have nothing : skipBlanks stop [] = ⟨[], stop⟩ := by rw [skipBlanks]
  rw [lexemes_nil nothing]
  rfl

theorem lex_singleQuotes {text : List Char} (absent : '\'' ∉ text) (offset : Nat) :
    lex (singleQuotes text) offset = .ok [⟨.word (literal text), .starting offset,
      (Position.starting offset).after (singleQuotes text)⟩] := by
  have opened : segment (.starting offset) '\'' (text ++ ['\'']) =
      mapAt (fun read _ => ⟨read, true⟩)
        (singleQuoted ((Position.starting offset).advance '\'') (text ++ ['\''])) := rfl
  refine lex_of_segment (.inl rfl) ?_
  rw [opened, singleQuoted_literal absent]
  simp [mapAt, Except.map, literal, singleQuotes, Position.after_append]

theorem lex_doubleQuotes (text : List Char) (offset : Nat) :
    lex (doubleQuotes text) offset = .ok [⟨.word (literal text), .starting offset,
      (Position.starting offset).after (doubleQuotes text)⟩] := by
  have opened : segment (.starting offset) '"' (text.flatMap escaped ++ ['"']) =
      mapAt (fun read _ => ⟨read, true⟩)
        (doubleQuoted ⟨text.flatMap escaped ++ ['"'], (Position.starting offset).advance '"'⟩) :=
    rfl
  refine lex_of_segment (.inr rfl) ?_
  rw [opened, doubleQuoted_literal]
  simp [mapAt, Except.map, literal, doubleQuotes, Position.after_append]

end Lexer

/-- The source is just one word, which refers to nothing and stands for the text whatever the
variables hold. -/
def StandsFor (source : List Char) (text : String) : Prop :=
  ∀ offset, ∃ read : Word,
    lex source offset =
      .ok [⟨.word read, .starting offset, (Position.starting offset).after source⟩] ∧
    (∀ piece ∈ read.pieces, piece.parameter? = none ∧ piece.isSubstitution = false) ∧
    ∀ vars : Variables, vars.expand read.text = text

/-- A source that is read as the literal word stands for the text. -/
theorem StandsFor.of_literal {source : List Char} {text : String}
    (lexed : ∀ offset, lex source offset = .ok [⟨.word (Word.literal text.toList),
      .starting offset, (Position.starting offset).after source⟩]) : StandsFor source text := by
  intro offset
  refine ⟨_, lexed offset, Word.literal_refers_to_nothing _, fun vars => ?_⟩
  rw [Word.text, Word.literal_chars]
  exact vars.expand_protect text

/-- Protected text expands to itself before any rest, a text without single quotes stands for itself
between them, and any text does between double quotes if it is escaped. -/
theorem quotes_protect (text : String) :
    (∀ (vars : Variables) (rest : String),
      vars.expand (Word.protect text ++ rest) = text ++ vars.expand rest) ∧
    ('\'' ∉ text.toList → StandsFor (Word.singleQuotes text.toList) text) ∧
    StandsFor (Word.doubleQuotes text.toList) text := by
  refine ⟨fun vars rest => ?_, fun absent => ?_, ?_⟩
  · have whole := Expansion.expandChars_protect vars text.toList rest.toList
    rw [Variables.expand, Word.protect, String.toList_append, String.toList_ofList, whole,
      String.ofList_append, String.ofList_toList, Variables.expand]
  · exact .of_literal (Lexer.lex_singleQuotes absent)
  · exact .of_literal (Lexer.lex_doubleQuotes text.toList)

/-- A text of all characters that quotes protect, and an escaped newline. -/
theorem quotes_protect_special :
    let text := "\\\n$a\"`b`$(c)\\\\"
    '\'' ∉ text.toList ∧ StandsFor (Word.singleQuotes text.toList) text ∧
      Word.doubleQuotes text.toList = "\"\\\\\n\\$a\\\"\\`b\\`\\$(c)\\\\\\\\\"".toList ∧
      StandsFor (Word.doubleQuotes text.toList) text := by
  intro text
  have absent : '\'' ∉ text.toList := by decide
  obtain ⟨-, single, double⟩ := quotes_protect text
  exact ⟨absent, single absent, by decide, double⟩

end StepShell

import StepShell.Token
import StepShell.Word.Quote

/-! Reading the tokens of a script. Offsets count from the start of the outermost text, so the text
of a substitution is read with the offset where it starts. -/

namespace StepShell

/-- The text that is still to be read, and where it starts. -/
structure Cursor where
  rest : List Char
  position : Position

namespace Lexer

open Word (Piece isSpecial)

abbrev Reading (α : Type) := Except ParseError (α × Cursor)

def unterminated {α : Type} (what : Delimited) (position : Position) : Reading α :=
  .error (.located (.unterminated what) position)

/-- Change what was read, knowing the position where reading stopped. -/
def mapAt {α β : Type} (change : α → Position → β) (reading : Reading α) : Reading β :=
  reading.map fun read => (change read.1 read.2.position, read.2)

theorem mapAt_eq_ok {α β : Type} {change : α → Position → β} {reading : Reading α} {made : β}
    {next : Cursor} : mapAt change reading = .ok (made, next) ↔
      ∃ read, reading = .ok (read, next) ∧ change read next.position = made := by
  cases reading with
  | error => simp [mapAt, Except.map]
  | ok value =>
    obtain ⟨read, cursor⟩ := value
    simp only [mapAt, Except.map, Except.ok.injEq, Prod.mk.injEq]
    constructor
    · rintro ⟨rfl, rfl⟩
      exact ⟨read, ⟨rfl, rfl⟩, rfl⟩
    · rintro ⟨_, ⟨rfl, rfl⟩, rfl⟩
      exact ⟨rfl, rfl⟩

/-- Put `text` in front of what was read. -/
def prepend {α : Type} (text : List α) (reading : Reading (List α)) : Reading (List α) :=
  mapAt (fun read _ => text ++ read) reading

/-- The inside of single quotes, where nothing is expanded. -/
def singleQuoted (position : Position) : List Char → Reading (List Piece)
  | [] => unterminated .singleQuote position
  | c :: rest =>
    if c = '\'' then .ok ([], ⟨rest, position.advance c⟩)
    else prepend [if isSpecial c then .guarded c else .plain c]
      (singleQuoted (position.advance c) rest)

/-- The rest of a parameter in braces, up to the first closing one. -/
def braced (position : Position) : List Char → Reading (List Char)
  | [] => unterminated .parameterExpansion position
  | c :: rest =>
    if c = '\x7d' then .ok ([c], ⟨rest, position.advance c⟩)
    else prepend [c] (braced (position.advance c) rest)

mutual

/-- The text of a substitution up to the parenthesis that closes it, inside `depth` further ones. -/
def body (depth : Nat) (position : Position) : List Char → Reading (List Char)
  | [] => unterminated .commandSubstitution position
  | '\\' :: c :: rest =>
    prepend ['\\', c] (body depth ((position.advance '\\').advance c) rest)
  | c :: rest =>
    if c = ')' then
      match depth with
      | 0 => .ok ([], ⟨rest, position.advance c⟩)
      | depth + 1 => prepend [c] (body depth (position.advance c) rest)
    else if c = '(' then prepend [c] (body (depth + 1) (position.advance c) rest)
    else if c = '\'' then prepend [c] (bodySingle depth (position.advance c) rest)
    else if c = '"' then prepend [c] (bodyDouble depth (position.advance c) rest)
    else prepend [c] (body depth (position.advance c) rest)

def bodySingle (depth : Nat) (position : Position) : List Char → Reading (List Char)
  | [] => unterminated .singleQuote position
  | c :: rest =>
    if c = '\'' then prepend [c] (body depth (position.advance c) rest)
    else prepend [c] (bodySingle depth (position.advance c) rest)

def bodyDouble (depth : Nat) (position : Position) : List Char → Reading (List Char)
  | [] => unterminated .doubleQuote position
  | '\\' :: c :: rest =>
    prepend ['\\', c] (bodyDouble depth ((position.advance '\\').advance c) rest)
  | c :: rest =>
    if c = '"' then prepend [c] (body depth (position.advance c) rest)
    else prepend [c] (bodyDouble depth (position.advance c) rest)

end

/-- The text between backquotes; a backslash before a special character is dropped. -/
def backquoted (position : Position) : List Char → Reading (List Char)
  | [] => unterminated .backquote position
  | '\\' :: c :: rest =>
    prepend (if isSpecial c then [c] else ['\\', c])
      (backquoted ((position.advance '\\').advance c) rest)
  | c :: rest =>
    if c = '\x60' then .ok ([], ⟨rest, position.advance c⟩)
    else prepend [c] (backquoted (position.advance c) rest)

def isNameStart (c : Char) : Bool :=
  c.isAlpha || c == '_'

def isNameChar (c : Char) : Bool :=
  c.isAlphanum || c == '_'

/-- The parameters whose name is one character that starts no other name. -/
def isSpecialParameter (c : Char) : Bool :=
  c.isDigit || ['@', '*', '#', '?', '$', '!'].contains c

/-- What a dollar sign at `start` begins, given the text after it. One that begins nothing stands
for itself. -/
def dollar (start : Position) (rest : List Char) : Reading (List Piece) :=
  let inside := start.advance '$'
  match rest with
  | [] => .ok ([.plain '$'], ⟨[], inside⟩)
  | '(' :: tail =>
    mapAt (fun text stop =>
        [.substitution text ⟨start.offset, stop.offset⟩ (inside.advance '(').offset])
      (body 0 (inside.advance '(') tail)
  | '\x7b' :: tail =>
    mapAt (fun text stop => [.reference ('$' :: '\x7b' :: text) ⟨start.offset, stop.offset⟩])
      (braced (inside.advance '\x7b') tail)
  | c :: tail =>
    if isNameStart c then
      let name := (c :: tail).takeWhile isNameChar
      let stop := inside.after name
      .ok ([.reference ('$' :: name) ⟨start.offset, stop.offset⟩],
        ⟨(c :: tail).dropWhile isNameChar, stop⟩)
    else if isSpecialParameter c then
      let stop := inside.advance c
      .ok ([.reference ['$', c] ⟨start.offset, stop.offset⟩], ⟨tail, stop⟩)
    else .ok ([.plain '$'], ⟨c :: tail, inside⟩)

/-- What a backquote at `start` begins. -/
def backquote (start : Position) (rest : List Char) : Reading (List Piece) :=
  let inside := start.advance '\x60'
  mapAt (fun text stop => [.substitution text ⟨start.offset, stop.offset⟩ inside.offset])
    (backquoted inside rest)

/-- What the character `c` at `position` contributes inside double quotes. -/
def quotedPiece (position : Position) (c : Char) (rest : List Char) : Reading (List Piece) :=
  if c = '$' then dollar position rest
  else if c = '\x60' then backquote position rest
  else if c = '\\' then
    match rest with
    | [] => unterminated .doubleQuote (position.advance c)
    | next :: tail =>
      let cursor : Cursor := ⟨tail, (position.advance c).advance next⟩
      if next = '\n' then .ok ([], cursor)
      else if next = '"' then .ok ([.plain '"'], cursor)
      else if isSpecial next then .ok ([.guarded next], cursor)
      else .ok ([.guarded '\\', .plain next], cursor)
  else .ok ([.plain c], ⟨rest, position.advance c⟩)

theorem singleQuoted_shorter (position : Position) (text : List Char) :
    ∀ pieces next, singleQuoted position text = .ok (pieces, next) →
      next.rest.length < text.length := by
  fun_induction singleQuoted position text with
  | case1 => intro _ _ done; simp [unterminated] at done
  | case2 => intro _ _ done; simp at done; simp [← done.2]
  | case3 _ _ _ _ ih =>
    intro _ _ done
    obtain ⟨_, inner, _⟩ := mapAt_eq_ok.mp done
    have := ih _ _ inner
    simp
    omega

private theorem braced_shorter (position : Position) (text : List Char) :
    ∀ value next, braced position text = .ok (value, next) → next.rest.length < text.length := by
  fun_induction braced position text with
  | case1 => intro _ _ done; simp [unterminated] at done
  | case2 => intro _ _ done; simp at done; simp [← done.2]
  | case3 _ _ _ _ ih =>
    intro _ _ done
    obtain ⟨_, inner, _⟩ := mapAt_eq_ok.mp done
    have := ih _ _ inner
    simp
    omega

private theorem backquoted_shorter (position : Position) (text : List Char) :
    ∀ value next, backquoted position text = .ok (value, next) →
      next.rest.length < text.length := by
  fun_induction backquoted position text with
  | case1 => intro _ _ done; simp [unterminated] at done
  | case3 => intro _ _ done; simp at done; simp [← done.2]
  | case2 _ _ _ ih | case4 _ _ _ _ _ ih =>
    intro _ _ done
    obtain ⟨_, inner, _⟩ := mapAt_eq_ok.mp done
    have := ih _ _ inner
    simp
    omega

/-- The three readers of a substitution's text leave less than they were given. -/
private theorem body_shorter_all (size : Nat) :
    ∀ (text : List Char), text.length ≤ size → ∀ depth position value next,
      (body depth position text = .ok (value, next) → next.rest.length < text.length) ∧
      (bodySingle depth position text = .ok (value, next) → next.rest.length < text.length) ∧
      (bodyDouble depth position text = .ok (value, next) → next.rest.length < text.length) := by
  induction size with
  | zero =>
    intro text small depth position value next
    obtain rfl : text = [] := List.length_eq_zero_iff.mp (Nat.le_zero.mp small)
    simp [body, bodySingle, bodyDouble, unterminated]
  | succ size ih =>
    intro text small depth position value next
    match text, small with
    | [], _ => simp [body, bodySingle, bodyDouble, unterminated]
    | c :: rest, small =>
      have shorter : rest.length ≤ size := by simpa using small
      have step := ih rest shorter
      refine ⟨fun done => ?_, fun done => ?_, fun done => ?_⟩
      · unfold body at done
        split at done
        · simp [unterminated] at done
        · rename_i next tail shape
          obtain ⟨_, inner, _⟩ := mapAt_eq_ok.mp done
          obtain ⟨rfl, rfl⟩ := by simpa using shape
          have := (ih tail (by simp at shorter; omega) _ _ _ _).1 inner
          simp
          omega
        · rename_i shape
          obtain ⟨rfl, rfl⟩ := by simpa using shape
          split at done
          · split at done
            · simp at done; simp [← done.2]
            · obtain ⟨_, inner, _⟩ := mapAt_eq_ok.mp done
              have := (step _ _ _ _).1 inner
              simp; omega
          · split at done
            · obtain ⟨_, inner, _⟩ := mapAt_eq_ok.mp done
              have := (step _ _ _ _).1 inner
              simp; omega
            · split at done
              · obtain ⟨_, inner, _⟩ := mapAt_eq_ok.mp done
                have := (step _ _ _ _).2.1 inner
                simp; omega
              · split at done
                · obtain ⟨_, inner, _⟩ := mapAt_eq_ok.mp done
                  have := (step _ _ _ _).2.2 inner
                  simp; omega
                · obtain ⟨_, inner, _⟩ := mapAt_eq_ok.mp done
                  have := (step _ _ _ _).1 inner
                  simp; omega
      · unfold bodySingle at done
        split at done
        · obtain ⟨_, inner, _⟩ := mapAt_eq_ok.mp done
          have := (step _ _ _ _).1 inner
          simp; omega
        · obtain ⟨_, inner, _⟩ := mapAt_eq_ok.mp done
          have := (step _ _ _ _).2.1 inner
          simp; omega
      · unfold bodyDouble at done
        split at done
        · simp [unterminated] at done
        · rename_i next tail shape
          obtain ⟨_, inner, _⟩ := mapAt_eq_ok.mp done
          obtain ⟨rfl, rfl⟩ := by simpa using shape
          have := (ih tail (by simp at shorter; omega) _ _ _ _).2.2 inner
          simp
          omega
        · rename_i shape
          obtain ⟨rfl, rfl⟩ := by simpa using shape
          split at done
          · obtain ⟨_, inner, _⟩ := mapAt_eq_ok.mp done
            have := (step _ _ _ _).1 inner
            simp; omega
          · obtain ⟨_, inner, _⟩ := mapAt_eq_ok.mp done
            have := (step _ _ _ _).2.2 inner
            simp; omega

theorem body_shorter {depth : Nat} {position : Position} {text value : List Char} {next : Cursor}
    (done : body depth position text = .ok (value, next)) : next.rest.length < text.length :=
  (body_shorter_all text.length text (Nat.le_refl _) depth position value next).1 done

theorem dollar_shorter {start : Position} {rest : List Char} {pieces : List Piece} {next : Cursor}
    (done : dollar start rest = .ok (pieces, next)) : next.rest.length ≤ rest.length := by
  unfold dollar at done
  split at done
  · simp at done; simp [← done.2]
  · obtain ⟨_, inner, _⟩ := mapAt_eq_ok.mp done
    have := body_shorter inner
    simp; omega
  · obtain ⟨_, inner, _⟩ := mapAt_eq_ok.mp done
    have := braced_shorter _ _ _ _ inner
    simp; omega
  · rename_i c tail _ _
    split at done
    · simp only [Except.ok.injEq, Prod.mk.injEq] at done
      simp only [← done.2]
      exact (List.dropWhile_sublist _).length_le
    · split at done
      · simp at done; simp [← done.2]
      · simp at done; simp [← done.2]

theorem backquote_shorter {start : Position} {rest : List Char} {pieces : List Piece}
    {next : Cursor} (done : backquote start rest = .ok (pieces, next)) :
    next.rest.length ≤ rest.length := by
  unfold backquote at done
  obtain ⟨_, inner, _⟩ := mapAt_eq_ok.mp done
  exact Nat.le_of_lt (backquoted_shorter _ _ _ _ inner)

theorem quotedPiece_shorter {position : Position} {c : Char} {rest : List Char}
    {pieces : List Piece} {next : Cursor}
    (done : quotedPiece position c rest = .ok (pieces, next)) :
    next.rest.length ≤ rest.length := by
  unfold quotedPiece at done
  split at done
  · exact dollar_shorter done
  · split at done
    · exact backquote_shorter done
    · split at done
      · split at done
        · simp [unterminated] at done
        · rename_i first tail
          repeat' split at done
          all_goals
            simp at done
            simp [← done.2]
      · simp at done; simp [← done.2]

set_option linter.unusedVariables false in
/-- The inside of double quotes. -/
def doubleQuoted (cursor : Cursor) : Reading (List Piece) :=
  match left : cursor.rest with
  | [] => unterminated .doubleQuote cursor.position
  | c :: rest =>
    if c = '"' then .ok ([], ⟨rest, cursor.position.advance c⟩)
    else
      match here : quotedPiece cursor.position c rest with
      | .error error => .error error
      | .ok (pieces, next) => prepend pieces (doubleQuoted next)
termination_by cursor.rest.length
decreasing_by
  have := quotedPiece_shorter here
  simp [left]
  omega

theorem doubleQuoted_shorter (cursor : Cursor) :
    ∀ pieces next, doubleQuoted cursor = .ok (pieces, next) →
      next.rest.length < cursor.rest.length := by
  fun_induction doubleQuoted cursor with
  | case1 => intro _ _ done; simp [unterminated] at done
  | case2 cursor rest left =>
    intro _ _ done
    simp at done
    simp [← done.2, left]
  | case3 => intro _ _ done; simp at done
  | case4 cursor c rest left _ pieces middle here ih =>
    intro _ _ done
    obtain ⟨_, inner, _⟩ := mapAt_eq_ok.mp done
    have := ih _ _ inner
    have := quotedPiece_shorter here
    simp [left]
    omega

/-- Characters that end an unquoted word. -/
def endsWord (c : Char) : Bool :=
  [' ', '\t', '\r', '\n', ';', '|', '&', '<', '>', '(', ')'].contains c

/-- What the character `c` at `position` contributes outside quotes. -/
def segment (position : Position) (c : Char) (rest : List Char) : Reading Word :=
  let next := position.advance c
  if c = '\'' then mapAt (fun read _ => ⟨read, true⟩) (singleQuoted next rest)
  else if c = '"' then mapAt (fun read _ => ⟨read, true⟩) (doubleQuoted ⟨rest, next⟩)
  else if c = '$' then mapAt (fun read _ => ⟨read, false⟩) (dollar position rest)
  else if c = '\x60' then mapAt (fun read _ => ⟨read, false⟩) (backquote position rest)
  else if c = '\\' then
    match rest with
    | [] => .ok (⟨[.guarded '\\'], false⟩, ⟨[], next⟩)
    | '\n' :: tail => .ok (Word.empty, ⟨tail, next.advance '\n'⟩)
    | d :: tail => .ok (⟨[.guarded d], false⟩, ⟨tail, next.advance d⟩)
  else .ok (⟨[.plain c], false⟩, ⟨rest, next⟩)

theorem segment_shorter {position : Position} {c : Char} {rest : List Char} {word : Word}
    {next : Cursor} (done : segment position c rest = .ok (word, next)) :
    next.rest.length ≤ rest.length := by
  simp only [segment] at done
  split at done
  · obtain ⟨_, inner, _⟩ := mapAt_eq_ok.mp done
    exact Nat.le_of_lt (singleQuoted_shorter _ _ _ _ inner)
  · split at done
    · obtain ⟨_, inner, _⟩ := mapAt_eq_ok.mp done
      exact Nat.le_of_lt (doubleQuoted_shorter _ _ _ inner)
    · split at done
      · obtain ⟨_, inner, _⟩ := mapAt_eq_ok.mp done
        exact dollar_shorter inner
      · split at done
        · obtain ⟨_, inner, _⟩ := mapAt_eq_ok.mp done
          exact backquote_shorter inner
        · split at done
          · split at done
            all_goals
              simp at done
              simp [← done.2]
          · simp at done; simp [← done.2]

set_option linter.unusedVariables false in
/-- The word at the cursor, up to a character that ends it. -/
def word (cursor : Cursor) : Reading Word :=
  match left : cursor.rest with
  | [] => .ok (Word.empty, cursor)
  | c :: rest =>
    if endsWord c then .ok (Word.empty, cursor)
    else
      match here : segment cursor.position c rest with
      | .error error => .error error
      | .ok (first, next) => mapAt (fun later _ => first ++ later) (word next)
termination_by cursor.rest.length
decreasing_by
  have := segment_shorter here
  simp [left]
  omega

theorem word_shorter (cursor : Cursor) :
    ∀ read next, word cursor = .ok (read, next) → next.rest.length ≤ cursor.rest.length := by
  fun_induction word cursor with
  | case1 => intro _ _ done; simp at done; simp [← done.2]
  | case2 => intro _ _ done; simp at done; simp [← done.2]
  | case3 => intro _ _ done; simp at done
  | case4 cursor c rest left _ first middle here ih =>
    intro _ _ done
    obtain ⟨_, inner, _⟩ := mapAt_eq_ok.mp done
    have := ih _ _ inner
    have := segment_shorter here
    simp [left]
    omega

mutual

/-- The text after blanks, escaped line ends and comments. -/
def skipBlanks (position : Position) : List Char → Cursor
  | [] => ⟨[], position⟩
  | '\\' :: '\n' :: rest => skipBlanks ((position.advance '\\').advance '\n') rest
  | c :: rest =>
    if c = ' ' || c = '\t' || c = '\r' then skipBlanks (position.advance c) rest
    else if c = '#' then skipComment (position.advance c) rest
    else ⟨c :: rest, position⟩

/-- A comment ends before the newline. -/
def skipComment (position : Position) : List Char → Cursor
  | [] => ⟨[], position⟩
  | c :: rest =>
    if c = '\n' then ⟨c :: rest, position⟩
    else skipComment (position.advance c) rest

end

private theorem skip_shorter_all (size : Nat) :
    ∀ (text : List Char), text.length ≤ size → ∀ position,
      (skipBlanks position text).rest.length ≤ text.length ∧
      (skipComment position text).rest.length ≤ text.length := by
  induction size with
  | zero =>
    intro text small position
    obtain rfl : text = [] := List.length_eq_zero_iff.mp (Nat.le_zero.mp small)
    simp [skipBlanks, skipComment]
  | succ size ih =>
    intro text small position
    match text, small with
    | [], _ => simp [skipBlanks, skipComment]
    | c :: rest, small =>
      have shorter : rest.length ≤ size := by simpa using small
      constructor
      · unfold skipBlanks
        split
        · simp
        · rename_i tail shape
          obtain ⟨rfl, rfl⟩ := by simpa using shape
          have := (ih tail (by simp at shorter; omega)
            ((position.advance '\\').advance '\n')).1
          simp; omega
        · rename_i shape
          obtain ⟨rfl, rfl⟩ := by simpa using shape
          have := ih rest shorter (position.advance c)
          split
          · simp; omega
          · split
            · simp; omega
            · simp
      · unfold skipComment
        have := ih rest shorter (position.advance c)
        split
        · simp
        · simp; omega

theorem skipBlanks_shorter (position : Position) (text : List Char) :
    (skipBlanks position text).rest.length ≤ text.length :=
  (skip_shorter_all text.length text (Nat.le_refl _) position).1

/-- The token that begins with `c`. -/
def token (position : Position) (c : Char) (rest : List Char) : Reading Token :=
  let next := position.advance c
  let twice (double single : Token) : Reading Token :=
    match rest with
    | d :: tail =>
      if d = c then .ok (double, ⟨tail, next.advance d⟩) else .ok (single, ⟨rest, next⟩)
    | [] => .ok (single, ⟨rest, next⟩)
  if c = '\n' then .ok (.newline, ⟨rest, next⟩)
  else if c = ';' then .ok (.semicolon, ⟨rest, next⟩)
  else if c = '|' then twice .or .pipe
  else if c = '&' then twice .and .background
  else if c = '>' then twice (.redirect .append) (.redirect .output)
  else if c = '<' then .ok (.redirect .input, ⟨rest, next⟩)
  else if c = '(' then .ok (.leftParen, ⟨rest, next⟩)
  else if c = ')' then .ok (.rightParen, ⟨rest, next⟩)
  else
    match segment position c rest with
    | .error error => .error error
    | .ok (first, cursor) => mapAt (fun later _ => .word (first ++ later)) (word cursor)

theorem token_shorter {position : Position} {c : Char} {rest : List Char} {read : Token}
    {next : Cursor} (done : token position c rest = .ok (read, next)) :
    next.rest.length ≤ rest.length := by
  unfold token at done
  simp only at done
  repeat' split at done
  all_goals
    first
    | (simp at done; simp [← done.2])
    | (simp at done; done)
    | (rename_i here
       obtain ⟨_, inner, _⟩ := mapAt_eq_ok.mp done
       have := word_shorter _ _ _ inner
       have := segment_shorter here
       omega)

set_option linter.unusedVariables false in
/-- All tokens of a text. -/
def lexemes (cursor : Cursor) : Except ParseError (List Lexeme) :=
  let start := skipBlanks cursor.position cursor.rest
  match left : start.rest with
  | [] => .ok []
  | c :: rest =>
    match here : token start.position c rest with
    | .error error => .error error
    | .ok (read, next) =>
      (lexemes next).map fun later => ⟨read, start.position, next.position⟩ :: later
termination_by cursor.rest.length
decreasing_by
  have := token_shorter here
  have := skipBlanks_shorter cursor.position cursor.rest
  have : (skipBlanks cursor.position cursor.rest).rest.length = (c :: rest).length := by
    rw [← left]
  simp at this
  omega

end Lexer

/-- The tokens of a text whose first byte has the given offset. -/
def lex (text : List Char) (offset : Nat) : Except ParseError (List Lexeme) :=
  Lexer.lexemes ⟨text, Position.starting offset⟩

end StepShell

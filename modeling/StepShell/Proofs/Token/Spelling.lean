import StepShell.Proofs.Token.Layout
import StepShell.Proofs.Token.Rereading

/-! Texts that are the same tokens wherever they stand. A text spells its tokens if they come of it
before any blank, semicolon or newline; such texts are put together of signs, blanks and words. -/

namespace StepShell

namespace Lexer

open Word (Spelled)

/-- Nothing that is read before this text goes on in it. -/
def Apart (text : List Char) : Prop :=
  text.head?.all (fun c => c == ' ' || c == ';' || c == '\n') = true

/-- These tokens, apart from their places, are read of the text wherever it stands. -/
def Spells (text : List Char) (tokens : List Token) : Prop :=
  ∀ rest, Apart rest → ∀ position, ∃ made stop, made.map (·.token.unplaced) = tokens ∧
    lexemes ⟨text ++ rest, position⟩ = (lexemes ⟨rest, stop⟩).map (made ++ ·)

section
variable {text rest more : List Char} {tokens others : List Token} {position : Position} {c : Char}

theorem Apart.append (first : Apart text) (second : Apart rest) : Apart (text ++ rest) := by
  cases text with
  | nil => exact second
  | cons => exact first

theorem Apart.cases (apart : Apart (c :: rest)) : c = ' ' ∨ c = ';' ∨ c = '\n' := by
  simpa [Apart, or_assoc] using apart

theorem Apart.ended (apart : Apart text) :
    text.head?.all endsWord = true ∧ text.head? ≠ some '(' := by
  cases text with
  | nil => exact ⟨rfl, by simp⟩
  | cons c rest => rcases apart.cases with rfl | rfl | rfl <;> exact ⟨rfl, by simp⟩

/-- What is read depends on what blanks and comments leave. -/
theorem lexemes_skipped {first second : Cursor}
    (same : skipBlanks first.position first.rest = skipBlanks second.position second.rest) :
    lexemes first = lexemes second := by
  rcases left : skipBlanks second.position second.rest with ⟨_ | ⟨c, rest⟩, position⟩
  · rw [lexemes_nil (same.trans left), lexemes_nil left]
  · rw [lexemes_cons (same.trans left), lexemes_cons left]

namespace Spells

theorem nil : Spells [] [] :=
  fun rest _ position => ⟨[], position, rfl, by
    rw [List.nil_append]
    cases lexemes ⟨rest, position⟩ <;> rfl⟩

theorem append (first : Spells text tokens) (second : Spells more others) (apart : Apart more) :
    Spells (text ++ more) (tokens ++ others) := by
  intro rest behind position
  obtain ⟨here, middle, rfl, ran⟩ := first (more ++ rest) (apart.append behind) position
  obtain ⟨there, stop, rfl, runs⟩ := second rest behind middle
  refine ⟨here ++ there, stop, List.map_append, ?_⟩
  rw [List.append_assoc, ran, runs]
  cases lexemes ⟨rest, stop⟩ with
  | error => rfl
  | ok later => exact congrArg Except.ok (List.append_assoc _ _ _).symm

theorem blank (spells : Spells text tokens) : Spells (' ' :: text) tokens := by
  intro rest apart position
  obtain ⟨made, stop, same, ran⟩ := spells rest apart (position.advance ' ')
  refine ⟨made, stop, same, ?_⟩
  rw [← ran]
  refine lexemes_skipped ?_
  rw [List.cons_append, skipBlanks_cons fun _ wrong => by cases wrong]
  rfl

/-- A token is read of its own characters, wherever they stand before the text. -/
theorem token {own : List Char} {value : Token}
    (settled : ∀ behind place, skipBlanks place (own ++ behind) = ⟨own ++ behind, place⟩)
    (reads : ∀ rest, Apart rest → ∀ place, ∃ read stop,
      headed Lexer.token place (own ++ (text ++ rest)) = .ok (read, ⟨text ++ rest, stop⟩) ∧
        read.unplaced = value)
    (later : Spells text tokens) : Spells (own ++ text) (value :: tokens) := by
  intro rest apart position
  obtain ⟨read, middle, ran, rfl⟩ := reads rest apart position
  obtain ⟨made, stop, rfl, runs⟩ := later rest apart middle
  refine ⟨⟨read, position, middle⟩ :: made, stop, rfl, ?_⟩
  rw [List.append_assoc]
  have start := settled (text ++ rest) position
  generalize own ++ (text ++ rest) = whole at ran start
  cases whole with
  | nil => cases ran
  | cons c behind =>
    rw [lexemes_cons start]
    change Lexer.token position c behind = _ at ran
    rw [ran]
    dsimp only
    rw [runs]
    cases lexemes ⟨rest, stop⟩ <;> rfl

/-- A sign that is one token whatever stands behind it. -/
theorem sign {value : Token} (blank : (c = ' ' || c = '\t' || c = '\r') = false) (comment : c ≠ '#')
    (backslash : c ≠ '\\') (plain : value.unplaced = value)
    (unfolds : ∀ place behind, Lexer.token place c behind = .ok (value, ⟨behind, place.advance c⟩))
    (later : Spells text tokens) : Spells (c :: text) (value :: tokens) := by
  have settled (behind : List Char) (place : Position) :
      skipBlanks place ([c] ++ behind) = ⟨[c] ++ behind, place⟩ := by
    rw [List.singleton_append, skipBlanks_cons fun _ wrong => absurd wrong backslash,
      if_neg (by simp [blank]), if_neg comment]
  exact token settled (fun rest _ place => ⟨value, _, unfolds place _, plain⟩) later

theorem semicolon (later : Spells text tokens) : Spells (';' :: text) (.semicolon :: tokens) :=
  .sign rfl (by decide) (by decide) rfl (fun _ _ => rfl) later

theorem newline (later : Spells text tokens) : Spells ('\n' :: text) (.newline :: tokens) :=
  .sign rfl (by decide) (by decide) rfl (fun _ _ => rfl) later

theorem leftParen (later : Spells text tokens) : Spells ('(' :: text) (.leftParen :: tokens) :=
  .sign rfl (by decide) (by decide) rfl (fun _ _ => rfl) later

theorem rightParen (later : Spells text tokens) : Spells (')' :: text) (.rightParen :: tokens) :=
  .sign rfl (by decide) (by decide) rfl (fun _ _ => rfl) later

theorem input (later : Spells text tokens) :
    Spells ('<' :: text) (.redirect .input :: tokens) :=
  .sign rfl (by decide) (by decide) rfl (fun _ _ => rfl) later

/-- A sign that may stand twice, where it does. -/
theorem twice {value : Token}
    (known : (c, value) ∈ [('&', Token.and), ('|', .or), ('>', .redirect .append)])
    (later : Spells text tokens) : Spells (c :: c :: text) (value :: tokens) := by
  have settled (behind : List Char) (place : Position) :
      skipBlanks place ([c, c] ++ behind) = ⟨[c, c] ++ behind, place⟩ := by
    simp only [List.mem_cons, Prod.mk.injEq, List.not_mem_nil, or_false] at known
    rcases known with ⟨rfl, -⟩ | ⟨rfl, -⟩ | ⟨rfl, -⟩ <;>
      exact skipBlanks_cons fun _ wrong => by cases wrong
  refine token settled (fun rest _ place => ⟨value, (place.advance c).advance c, ?_⟩) later
  simp only [List.mem_cons, Prod.mk.injEq, List.not_mem_nil, or_false] at known
  rcases known with ⟨rfl, rfl⟩ | ⟨rfl, rfl⟩ | ⟨rfl, rfl⟩ <;> exact ⟨rfl, rfl⟩

/-- A sign that may stand twice, where it does not. -/
theorem once {value : Token}
    (known : (c, value) ∈ [('&', Token.background), ('|', .pipe), ('>', .redirect .output)])
    (apart : Apart text) (later : Spells text tokens) : Spells (c :: text) (value :: tokens) := by
  have settled (behind : List Char) (place : Position) :
      skipBlanks place ([c] ++ behind) = ⟨[c] ++ behind, place⟩ := by
    simp only [List.mem_cons, Prod.mk.injEq, List.not_mem_nil, or_false] at known
    rcases known with ⟨rfl, -⟩ | ⟨rfl, -⟩ | ⟨rfl, -⟩ <;>
      exact skipBlanks_cons fun _ wrong => by cases wrong
  refine token settled (fun rest behind place => ⟨value, place.advance c, ?_⟩) later
  have next := apart.append behind
  generalize text ++ rest = whole at next
  simp only [List.mem_cons, Prod.mk.injEq, List.not_mem_nil, or_false] at known
  rcases whole with _ | ⟨d, whole⟩
  · rcases known with ⟨rfl, rfl⟩ | ⟨rfl, rfl⟩ | ⟨rfl, rfl⟩ <;> exact ⟨rfl, rfl⟩
  · rcases next.cases with rfl | rfl | rfl <;>
      rcases known with ⟨rfl, rfl⟩ | ⟨rfl, rfl⟩ | ⟨rfl, rfl⟩ <;> exact ⟨rfl, rfl⟩

end Spells

/-- A text that spells its tokens is read as these alone. -/
theorem Spells.lex (spells : Spells text tokens) (offset : Nat) :
    ∃ made, lex text offset = .ok made ∧ made.map (·.token.unplaced) = tokens := by
  obtain ⟨made, stop, rfl, ran⟩ := spells [] rfl (.starting offset)
  refine ⟨made, ?_, rfl⟩
  rw [List.append_nil] at ran
  rw [StepShell.lex, ran, lexemes_nil (by rw [skipBlanks])]
  exact congrArg Except.ok (List.append_nil _)

end

/-- The word that a text is, before whatever `ends` it. -/
def Names (ends : List Char → Prop) (own : List Char) (read : Word) : Prop :=
  ∀ rest, ends rest → ∀ position, ∃ again stop,
    word ⟨own ++ rest, position⟩ = .ok (again, ⟨rest, stop⟩) ∧ again.unplaced = read

/-- A text that no blank, sign or comment begins. -/
def Solid (own : List Char) : Prop :=
  ∃ c tail, own = c :: tail ∧ endsWord c = false ∧ c ≠ '#' ∧
    (c = '\\' → ∃ d rest, tail = d :: rest ∧ d ≠ '\n')

section
variable {held : List Char → Prop} {bodies : List (List Char)} {quoted : Bool}
  {text own rest : List Char} {ends : List Char → Prop} {tokens : List Token} {read : Word}

/-- A text that is read as a word is read as the same word everywhere. -/
theorem exists_names (empty : ends []) (speaks : ∀ rest, ends rest → ∀ position,
      Speaks bodies (word ⟨own ++ rest, position⟩) quoted text rest) :
    ∃ read, Names ends own read ∧ read.chars = text ∧ read.quoted = quoted ∧
      read.bodies = bodies := by
  obtain ⟨first, stop, alone, rfl, rfl, rfl⟩ := speaks [] empty default
  refine ⟨first.unplaced, fun rest ended position => ?_, first.unplaced_chars, rfl,
    first.unplaced_bodies⟩
  obtain ⟨again, stop, ran, -, -, -⟩ := speaks rest ended position
  refine ⟨again, stop, ran, ?_⟩
  -- the text alone is a shorter stretch of what was read
  obtain ⟨stretch, split, -, -, repeats⟩ := word_spreads ⟨own ++ rest, position⟩ again _ ran
  obtain rfl := List.append_cancel_right split
  obtain ⟨other, runs, same⟩ := repeats default [] List.nil_prefix
  cases alone.symm.trans runs
  exact same.symm

theorem Solid.settled (solid : Solid own) (behind : List Char) (place : Position) :
    skipBlanks place (own ++ behind) = ⟨own ++ behind, place⟩ := by
  obtain ⟨c, tail, rfl, inside, comment, escape⟩ := solid
  rw [List.cons_append, skipBlanks_cons, if_neg, if_neg comment]
  · intro blank
    simp only [Bool.or_eq_true, decide_eq_true_eq] at blank
    rcases blank with (rfl | rfl) | rfl <;> cases inside
  · intro more backslash line
    obtain ⟨d, rest, rfl, other⟩ := escape backslash
    exact other (List.cons.inj line).1

theorem Spells.word (solid : Solid own) (names : Names ends own read)
    (ended : ∀ rest, Apart rest → ends (text ++ rest)) (later : Spells text tokens) :
    Spells (own ++ text) (.word read :: tokens) := by
  refine .token solid.settled (fun rest apart place => ?_) later
  obtain ⟨again, stop, ran, rfl⟩ := names (text ++ rest) (ended rest apart) place
  refine ⟨.word again, stop, ?_, rfl⟩
  obtain ⟨c, tail, rfl, inside, -, -⟩ := solid
  change Lexer.token place c _ = _
  rw [token_word inside]
  change mapAt _ (Lexer.word ⟨c :: tail ++ (text ++ rest), place⟩) = _
  rw [ran]
  rfl

/-- What ends a word, but for the parenthesis behind a function's name. -/
def EndsWord (rest : List Char) : Prop :=
  rest.head?.all endsWord = true ∧ rest.head? ≠ some '('

theorem Apart.endsWord {more : List Char} (apart : Apart more) (behind : Apart rest) :
    EndsWord (more ++ rest) :=
  (apart.append behind).ended

theorem Spells.alone (solid : Solid own) (names : Names EndsWord own read) :
    Spells own [.word read] := by
  have spells := Spells.word solid names (fun _ apart => Apart.endsWord (rfl : Apart []) apart) .nil
  rwa [List.append_nil] at spells

/-- A word as it is written is one word. -/
theorem names_quoteChars (spelled : Spelled held (Word.breaks text) text) :
    ∃ read, Names EndsWord (Word.quoteChars text) read ∧
      read.chars = Word.spoken (Word.breaks text) text ∧ read.quoted = Word.breaks text ∧
      read.bodies = Word.groups text :=
  exists_names ⟨rfl, by simp⟩ fun _ ended => word_quoteChars spelled ended.1 ended.2

theorem solid_quoteChars (spelled : Spelled held (Word.breaks text) text) :
    Solid (Word.quoteChars text) := by
  rw [Word.quoteChars_eq]
  cases broken : Word.breaks text with
  | true => exact ⟨'"', _, rfl, rfl, by decide, fun wrong => by cases wrong⟩
  | false =>
    rw [broken] at spelled
    obtain ⟨some, unbroken⟩ := Bool.or_eq_false_iff.mp broken
    rw [if_neg (by decide), Word.written_bare]
    rcases text with _ | ⟨c, tail⟩
    · cases some
    obtain ⟨here, later⟩ := Bool.or_eq_false_iff.mp (List.any_cons ▸ unbroken)
    obtain ⟨-, comment, inside, -⟩ := plain_of_unbroken here
    refine ⟨c, tail, rfl, inside, comment, ?_⟩
    rintro rfl
    cases spelled with
    | plain ordinary => cases ordinary
    | @escaped d rest =>
      obtain ⟨next, -⟩ := Bool.or_eq_false_iff.mp (List.any_cons ▸ later)
      exact ⟨d, rest, rfl, (plain_of_unbroken next).1⟩

/-- A text of characters that make up names is nothing but itself. -/
theorem isPlain_of_isNameChar {c : Char} (named : isNameChar c = true) :
    Word.isPlain false c = true := by
  have other (d : Char) (wrong : isNameChar d = false) : c ≠ d := by
    rintro rfl
    rw [named] at wrong
    cases wrong
  simp only [Word.isPlain, Word.isSpecial, endsWord, Bool.false_or, List.contains_eq_mem,
    List.mem_cons, List.not_mem_nil, or_false, Bool.and_eq_true, Bool.not_eq_true',
    Bool.or_eq_false_iff, beq_eq_false_iff_ne, decide_eq_false_iff_not, not_or]
  and_intros <;> exact other _ (by decide)

theorem isName_iff {name : String} : Grammar.isName name = true ↔
    ∃ first others, name.toList = first :: others ∧ isNameStart first = true ∧
      others.all isNameChar = true := by
  rw [Grammar.isName]
  cases name.toList with
  | nil => simp
  | cons first others => simp

theorem isNameChar_of_isName {name : String} (form : Grammar.isName name = true) :
    ∀ c ∈ name.toList, isNameChar c = true := by
  obtain ⟨first, others, chars, start, named⟩ := isName_iff.mp form
  rw [chars]
  exact List.forall_mem_cons.mpr
    ⟨Expansion.isNameChar_of_isNameStart start, List.all_eq_true.mp named⟩

/-- The characters of a name are nothing but themselves. -/
theorem plain_of_isName {name : String} (form : Grammar.isName name = true) :
    ∀ c ∈ name.toList, Word.isPlain false c = true :=
  fun c member => isPlain_of_isNameChar (isNameChar_of_isName form c member)

theorem solid_of_isName {name : String} (form : Grammar.isName name = true) (more : List Char) :
    Solid (name.toList ++ more) := by
  obtain ⟨first, others, chars, start, -⟩ := isName_iff.mp form
  have plain := isPlain_of_isNameChar (Expansion.isNameChar_of_isNameStart start)
  refine ⟨first, others ++ more, by rw [chars]; rfl, ?_, ?_, ?_⟩
  · simp only [Word.isPlain, Bool.false_or, Bool.and_eq_true, Bool.not_eq_true',
      Bool.or_eq_false_iff] at plain
    exact plain.2.2
  · rintro rfl
    cases start
  · rintro rfl
    cases start

/-- The value of an assignment as it is written; nothing stands for an empty one. -/
def valueChars (value : List Char) : List Char :=
  if value.isEmpty then [] else Word.quoteChars value

/-- The value of an assignment once it is written and read again. -/
def spokenValue (value : List Char) : List Char :=
  if value.isEmpty then [] else Word.spoken (Word.breaks value) value

/-- An assignment as it is written is one word. -/
theorem names_assignment {name : String} {value : List Char} (form : Grammar.isName name = true)
    (spelled : value ≠ [] → Spelled held (Word.breaks value) value) :
    ∃ read, Names EndsWord (name.toList ++ '=' :: valueChars value) read ∧
      read.chars = name.toList ++ '=' :: spokenValue value ∧
      read.bodies = Word.groups value := by
  have plain : ∀ c ∈ name.toList ++ ['='], Word.isPlain false c = true :=
    List.forall_mem_append.mpr ⟨plain_of_isName form, List.forall_mem_singleton.mpr rfl⟩
  have behind : ∃ quoted, ∀ rest, EndsWord rest → ∀ position,
      Speaks (Word.groups value) (Lexer.word ⟨valueChars value ++ rest, position⟩) quoted
        (spokenValue value) rest := by
    by_cases empty : value = []
    · subst empty
      rw [Word.groups]
      exact ⟨false, fun rest ended position => .nil ended.1⟩
    · have some : ¬value.isEmpty = true := fun none => empty (List.isEmpty_iff.mp none)
      rw [valueChars, spokenValue, if_neg some, if_neg some]
      exact ⟨_, fun rest ended => word_quoteChars (spelled empty) ended.1 ended.2⟩
  obtain ⟨quoted, speaks⟩ := behind
  have whole (rest : List Char) (ended : EndsWord rest) (position : Position) :
      Speaks (Word.groups value)
        (Lexer.word ⟨(name.toList ++ '=' :: valueChars value) ++ rest, position⟩) quoted
        (name.toList ++ '=' :: spokenValue value) rest := by
    simpa using Speaks.run plain (speaks rest ended) position
  obtain ⟨read, names, chars, -, shown⟩ := exists_names ⟨rfl, by simp⟩ whole
  exact ⟨read, names, chars, shown⟩

/-- A text that can be a function's name as it is written: bare, and without a dollar sign at its
end, which the parenthesis there would go on. -/
structure Nameable (held : List Char → Prop) (text : List Char) : Prop where
  bare : Word.breaks text = false
  spelled : Spelled held false text
  closed : ∀ before, text ≠ before ++ ['$']

theorem Nameable.names (nameable : Nameable held text) :
    ∃ read, Names (fun rest => rest.head?.all endsWord = true) text read ∧ read.chars = text ∧
      read.quoted = false ∧ read.bodies = [] :=
  exists_names rfl fun _ ended =>
    word_bare nameable.spelled (Bool.or_eq_false_iff.mp nameable.bare).2 ended
      fun _ => nameable.closed

theorem Nameable.solid (nameable : Nameable held text) : Solid text := by
  have spelled := nameable.spelled
  rw [← nameable.bare] at spelled
  have solid := solid_quoteChars spelled
  rwa [Word.quoteChars_eq, nameable.bare, if_neg (by decide), Word.written_bare] at solid

end

end Lexer

end StepShell

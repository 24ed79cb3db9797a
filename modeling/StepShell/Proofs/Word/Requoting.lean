import StepShell.Proofs.Expansion.Reading
import StepShell.Proofs.Token.Spelling

/-! What quoting the text of a word keeps of it. The quoted text is one word for the lexer, with the
substitutions that the text shows, and it expands to what the text does, provided that each dollar
sign begins there what it begins in the text. Lexer and expansion each look for that in their own
way: expansion knows no parameter `$$` and takes the second dollar sign for another beginning. -/

namespace StepShell

namespace Expansion

open Lexer (isNameStart isNameChar)

theorem isSpecialParameter_of_isSingle {c : Char} (single : isSingle c = true) :
    Lexer.isSpecialParameter c = true := by
  simp only [isSingle, Lexer.isSpecialParameter] at single ⊢
  grind

/-- A dollar sign takes what a parenthesis opens. -/
theorem head_ne_paren_of_extent {rest : List Char} (nothing : extent rest = 0) :
    rest.head? ≠ some '(' := by
  intro opens
  obtain ⟨tail, rfl⟩ := List.head?_eq_some_iff.mp opens
  obtain ⟨taken, after, split, takes⟩ := Takes.group tail
  rw [split, takes.extent] at nothing
  exact takes.some (List.length_eq_zero_iff.mp nothing)

/-- A name takes nothing more where it ends. -/
theorem Takes.name {first : Char} {name after : List Char} (start : isNameStart first = true)
    (named : name.all isNameChar = true) (ends : after.head?.any isNameChar = false) :
    Takes (first :: name) after := by
  have takes := Takes.named after start named
  obtain ⟨taken, left⟩ := Text.takeWhile_of_head ends
  rwa [taken, left, List.append_nil] at takes

/-- A dollar sign takes a substitution as a whole. -/
theorem Takes.substitution {body : List Char} (after : List Char)
    (balanced : Word.Balanced body) : Takes ('(' :: (body ++ [')'])) after := by
  have size (more : List Char) : Word.groupLength ('(' :: (body ++ [')']) ++ more) =
      ('(' :: (body ++ [')'])).length := by
    have whole : '(' :: (body ++ [')']) ++ more = '(' :: (body ++ ')' :: more) := by simp
    rw [whole, Word.groupLength, Word.groupEnd?, (Word.balanced_iff more).mp balanced]
    simp
  have alone := size []
  rw [List.append_nil] at alone
  refine ⟨List.cons_ne_nil _ _, fun vars => ?_⟩
  rw [List.cons_append, dollar, dollar, ← List.cons_append, size, alone, List.take_left,
    List.take_length]

end Expansion

namespace Word

open Expansion (Takes extent isSingle isSpecialParameter_of_isSingle head_ne_paren_of_extent parts
  parts_plain parts_guarded parts_lone)

/-- Texts in which expansion finds the same once they are quoted and read again: a dollar sign takes
then what it takes now, a name does not go on, and what stands in braces is copied. -/
inductive Meant : List Char → Prop where
  | nil : Meant []
  | plain {c : Char} {rest : List Char} (ordinary : isSpecial c = false) (later : Meant rest) :
      Meant (c :: rest)
  | escaped {c : Char} {rest : List Char} (later : Meant rest) : Meant ('\\' :: c :: rest)
  | lone {rest : List Char} (nothing : extent rest = 0) (still : extent (spoken true rest) = 0)
      (later : Meant rest) : Meant ('$' :: rest)
  | braced {inside rest : List Char} (absent : '\x7d' ∉ inside)
      (copied : '\\' ∉ inside ∧ '"' ∉ inside ∧ '(' ∉ inside) (later : Meant rest) :
      Meant ('$' :: '\x7b' :: (inside ++ '\x7d' :: rest))
  | named {first : Char} {name rest : List Char} (start : Lexer.isNameStart first = true)
      (named : name.all Lexer.isNameChar = true)
      (ends : (written true rest).head?.any Lexer.isNameChar = false) (later : Meant rest) :
      Meant ('$' :: (first :: name ++ rest))
  | single {c : Char} {rest : List Char} (single : isSingle c = true) (later : Meant rest) :
      Meant ('$' :: c :: rest)
  | substitution {body rest : List Char} (balanced : Balanced body) (later : Meant rest) :
      Meant ('$' :: '(' :: (body ++ ')' :: rest))

section
variable {quoted : Bool} {text rest taken : List Char}

/-- A name that ends before the quoted text ends before the text and before what comes back. -/
theorem any_isNameChar_of_written (ends : (written quoted rest).head?.any Lexer.isNameChar = false) :
    rest.head?.any Lexer.isNameChar = false ∧
      (spoken quoted rest).head?.any Lexer.isNameChar = false := by
  constructor
  · unfold written at ends
    fun_cases recast (guardedForm quoted) (plainForm quoted) rest with
    | case1 | case2 | case3 => rfl
    | case4 c rest guards group =>
      by_cases quote : c = '"'
      · subst quote
        rfl
      · rw [recast, plainForm_self quoted c quote] at ends
        · exact ends
        · exact guards
        · exact group
  · rcases head_spoken quoted rest with same | quote
    · rwa [same]
    · rw [quote]
      rfl

/-- What belongs to a dollar sign before and after is one part of both texts. -/
theorem parts_spoken_taken (here : Takes taken rest) (there : Takes taken (spoken true rest))
    (copied : spoken true ('$' :: (taken ++ rest)) = '$' :: (taken ++ spoken true rest))
    (later : parts (spoken true rest) = parts rest) :
    parts (spoken true ('$' :: (taken ++ rest))) = parts ('$' :: (taken ++ rest)) := by
  rw [copied, there.parts, here.parts, later]

/-- Expansion finds in the text that comes back what it finds in the text. -/
theorem Meant.parts_spoken (meant : Meant text) : parts (spoken true text) = parts text := by
  have each (c : Char) (_ : c ≠ '"') : (fun c : Char => [c]) c = [c] := rfl
  induction meant with
  | nil => rw [spoken, recast_nil]
  | @plain c rest ordinary _ ih =>
    rw [spoken, recast_plain ordinary, ← spoken, List.singleton_append, parts_plain _ ordinary,
      parts_plain _ ordinary, ih]
  | @escaped c rest _ ih =>
    rw [spoken, recast_escaped, ← spoken, parts_guarded, ← ih, keptForm]
    split
    · rename_i needless
      exact parts_plain _ (by simpa using needless)
    · exact parts_guarded _ _
  | @lone rest nothing still _ ih =>
    have kept : spoken true ('$' :: rest) = '$' :: spoken true rest :=
      recast_lone each (head_ne_paren_of_extent nothing)
    rw [kept, parts_lone nothing, parts_lone still, ih]
  | @braced inside rest absent copied _ ih =>
    have kept : spoken true ('$' :: '\x7b' :: (inside ++ '\x7d' :: rest)) =
        '$' :: '\x7b' :: (inside ++ '\x7d' :: spoken true rest) := recast_braced each copied
    have taken := parts_spoken_taken (.braced rest absent) (.braced _ absent) (by simpa using kept)
      ih
    simpa using taken
  | @named first name rest start named ends _ ih =>
    obtain ⟨here, there⟩ := any_isNameChar_of_written ends
    exact parts_spoken_taken (.name start named here) (.name start named there)
      (recast_named each start named) ih
  | @single c rest single _ ih =>
    have parameter : Lexer.isSpecialParameter c = true := isSpecialParameter_of_isSingle single
    have other : c ≠ '$' := by
      rintro rfl
      cases single
    exact parts_spoken_taken (.single rest single) (.single _ single)
      (recast_special each parameter fun same => absurd same other) ih
  | @substitution body rest balanced _ ih =>
    have kept : spoken true ('$' :: '(' :: (body ++ ')' :: rest)) =
        '$' :: '(' :: (body ++ ')' :: spoken true rest) := recast_group balanced rest
    have taken := parts_spoken_taken (.substitution rest balanced) (.substitution _ balanced)
      (by simpa using kept) ih
    simpa using taken

/-- The quoted text is one word for the lexer, with the substitutions that the text shows, and it
expands to what the text does. -/
theorem lex_quoteChars (spelled : Spelled (fun _ => True) (breaks text) text)
    (meant : breaks text = true → Meant text) (offset : Nat) :
    ∃ again start stop, lex (quoteChars text) offset = .ok [⟨.word again, start, stop⟩] ∧
      again.bodies = groups text ∧
      ∀ vars : Variables, vars.expand again.text = .ofList (Expansion.expandChars vars text) := by
  obtain ⟨read, names, chars, -, shown⟩ := Lexer.names_quoteChars spelled
  obtain ⟨made, lexed, same⟩ :=
    (Lexer.Spells.alone (Lexer.solid_quoteChars spelled) names).lex offset
  obtain ⟨⟨token, start, stop⟩, rfl, own⟩ := List.map_eq_singleton_iff.mp same
  cases token with
  | word again =>
    obtain rfl : again.unplaced = read := Token.word.inj own
    rw [unplaced_bodies] at shown
    rw [unplaced_chars] at chars
    have found : parts again.chars = parts text := by
      rw [chars]
      cases broken : breaks text with
      | false => rw [spoken_bare]
      | true => exact (meant broken).parts_spoken
    refine ⟨again, start, stop, lexed, shown, fun vars => ?_⟩
    rw [Variables.expand, Word.text, String.toList_ofList, Expansion.expandChars_eq_parts, found,
      Expansion.expandChars_eq_parts]
  | _ => cases own

/-- A word keeps its meaning when it is quoted if each dollar sign begins in the quoted text what it
begins in the word's, for the lexer and for expansion: the quoted text is one word, which expands to
the same whatever the variables are, and its substitutions are the same exactly if the text of the
word shows them as they were recorded. -/
theorem quote_keeps_meaning {read : Word}
    (spelled : Spelled (fun _ => True) (breaks read.chars) read.chars)
    (meant : breaks read.chars = true → Meant read.chars) (offset : Nat) :
    ∃ again start stop, lex (quote read.text).toList offset = .ok [⟨.word again, start, stop⟩] ∧
      (again.bodies = read.bodies ↔ groups read.chars = read.bodies) ∧
      ∀ vars : Variables, vars.expand again.text = vars.expand read.text := by
  obtain ⟨again, start, stop, lexed, shown, expands⟩ := lex_quoteChars spelled meant offset
  refine ⟨again, start, stop, ?_, by rw [shown], fun vars => ?_⟩
  · rw [quote, Word.text, String.toList_ofList, String.toList_ofList]
    exact lexed
  · rw [expands, Variables.expand, Word.text, String.toList_ofList]

/-- A name, a guarded letter, the parameter `$$` and a substitution. -/
theorem quote_keeps_meaning_mixed :
    let read : Word := ⟨[.reference ['$', 'a'] ⟨1, 3⟩, .plain ' ', .guarded 'b',
      .reference ['$', '$'] ⟨7, 9⟩, .substitution ['c', ' ', 'd'] ⟨9, 15⟩ 11], true⟩
    lex "\"$a \"\\b$$$(c d)".toList 0 =
        .ok [⟨.word read, ⟨1, 1, 0⟩, ⟨1, 16, 15⟩⟩] ∧
      Spelled (fun _ => True) (breaks read.chars) read.chars ∧
      (breaks read.chars = true → Meant read.chars) ∧ groups read.chars = read.bodies ∧
      ∃ again start stop, lex (quote read.text).toList 0 = .ok [⟨.word again, start, stop⟩] ∧
        again.bodies = [['c', ' ', 'd']] ∧
        ∀ vars : Variables, vars.expand again.text = vars.expand read.text := by
  intro read
  have lexed : lex "\"$a \"\\b$$$(c d)".toList 0 =
      .ok [⟨.word read, ⟨1, 1, 0⟩, ⟨1, 16, 15⟩⟩] := by with_unfolding_all rfl
  have kept : keeps (fun _ => true) (breaks read.chars) read.chars = true := by decide +kernel
  have spelled : Spelled (fun _ => True) (breaks read.chars) read.chars :=
    spelled_of_keeps (fun _ _ => trivial) kept
  have meant : Meant read.chars := by
    refine @Meant.named 'a' [] _ rfl rfl (by decide +kernel) (.plain rfl (.escaped ?_))
    -- neither dollar sign of the parameter takes anything
    refine .lone rfl (by decide +kernel) (.lone rfl (by decide +kernel) ?_)
    exact @Meant.substitution ['c', ' ', 'd'] [] rfl .nil
  have shown : groups read.chars = read.bodies := by decide +kernel
  obtain ⟨again, start, stop, once, same, expanded⟩ := quote_keeps_meaning spelled (fun _ => meant) 0
  exact ⟨lexed, spelled, fun _ => meant, shown, again, start, stop, once, same.mpr shown, expanded⟩

/-- A quote between a dollar sign and a parenthesis is gone when the word is quoted: the two open a
substitution then, which nothing closes. -/
theorem quote_opens_substitution :
    let read : Word := ⟨[.plain '$', .plain '('], true⟩
    lex "$\"(\"".toList 0 = .ok [⟨.word read, ⟨1, 1, 0⟩, ⟨1, 5, 4⟩⟩] ∧
      quote read.text = "\"$(\"" ∧ ∀ made, lex (quote read.text).toList 0 ≠ .ok made := by
  intro read
  have quoted : quote read.text = "\"$(\"" := by decide +kernel
  refine ⟨by with_unfolding_all rfl, quoted, fun made lexed => ?_⟩
  have refused : (lex "\"$(\"".toList 0).isOk = false := by decide +kernel
  rw [← quoted, lexed] at refused
  cases refused

/-- A protected text is made of ordinary characters and of guarded ones. -/
theorem protect_induction {motive : List Char → Prop} (nil : motive [])
    (plain : ∀ c rest, isSpecial c = false → motive rest → motive (c :: rest))
    (escaped : ∀ c rest, motive rest → motive ('\\' :: c :: rest)) (text : List Char) :
    motive (Expansion.protectChars text) := by
  induction text with
  | nil => exact nil
  | cons c text ih =>
    rw [Expansion.protectChars, List.flatMap_cons]
    split
    · exact escaped c _ ih
    · rename_i ordinary
      exact plain c _ (eq_false_of_ne_true ordinary) ih

/-- What is protected from expansion is one word when it is quoted, without substitutions, and
expansion gives it back. -/
theorem quote_protect (text : String) (offset : Nat) : ∃ again start stop,
    lex (quote (protect text)).toList offset = .ok [⟨.word again, start, stop⟩] ∧
      again.bodies = [] ∧ ∀ vars : Variables, vars.expand again.text = text := by
  have spelled (quoted : Bool) :
      Spelled (fun _ => True) quoted (Expansion.protectChars text.toList) :=
    protect_induction .nil (fun _ _ => .plain) (fun _ _ => .escaped) _
  have meant : Meant (Expansion.protectChars text.toList) :=
    protect_induction .nil (fun _ _ => .plain) (fun _ _ => .escaped) _
  have shown : groups (Expansion.protectChars text.toList) = [] := by
    refine protect_induction (motive := fun text => groups text = []) ?_ ?_ ?_ _
    · rw [groups]
    · exact fun c rest ordinary none => (groups_plain ordinary).trans none
    · exact fun c rest none => (groups_escaped c rest).trans none
  obtain ⟨again, start, stop, lexed, none, expands⟩ :=
    lex_quoteChars (spelled _) (fun _ => meant) offset
  refine ⟨again, start, stop, ?_, none.trans shown, fun vars => ?_⟩
  · rw [quote, protect, String.toList_ofList, String.toList_ofList]
    exact lexed
  · have whole := vars.expand_protect text
    rw [Variables.expand, protect, String.toList_ofList] at whole
    rw [expands, whole]

end

end Word

end StepShell

import StepShell.Proofs.Script.Recognition
import StepShell.Proofs.Token.Spelling

/-! Commands that print a word, nested in substitutions: the whole argument of each is the output of
the next one. Their texts are read as trees that are nested in the same way, and each substitution
begins where the word that it makes up begins. -/

namespace StepShell

namespace Word

/-- Whether a character neither opens nor closes anything, nor guards what follows it. -/
def isLevel (c : Char) : Bool :=
  c != '\\' && c != '(' && c != ')' && c != '\'' && c != '"'

/-- Wherever the text stands, the parentheses in it only close each other. -/
def Level (text : List Char) : Prop :=
  ∀ depth rest, closingParen? depth .plain (text ++ rest) =
    (closingParen? depth .plain rest).map (· + text.length)

variable {first second text : List Char} {c : Char}

theorem Level.nil : Level [] := by
  intro depth rest
  rw [List.nil_append]
  cases closingParen? depth .plain rest <;> rfl

theorem Level.append (here : Level first) (later : Level second) : Level (first ++ second) := by
  intro depth rest
  rw [List.append_assoc, here, later, Option.map_map]
  refine Option.map_congr fun index _ => ?_
  rw [Function.comp_apply, List.length_append]
  omega

theorem Level.cons (ordinary : isLevel c = true) (later : Level text) : Level (c :: text) := by
  intro depth rest
  simp only [isLevel, Bool.and_eq_true, bne_iff_ne] at ordinary
  obtain ⟨⟨⟨⟨backslash, opening⟩, closing⟩, single⟩, double⟩ := ordinary
  rw [List.cons_append, closingParen?_plain backslash, if_neg closing, if_neg opening,
    if_neg single, if_neg double, later, Option.map_map]
  rfl

theorem Level.of_all (ordinary : text.all isLevel = true) : Level text := by
  induction text with
  | nil => exact .nil
  | cons c text ih =>
    obtain ⟨here, later⟩ := Bool.and_eq_true_iff.mp ordinary
    exact .cons here (ih later)

theorem Level.group (inside : Level text) : Level ('(' :: (text ++ [')'])) := by
  intro depth rest
  rw [List.cons_append, closingParen?_plain (by decide), if_neg (by decide), if_pos rfl,
    List.append_assoc, inside, List.singleton_append, closingParen?_plain (by decide), if_pos rfl,
    Option.map_map, Option.map_map]
  refine Option.map_congr fun index _ => ?_
  simp only [Function.comp_apply, List.length_cons, List.length_append, List.length_nil]
  omega

theorem Level.balanced (level : Level text) : Balanced text := by
  rw [Balanced, level, closingParen?_plain (by decide), if_pos rfl, Option.map_some, Nat.zero_add]

end Word

namespace Node

/-- A command that prints a word, or the output of such a command so many substitutions deep. -/
inductive Echoes (word : String) : Nat → Node → Prop where
  | word {name argument whole : Span} :
      Echoes word 0 (.command [.word "echo" [] false name, .word word [] false argument] whole)
  /-- The substitution is all of the word that it stands in. -/
  | substitution {depth : Nat} {inner : Node} {body : List Char}
      {place name argument whole : Span} (deeper : Echoes word depth inner)
      (balanced : Word.Balanced body) (starts : place.start = argument.start) :
      Echoes word (depth + 1) (.command [.word "echo" [] false name,
        .word (String.ofList ('$' :: '(' :: (body ++ [')']))) [.substitution inner place] false
          argument] whole)

end Node

namespace Lexer

open Word (Piece Balanced)

variable {own rest : List Char} {read : Word}

/-- Characters that stand for themselves are read one by one up to the end of the word. -/
theorem word_plain (plain : own.all (Word.isPlain false) = true)
    (ends : rest.head?.all endsWord = true) (position : Position) :
    word ⟨own ++ rest, position⟩ =
      .ok (⟨own.map .plain, false⟩, ⟨rest, position.after own⟩) := by
  induction own generalizing position with
  | nil => exact word_ended ends position
  | cons c own ih =>
    obtain ⟨here, later⟩ := Bool.and_eq_true_iff.mp plain
    simp only [Word.isPlain, Word.isSpecial, Bool.false_or, Bool.and_eq_true, Bool.not_eq_true',
      Bool.or_eq_false_iff, beq_eq_false_iff_ne] at here
    obtain ⟨⟨⟨⟨dollar, backquote⟩, backslash⟩, double⟩, single, inside⟩ := here
    have first : segment position c (own ++ rest) =
        .ok (⟨[.plain c], false⟩, ⟨own ++ rest, position.advance c⟩) := by
      simp only [segment, dollar, backquote, backslash, double, single, if_false]
    rw [List.cons_append, word_cons inside, first]
    dsimp only
    rw [ih later]
    rfl

/-- A substitution that is a whole word begins where the word does. -/
theorem word_substituted (balanced : Balanced own) (ends : rest.head?.all endsWord = true)
    (position : Position) : ∃ stop,
      word ⟨'$' :: '(' :: (own ++ ')' :: rest), position⟩ =
        .ok (⟨[.substitution own ⟨position.offset, stop.offset⟩ (position.offset + 2)], false⟩,
          ⟨rest, stop⟩) := by
  have ran := bodyIn_closed ((Word.balanced_iff rest).mp balanced)
    ((position.advance '$').advance '(')
  change Lexer.body _ _ _ = _ at ran
  have begun : ((position.advance '$').advance '(').offset = position.offset + 2 := by
    rw [Position.advance_offset, Position.advance_offset]
    rfl
  let stop := ((position.advance '$').advance '(').after (own ++ [')'])
  refine ⟨stop, ?_⟩
  have first : segment position '$' ('(' :: (own ++ ')' :: rest)) =
      .ok (⟨[.substitution own ⟨position.offset, stop.offset⟩ (position.offset + 2)], false⟩,
        ⟨rest, stop⟩) := by
    have unfolds : segment position '$' ('(' :: (own ++ ')' :: rest)) =
        mapAt (fun read _ => ⟨read, false⟩) (dollar position ('(' :: (own ++ ')' :: rest))) := rfl
    rw [unfolds, dollar_group, ran, begun]
    rfl
  rw [word_cons (by decide), first]
  dsimp only
  rw [word_ended ends]
  rfl

end Lexer

namespace Script

open Grammar (Reads)
open Lexer (Solid)

/-- A command that prints a word, wrapped so many times in a command that prints its output. -/
def wrapped (word : String) : Nat → String
  | 0 => "echo " ++ word
  | depth + 1 => "echo $(" ++ wrapped word depth ++ ")"

variable {word : String} {own : List Char} {read : Word}

theorem level_of_isName (form : Grammar.isName word = true) : Word.Level word.toList := by
  refine .of_all (List.all_eq_true.mpr fun c member => ?_)
  have named := Lexer.isNameChar_of_isName form c member
  simp only [Word.isLevel, Bool.and_eq_true, bne_iff_ne]
  and_intros <;> (rintro rfl; exact absurd named (by decide))

theorem level_wrapped (form : Grammar.isName word = true) (depth : Nat) :
    Word.Level (wrapped word depth).toList := by
  have echo : Word.Level "echo ".toList := .of_all rfl
  induction depth with
  | zero =>
    rw [wrapped, String.toList_append]
    exact echo.append (level_of_isName form)
  | succ depth ih =>
    have dollar : Word.Level ['$'] := .of_all rfl
    have whole : (wrapped word (depth + 1)).toList =
        "echo ".toList ++ (['$'] ++ ('(' :: ((wrapped word depth).toList ++ [')']))) := by
      rw [wrapped, String.toList_append, String.toList_append]
      rfl
    rw [whole]
    exact echo.append (dollar.append ih.group)

/-- The name of the command and one word behind it are two tokens. -/
theorem lex_echo {stop : Position} (solid : Solid own) (offset : Nat)
    (reads : Lexer.word ⟨own, (Position.starting offset).after "echo ".toList⟩ =
      .ok (read, ⟨[], stop⟩)) :
    lex ("echo ".toList ++ own) offset =
      .ok [⟨.word ⟨"echo".toList.map .plain, false⟩, .starting offset,
          (Position.starting offset).after "echo".toList⟩,
        ⟨.word read, (Position.starting offset).after "echo ".toList, stop⟩] := by
  have name : Lexer.word ⟨"echo".toList ++ ' ' :: own, .starting offset⟩ =
      .ok (⟨"echo".toList.map .plain, false⟩,
        ⟨' ' :: own, (Position.starting offset).after "echo".toList⟩) :=
    Lexer.word_plain rfl rfl _
  have second : Lexer.lexemes ⟨' ' :: own, (Position.starting offset).after "echo".toList⟩ =
      .ok [⟨.word read, (Position.starting offset).after "echo ".toList, stop⟩] := by
    have settled := solid.settled [] ((Position.starting offset).after "echo ".toList)
    obtain ⟨c, tail, rfl, inside, -, -⟩ := solid
    rw [List.append_nil] at settled
    have blank : Lexer.skipBlanks ((Position.starting offset).after "echo".toList)
        (' ' :: c :: tail) = ⟨c :: tail, (Position.starting offset).after "echo ".toList⟩ := by
      rw [Lexer.skipBlanks_cons fun _ wrong => by cases wrong]
      exact settled
    rw [Lexer.lexemes_cons blank, Lexer.token_word inside, reads]
    dsimp only [Lexer.mapAt, Except.map]
    rw [Lexer.lexemes_nil (by rw [Lexer.skipBlanks])]
  have first : Lexer.skipBlanks (.starting offset) ("echo ".toList ++ own) =
      ⟨'e' :: ("cho ".toList ++ own), .starting offset⟩ :=
    Lexer.skipBlanks_cons fun _ wrong => by cases wrong
  have token : Lexer.token (.starting offset) 'e' ("cho ".toList ++ own) =
      .ok (.word ⟨"echo".toList.map .plain, false⟩,
        ⟨' ' :: own, (Position.starting offset).after "echo".toList⟩) := by
    rw [Lexer.token_word (by decide)]
    change Lexer.mapAt _ (Lexer.word ⟨"echo".toList ++ ' ' :: own, _⟩) = _
    rw [name]
    rfl
  rw [lex, Lexer.lexemes_cons first, token]
  dsimp only
  rw [second]
  rfl

theorem reads_plain (text : List Char) :
    Reads (.pieces (text.map .plain) []) [] [] := by
  induction text with
  | nil => exact .noPieces
  | cons c text ih => exact .plain ih

/-- Two words, of which the first is no keyword, are a command. -/
theorem reads_echo (name argument : Lexeme) {parts : List Node}
    (token : name.token = .word ⟨"echo".toList.map .plain, false⟩)
    (follows : argument.token = .word read) (pieces : Reads (.pieces read.pieces parts) [] []) :
    ∃ whole, Reads (.script [.command [.word "echo" [] false name.span,
      .word read.text parts read.quoted argument.span] whole]) [name, argument] [] := by
  have bare : name.token.bare? = some "echo" := by
    rw [token]
    rfl
  have first : Reads (.word (.word "echo" [] false name.span)) [name, argument] [argument] :=
    .word token (reads_plain _)
  have arguments : Reads (.parts true [.word read.text parts read.quoted argument.span])
      [argument] [] :=
    .argument follows (fun wrong => by cases wrong) (.word follows pieces)
      (.noPart (by simp [Grammar.next]) (by simp [Grammar.next]))
  have simple : Grammar.beginsSimple [name, argument] = true := by
    rw [Grammar.beginsSimple, bare]
    dsimp only
    simp [Grammar.keywords]
  have command := Reads.simple simple (List.cons_ne_nil _ _)
    (.argument token (fun _ => by decide +kernel) first arguments)
  have chain := Reads.link (.single (.stage command (by simp [Grammar.next]))) rfl
  have list : Reads (.list true _) [name, argument] [] := .list (.entry rfl chain rfl) rfl
  have begins : Grammar.pastNewlines [name, argument] = [name, argument] := by
    rw [Grammar.pastNewlines, List.dropWhile_cons_of_neg (by simp [token])]
  exact ⟨_, .line (by rw [begins]; exact List.cons_ne_nil _ _) (by rw [begins]; exact list) rfl
    (.ended rfl)⟩

/-- A command with one word behind its name is parsed as such. -/
theorem parseAt_echo {stop : Position} {parts : List Node} (solid : Solid own) (offset : Nat)
    (reads : Lexer.word ⟨own, (Position.starting offset).after "echo ".toList⟩ =
      .ok (read, ⟨[], stop⟩)) (pieces : Reads (.pieces read.pieces parts) [] []) :
    ∃ name whole, parseAt ("echo ".toList ++ own) offset =
      .ok [.command [.word "echo" [] false name, .word read.text parts read.quoted
        ⟨((Position.starting offset).after "echo ".toList).offset, stop.offset⟩] whole] := by
  have tokens := lex_echo solid offset reads
  obtain ⟨whole, script⟩ := reads_echo
    ⟨.word ⟨"echo".toList.map .plain, false⟩, .starting offset,
      (Position.starting offset).after "echo".toList⟩
    ⟨.word read, (Position.starting offset).after "echo ".toList, stop⟩ rfl rfl pieces
  exact ⟨_, whole, parseAt_of_reads _ offset tokens script⟩

/-- Wherever the text stands, it is read as a command that is nested as deep. -/
theorem parseAt_wrapped (form : Grammar.isName word = true) (depth offset : Nat) :
    ∃ node, parseAt (wrapped word depth).toList offset = .ok [node] ∧ node.Echoes word depth := by
  have ended : ([] : List Char).head?.all Lexer.endsWord = true := rfl
  induction depth generalizing offset with
  | zero =>
    have solid := Lexer.solid_of_isName form []
    have reads := Lexer.word_plain (List.all_eq_true.mpr (Lexer.plain_of_isName form)) ended
      ((Position.starting offset).after "echo ".toList)
    have text : Word.text ⟨word.toList.map .plain, false⟩ = word := by
      have chars : Word.chars ⟨word.toList.map .plain, false⟩ = word.toList := by
        rw [Word.chars, List.flatMap_map]
        exact List.flatMap_singleton' _
      rw [Word.text, chars, String.ofList_toList]
    rw [List.append_nil] at solid reads
    obtain ⟨name, whole, parsed⟩ := parseAt_echo solid offset reads (reads_plain _)
    rw [text] at parsed
    exact ⟨_, by rw [wrapped, String.toList_append, parsed], .word⟩
  | succ depth ih =>
    have balanced := (level_wrapped form depth).balanced
    have solid : Solid ('$' :: '(' :: ((wrapped word depth).toList ++ [')'])) :=
      ⟨'$', _, rfl, rfl, by decide, fun wrong => by cases wrong⟩
    obtain ⟨stop, reads⟩ := Lexer.word_substituted balanced ended
      ((Position.starting offset).after "echo ".toList)
    obtain ⟨inner, inside, deeper⟩ :=
      ih (((Position.starting offset).after "echo ".toList).offset + 2)
    obtain ⟨lexemes, tokens, script⟩ := parseAt_eq_ok.mp inside
    obtain ⟨name, whole, parsed⟩ := parseAt_echo solid offset reads
      (.substitution tokens script rfl .noPieces)
    have text : (wrapped word (depth + 1)).toList =
        "echo ".toList ++ '$' :: '(' :: ((wrapped word depth).toList ++ [')']) := by
      rw [wrapped, String.toList_append, String.toList_append]
      rfl
    refine ⟨_, by rw [text, parsed], ?_⟩
    have chars (span : Span) (start : Nat) :
        Word.text ⟨[.substitution (wrapped word depth).toList span start], false⟩ =
          String.ofList ('$' :: '(' :: ((wrapped word depth).toList ++ [')'])) := by
      rw [Word.text, Word.chars, List.flatMap_singleton]
      rfl
    rw [chars]
    exact .substitution deeper balanced rfl

end Script

end StepShell

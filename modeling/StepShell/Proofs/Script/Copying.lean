import StepShell.Compilation
import StepShell.Proofs.Script.Alternation
import StepShell.Proofs.Script.Rewording
import StepShell.Proofs.Word.Requoting

/-! Scripts that copy a file with `cat`, and what they are parsed to. The paths may be written in
any way that makes one word of each which stands for the path. -/

namespace StepShell

/-- Wherever it stands, the source is one word without substitutions, and the word stands for the
text whatever the variables hold. -/
def Denotes (source text : String) : Prop :=
  ∃ read : Word, Lexer.Spells source.toList [.word read] ∧ read.bodies = [] ∧
    ∀ vars : Variables, vars.expand read.text = text

/-- Every text can be written so: as a protected text is quoted. -/
theorem denotes_quote (text : String) : Denotes (Word.quote (Word.protect text)) text := by
  have spelled (quoted : Bool) :
      Word.Spelled (fun _ => True) quoted (Expansion.protectChars text.toList) :=
    Word.protect_induction .nil (fun _ _ => .plain) (fun _ _ => .escaped) _
  obtain ⟨read, names, -⟩ := Lexer.names_quoteChars (spelled _)
  have spells : Lexer.Spells (Word.quote (Word.protect text)).toList [.word read] := by
    rw [Word.quote, Word.protect, String.toList_ofList, String.toList_ofList]
    exact .alone (Lexer.solid_quoteChars (spelled _)) names
  obtain ⟨again, start, stop, alone, none, expands⟩ := Word.quote_protect text 0
  obtain ⟨made, lexed, same⟩ := spells.lex 0
  cases alone.symm.trans lexed
  obtain rfl : again.unplaced = read := Token.word.inj (List.cons.inj same).1
  refine ⟨_, spells, again.unplaced_bodies.trans none, fun vars => ?_⟩
  rw [Word.text, Word.unplaced_chars]
  exact expands vars

/-- A node of a command that stands for a text. -/
def Node.Means (node : Node) (text : String) : Prop :=
  ∃ shown parts quoted span, node = .word shown parts quoted span ∧
    (∀ part ∈ parts, Compilation.isSubstitution part = false) ∧
    ∀ vars : Variables, vars.expand shown = text

/-- The ways to copy a file with `cat`. -/
inductive Copying where
  | argument
  | input
  | pipe
  deriving DecidableEq, Repr

namespace Copying

def script (source target : String) : Copying → String
  | argument => "cat " ++ source ++ " > " ++ target
  | input => "cat < " ++ source ++ " > " ++ target
  | pipe => "cat " ++ source ++ " | cat > " ++ target

/-- What the script is parsed to, for a source and a target that stand for these paths. -/
inductive Form (file copy : String) : Copying → Node → Prop where
  | argument {name source target : Node} {at_ span : Span} (named : name.Means "cat")
      (reads : source.Means file) (writes : target.Means copy) :
      Form file copy .argument (.command [name, source, .redirect .output target at_] span)
  | input {name source target : Node} {read at_ span : Span} (named : name.Means "cat")
      (reads : source.Means file) (writes : target.Means copy) :
      Form file copy .input (.command [name, .redirect .input source read,
        .redirect .output target at_] span)
  | pipe {name source again target : Node} {first sign at_ second span : Span}
      (named : name.Means "cat") (reads : source.Means file) (called : again.Means "cat")
      (writes : target.Means copy) :
      Form file copy .pipe (.pipeline [.command [name, source] first, .pipe "|" sign,
        .command [again, .redirect .output target at_] second] span)

end Copying

namespace Grammar

open Lexer (Spells)

/-- A name as it is written is one word, which is the name. -/
theorem exists_named {name : String} (form : isName name = true) :
    ∃ read : Word, Spells name.toList [.word read] ∧ read.bodies = [] ∧ read.text = name := by
  have solid := Lexer.solid_of_isName form []
  rw [List.append_nil] at solid
  have speaks (rest : List Char) (ended : Lexer.EndsWord rest) (position : Position) :
      Lexer.Speaks [] (Lexer.word ⟨name.toList ++ rest, position⟩) false name.toList rest := by
    simpa using Lexer.Speaks.run (Lexer.plain_of_isName form) (fun _ => .nil ended.1) position
  obtain ⟨read, names, chars, -, none⟩ := Lexer.exists_names ⟨rfl, by simp⟩ speaks
  exact ⟨read, .alone solid names, none, by rw [Word.text, chars, String.ofList_toList]⟩

/-- Without substitutions only parameters stand in a word. -/
theorem reads_plain_pieces {pieces : List Word.Piece}
    (none : ∀ piece ∈ pieces, piece.body? = none) : ∃ parts, Reads (.pieces pieces parts) [] [] ∧
      ∀ part ∈ parts, Compilation.isSubstitution part = false := by
  induction pieces with
  | nil => exact ⟨[], .noPieces, nofun⟩
  | cons piece rest ih =>
    obtain ⟨here, later⟩ := List.forall_mem_cons.mp none
    obtain ⟨parts, read, each⟩ := ih later
    cases piece with
    | plain => exact ⟨parts, .plain read, each⟩
    | guarded => exact ⟨parts, .guarded read, each⟩
    | reference => exact ⟨_, .reference read, List.forall_mem_cons.mpr ⟨rfl, each⟩⟩
    | substitution => cases here

theorem parts_ended : Reads (.parts true []) [] [] :=
  .noPart nofun nofun

section
variable {lexeme sign : Lexeme} {read : Word} {text : String} {kind : RedirectKind}
  {parts : List Node} {before after : List Lexeme} {node : Node}

theorem word_of_unplaced (token : lexeme.token.unplaced = .word read) :
    ∃ again : Word, lexeme.token = .word again ∧ again.unplaced = read := by
  cases here : lexeme.token with
  | word again => exact ⟨again, rfl, by simpa [here, Token.unplaced] using token⟩
  | _ => simp [here, Token.unplaced] at token

/-- A word that stands for a text is a node that means it. -/
theorem reads_meaning (token : lexeme.token.unplaced = .word read) (none : read.bodies = [])
    (expands : ∀ vars : Variables, vars.expand read.text = text) (rest : List Lexeme) :
    ∃ node, Reads (.word node) (lexeme :: rest) rest ∧ node.Means text := by
  obtain ⟨again, here, rfl⟩ := word_of_unplaced token
  rw [Word.unplaced_bodies, Word.bodies, List.filterMap_eq_nil_iff] at none
  rw [Word.text, Word.unplaced_chars] at expands
  obtain ⟨parts, pieces, each⟩ := reads_plain_pieces none
  exact ⟨_, .word here pieces, _, _, _, _, rfl, each, expands⟩

theorem sign_of_unplaced {value : Token} (other : ∀ read, value ≠ .word read)
    (token : lexeme.token.unplaced = value) : lexeme.token = value := by
  cases here : lexeme.token with
  | word again => exact absurd (by simpa [here, Token.unplaced] using token.symm) (other _)
  | _ => simpa [here, Token.unplaced] using token

/-- An argument that stands for a text, before the rest of the command. -/
theorem reads_argument {rest : List Lexeme} (token : lexeme.token.unplaced = .word read)
    (none : read.bodies = []) (expands : ∀ vars : Variables, vars.expand read.text = text)
    (later : Reads (.parts true parts) rest after) :
    ∃ node : Node, Reads (.parts true (node :: parts)) (lexeme :: rest) after ∧
      node.Means text := by
  obtain ⟨node, reads, means⟩ := reads_meaning token none expands rest
  obtain ⟨again, here, -⟩ := word_of_unplaced token
  exact ⟨node, .argument here nofun reads later, means⟩

theorem next_ne_of_unplaced {rest : List Lexeme} {value other : Token}
    (token : lexeme.token.unplaced = value) (differs : value ≠ other.unplaced) :
    next (lexeme :: rest) ≠ some other := by
  intro same
  rw [Option.some.inj same] at token
  exact differs token.symm

theorem paren_not_next {rest : List Lexeme} (token : lexeme.token.unplaced = .word read) :
    next (lexeme :: rest) ≠ some .leftParen :=
  next_ne_of_unplaced token nofun

theorem newline_not_next {rest : List Lexeme} (token : lexeme.token.unplaced = .word read) :
    next (lexeme :: rest) ≠ some .newline :=
  next_ne_of_unplaced token nofun

/-- A redirect to a path, before the rest of the command. -/
theorem reads_redirect {rest : List Lexeme} (signs : sign.token.unplaced = .redirect kind)
    (token : lexeme.token.unplaced = .word read) (none : read.bodies = [])
    (expands : ∀ vars : Variables, vars.expand read.text = text)
    (later : Reads (.parts true parts) rest after) :
    ∃ target span, Reads (.parts true (.redirect kind target span :: parts))
      (sign :: lexeme :: rest) after ∧ target.Means text := by
  obtain ⟨target, reads, means⟩ := reads_meaning token none expands rest
  exact ⟨target, _, .redirected (.redirect (sign_of_unplaced nofun signs) reads) later, means⟩

/-- A command that calls `cat`. -/
theorem reads_cat {lexemes : List Lexeme} (token : lexeme.token.unplaced = .word read)
    (none : read.bodies = []) (shown : read.text = "cat")
    (behind : next lexemes ≠ some .leftParen) (rest : Reads (.parts true parts) lexemes after) :
    ∃ called span, Reads (.command (.command (called :: parts) span)) (lexeme :: lexemes) after ∧
      called.Means "cat" := by
  have expands (vars : Variables) : vars.expand read.text = "cat" := by
    rw [shown]
    exact vars.expand_protect "cat"
  obtain ⟨called, reads, means⟩ := reads_meaning token none expands lexemes
  obtain ⟨again, here, rfl⟩ := word_of_unplaced token
  rw [Word.text, Word.unplaced_chars, ← Word.text] at shown
  have call : isAssignment again = false := by
    rw [isAssignment, shown]
    decide +kernel
  have simple : beginsSimple (lexeme :: lexemes) = true := by
    have ordinary : "cat" ∉ keywords := by decide
    have apart : ((lexemes.map Lexeme.token).take 2 == [.leftParen, .rightParen]) = false := by
      rw [beq_eq_false_iff_ne]
      intro opens
      cases lexemes with
      | nil => cases opens
      | cons second others => exact behind (congrArg some (List.cons.inj opens).1)
    rw [beginsSimple, here, Token.bare?, Word.bare?, shown]
    split
    · rfl
    · rename_i word same
      obtain ⟨_, rfl⟩ : (_ ∧ _) ∧ "cat" = word := by simpa using same
      simp [ordinary, apart]
  exact ⟨called, _, .simple simple (List.cons_ne_nil _ _)
    (.argument here (fun _ => call) reads rest), means⟩

theorem pastNewlines_of_next {lexemes : List Lexeme}
    (newline : next (lexeme :: lexemes) ≠ some .newline) :
    pastNewlines (lexeme :: lexemes) = lexeme :: lexemes :=
  List.dropWhile_cons_of_neg (by simpa [next] using newline)

/-- A script of one pipeline that is no list. -/
theorem reads_single {lexemes : List Lexeme}
    (newline : next (lexeme :: lexemes) ≠ some .newline)
    (ordinary : node.isOperator = false)
    (reads : Reads (.pipeline node) (lexeme :: lexemes) []) :
    Reads (.script [node]) (lexeme :: lexemes) [] := by
  have start := pastNewlines_of_next newline
  have made : listed? [node] = some node := by
    cases node with
    | operator => cases ordinary
    | _ => rfl
  have ended : Reads (.script []) [] [] := .ended rfl
  refine .line ?_ ?_ rfl ended
  · rw [start]
    exact List.cons_ne_nil _ _
  · rw [start]
    exact .list (.entry rfl (.link reads rfl) rfl) made

end

end Grammar

namespace Copying

open Grammar
open Lexer (Spells)

/-- The tokens of the script, for the words that its name and its paths are written as. -/
def tokens (name read write : Word) : Copying → List Token
  | argument => [.word name, .word read, .redirect .output, .word write]
  | input => [.word name, .redirect .input, .word read, .redirect .output, .word write]
  | pipe => [.word name, .word read, .pipe, .word name, .redirect .output, .word write]

section
variable {source target file copy : String} {name read write : Word} {lexemes : List Lexeme}

theorem spells_script (way : Copying) (cat : Spells "cat".toList [.word name])
    (spelled : Spells source.toList [.word read]) (sign : Spells target.toList [.word write]) :
    Spells (way.script source target).toList (way.tokens name read write) := by
  have out : Spells (' ' :: (RedirectKind.output.sign.toList ++ ' ' :: target.toList))
      [.redirect .output, .word write] := (spells_redirect sign).blank
  cases way with
  | argument =>
    have whole : (script source target .argument).toList = "cat".toList ++ ' ' ::
        (source.toList ++ ' ' :: (RedirectKind.output.sign.toList ++ ' ' :: target.toList)) := by
      simp [script, RedirectKind.sign]
    rw [whole]
    exact cat.append (spelled.append out rfl).blank rfl
  | input =>
    have whole : (script source target .input).toList = "cat".toList ++ ' ' ::
        ((RedirectKind.input.sign.toList ++ ' ' :: source.toList) ++
          ' ' :: (RedirectKind.output.sign.toList ++ ' ' :: target.toList)) := by
      simp [script, RedirectKind.sign]
    have origin : Spells (RedirectKind.input.sign.toList ++ ' ' :: source.toList)
        [.redirect .input, .word read] := spells_redirect spelled
    rw [whole]
    exact cat.append (origin.append out rfl).blank rfl
  | pipe =>
    have whole : (script source target .pipe).toList = "cat".toList ++ ' ' ::
        (source.toList ++ ' ' :: ('|' :: ' ' :: ("cat".toList ++
          ' ' :: (RedirectKind.output.sign.toList ++ ' ' :: target.toList)))) := by
      simp [script, RedirectKind.sign]
    have behind : Spells ('|' :: ' ' :: ("cat".toList ++
        ' ' :: (RedirectKind.output.sign.toList ++ ' ' :: target.toList)))
        [.pipe, .word name, .redirect .output, .word write] :=
      .once (by decide) rfl (cat.append out rfl).blank
    rw [whole]
    exact cat.append (spelled.append behind.blank rfl).blank rfl

section
variable (bare : name.bodies = []) (shown : name.text = "cat") (plain : read.bodies = [])
  (stands : ∀ vars : Variables, vars.expand read.text = file) (simple : write.bodies = [])
  (leads : ∀ vars : Variables, vars.expand write.text = copy)
include bare shown plain stands simple leads

theorem reads_tokens_argument
    (same : lexemes.map (·.token.unplaced) = tokens name read write .argument) :
    ∃ node, Reads (.script [node]) lexemes [] ∧ Form file copy .argument node := by
  obtain ⟨first, _, rfl, here, same⟩ := List.map_eq_cons_iff.mp same
  obtain ⟨second, _, rfl, argument, same⟩ := List.map_eq_cons_iff.mp same
  obtain ⟨third, _, rfl, redirect, same⟩ := List.map_eq_cons_iff.mp same
  obtain ⟨fourth, rfl, path⟩ := List.map_eq_singleton_iff.mp same
  obtain ⟨output, at_, rest, written⟩ := reads_redirect redirect path simple leads parts_ended
  obtain ⟨input, rest, taken⟩ := reads_argument argument plain stands rest
  obtain ⟨called, span, command, named⟩ := reads_cat here bare shown
    (paren_not_next argument) rest
  exact ⟨_, reads_single (newline_not_next here) rfl (.single (.stage command (by rintro ⟨⟩))),
    .argument named taken written⟩

theorem reads_tokens_input
    (same : lexemes.map (·.token.unplaced) = tokens name read write .input) :
    ∃ node, Reads (.script [node]) lexemes [] ∧ Form file copy .input node := by
  obtain ⟨first, _, rfl, here, same⟩ := List.map_eq_cons_iff.mp same
  obtain ⟨second, _, rfl, opens, same⟩ := List.map_eq_cons_iff.mp same
  obtain ⟨third, _, rfl, argument, same⟩ := List.map_eq_cons_iff.mp same
  obtain ⟨fourth, _, rfl, redirect, same⟩ := List.map_eq_cons_iff.mp same
  obtain ⟨fifth, rfl, path⟩ := List.map_eq_singleton_iff.mp same
  obtain ⟨output, at_, rest, written⟩ := reads_redirect redirect path simple leads parts_ended
  obtain ⟨input, span, rest, taken⟩ := reads_redirect opens argument plain stands rest
  obtain ⟨called, span, command, named⟩ := reads_cat here bare shown
    (next_ne_of_unplaced opens (by rintro ⟨⟩)) rest
  exact ⟨_, reads_single (newline_not_next here) rfl (.single (.stage command (by rintro ⟨⟩))),
    .input named taken written⟩

/-- The pipe ends the command in front of it, and the command behind it is a stage of its own. -/
theorem reads_tokens_pipe
    (same : lexemes.map (·.token.unplaced) = tokens name read write .pipe) :
    ∃ node, Reads (.script [node]) lexemes [] ∧ Form file copy .pipe node := by
  obtain ⟨first, _, rfl, here, same⟩ := List.map_eq_cons_iff.mp same
  obtain ⟨second, _, rfl, argument, same⟩ := List.map_eq_cons_iff.mp same
  obtain ⟨third, _, rfl, pipe, same⟩ := List.map_eq_cons_iff.mp same
  obtain ⟨fourth, _, rfl, again, same⟩ := List.map_eq_cons_iff.mp same
  obtain ⟨fifth, _, rfl, redirect, same⟩ := List.map_eq_cons_iff.mp same
  obtain ⟨sixth, rfl, path⟩ := List.map_eq_singleton_iff.mp same
  have piped : third.token = .pipe := sign_of_unplaced (by rintro _ ⟨⟩) pipe
  have stops : Reads (.parts true []) (third :: fourth :: fifth :: [sixth])
      (third :: fourth :: fifth :: [sixth]) :=
    .noPart (fun _ => by simp [next, piped]) (fun _ => by simp [next, piped])
  obtain ⟨input, rest, taken⟩ := reads_argument argument plain stands stops
  obtain ⟨called, span, command, named⟩ := reads_cat here bare shown
    (paren_not_next argument) rest
  obtain ⟨output, at_, rest, written⟩ := reads_redirect redirect path simple leads parts_ended
  obtain ⟨recalled, place, stage, renamed⟩ := reads_cat again bare shown
    (next_ne_of_unplaced redirect (by rintro ⟨⟩)) rest
  have onward := Reads.stage stage (by rintro ⟨⟩)
  rw [← pastNewlines_of_next (newline_not_next again)] at onward
  have stages := Reads.pipe command piped onward
  exact ⟨_, reads_single (newline_not_next here) rfl (.pipeline (by simp) stages),
    .pipe named taken renamed written⟩

end

/-- Every way to write a copy is parsed to one command of its form. -/
theorem parse_script (way : Copying) (reads : Denotes source file) (writes : Denotes target copy) :
    ∃ node, Script.parse (way.script source target) = .ok [node] ∧ Form file copy way node := by
  obtain ⟨read, spelled, plain, stands⟩ := reads
  obtain ⟨write, sign, simple, leads⟩ := writes
  obtain ⟨name, cat, bare, shown⟩ := exists_named (show isName "cat" = true by decide)
  obtain ⟨lexemes, lexed, same⟩ := (way.spells_script cat spelled sign).lex 0
  have formed : ∃ node, Reads (.script [node]) lexemes [] ∧ Form file copy way node := by
    cases way with
    | argument => exact reads_tokens_argument bare shown plain stands simple leads same
    | input => exact reads_tokens_input bare shown plain stands simple leads same
    | pipe => exact reads_tokens_pipe bare shown plain stands simple leads same
  obtain ⟨node, script, form⟩ := formed
  exact ⟨node, Script.parseAt_eq_ok.mpr ⟨_, lexed, script⟩, form⟩

end

end Copying

end StepShell

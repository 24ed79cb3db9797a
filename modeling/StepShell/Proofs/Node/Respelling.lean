import StepShell.Proofs.Node.Outline
import StepShell.Proofs.Script.Grammar
import StepShell.Proofs.Token.Spelling

/-! What becomes of a tree that is written as shell text and read again: its words lose the
backslashes that double quotes have no use for. What must not stand in a tree for this to be all is
said of each node apart from the others. -/

namespace StepShell

open Lexer (Nameable spokenValue)

/-- The text of a word once it is written and read again. -/
def Word.respell (text : String) : String :=
  .ofList (Word.spoken (Word.breaks text.toList) text.toList)

/-- The text of a word without its redundant backslashes. -/
def Word.essence (text : String) : String :=
  .ofList (Word.essential text.toList)

/-- The text of an assignment with another value. -/
def Word.reassign (change : List Char → List Char) (text : String) : String :=
  match Text.splitOnce '=' text with
  | some (name, value) => name ++ "=" ++ .ofList (change value.toList)
  | none => text

/-- A tree once it is written and read again. -/
def Node.respelled (node : Node) : Node :=
  node.outline Word.respell (Word.reassign spokenValue)

def Node.respelledAll (nodes : List Node) : List Node :=
  Node.outlineAll Word.respell (Word.reassign spokenValue) nodes

def Clause.respelledAll (clauses : List Clause) : List Clause :=
  Clause.outlineAll Word.respell (Word.reassign spokenValue) clauses

/-- What of a tree is more than its places, the flags of its quotes, the redundant backslashes in
its texts and the parts of its words. -/
def Node.essence (node : Node) : Node :=
  node.outline Word.essence (Word.reassign Word.essential)

/-- The text is a script with a command. -/
def Script.Holds (text : List Char) : Prop :=
  ∃ first rest, Script.parseAt text 0 = .ok (first :: rest)

/-- A text that keeps its parameters and substitutions when it is written, each substitution being
a script with a command. -/
def Word.Respells (text : String) : Prop :=
  Word.Spelled Script.Holds (Word.breaks text.toList) text.toList

namespace Grammar

/-- Words that are not the name of a command where one may stand. -/
def reserved : List String :=
  keywords ++ terminators

/-- Whether a text has the form of an assignment. -/
def assigns (text : String) : Bool :=
  match Text.splitOnce '=' text with
  | some (name, _) => isName name
  | none => false

theorem isAssignment_eq (read : Word) : isAssignment read = assigns read.text := rfl

end Grammar

namespace Node

/-- The word with which a simple command begins, if one does. -/
def opening? : List Node → Option String
  | .word text _ _ _ :: _ => some text
  | _ => none

/-- The first word of a simple command behind assignments and redirects. -/
def called? : List Node → Option String
  | [] => none
  | .word text _ _ _ :: _ => some text
  | _ :: rest => called? rest

def isBackground : Node → Bool
  | .operator op _ => op = "&"
  | _ => false

/-- Whether the last thing in a list is the operator `&`, behind which no semicolon may stand. -/
def endsOpen : Node → Bool
  | .list parts _ => parts.getLast?.any isBackground
  | _ => false

/-- Whether an `&` stands last between braces, which have a semicolon before the second. -/
def bracesOpen : List Node → Bool
  | .reserved opening _ :: body :: _ => opening == "\x7b" && body.endsOpen
  | _ => false

/-- What a node may be if it is to come back from its shell text: its own texts do, its first word
is no reserved word and the word that it calls does not turn into an assignment, and no semicolon
is written behind an `&`. -/
def Rewritable : Node → Prop
  | .word text _ _ _ => Word.Respells text
  | .assignment text _ _ =>
    ∀ name value, Text.splitOnce '=' text = some (name, value) → value ≠ "" → Word.Respells value
  | .command parts _ => (∀ text ∈ opening? parts, text ∉ Grammar.reserved) ∧
    ∀ text ∈ called? parts, Grammar.assigns (Word.respell text) = false
  | .compound parts _ _ => bracesOpen parts = false
  | .forLoop _ _ body _ => body.endsOpen = false
  | .conditional clauses _ => ∀ clause ∈ clauses,
    (∀ condition ∈ clause.condition, condition.endsOpen = false) ∧ clause.body.endsOpen = false
  | .function name _ _ => Nameable Script.Holds name.toList ∧ name ∉ Grammar.reserved
  | _ => True

/-- Every node of the tree is such, but for what stands in words, which is written as it is. -/
def Renderable (node : Node) : Prop :=
  node.Throughout Rewritable

end Node

theorem Node.Throughout.mono {holds others : Node → Prop} {node : Node}
    (throughout : node.Throughout holds) (weaker : ∀ node, holds node → others node) :
    node.Throughout others := by
  induction throughout with
  | intro own _ ih => exact .intro (weaker _ own) ih

section
variable {text name value : String}

theorem Word.Respells.quote_respell (respells : Word.Respells text) :
    Word.quote (Word.respell text) = Word.quote text := by
  rw [Word.quote, Word.respell, String.toList_ofList, respells.quoteChars_spoken, Word.quote]

theorem Word.Respells.essence_respell (respells : Word.Respells text) :
    Word.essence (Word.respell text) = Word.essence text := by
  rw [Word.essence, Word.respell, String.toList_ofList, respells.essential_spoken, Word.essence]

theorem Word.reassign_of_some {change : List Char → List Char}
    (cut : Text.splitOnce '=' text = some (name, value)) :
    Word.reassign change text = name ++ "=" ++ .ofList (change value.toList) := by
  rw [Word.reassign, cut]

theorem Word.reassign_of_none {change : List Char → List Char}
    (uncut : Text.splitOnce '=' text = none) : Word.reassign change text = text := by
  rw [Word.reassign, uncut]

/-- Where an assignment is cut, its changed text is cut too. -/
theorem Word.splitOnce_reassign {change : List Char → List Char}
    (cut : Text.splitOnce '=' text = some (name, value)) :
    Text.splitOnce '=' (Word.reassign change text) =
      some (name, .ofList (change value.toList)) := by
  obtain ⟨⟨first, second⟩, found, halves⟩ := Option.map_eq_some_iff.mp cut
  cases halves
  rw [Word.reassign_of_some cut]
  refine Text.splitOnce_eq ?_ ?_
  · simp
  · rw [String.toList_ofList]
    exact (Text.eq_append_of_cutOnce found).2

theorem Word.reassign_reassign (first second : List Char → List Char)
    (same : ∀ name value, Text.splitOnce '=' text = some (name, value) →
      second (first value.toList) = second value.toList) :
    Word.reassign second (Word.reassign first text) = Word.reassign second text := by
  cases cut : Text.splitOnce '=' text with
  | none => rw [Word.reassign_of_none cut]
  | some halves =>
    obtain ⟨name, value⟩ := halves
    rw [Word.reassign_of_some (Word.splitOnce_reassign cut), Word.reassign_of_some cut,
      String.toList_ofList, same name value cut]

theorem Word.keptForm_ne_nil (quoted : Bool) (c : Char) : Word.keptForm quoted c ≠ [] := by
  rw [Word.keptForm]
  split <;> exact List.cons_ne_nil _ _

theorem Word.spoken_eq_nil {quoted : Bool} {text : List Char}
    (none : Word.spoken quoted text = []) : text = [] := by
  unfold Word.spoken at none
  fun_induction Word.recast (Word.keptForm quoted) (fun c => [c]) text with
  | case1 => rfl
  | case2 c rest => exact absurd (List.append_eq_nil_iff.mp none).1 (Word.keptForm_ne_nil quoted c)
  | case3 => cases none
  | case4 => cases none

/-- An assignment shows its value as the word that this is. -/
theorem assignmentText_reassign (respells : ∀ name value,
      Text.splitOnce '=' text = some (name, value) → value ≠ "" → Word.Respells value) :
    assignmentText (Word.reassign spokenValue text) = assignmentText text := by
  cases cut : Text.splitOnce '=' text with
  | none => rw [Word.reassign_of_none cut]
  | some halves =>
    obtain ⟨name, value⟩ := halves
    rw [assignmentText, Word.splitOnce_reassign cut, assignmentText, cut]
    by_cases empty : value = ""
    · subst empty
      rfl
    · have spelled := respells name value cut empty
      have some : ¬value.toList.isEmpty = true := by simpa using empty
      have spoken : Lexer.spokenValue value.toList =
          Word.spoken (Word.breaks value.toList) value.toList := by
        rw [Lexer.spokenValue, if_neg some]
      have again := spelled.quote_respell
      have kept : ¬(Word.respell value).isEmpty = true := by
        rw [Word.respell, String.isEmpty_iff, String.ofList_eq_empty_iff]
        exact fun none => some (List.isEmpty_iff.mpr (Word.spoken_eq_nil none))
      have whole : ¬value.isEmpty = true := by simpa using empty
      simp only [spoken]
      rw [← Word.respell, if_neg kept, if_neg whole, again]

theorem Word.essential_spokenValue (respells : value ≠ "" → Word.Respells value) :
    Word.essential (spokenValue value.toList) = Word.essential value.toList := by
  rw [Lexer.spokenValue]
  split
  · rename_i none
    rw [List.isEmpty_iff.mp none]
  · rename_i some
    exact (respells fun none => some (by simp [none])).essential_spoken

end

/-- Whether a text is a script with a command. -/
def Script.holds (text : List Char) : Bool :=
  match Script.parseAt text 0 with
  | .ok (_ :: _) => true
  | _ => false

theorem Script.holds_sound (text : List Char) (holds : Script.holds text = true) :
    Script.Holds text := by
  rw [Script.holds] at holds
  split at holds
  · rename_i first rest parsed
    exact ⟨first, rest, parsed⟩
  · cases holds

/-- Finds by one walk whether a text respells. -/
def Word.respells (text : String) : Bool :=
  Word.keeps Script.holds (Word.breaks text.toList) text.toList

theorem Word.respells_sound {text : String} (respells : Word.respells text = true) :
    Word.Respells text :=
  Word.spelled_of_keeps Script.holds_sound respells

namespace Node
variable {node : Node}

theorem Rewritable.retold (rewritable : node.Rewritable) :
    node.Retold Word.respell (Word.reassign spokenValue) Word.essence
      (Word.reassign Word.essential) := by
  cases node with
  | word => exact ⟨rewritable.essence_respell, rewritable.quote_respell⟩
  | assignment => exact ⟨Word.reassign_reassign _ _ fun name value cut =>
      Word.essential_spokenValue (rewritable name value cut), assignmentText_reassign rewritable⟩
  | _ => trivial

/-- Neither the shell text nor the essence of a tree shows that it was written and read again. -/
theorem Renderable.respelled (renderable : node.Renderable) {again : Node}
    (same : again.shape = node.respelled) :
    again.shell = node.shell ∧ again.essence = node.essence := by
  obtain ⟨kept, shown⟩ := Throughout.retold (renderable.mono fun _ => Rewritable.retold)
  obtain ⟨moved, still⟩ : again.shape.essence = again.essence ∧ again.shape.shell = again.shell :=
    shape_retold again
  rw [← moved, ← still, same]
  exact ⟨shown, kept⟩

/-- Finds whether a node is rewritable. -/
def rewrites : Node → Bool
  | .word text _ _ _ => Word.respells text
  | .assignment text _ _ =>
    (Text.splitOnce '=' text).all fun halves => halves.2 == "" || Word.respells halves.2
  | .command parts _ => ((opening? parts).all fun text => !Grammar.reserved.contains text) &&
    (called? parts).all fun text => !Grammar.assigns (Word.respell text)
  | .compound parts _ _ => !bracesOpen parts
  | .forLoop _ _ body _ => !body.endsOpen
  | .conditional clauses _ => clauses.all fun clause =>
    (clause.condition.all fun condition => !condition.endsOpen) && !clause.body.endsOpen
  | .function name _ _ => !Word.breaks name.toList && Word.keeps Script.holds false name.toList &&
    name.toList.getLast? != some '$' && !Grammar.reserved.contains name
  | _ => true

theorem rewritable_of_rewrites (node : Node) (rewrites : node.rewrites = true) :
    node.Rewritable := by
  cases node with
  | word text => exact Word.respells_sound rewrites
  | assignment text =>
    intro name value cut some
    rw [Node.rewrites, cut, Option.all_some, Bool.or_eq_true, beq_iff_eq] at rewrites
    exact Word.respells_sound (rewrites.resolve_left some)
  | command parts =>
    simpa [Node.rewrites, Rewritable, Option.all_eq_true, Option.mem_def] using rewrites
  | compound | forLoop => simpa [Node.rewrites, Rewritable] using rewrites
  | conditional clauses =>
    simpa [Node.rewrites, Rewritable, Option.all_eq_true, Option.mem_def] using rewrites
  | function name =>
    simp only [Node.rewrites, Bool.and_eq_true, Bool.not_eq_true', bne_iff_ne] at rewrites
    obtain ⟨⟨⟨bare, kept⟩, closed⟩, free⟩ := rewrites
    refine ⟨⟨bare, Word.spelled_of_keeps Script.holds_sound kept, fun before same => closed ?_⟩,
      by simpa using free⟩
    rw [same, List.getLast?_concat]
  | _ => trivial

/-- Finds whether a tree is renderable. -/
theorem renderable_of_everywhere {node : Node} (all : node.everywhere rewrites = true) :
    node.Renderable :=
  (throughout_of_everywhere node all).mono rewritable_of_rewrites

end Node

end StepShell

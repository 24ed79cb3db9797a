import StepShell.Compilation
import StepShell.Proofs.Effect
import StepShell.Proofs.Script.Formed
import StepShell.Word.Splice

/-! Compiled actions are balanced: each scope that they lower is raised and each capture that they
begin is ended, one inside the other. Whatever is compiled while they run is balanced again. -/

namespace StepShell

/-- What is put aside until it is brought back. -/
inductive Bracket where
  | scope
  | capture

/-- What an operation does to what is put aside. -/
inductive Move where
  | stay
  | opens (bracket : Bracket)
  | closes (bracket : Bracket)

namespace Operation

def move : Operation → Move
  | .lower | .enterFunction .. | .enterSubshell | .enterSubstitution .. => .opens .scope
  | .raise | .leaveFunction | .leaveSubstitution .. => .closes .scope
  | .beginCapture => .opens .capture
  | .endCapture => .closes .capture
  | _ => .stay

/-- Commands that an operation will compile are those of parsed scripts. -/
def Sound : Operation → Prop
  | .decide _ node | .choose _ _ node => Formed .command node
  | _ => True

end Operation

/-- Besides what they open themselves, the actions close just these brackets, the first one
first. -/
inductive Closes : List Bracket → List Action → Prop where
  | done : Closes [] []
  | stay {opened : List Bracket} {action : Action} {rest : List Action}
      (move : action.operation.move = .stay) (sound : action.operation.Sound)
      (later : Closes opened rest) : Closes opened (action :: rest)
  | opens {bracket : Bracket} {opened : List Bracket} {action : Action} {rest : List Action}
      (move : action.operation.move = .opens bracket) (later : Closes (bracket :: opened) rest) :
      Closes opened (action :: rest)
  | closes {bracket : Bracket} {opened : List Bracket} {action : Action} {rest : List Action}
      (move : action.operation.move = .closes bracket) (later : Closes opened rest) :
      Closes (bracket :: opened) (action :: rest)

/-- An operation that puts something aside or brings it back compiles no command it holds. -/
theorem Operation.sound_of_move {operation : Operation} (moves : operation.move ≠ .stay) :
    operation.Sound := by
  cases operation <;> trivial

theorem Closes.sound {opened : List Bracket} {action : Action} {rest : List Action}
    (closes : Closes opened (action :: rest)) : action.operation.Sound := by
  cases closes with
  | stay _ sound _ => exact sound
  | opens move _ => exact Operation.sound_of_move (by rw [move]; nofun)
  | closes move _ => exact Operation.sound_of_move (by rw [move]; nofun)

/-- Actions that close what they open and nothing else. -/
def Block (actions : List Action) : Prop :=
  ∀ opened rest, Closes opened rest → Closes opened (actions ++ rest)

namespace Block

theorem nil : Block [] := fun _ _ later => later

theorem append {first second : List Action} (before : Block first) (after : Block second) :
    Block (first ++ second) := by
  intro opened rest later
  rw [List.append_assoc]
  exact before _ _ (after _ _ later)

theorem cons {action : Action} {actions : List Action} (move : action.operation.move = .stay)
    (sound : action.operation.Sound) (later : Block actions) : Block (action :: actions) :=
  fun _ _ rest => .stay move sound (later _ _ rest)

theorem single {action : Action} (move : action.operation.move = .stay)
    (sound : action.operation.Sound) : Block [action] :=
  nil.cons move sound

/-- A block between an opening and its closing. -/
theorem wrap {bracket : Bracket} {opening closing : Action} {actions : List Action}
    (opens : opening.operation.move = .opens bracket)
    (closes : closing.operation.move = .closes bracket) (inside : Block actions) :
    Block (opening :: actions ++ [closing]) := by
  intro opened rest later
  rw [List.append_assoc, List.cons_append]
  exact .opens opens (inside _ _ (.closes closes later))

theorem flatten {blocks : List (List Action)} (each : ∀ block ∈ blocks, Block block) :
    Block blocks.flatten := by
  induction blocks with
  | nil => exact nil
  | cons first rest ih =>
    obtain ⟨block, later⟩ := List.forall_mem_cons.mp each
    rw [List.flatten_cons]
    exact block.append (ih later)

theorem flatMap {α : Type} {items : List α} {actions : α → List Action}
    (each : ∀ item ∈ items, Block (actions item)) : Block (items.flatMap actions) := by
  rw [List.flatMap_def]
  exact flatten (List.forall_mem_map.mpr each)

theorem closes {actions : List Action} (block : Block actions) : Closes [] actions := by
  have whole := block [] [] .done
  rwa [List.append_nil] at whole

end Block

/-- Every function has a body that a parsed script could give it. -/
def Functions.Sound (functions : Functions) : Prop :=
  ∀ name body, functions.get? name = some body → Formed .command body

/-- The substitutions that a word still has are those of parsed scripts. -/
def Node.SoundParts (node : Node) : Prop :=
  ∀ parts, node.ownParts? = some parts →
    ∀ inner span, .substitution inner span ∈ parts → Formed .command inner

/-- The same of the word that a part of a command is or leads to. -/
def Node.Resolvable (node : Node) : Prop :=
  node.owner.SoundParts

def SoundSlots (slots : Array (List Node)) : Prop :=
  ∀ (index : Nat) parts, slots[index]? = some parts → ∀ node ∈ parts, node.Resolvable

theorem Functions.Sound.insert {functions : Functions} {name : String} {body : Node}
    (sound : functions.Sound) (formed : Formed .command body) :
    Functions.Sound (functions.insert name body) := by
  intro other found look
  rw [Table.get?_insert] at look
  split at look
  · cases look
    exact formed
  · exact sound other found look

theorem SoundSlots.empty : SoundSlots #[] := by
  intro index parts look
  simp at look

theorem SoundSlots.push {slots : Array (List Node)} {parts : List Node} (sound : SoundSlots slots)
    (each : ∀ node ∈ parts, node.Resolvable) : SoundSlots (slots.push parts) := by
  intro index found look
  rw [Array.getElem?_push] at look
  split at look
  · cases look
    exact each
  · exact sound index found look

theorem Formed.substituted {inner : Node} {span : Span}
    (formed : Formed .piece (.substitution inner span)) : Formed .command inner := by
  cases formed
  assumption

theorem Formed.soundParts {node : Node} (formed : Formed .word node) : node.SoundParts := by
  intro parts own inner span member
  cases formed with
  | word lexed made pieces =>
    cases own
    exact (pieces _ member).substituted
  | positionals =>
    cases own
    simp at member

theorem Formed.resolvable_redirect {node : Node} (formed : Formed .redirect node) :
    node.Resolvable := by
  cases formed with
  | redirect leads => exact leads.soundParts

theorem Formed.resolvable {node : Node} (formed : Formed .part node) : node.Resolvable := by
  cases formed with
  | argument word =>
    have sound := word.soundParts
    cases word <;> exact sound
  | redirection redirect => exact redirect.resolvable_redirect
  | assignment lexed made pieces form =>
    intro parts own inner span member
    cases own
    exact (pieces _ member).substituted

namespace Compilation

structure Sound {ω : Type} (compilation : Compilation ω) : Prop where
  functions : compilation.functions.Sound
  slots : SoundSlots compilation.slots

/-- Whatever is compiled is good, and functions and slots stay sound meanwhile. -/
def Makes {ω α : Type} (compile : Compile ω α) (good : α → Prop) : Prop :=
  ∀ before value after, before.Sound → compile.run before = (.ok value, after) →
    good value ∧ after.Sound

section
variable {ω α β : Type} {good : α → Prop} {better : β → Prop}

theorem Makes.bind {first : Compile ω α} {next : α → Compile ω β} (start : Makes first good)
    (rest : ∀ value, good value → Makes (next value) better) : Makes (first >>= next) better := by
  intro before result after sound done
  obtain ⟨value, middle, made, done⟩ := run_bind_eq_ok.mp done
  obtain ⟨holds, sound⟩ := start before value middle sound made
  exact rest value holds middle result after sound done

theorem Makes.pure {value : α} (holds : good value) : Makes (pure value : Compile ω α) good := by
  intro before result after sound done
  obtain ⟨rfl, rfl⟩ := run_pure_eq_ok.mp done
  exact ⟨holds, sound⟩

theorem Makes.lift {result : Except Failure α} (holds : ∀ value, result = .ok value → good value) :
    Makes (liftM result : Compile ω α) good := by
  intro before value after sound done
  obtain ⟨made, rfl⟩ := run_lift_eq_ok.mp done
  exact ⟨holds value made, sound⟩

theorem Makes.lifted {result : Except Failure α} :
    Makes (liftM result : Compile ω α) fun _ => True :=
  Makes.lift fun _ _ => trivial

theorem Makes.mapM {items : List β} {compile : β → Compile ω α}
    (each : ∀ item ∈ items, Makes (compile item) good) :
    Makes (items.mapM compile) fun values => ∀ value ∈ values, good value := by
  induction items with
  | nil =>
    rw [List.mapM_nil]
    exact Makes.pure (by simp)
  | cons first rest ih =>
    obtain ⟨start, later⟩ := List.forall_mem_cons.mp each
    rw [List.mapM_cons]
    refine start.bind fun value holds => (ih later).bind fun values all => ?_
    exact Makes.pure (List.forall_mem_cons.mpr ⟨holds, all⟩)

theorem newSlot_makes {parts : List Node} (each : ∀ node ∈ parts, node.Resolvable) :
    Makes (newSlot parts : Compile ω Nat) fun _ => True := by
  intro before value after sound done
  cases done
  exact ⟨trivial, sound.functions, sound.slots.push each⟩

theorem define_makes {name : String} {body : Node} (formed : Formed .command body) :
    Makes (define name body : Compile ω Unit) fun _ => True := by
  intro before value after sound done
  cases done
  exact ⟨trivial, sound.functions.insert formed, sound.slots⟩

end

section
variable {ω : Type} [Operator ω] {setting : Setting}

theorem itemValues_makes {item : Node} :
    Makes (itemValues setting item : Compile ω (List String)) fun _ => True := by
  intro before values after sound done
  unfold itemValues at done
  split at done
  · split at done
    · obtain ⟨compilation, middle, got, asked⟩ := run_bind_eq_ok.mp done
      obtain ⟨rfl, rfl⟩ := run_get_eq_ok.mp got
      obtain ⟨_, last, noted, answered⟩ := run_bind_eq_ok.mp asked
      have same : after = last := by
        split at answered <;> exact (run_pure_eq_ok.mp answered).2
      rw [same, run_set_eq_ok.mp noted]
      exact ⟨trivial, sound.functions, sound.slots⟩
    · split at done <;> exact ⟨trivial, (run_pure_eq_ok.mp done).2 ▸ sound⟩
  · exact ⟨trivial, (run_pure_eq_ok.mp done).2 ▸ sound⟩

theorem valuesOfItems_makes {items : List Node} :
    Makes (valuesOfItems setting items : Compile ω (List String)) fun _ => True := by
  induction items with
  | nil => exact Makes.pure trivial
  | cons first rest ih =>
    exact itemValues_makes.bind fun _ _ => ih.bind fun _ _ => Makes.pure trivial

end

theorem substitutions_block (slot : Nat) (parts : List Node) (pass : Pass) :
    Block (substitutions slot parts pass) := by
  refine Block.flatMap fun part _ => Block.flatMap fun node _ => ?_
  unfold substitutionPair
  split
  · exact Block.nil.wrap rfl rfl
  · exact Block.nil

/-- What a redirect does after a block undoes what it did before. -/
theorem redirected_block (redirects : Redirects) (slot : Nat) (kind : String)
    {actions : List Action} (inside : Block actions) :
    Block (redirects.opening slot kind ++ actions ++ redirects.closing slot kind) := by
  obtain ⟨input, output⟩ := redirects
  have read : Block (Redirects.opening ⟨input, none⟩ slot kind) := by
    cases input with
    | none => exact Block.nil
    | some index => exact Block.single rfl (by trivial)
  cases output with
  | none => simpa [Redirects.closing] using read.append inside
  | some place =>
    have written : Block [.plain .flush s!"Flush {kind} output",
        .plain (.writeRedirect slot place.1 place.2) "Move information out to redirects"] :=
      Block.cons rfl (by trivial) (Block.single rfl (by trivial))
    have whole : Block (.plain .beginCapture s!"Prepare {kind} node for redirects" ::
        (Redirects.opening ⟨input, none⟩ slot kind ++ actions ++ _) ++
        [.plain .endCapture s!"Exit {kind} node redirects"]) :=
      ((read.append inside).append written).wrap rfl rfl
    simpa [Redirects.opening, Redirects.closing] using whole

theorem commandActions_block (slot : Nat) (redirects : Redirects) (source : String)
    (parts : List Node) : Block (commandActions slot redirects source parts) := by
  have announced : Block (if parts.any isAssignment
      then [.plain .flush ("Entering Assignment Node: " ++ source)] else []) := by
    split
    · exact Block.single rfl (by trivial)
    · exact Block.nil
  have assigned : Block (if parts.any isAssignment
      then [⟨.assign slot, "Variable Assignment", some source⟩] else []) := by
    split
    · exact Block.single rfl (by trivial)
    · exact Block.nil
  have ran : Block (if parts.any isWord || !parts.any isAssignment then
      [⟨.run slot, "Command node: " ++ commandName parts, some source⟩] else []) := by
    split
    · exact Block.single rfl (by trivial)
    · exact Block.nil
  have inside :=
    ((announced.append (substitutions_block slot parts .words)).append assigned).append ran
  simpa [commandActions] using
    (substitutions_block slot parts .targets).append
      (redirected_block redirects slot "command" inside)

theorem clauseActions_block {clauses : List Clause} (earlier : List String)
    (conditions : ∀ keyword condition body,
      Clause.mk keyword (some condition) body ∈ clauses → Formed .command condition)
    (bodies : ∀ clause ∈ clauses, Formed .command clause.body) :
    Block (clauseActions earlier clauses) := by
  induction clauses generalizing earlier with
  | nil => exact Block.nil
  | cons clause rest ih =>
    obtain ⟨body, later⟩ := List.forall_mem_cons.mp bodies
    have after := fun earlier => ih earlier
      (fun keyword condition body member => conditions _ _ _ (List.mem_cons_of_mem _ member)) later
    rcases clause with ⟨keyword, _ | condition, inside⟩
    · exact ((after _).cons rfl (by exact body)).cons rfl (by trivial)
    · exact ((after _).cons rfl (by exact body)).cons rfl
        (by exact conditions _ _ _ List.mem_cons_self)

section
variable {ω : Type} [Operator ω]

theorem compileSequence_makes {setting : Setting} {parts : List Node}
    (each : ∀ part ∈ parts, (∃ op span, part = .operator op span) ∨
      Makes (part.compile setting : Compile ω (List Action)) Block) :
    Makes (Node.compileSequence setting parts : Compile ω (List Action)) Block := by
  induction parts with
  | nil =>
    rw [Node.compileSequence]
    exact Makes.pure Block.nil
  | cons part rest ih =>
    obtain ⟨first, later⟩ := List.forall_mem_cons.mp each
    rcases first with ⟨op, span, rfl⟩ | first
    · rw [Node.compileSequence]
      exact (ih later).bind fun actions block => Makes.pure (block.cons rfl (by trivial))
    · by_cases operator : ∃ op span, part = .operator op span
      · obtain ⟨op, span, rfl⟩ := operator
        rw [Node.compileSequence]
        exact (ih later).bind fun actions block => Makes.pure (block.cons rfl (by trivial))
      · rw [Node.compileSequence]
        · refine first.bind fun actions inside => (ih later).bind fun after block => ?_
          exact Makes.pure ((inside.cons rfl (by trivial)).append block)
        · intro op span same
          exact operator ⟨op, span, same⟩

theorem compilePipeline_makes {setting : Setting} {parts : List Node}
    (each : ∀ part ∈ parts, (∃ sign span, part = .pipe sign span) ∨
      Makes (part.compile setting : Compile ω (List Action)) Block) :
    Makes (Node.compilePipeline setting parts : Compile ω (List Action)) Block := by
  induction parts with
  | nil =>
    rw [Node.compilePipeline]
    exact Makes.pure Block.nil
  | cons part rest ih =>
    obtain ⟨first, later⟩ := List.forall_mem_cons.mp each
    by_cases sign : ∃ sign span, part = .pipe sign span
    · obtain ⟨sign, span, rfl⟩ := sign
      rw [Node.compilePipeline]
      exact (ih later).bind fun actions block => Makes.pure (block.cons rfl (by trivial))
    · rw [Node.compilePipeline]
      · refine (first.resolve_left sign).bind fun actions inside => ?_
        refine (ih later).bind fun after block => ?_
        exact Makes.pure (inside.append block)
      · intro text span same
        exact sign ⟨text, span, same⟩

theorem reserved_makes {setting : Setting} {text : String} {span : Span} {actions : List Action}
    (known : reservedActions text = .ok actions) :
    Makes ((Node.reserved text span).compile setting : Compile ω (List Action)) (· = actions) := by
  rw [Node.compile, known]
  exact Makes.lift fun value made => by cases made; rfl

/-- A group without redirects is compiled as what it holds. -/
theorem compile_group (setting : Setting) (parts : List Node) (span : Span) :
    (Node.compile setting (.compound parts [] span) : Compile ω (List Action)) =
      Node.compileAll setting parts := by
  have bare : (Node.compile setting (.compound parts [] span) : Compile ω (List Action)) =
      Node.compileAll setting parts >>= fun body => pure ([] ++ body ++ []) := by
    rw [Node.compile]
    rfl
  rw [bare]
  simp

/-- The body of a group stands between what its parentheses or braces give. -/
theorem compileGroup_makes {setting : Setting} {opening closing : String} {body : Node}
    {openSpan closeSpan : Span} {opens closes : List Action}
    (opened : reservedActions opening = .ok opens) (closed : reservedActions closing = .ok closes)
    (inside : Makes (body.compile setting : Compile ω (List Action)) Block) :
    Makes (Node.compileAll setting [.reserved opening openSpan, body, .reserved closing closeSpan] :
      Compile ω (List Action)) fun actions =>
        ∃ inner, Block inner ∧ actions = opens ++ inner ++ closes := by
  have last : Makes (Node.compileAll setting [.reserved closing closeSpan] :
      Compile ω (List Action)) (· = closes) := by
    rw [Node.compileAll, Node.compileAll]
    refine (reserved_makes closed).bind fun actions same => ?_
    have nothing : Makes (pure [] : Compile ω (List Action)) (· = []) := Makes.pure rfl
    exact nothing.bind fun none empty => Makes.pure (by rw [same, empty, List.append_nil])
  have rest : Makes (Node.compileAll setting [body, .reserved closing closeSpan] :
      Compile ω (List Action)) fun actions => ∃ inner, Block inner ∧ actions = inner ++ closes := by
    rw [Node.compileAll]
    exact inside.bind fun actions block => last.bind fun later same =>
      Makes.pure ⟨actions, block, by rw [same]⟩
  rw [Node.compileAll]
  refine (reserved_makes opened).bind fun first same => rest.bind fun actions inner =>
    Makes.pure ?_
  obtain ⟨inner, block, rfl⟩ := inner
  exact ⟨inner, block, by rw [same, List.append_assoc]⟩

/-- What compiling makes of a node, by its place. -/
def Compiles (ω : Type) [Operator ω] : Place → Node → Prop
  | .command, node => ∀ setting, Makes (node.compile setting : Compile ω (List Action)) Block
  | .stage, node => (∃ sign span, node = .pipe sign span) ∨
      ∀ setting, Makes (node.compile setting : Compile ω (List Action)) Block
  | .entry, node => (∃ op span, node = .operator op span) ∨
      ∀ setting, Makes (node.compile setting : Compile ω (List Action)) Block
  | _, _ => True

theorem compiles_of_formed {place : Place} {node : Node} (formed : Formed place node) :
    Compiles ω place node := by
  induction formed with
  | parameter | substitution | word | positionals | redirect | argument | redirection
  | assignment => trivial
  | stage command ih => exact .inr ih
  | pipe => exact .inl ⟨_, _, rfl⟩
  | entry command ih => exact .inr ih
  | operator => exact .inl ⟨_, _, rfl⟩
  | @command parts span each =>
    intro setting
    rw [Node.compile]
    refine Makes.lifted.bind fun redirects _ => ?_
    refine (newSlot_makes fun node member => (each node member).resolvable).bind fun slot _ => ?_
    exact Makes.pure (commandActions_block slot redirects _ parts)
  | pipeline each ih =>
    intro setting
    rw [Node.compile]
    exact compilePipeline_makes fun part member =>
      (ih part member).imp_right fun each => each setting
  | list each ih =>
    intro setting
    rw [Node.compile]
    refine Makes.bind (compileSequence_makes fun part member =>
      (ih part member).imp_right fun each => each setting) fun actions block => ?_
    exact Makes.pure (block.cons rfl (by trivial))
  | @group opening closing body redirected _ _ span pair inside each body_ih each_ih =>
    intro setting
    rw [Node.compile]
    refine Makes.lifted.bind fun redirects _ => ?_
    extract_lets onward
    obtain ⟨opens, closes, opened, closed, around⟩ : ∃ opens closes,
        reservedActions opening = .ok opens ∧ reservedActions closing = .ok closes ∧
          ∀ inner, Block inner → Block (opens ++ inner ++ closes) := by
      rcases pair with ⟨rfl, rfl⟩ | ⟨rfl, rfl⟩
      · exact ⟨_, _, rfl, rfl, fun inner block => block.wrap rfl rfl⟩
      · exact ⟨_, _, rfl, rfl, fun inner block => by simpa using block⟩
    have finish : ∀ slot, Makes (onward slot) Block := by
      intro slot
      refine (compileGroup_makes opened closed (body_ih setting)).bind fun actions group =>
        Makes.pure ?_
      obtain ⟨inner, inside, rfl⟩ := group
      have block := around inner inside
      simpa using (substitutions_block slot redirected .targets).append
        (redirected_block redirects slot "compound" block)
    split
    · have zero : Makes (pure 0 : Compile ω Nat) fun _ => True := Makes.pure trivial
      exact zero.bind fun slot _ => finish slot
    · refine Makes.bind (newSlot_makes fun node member => ?_) fun slot _ => finish slot
      exact (each node member).resolvable_redirect
  | @forLoop name items body span each inside each_ih body_ih =>
    intro setting
    rw [Node.compile]
    refine valuesOfItems_makes.bind fun values _ => ?_
    refine Makes.lifted.bind fun _ _ => ?_
    have round : ∀ value ∈ values, Makes (do
        let actions ← body.compile setting
        return .plain (.bindLoop name value) "Set loop iterator value for next itr" :: actions ++
          [.plain .flush "iterate for loop"] : Compile ω (List Action)) Block :=
      fun value _ => (body_ih setting).bind fun actions block =>
        Makes.pure ((block.cons rfl (by trivial)).append (Block.single rfl (by trivial)))
    refine (Makes.mapM round).bind fun rounds blocks => Makes.pure ?_
    exact ((Block.flatten blocks).cons rfl (by trivial)).append
      (Block.cons rfl (by trivial) (Block.single rfl (by trivial)))
  | conditional conditions bodies =>
    intro setting
    rw [Node.compile]
    exact Makes.pure (clauseActions_block [] conditions bodies)
  | function inside =>
    intro setting
    rw [Node.compile]
    exact (define_makes inside).bind fun _ _ => Makes.pure Block.nil

/-- What a command of a parsed script compiles to is a block. -/
theorem compile_makes {node : Node} (formed : Formed .command node) (setting : Setting) :
    Makes (node.compile setting : Compile ω (List Action)) Block :=
  compiles_of_formed formed setting

end

end Compilation

end StepShell

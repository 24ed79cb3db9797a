import StepShell.Proofs.Compilation.Parts
import StepShell.Proofs.Expansion.Closure

/-! Compiling looks at the variables and asks the operator for the lists of loops only, and at the
limits for how many values they give. It does the same wherever these lists have the same values,
even if they are written in another way: each value may be spelled so that it stands for itself
whatever becomes of the variables. -/

namespace StepShell

namespace Node

/-- The nodes that are compiled together with a node. -/
def together : Node → List Node
  | .list parts _ | .pipeline parts _ | .compound parts _ _ => parts
  | .forLoop _ _ body _ => [body]
  | _ => []

/-- Compiling the node unrolls a loop that has this item. -/
inductive Unrolls : Node → Node → Prop where
  | own {name : String} {items : List Node} {body item : Node} {span : Span}
      (member : item ∈ items) : Unrolls (.forLoop name items body span) item
  | inside {node child item : Node} (member : child ∈ node.together) (below : Unrolls child item) :
      Unrolls node item

/-- Compiling the node defines a function. -/
inductive Defining : Node → Prop where
  | own {name : String} {body : Node} {span : Span} : Defining (.function name body span)
  | inside {node child : Node} (member : child ∈ node.together) (below : Defining child) :
      Defining node

/-- Compiling the node in this setting changes neither functions nor operator: it defines no
function, and the items of its loops have these values, whatever the operator has been asked. -/
structure Settled (ω : Type) [Operator ω] (setting : Compilation.Setting)
    (values : Node → List String) (node : Node) : Prop where
  plain : ¬node.Defining
  lists : ∀ item, node.Unrolls item →
    (Compilation.itemValues setting item : Compile ω (List String)) = pure (values item)

theorem Settled.child {ω : Type} [Operator ω] {setting : Compilation.Setting}
    {values : Node → List String} {node child : Node} (settled : node.Settled ω setting values)
    (member : child ∈ node.together) : child.Settled ω setting values :=
  ⟨fun defining => settled.plain (.inside member defining),
    fun item unrolls => settled.lists item (.inside member unrolls)⟩

theorem Settled.command {ω : Type} [Operator ω] {setting : Compilation.Setting}
    {values : Node → List String} {parts : List Node} {span : Span} :
    (Node.command parts span).Settled ω setting values := by
  refine ⟨fun defining => ?_, fun item unrolls => ?_⟩
  · cases defining with
    | inside member _ => cases member
  · cases unrolls with
    | inside member _ => cases member

theorem Settled.forLoop {ω : Type} [Operator ω] {setting : Compilation.Setting}
    {values : Node → List String} {name : String} {items : List Node} {body : Node} {span : Span}
    (lists : ∀ item ∈ items,
      (Compilation.itemValues setting item : Compile ω (List String)) = pure (values item))
    (inside : body.Settled ω setting values) :
    (Node.forLoop name items body span).Settled ω setting values := by
  refine ⟨fun defining => ?_, fun item unrolls => ?_⟩
  · cases defining with
    | inside member below =>
      rw [List.mem_singleton.mp member] at below
      exact inside.plain below
  · cases unrolls with
    | own member => exact lists item member
    | inside member below =>
      rw [List.mem_singleton.mp member] at below
      exact inside.lists item below

mutual

/-- The node with other items for each item of the loops that are compiled together with it. -/
def relisted (replace : Node → List Node) : Node → Node
  | .list parts span => .list (relistedAll replace parts) span
  | .pipeline parts span => .pipeline (relistedAll replace parts) span
  | .compound parts redirects span => .compound (relistedAll replace parts) redirects span
  | .forLoop name items body span =>
    .forLoop name (items.flatMap replace) (relisted replace body) span
  | node => node

def relistedAll (replace : Node → List Node) : List Node → List Node
  | [] => []
  | node :: rest => relisted replace node :: relistedAll replace rest

end

theorem relistedAll_eq_map (replace : Node → List Node) (nodes : List Node) :
    relistedAll replace nodes = nodes.map (relisted replace) := by
  induction nodes with
  | nil => rw [relistedAll, List.map_nil]
  | cons node rest ih => rw [relistedAll, List.map_cons, ih]

theorem map_eq_self {change : Node → Node} {nodes : List Node}
    (each : ∀ node ∈ nodes, change node = node) : nodes.map change = nodes :=
  (List.map_congr_left each).trans (List.map_id nodes)

/-- Nothing changes where every item stands for itself. -/
theorem relisted_self (node : Node) : node.relisted (fun item => [item]) = node := by
  cases node with
  | list parts _ =>
    rw [relisted, relistedAll_eq_map, map_eq_self fun part _ => relisted_self part]
  | pipeline parts _ =>
    rw [relisted, relistedAll_eq_map, map_eq_self fun part _ => relisted_self part]
  | compound parts redirects _ =>
    rw [relisted, relistedAll_eq_map, map_eq_self fun part _ => relisted_self part]
  | forLoop name items body _ =>
    rw [relisted, relisted_self body, List.flatMap_singleton']
  | _ => simp only [relisted]
termination_by sizeOf node

theorem operatorSign_relisted (replace : Node → List Node) (node : Node) :
    operatorSign (node.relisted replace) = operatorSign node := by
  cases node <;> simp only [relisted, operatorSign]

theorem pipeSign_relisted (replace : Node → List Node) (node : Node) :
    pipeSign (node.relisted replace) = pipeSign node := by
  cases node <;> simp only [relisted, pipeSign]

end Node

namespace Compilation

variable {ω : Type} [Operator ω] {setting other : Setting}

theorem valuesOfItems_append (first second : List Node) :
    (valuesOfItems setting (first ++ second) : Compile ω (List String)) = (do
      let values ← valuesOfItems setting first
      return values ++ (← valuesOfItems setting second)) := by
  induction first with
  | nil => simp [valuesOfItems]
  | cons item rest ih =>
    rw [List.cons_append, valuesOfItems, ih, valuesOfItems]
    simp only [bind_assoc, pure_bind, List.append_assoc]

theorem valuesOfItems_singleton (item : Node) :
    (valuesOfItems setting [item] : Compile ω (List String)) = itemValues setting item := by
  simp [valuesOfItems]

/-- Items whose values are known have them one after the other. -/
theorem valuesOfItems_known {values : Node → List String} {items : List Node}
    (known : ∀ item ∈ items,
      (itemValues setting item : Compile ω (List String)) = pure (values item)) :
    (valuesOfItems setting items : Compile ω (List String)) = pure (items.flatMap values) := by
  induction items with
  | nil => rfl
  | cons item rest ih =>
    obtain ⟨here, later⟩ := List.forall_mem_cons.mp known
    rw [valuesOfItems, here, ih later, List.flatMap_cons]
    rfl

theorem valuesOfItems_relisted {replace : Node → List Node} {items : List Node}
    (same : ∀ item ∈ items, (valuesOfItems other (replace item) : Compile ω (List String)) =
      itemValues setting item) :
    (valuesOfItems other (items.flatMap replace) : Compile ω (List String)) =
      valuesOfItems setting items := by
  induction items with
  | nil => rfl
  | cons item rest ih =>
    obtain ⟨here, later⟩ := List.forall_mem_cons.mp same
    rw [List.flatMap_cons, valuesOfItems_append, here, ih later, valuesOfItems]

theorem compileEach_map {sign : Node → Option Action} {lead : List Action} {change : Node → Node}
    {parts : List Node} (signs : ∀ part, sign (change part) = sign part)
    (each : ∀ part ∈ parts,
      ((change part).compile other : Compile ω (List Action)) = part.compile setting) :
    (Node.compileEach sign lead other (parts.map change) : Compile ω (List Action)) =
      Node.compileEach sign lead setting parts := by
  induction parts with
  | nil => rfl
  | cons part rest ih =>
    obtain ⟨first, later⟩ := List.forall_mem_cons.mp each
    rw [List.map_cons, Node.compileEach, Node.compileEach, signs, first, ih later]

/-- With other items that have the same values in another setting, compiling is the same there. -/
theorem compile_relisted {replace : Node → List Node} (node : Node)
    (limits : other.limits.checkValues = setting.limits.checkValues)
    (same : ∀ item, node.Unrolls item →
      (valuesOfItems other (replace item) : Compile ω (List String)) = itemValues setting item) :
    ((node.relisted replace).compile other : Compile ω (List Action)) = node.compile setting := by
  have below : ∀ child ∈ node.together, ∀ item, child.Unrolls item →
      (valuesOfItems other (replace item) : Compile ω (List String)) = itemValues setting item :=
    fun child member item unrolls => same item (.inside member unrolls)
  cases node with
  | list parts _ =>
    have sequence : (Node.compileSequence other (parts.map (Node.relisted replace)) :
        Compile ω (List Action)) = Node.compileSequence setting parts := by
      rw [Node.compileSequence_eq, Node.compileSequence_eq]
      exact compileEach_map (Node.operatorSign_relisted replace) fun part member =>
        compile_relisted part limits (below part member)
    rw [Node.relisted, Node.relistedAll_eq_map, Node.compile, Node.compile, sequence]
  | pipeline parts _ =>
    rw [Node.relisted, Node.relistedAll_eq_map, Node.compile, Node.compile,
      Node.compilePipeline_eq, Node.compilePipeline_eq]
    exact compileEach_map (Node.pipeSign_relisted replace) fun part member =>
      compile_relisted part limits (below part member)
  | compound parts redirects _ =>
    have group : (Node.compileAll other (parts.map (Node.relisted replace)) :
        Compile ω (List Action)) = Node.compileAll setting parts := by
      rw [Node.compileAll_eq, Node.compileAll_eq]
      exact compileEach_map (fun _ => rfl) fun part member =>
        compile_relisted part limits (below part member)
    rw [Node.relisted, Node.relistedAll_eq_map, Node.compile, Node.compile, group]
  | forLoop name items body _ =>
    have inside := compile_relisted body limits (below body (List.mem_singleton_self body))
    rw [Node.relisted, Node.compile, Node.compile, limits, inside,
      valuesOfItems_relisted fun item member => same item (.own member)]
  | command | conditional | reserved | function | word | assignment | substitution | parameter
  | pipe | operator | redirect => simp only [Node.relisted, Node.compile]
termination_by sizeOf node

/-- In two settings in which the items of the unrolled loops have the same values, compiling is the
same. -/
theorem compile_congr (node : Node)
    (limits : setting.limits.checkValues = other.limits.checkValues)
    (same : ∀ item, node.Unrolls item →
      (itemValues setting item : Compile ω (List String)) = itemValues other item) :
    (node.compile setting : Compile ω (List Action)) = node.compile other := by
  have whole : ((node.relisted fun item => [item]).compile setting : Compile ω (List Action)) =
      node.compile other :=
    compile_relisted node limits fun item unrolls =>
      (valuesOfItems_singleton item).trans (same item unrolls)
  rwa [node.relisted_self] at whole

end Compilation

/-- Protected text does not begin with a reference. -/
theorem Word.head_protect_ne (text : String) : (Word.protect text).toList.head? ≠ some '$' := by
  rw [Word.protect, String.toList_ofList]
  cases text.toList with
  | nil =>
    intro head
    cases head
  | cons c rest =>
    rw [Expansion.protectChars, List.flatMap_cons]
    split
    · exact fun head => absurd (Option.some.inj head) (by decide)
    · rename_i ordinary
      intro head
      rw [Option.some.inj head] at ordinary
      exact ordinary (by decide)

/-- A word that expands to this text. -/
def Node.spelled (text : String) : Node :=
  .word (Word.protect text) [] true default

/-- The node with the values of each item in place of the item, in the loops that are compiled
together with it. -/
def Node.fixed (values : Node → List String) (node : Node) : Node :=
  node.relisted fun item => (values item).map .spelled

namespace Compilation

variable {ω : Type} [Operator ω] {setting other : Setting}

/-- An item that asks the operator for nothing. -/
def isClosed : Node → Bool
  | .word _ parts _ _ => !parts.any isSubstitution
  | _ => true

/-- The values of such an item. -/
def closedValues (vars : Variables) : Node → List String
  | .word text _ quoted _ =>
    if text = "$@" ∨ text = "$*" then vars.positionals
    else if quoted then [vars.expand text] else Text.words (vars.expand text)
  | item => [item.shell]

theorem itemValues_closed {item : Node} (closed : isClosed item = true) :
    (itemValues setting item : Compile ω (List String)) =
      pure (closedValues setting.vars item) := by
  cases item with
  | word text parts quoted span =>
    have none : parts.any isSubstitution = false := by simpa [isClosed] using closed
    simp only [itemValues, closedValues, none, Bool.false_eq_true, if_false]
    split <;> rfl
  | _ => rfl

theorem itemValues_spelled (text : String) :
    (itemValues setting (.spelled text) : Compile ω (List String)) = pure [text] := by
  have plain : ¬(Word.protect text = "$@" ∨ Word.protect text = "$*") := by
    rintro (same | same) <;> exact Word.head_protect_ne text (by rw [same]; decide)
  rw [itemValues_closed (by rfl)]
  simp only [Node.spelled, closedValues, plain, if_false, if_true, Variables.expand_protect]

theorem valuesOfItems_spelled (texts : List String) :
    (valuesOfItems setting (texts.map .spelled) : Compile ω (List String)) = pure texts := by
  induction texts with
  | nil => rfl
  | cons text rest ih =>
    rw [List.map_cons, valuesOfItems, itemValues_spelled, ih]
    rfl

/-- With fixed lists compiling is the same in every setting as it is with the lists themselves in
the setting in which they have these values. -/
theorem compile_fixed {values : Node → List String} (node : Node)
    (limits : other.limits.checkValues = setting.limits.checkValues)
    (lists : ∀ item, node.Unrolls item →
      (itemValues setting item : Compile ω (List String)) = pure (values item)) :
    ((node.fixed values).compile other : Compile ω (List Action)) = node.compile setting :=
  compile_relisted node limits fun item unrolls =>
    (valuesOfItems_spelled _).trans (lists item unrolls).symm

end Compilation

end StepShell

import StepShell.Proofs.Compilation.Parts
import StepShell.Proofs.Effect
import StepShell.Proofs.Script.Defines

/-! What compiling leaves behind, whether it succeeds or fails. Slots are only added behind those
that are there, and the operator is asked about nothing but the items of loops. -/

namespace StepShell

/-- The operator once it was asked about these items of loops. -/
def Operator.itemsAsked {ω : Type} [Operator ω] (operator : ω) (asked : List String) : ω :=
  asked.foldl (fun operator item => (Operator.items item operator).2) operator

namespace Compilation

/-- Whether only the operator knows what values the item of a loop gives. -/
def isOpenItem : Node → Bool
  | .word _ parts _ _ => parts.any isSubstitution
  | _ => false

end Compilation

/-- Somewhere in the tree a loop has an item of this text that is left to the operator. -/
def Node.AsksAbout (root : Node) (text : String) : Prop :=
  ∃ name items body span, Node.Within (.forLoop name items body span) root ∧
    ∃ item ∈ items, Compilation.isOpenItem item = true ∧ item.shell = text

theorem Node.AsksAbout.inside {root child : Node} {text : String} (member : child ∈ root.children)
    (asks : child.AsksAbout text) : root.AsksAbout text := by
  obtain ⟨name, items, body, span, within, item⟩ := asks
  exact ⟨name, items, body, span, .inside member within, item⟩

namespace Compilation

variable {ω : Type} [Operator ω] {asks : String → Prop} {start before : Compilation ω}
  {setting : Setting}

/-- Since the start there are at most more slots, and the operator was asked at most about items
with such texts. -/
structure Grown (asks : String → Prop) (start now : Compilation ω) : Prop where
  slots : ∃ added : Array (List Node), now.slots = start.slots ++ added
  operator : ∃ asked, (∀ text ∈ asked, asks text) ∧
    now.operator = Operator.itemsAsked start.operator asked

theorem Grown.refl (asks : String → Prop) (start : Compilation ω) : Grown asks start start := by
  constructor
  · exact ⟨#[], by simp⟩
  · exact ⟨[], by simp, rfl⟩

theorem Grown.asked {text : String} (grown : Grown asks start before) (fits : asks text) :
    Grown asks start { before with operator := (Operator.items text before.operator).2 } := by
  obtain ⟨asked, each, same⟩ := grown.operator
  refine ⟨grown.slots, asked ++ [text], ?_, ?_⟩
  · intro other member
    rcases List.mem_append.mp member with old | new
    · exact each other old
    · rw [List.mem_singleton.mp new]
      exact fits
  · simp [Operator.itemsAsked, same]

theorem newSlot_preserves {parts : List Node} :
    Preserves (Grown asks start) before (newSlot parts : Compile ω Nat) := by
  intro grown
  obtain ⟨added, same⟩ := grown.slots
  refine ⟨⟨added.push parts, ?_⟩, grown.operator⟩
  change before.slots.push parts = _
  rw [same, Array.append_push]

theorem define_preserves {name : String} {body : Node} :
    Preserves (Grown asks start) before (define name body : Compile ω Unit) := by
  intro grown
  exact ⟨grown.slots, grown.operator⟩

theorem itemValues_preserves {item : Node} (fits : isOpenItem item = true → asks item.shell) :
    Preserves (Grown asks start) before (itemValues setting item : Compile ω (List String)) := by
  unfold itemValues
  split
  · rename_i text parts quoted span
    split
    · rename_i substituted
      have asking := fits substituted
      refine .get (.bind (.set fun grown => grown.asked asking) fun _ _ _ => ?_)
      split
      · exact .pure
      · exact .pure
    · split
      · exact .pure
      · exact .pure
  · exact .pure

theorem valuesOfItems_preserves {items : List Node}
    (fits : ∀ item ∈ items, isOpenItem item = true → asks item.shell) :
    Preserves (Grown asks start) before (valuesOfItems setting items : Compile ω (List String)) := by
  induction items generalizing before with
  | nil => exact .pure
  | cons first rest ih =>
    obtain ⟨fit, later⟩ := List.forall_mem_cons.mp fits
    exact .bind (itemValues_preserves fit) fun _ _ _ => .bind (ih later) fun _ _ _ => .pure

theorem compileEach_preserves {sign : Node → Option Action} {lead : List Action}
    {parts : List Node} (each : ∀ part ∈ parts, ∀ before,
      Preserves (Grown asks start) before (part.compile setting : Compile ω (List Action))) :
    Preserves (Grown asks start) before
      (Node.compileEach sign lead setting parts : Compile ω (List Action)) := by
  induction parts generalizing before with
  | nil => exact .pure
  | cons part rest ih =>
    obtain ⟨first, later⟩ := List.forall_mem_cons.mp each
    rw [Node.compileEach]
    split
    · exact .bind (ih later) fun _ _ _ => .pure
    · exact .bind (first _) fun _ _ _ => .bind (ih later) fun _ _ _ => .pure

/-- Wherever compiling ends, and with whatever node it fails, it has only added slots and only asked
about items of loops of the tree. -/
theorem compile_preserves (node : Node) (fits : ∀ text, node.AsksAbout text → asks text)
    (before : Compilation ω) :
    Preserves (Grown asks start) before (node.compile setting : Compile ω (List Action)) := by
  have below : ∀ child ∈ node.children, ∀ text, child.AsksAbout text → asks text :=
    fun child member text asking => fits text (asking.inside member)
  cases node with
  | list parts _ =>
    rw [Node.compile, Node.compileSequence_eq]
    refine .bind (compileEach_preserves fun part member => ?_) fun _ _ _ => .pure
    exact compile_preserves part (below part member)
  | pipeline parts _ =>
    rw [Node.compile, Node.compilePipeline_eq]
    exact compileEach_preserves fun part member => compile_preserves part (below part member)
  | command parts _ =>
    rw [Node.compile]
    exact .bind .lift fun _ _ _ => .bind newSlot_preserves fun _ _ _ => .pure
  | compound parts redirects _ =>
    have inside : ∀ part ∈ parts, ∀ before, Preserves (Grown asks start) before
        (part.compile setting : Compile ω (List Action)) := fun part member =>
      compile_preserves part (below part (List.mem_append_left _ member))
    rw [Node.compile, Node.compileAll_eq]
    refine .bind .lift fun _ _ _ => ?_
    split
    · exact .bind .pure fun _ _ _ => .bind (compileEach_preserves inside) fun _ _ _ => .pure
    · exact .bind newSlot_preserves fun _ _ _ =>
        .bind (compileEach_preserves inside) fun _ _ _ => .pure
  | forLoop name items body span =>
    have inside := compile_preserves body (below body (List.mem_append_right _ (.head _)))
    have own : ∀ item ∈ items, isOpenItem item = true → asks item.shell :=
      fun item member opened => fits _ ⟨name, items, body, span, .self, item, member, opened, rfl⟩
    rw [Node.compile]
    refine .bind (valuesOfItems_preserves own) fun values _ _ => .bind .lift fun _ _ _ => ?_
    refine .bind (.mapM fun value _ before => ?_) fun _ _ _ => .pure
    exact .bind (inside before) fun _ _ _ => .pure
  | conditional clauses _ =>
    rw [Node.compile]
    exact .pure
  | reserved text _ =>
    rw [Node.compile]
    exact .lift
  | function name body _ =>
    rw [Node.compile]
    exact .bind define_preserves fun _ _ _ => .pure
  | word | assignment | substitution | parameter | pipe | operator | redirect =>
    simp only [Node.compile]
    exact .throw
termination_by sizeOf node

/-- What compiling a node leaves, seen from where it started. -/
theorem compile_grown (node : Node) (setting : Setting) (start : Compilation ω) :
    Grown node.AsksAbout start ((node.compile setting).run start).2 :=
  compile_preserves node (fun _ => id) start (.refl _ start)

end Compilation

end StepShell

import StepShell.Proofs.Script.Positions

/-! The clauses of conditionals. In a parsed script only the last clause of a conditional can go
without a condition, wherever the conditional stands. -/

namespace StepShell

/-- No clause but the last goes without a condition. -/
def Clause.ElseLast (clauses : List Clause) : Prop :=
  ∀ clause ∈ clauses.dropLast, clause.condition.isSome = true

/-- Wherever a conditional stands in the tree, only its last clause can go without a condition. -/
def Node.ElseLast (root : Node) : Prop :=
  ∀ clauses span, Node.Within (.conditional clauses span) root → Clause.ElseLast clauses

namespace Node.ElseLast

theorem intro {root : Node}
    (own : ∀ clauses span, root = .conditional clauses span → Clause.ElseLast clauses)
    (each : ∀ child ∈ root.children, child.ElseLast) : root.ElseLast := by
  intro clauses span within
  cases within with
  | self => exact own clauses span rfl
  | inside member within => exact each _ member clauses span within

/-- A node that is no conditional. -/
theorem of_children {root : Node} (other : ∀ clauses span, root ≠ .conditional clauses span)
    (each : ∀ child ∈ root.children, child.ElseLast) : root.ElseLast :=
  intro (fun clauses span same => absurd same (other clauses span)) each

theorem leaf {root : Node} (other : ∀ clauses span, root ≠ .conditional clauses span)
    (none : root.children = []) : root.ElseLast := by
  refine of_children other ?_
  rw [none]
  exact fun _ => nofun

/-- Operators between the parts make no difference. -/
theorem interspersed {op : String} {nodes : List Node} (each : ∀ node ∈ nodes, node.ElseLast) :
    ∀ node ∈ nodes.flatMap (fun node : Node =>
      [Node.operator op ⟨node.span.start, node.span.start⟩, node]), node.ElseLast := by
  intro node member
  obtain ⟨line, present, member⟩ := List.mem_flatMap.mp member
  rcases List.mem_cons.mp member with rfl | member
  · exact leaf nofun rfl
  · obtain rfl := List.mem_singleton.mp member
    exact each _ present

end Node.ElseLast

namespace Grammar

theorem substitutedCommand_elseLast {nodes : List Node} {command : Node}
    (made : substitutedCommand nodes = .ok command) (each : ∀ node ∈ nodes, node.ElseLast) :
    command.ElseLast := by
  rcases nodes with _ | ⟨first, _ | ⟨second, rest⟩⟩
  · cases made
  · cases made
    exact each _ List.mem_cons_self
  · cases made
    obtain ⟨here, later⟩ := List.forall_mem_cons.mp each
    refine .of_children nofun (List.forall_mem_cons.mpr ⟨here, ?_⟩)
    exact Node.ElseLast.interspersed later

theorem listed_elseLast {parts : List Node} {node : Node} (made : listed? parts = some node)
    (each : ∀ part ∈ parts, part.ElseLast) : node.ElseLast := by
  have kept : ∀ part ∈ dropSeparators parts, part.ElseLast :=
    fun part member => each part ((dropSeparators_starts parts).subset member)
  rw [listed?] at made
  generalize dropSeparators parts = front at made kept
  rcases front with _ | ⟨first, _ | ⟨second, rest⟩⟩
  · cases made
  · cases made
    exact kept _ List.mem_cons_self
  · cases made
    exact .of_children (fun _ _ wrong => by cases wrong) kept

/-- In all trees of the phrase, and in the clauses that it may be. -/
def Phrase.ElseLast : Phrase → Prop
  | .clauses _ made => made ≠ [] ∧ Clause.ElseLast made ∧
    ∀ node ∈ (Node.conditional made default).children, node.ElseLast
  | phrase => ∀ node ∈ phrase.nodes, node.ElseLast

/-- Each rule of the grammar keeps to it. -/
theorem Reads.elseLast {phrase : Phrase} {before after : List Lexeme}
    (read : Reads phrase before after) : phrase.ElseLast := by
  have single : ∀ {node : Node}, node.ElseLast → ∀ other ∈ [node], other.ElseLast :=
    fun here => List.forall_mem_singleton.mpr here
  have own : ∀ {node : Node}, (∀ other ∈ [node], other.ElseLast) → node.ElseLast :=
    fun all => all _ List.mem_cons_self
  induction read with
  | noPieces | noRedirect | noPart | noItem | noEntry | ended => exact fun _ => nofun
  | plain _ ih | guarded _ ih => exact ih
  | reference _ ih => exact List.forall_mem_cons.mpr ⟨.leaf nofun rfl, ih⟩
  | substitution _ _ made _ inside ih =>
    have command := substitutedCommand_elseLast made inside
    exact List.forall_mem_cons.mpr ⟨.of_children nofun (single command), ih⟩
  | word _ _ pieces => exact single (.of_children nofun pieces)
  | redirect _ _ leads => exact single (.of_children nofun leads)
  | redirects _ _ here later | redirected _ _ here later | items _ _ here later =>
    exact List.forall_mem_cons.mpr ⟨own here, later⟩
  | assignment _ _ _ _ pieces later =>
    exact List.forall_mem_cons.mpr ⟨.of_children nofun pieces, later⟩
  | argument _ _ _ _ here later => exact List.forall_mem_cons.mpr ⟨own here, later⟩
  | group _ _ _ inside behind =>
    refine single (.of_children nofun (List.forall_mem_append.mpr ⟨?_, behind⟩))
    exact List.forall_mem_cons.mpr ⟨.leaf nofun rfl, List.forall_mem_cons.mpr
      ⟨own inside, single (.leaf nofun rfl)⟩⟩
  | clause _ _ _ _ _ test inside =>
    refine ⟨List.cons_ne_nil _ _, fun _ => nofun, ?_⟩
    exact List.forall_mem_cons.mpr ⟨own test, single (own inside)⟩
  | clauseElse _ _ _ _ _ test inside otherwise =>
    refine ⟨List.cons_ne_nil _ _, List.forall_mem_singleton.mpr rfl, ?_⟩
    exact List.forall_mem_cons.mpr ⟨own test, List.forall_mem_cons.mpr
      ⟨own inside, single (own otherwise)⟩⟩
  | clauseElif _ _ _ _ _ test inside later =>
    obtain ⟨some, last, each⟩ := later
    refine ⟨List.cons_ne_nil _ _, ?_, ?_⟩
    · rw [Clause.ElseLast, List.dropLast_cons_of_ne_nil some]
      exact List.forall_mem_cons.mpr ⟨rfl, last⟩
    · exact List.forall_mem_cons.mpr ⟨own test, List.forall_mem_cons.mpr ⟨own inside, each⟩⟩
  | simple _ _ _ parts => exact single (.of_children nofun parts)
  | grouped _ group => exact group
  | forIn _ _ _ _ _ _ _ _ _ _ values inside =>
    exact single (.of_children nofun (List.forall_mem_append.mpr ⟨values, inside⟩))
  | forEach _ _ _ _ _ _ _ _ _ inside =>
    have item : ∀ span, (positionals span).ElseLast :=
      fun span => .of_children nofun (single (.leaf nofun rfl))
    exact single (.of_children nofun (List.forall_mem_append.mpr ⟨single (item _), inside⟩))
  | conditional _ _ _ clauses =>
    obtain ⟨_, last, each⟩ := clauses
    refine single (.intro ?_ each)
    rintro _ _ ⟨⟩
    exact last
  | function _ _ _ _ inside | definition _ _ _ _ _ inside =>
    exact single (.of_children nofun inside)
  | stage _ _ here => exact here
  | pipe _ _ _ here later | chain _ _ _ here later =>
    exact List.forall_mem_cons.mpr ⟨own here, List.forall_mem_cons.mpr ⟨.leaf nofun rfl, later⟩⟩
  | single _ read => exact read
  | pipeline _ _ parts => exact single (.of_children nofun parts)
  | link _ _ here => exact here
  | entry _ _ _ here => exact here
  | lastEntry _ _ _ here => exact List.forall_mem_append.mpr ⟨here, single (.leaf nofun rfl)⟩
  | entries _ _ _ _ _ here later =>
    exact List.forall_mem_append.mpr ⟨here, List.forall_mem_cons.mpr ⟨.leaf nofun rfl, later⟩⟩
  | list _ made parts => exact single (listed_elseLast made parts)
  | line _ _ _ _ here later => exact List.forall_mem_cons.mpr ⟨own here, later⟩

end Grammar

/-- In a parsed script a clause without a condition is the last one of its conditional. -/
theorem Script.parse_elseLast {text : String} {nodes : List Node} (parsed : parse text = .ok nodes)
    {root : Node} (member : root ∈ nodes) : root.ElseLast := by
  obtain ⟨lexemes, _, read⟩ := parseAt_eq_ok.mp parsed
  exact read.elseLast root member

end StepShell

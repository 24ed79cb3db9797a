import StepShell.Proofs.Script.Positions
import StepShell.Proofs.Script.Defines

/-! Signs between commands. In a parsed script the commands of a list alternate with operators and
those of a pipeline with pipes, wherever it stands: a command comes first, and none is without a
sign between it and the next one. -/

namespace StepShell

/-- An operator between commands. -/
def Node.isOperator : Node → Bool
  | .operator .. => true
  | _ => false

def Node.isPipe : Node → Bool
  | .pipe .. => true
  | _ => false

/-- Commands with a sign between any two, and none behind the last. -/
inductive Node.Chained (isSign : Node → Bool) : List Node → Prop where
  | last {command : Node} (ordinary : isSign command = false) : Chained isSign [command]
  | more {command sign : Node} {rest : List Node} (ordinary : isSign command = false)
      (between : isSign sign = true) (later : Chained isSign rest) :
      Chained isSign (command :: sign :: rest)

/-- Commands with a sign between any two, and perhaps one behind the last. -/
inductive Node.Alternating (isSign : Node → Bool) : List Node → Prop where
  | last {command : Node} (ordinary : isSign command = false) : Alternating isSign [command]
  | trailing {command sign : Node} (ordinary : isSign command = false)
      (behind : isSign sign = true) : Alternating isSign [command, sign]
  | more {command sign : Node} {rest : List Node} (ordinary : isSign command = false)
      (between : isSign sign = true) (later : Alternating isSign rest) :
      Alternating isSign (command :: sign :: rest)

/-- Wherever a list or a pipeline stands in the tree, commands and signs alternate in it. -/
structure Node.Alternates (root : Node) : Prop where
  lists : ∀ parts span, Node.Within (.list parts span) root → Alternating isOperator parts
  pipelines : ∀ parts span, Node.Within (.pipeline parts span) root → Chained isPipe parts

namespace Node

section
variable {isSign : Node → Bool} {parts rest : List Node} {sign : Node}

theorem Chained.alternating (chained : Chained isSign parts) : Alternating isSign parts := by
  induction chained with
  | last ordinary => exact .last ordinary
  | more ordinary between _ ih => exact .more ordinary between ih

/-- A sign may stand behind a chain, and then more chains. -/
theorem Chained.append (chained : Chained isSign parts) (behind : isSign sign = true)
    (later : rest = [] ∨ Alternating isSign rest) : Alternating isSign (parts ++ sign :: rest) := by
  induction chained with
  | last ordinary =>
    rcases later with rfl | later
    · exact .trailing ordinary behind
    · exact .more ordinary behind later
  | more ordinary between _ ih => exact .more ordinary between ih

/-- So it is with the parts that a list begins with. -/
theorem Alternating.beginning {begun : List Node} (alternating : Alternating isSign parts)
    (starts : begun <+: parts) (some : begun ≠ []) : Alternating isSign begun := by
  induction alternating generalizing begun with
  | last ordinary =>
    obtain ⟨first, rest, rfl⟩ := List.exists_cons_of_ne_nil some
    obtain ⟨rfl, begins⟩ := List.cons_prefix_cons.mp starts
    obtain rfl := List.prefix_nil.mp begins
    exact .last ordinary
  | trailing ordinary behind =>
    obtain ⟨first, rest, rfl⟩ := List.exists_cons_of_ne_nil some
    obtain ⟨rfl, begins⟩ := List.cons_prefix_cons.mp starts
    rcases rest with _ | ⟨second, others⟩
    · exact .last ordinary
    · obtain ⟨rfl, ends⟩ := List.cons_prefix_cons.mp begins
      obtain rfl := List.prefix_nil.mp ends
      exact .trailing ordinary behind
  | more ordinary between _ ih =>
    obtain ⟨first, rest, rfl⟩ := List.exists_cons_of_ne_nil some
    obtain ⟨rfl, begins⟩ := List.cons_prefix_cons.mp starts
    rcases rest with _ | ⟨second, _ | ⟨third, others⟩⟩
    · exact .last ordinary
    · obtain ⟨rfl, _⟩ := List.cons_prefix_cons.mp begins
      exact .trailing ordinary between
    · obtain ⟨rfl, onward⟩ := List.cons_prefix_cons.mp begins
      exact .more ordinary between (ih onward (List.cons_ne_nil _ _))

end

theorem interspersed_chained (op : String) {first : Node} {rest : List Node}
    (ordinary : first.isOperator = false) (each : ∀ node ∈ rest, node.isOperator = false) :
    Chained isOperator (first :: rest.flatMap fun node : Node =>
      [Node.operator op ⟨node.span.start, node.span.start⟩, node]) := by
  induction rest generalizing first with
  | nil => exact .last ordinary
  | cons second rest ih =>
    obtain ⟨here, later⟩ := List.forall_mem_cons.mp each
    exact .more ordinary rfl (ih here later)

namespace Alternates

theorem intro {root : Node}
    (list : ∀ parts span, root = .list parts span → Alternating isOperator parts)
    (pipeline : ∀ parts span, root = .pipeline parts span → Chained isPipe parts)
    (each : ∀ child ∈ root.children, child.Alternates) : root.Alternates := by
  constructor
  · intro parts span within
    cases within with
    | self => exact list parts span rfl
    | inside member within => exact (each _ member).lists parts span within
  · intro parts span within
    cases within with
    | self => exact pipeline parts span rfl
    | inside member within => exact (each _ member).pipelines parts span within

/-- A node that is neither a list nor a pipeline. -/
theorem of_children {root : Node} (other : ∀ parts span, root ≠ .list parts span)
    (another : ∀ parts span, root ≠ .pipeline parts span)
    (each : ∀ child ∈ root.children, child.Alternates) : root.Alternates :=
  intro (fun parts span same => absurd same (other parts span))
    (fun parts span same => absurd same (another parts span)) each

theorem leaf {root : Node} (other : ∀ parts span, root ≠ .list parts span)
    (another : ∀ parts span, root ≠ .pipeline parts span) (none : root.children = []) :
    root.Alternates := by
  refine of_children other another ?_
  rw [none]
  exact fun _ => nofun

end Alternates

end Node

namespace Grammar

/-- No sign, and in all its lists and pipelines commands and signs alternate. -/
structure Regular (node : Node) : Prop where
  operator : node.isOperator = false
  pipe : node.isPipe = false
  inside : node.Alternates

theorem Regular.node {node : Node} (operator : node.isOperator = false)
    (pipe : node.isPipe = false) (other : ∀ parts span, node ≠ .list parts span)
    (another : ∀ parts span, node ≠ .pipeline parts span)
    (each : ∀ child ∈ node.children, Regular child) : Regular node :=
  ⟨operator, pipe, .of_children other another fun child member => (each child member).inside⟩

theorem operator_alternates {op : String} {span : Span} : (Node.operator op span).Alternates :=
  .leaf nofun nofun rfl

theorem substitutedCommand_regular {nodes : List Node} {command : Node}
    (made : substitutedCommand nodes = .ok command) (each : ∀ node ∈ nodes, Regular node) :
    Regular command := by
  rcases nodes with _ | ⟨first, _ | ⟨second, rest⟩⟩
  · cases made
  · cases made
    exact each _ List.mem_cons_self
  · cases made
    obtain ⟨here, later⟩ := List.forall_mem_cons.mp each
    refine ⟨rfl, rfl, .intro ?_ nofun (List.forall_mem_cons.mpr ⟨here.inside, ?_⟩)⟩
    · rintro _ _ ⟨⟩
      have chained := Node.interspersed_chained "\n" here.operator fun node member =>
        (later node member).operator
      exact chained.alternating
    · intro node member
      obtain ⟨line, present, member⟩ := List.mem_flatMap.mp member
      rcases List.mem_cons.mp member with rfl | member
      · exact operator_alternates
      · obtain rfl := List.mem_singleton.mp member
        exact (later _ present).inside

theorem listed_regular {parts : List Node} {node : Node} (made : listed? parts = some node)
    (alternating : parts = [] ∨ Node.Alternating Node.isOperator parts)
    (each : ∀ part ∈ parts, part.isPipe = false ∧ part.Alternates) : Regular node := by
  have starts := dropSeparators_starts parts
  have kept : ∀ part ∈ dropSeparators parts, part.isPipe = false ∧ part.Alternates :=
    fun part member => each part (starts.subset member)
  have whole : dropSeparators parts ≠ [] →
      Node.Alternating Node.isOperator (dropSeparators parts) := by
    intro some
    rcases alternating with rfl | alternating
    · exact absurd (List.prefix_nil.mp starts) some
    · exact alternating.beginning starts some
  rw [listed?] at made
  generalize dropSeparators parts = front at made kept whole
  rcases front with _ | ⟨first, _ | ⟨second, rest⟩⟩
  · cases made
  · cases made
    obtain ⟨pipe, inside⟩ := kept _ List.mem_cons_self
    cases whole (List.cons_ne_nil _ _) with
    | last ordinary => exact ⟨ordinary, pipe, inside⟩
  · cases made
    refine ⟨rfl, rfl, .intro ?_ ?_ fun part member => (kept part member).2⟩
    · rintro _ _ ⟨⟩
      exact whole (List.cons_ne_nil _ _)
    · rintro _ _ ⟨⟩

/-- In all trees of the phrase commands and signs alternate, and in the phrase itself if it is made
of them. -/
def Phrase.Regular : Phrase → Prop
  | .stages made => Node.Chained Node.isPipe made ∧
    ∀ node ∈ made, node.isOperator = false ∧ node.Alternates
  | .chain made => Node.Chained Node.isOperator made ∧
    ∀ node ∈ made, node.isPipe = false ∧ node.Alternates
  | .entries _ made => (made = [] ∨ Node.Alternating Node.isOperator made) ∧
    ∀ node ∈ made, node.isPipe = false ∧ node.Alternates
  | phrase => ∀ node ∈ phrase.nodes, Grammar.Regular node

/-- Each rule of the grammar keeps to it. -/
theorem Reads.regular {phrase : Phrase} {before after : List Lexeme}
    (read : Reads phrase before after) : phrase.Regular := by
  have single : ∀ {node : Node}, Regular node → ∀ other ∈ [node], Regular other :=
    fun here => List.forall_mem_singleton.mpr here
  have own : ∀ {node : Node}, (∀ other ∈ [node], Regular other) → Regular node :=
    fun all => all _ List.mem_cons_self
  have sign : ∀ {op : String} {span : Span}, (Node.operator op span).isPipe = false ∧
      (Node.operator op span).Alternates := ⟨rfl, operator_alternates⟩
  induction read with
  | noPieces | noRedirect | noPart | noItem | ended => exact fun _ => nofun
  | noEntry => exact ⟨.inl rfl, fun _ => nofun⟩
  | plain _ ih | guarded _ ih => exact ih
  | reference _ ih =>
    exact List.forall_mem_cons.mpr ⟨⟨rfl, rfl, .leaf nofun nofun rfl⟩, ih⟩
  | substitution _ _ made _ inside ih =>
    have command := substitutedCommand_regular made inside
    exact List.forall_mem_cons.mpr ⟨.node rfl rfl nofun nofun (single command), ih⟩
  | word _ _ pieces => exact single (.node rfl rfl nofun nofun pieces)
  | redirect _ _ leads => exact single (.node rfl rfl nofun nofun leads)
  | redirects _ _ here later | redirected _ _ here later | items _ _ here later =>
    exact List.forall_mem_cons.mpr ⟨own here, later⟩
  | assignment _ _ _ _ pieces later =>
    exact List.forall_mem_cons.mpr ⟨.node rfl rfl nofun nofun pieces, later⟩
  | argument _ _ _ _ here later => exact List.forall_mem_cons.mpr ⟨own here, later⟩
  | group _ _ _ inside behind =>
    have bracket : ∀ text span, Regular (.reserved text span) :=
      fun _ _ => ⟨rfl, rfl, .leaf nofun nofun rfl⟩
    refine single (.node rfl rfl nofun nofun (List.forall_mem_append.mpr ⟨?_, behind⟩))
    exact List.forall_mem_cons.mpr ⟨bracket _ _, List.forall_mem_cons.mpr
      ⟨own inside, single (bracket _ _)⟩⟩
  | clause _ _ _ _ _ test inside =>
    exact List.forall_mem_cons.mpr ⟨own test, single (own inside)⟩
  | clauseElse _ _ _ _ _ test inside otherwise =>
    exact List.forall_mem_cons.mpr ⟨own test, List.forall_mem_cons.mpr
      ⟨own inside, single (own otherwise)⟩⟩
  | clauseElif _ _ _ _ _ test inside later =>
    exact List.forall_mem_cons.mpr ⟨own test, List.forall_mem_cons.mpr ⟨own inside, later⟩⟩
  | simple _ _ _ parts => exact single (.node rfl rfl nofun nofun parts)
  | grouped _ group => exact group
  | forIn _ _ _ _ _ _ _ _ _ _ values inside =>
    exact single (.node rfl rfl nofun nofun (List.forall_mem_append.mpr ⟨values, inside⟩))
  | forEach _ _ _ _ _ _ _ _ _ inside =>
    have item : ∀ span, Regular (positionals span) := fun span =>
      .node rfl rfl nofun nofun (single ⟨rfl, rfl, .leaf nofun nofun rfl⟩)
    exact single (.node rfl rfl nofun nofun (List.forall_mem_append.mpr ⟨single (item _), inside⟩))
  | conditional _ _ _ clauses => exact single (.node rfl rfl nofun nofun clauses)
  | function _ _ _ _ inside | definition _ _ _ _ _ inside =>
    exact single (.node rfl rfl nofun nofun inside)
  | stage _ _ here =>
    obtain ⟨operator, pipe, inside⟩ := own here
    exact ⟨.last pipe, List.forall_mem_singleton.mpr ⟨operator, inside⟩⟩
  | pipe _ _ _ here later =>
    obtain ⟨operator, pipe, inside⟩ := own here
    exact ⟨.more pipe rfl later.1, List.forall_mem_cons.mpr ⟨⟨operator, inside⟩,
      List.forall_mem_cons.mpr ⟨⟨rfl, .leaf nofun nofun rfl⟩, later.2⟩⟩⟩
  | single _ read =>
    obtain ⟨chained, each⟩ := read
    obtain ⟨operator, inside⟩ := each _ List.mem_cons_self
    cases chained with
    | last pipe => exact single ⟨operator, pipe, inside⟩
  | pipeline _ _ read =>
    obtain ⟨chained, each⟩ := read
    refine single ⟨rfl, rfl, .intro nofun ?_ fun node member => (each node member).2⟩
    rintro _ _ ⟨⟩
    exact chained
  | link _ _ here =>
    obtain ⟨operator, pipe, inside⟩ := own here
    exact ⟨.last operator, List.forall_mem_singleton.mpr ⟨pipe, inside⟩⟩
  | chain _ _ _ here later =>
    obtain ⟨operator, pipe, inside⟩ := own here
    exact ⟨.more operator rfl later.1, List.forall_mem_cons.mpr ⟨⟨pipe, inside⟩,
      List.forall_mem_cons.mpr ⟨sign, later.2⟩⟩⟩
  | entry _ _ _ here => exact ⟨.inr here.1.alternating, here.2⟩
  | lastEntry _ _ _ here =>
    exact ⟨.inr (here.1.append rfl (.inl rfl)), List.forall_mem_append.mpr
      ⟨here.2, List.forall_mem_singleton.mpr sign⟩⟩
  | entries _ _ _ _ _ here later =>
    exact ⟨.inr (here.1.append rfl later.1), List.forall_mem_append.mpr
      ⟨here.2, List.forall_mem_cons.mpr ⟨sign, later.2⟩⟩⟩
  | list _ made parts => exact single (listed_regular made parts.1 parts.2)
  | line _ _ _ _ here later => exact List.forall_mem_cons.mpr ⟨own here, later⟩

end Grammar

/-- In a parsed script commands and signs alternate in every list and every pipeline. -/
theorem Script.parse_alternates {text : String} {nodes : List Node}
    (parsed : parse text = .ok nodes) {root : Node} (member : root ∈ nodes) : root.Alternates := by
  obtain ⟨lexemes, _, read⟩ := parseAt_eq_ok.mp parsed
  exact (read.regular root member).inside

end StepShell

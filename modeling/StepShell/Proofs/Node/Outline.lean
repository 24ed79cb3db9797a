import StepShell.Node.Shell
import StepShell.Proofs.Script.Defines

/-! A tree apart from its places, with the texts of its words changed. A change that the shell text
of each word does not show is not shown by the shell text of the tree. -/

namespace StepShell

mutual

/-- The tree without its places, the flags of its quotes and the parts of its words, and with the
texts of words and assignments changed. -/
def Node.outline (word assigned : String → String) : Node → Node
  | .command parts _ => .command (Node.outlineAll word assigned parts) default
  | .word text _ _ _ => .word (word text) [] false default
  | .assignment text _ _ => .assignment (assigned text) [] default
  | .substitution command _ => .substitution (command.outline word assigned) default
  | .parameter value _ => .parameter value default
  | .pipeline parts _ => .pipeline (Node.outlineAll word assigned parts) default
  | .pipe sign _ => .pipe sign default
  | .list parts _ => .list (Node.outlineAll word assigned parts) default
  | .operator op _ => .operator op default
  | .compound parts redirects _ =>
    .compound (Node.outlineAll word assigned parts) (Node.outlineAll word assigned redirects)
      default
  | .redirect kind target _ => .redirect kind (target.outline word assigned) default
  | .forLoop name items body _ =>
    .forLoop name (Node.outlineAll word assigned items) (body.outline word assigned) default
  | .conditional clauses _ => .conditional (Clause.outlineAll word assigned clauses) default
  | .function name body _ => .function name (body.outline word assigned) default
  | .reserved word _ => .reserved word default

def Node.outlineAll (word assigned : String → String) : List Node → List Node
  | [] => []
  | node :: rest => node.outline word assigned :: Node.outlineAll word assigned rest

def Clause.outline (word assigned : String → String) : Clause → Clause
  | .mk keyword none body => .mk keyword none (body.outline word assigned)
  | .mk keyword (some condition) body =>
    .mk keyword (some (condition.outline word assigned)) (body.outline word assigned)

def Clause.outlineAll (word assigned : String → String) : List Clause → List Clause
  | [] => []
  | clause :: rest => clause.outline word assigned :: Clause.outlineAll word assigned rest

end

/-- The tree with its texts as they are, but without its places, the flags of its quotes and the
parts of its words. -/
def Node.shape (node : Node) : Node :=
  node.outline id id

def Node.shapeAll (nodes : List Node) : List Node :=
  Node.outlineAll id id nodes

def Clause.shapeAll (clauses : List Clause) : List Clause :=
  Clause.outlineAll id id clauses

theorem Node.outlineAll_eq_map (word assigned : String → String) (nodes : List Node) :
    Node.outlineAll word assigned nodes = nodes.map (Node.outline word assigned) := by
  induction nodes with
  | nil => rfl
  | cons node rest ih => rw [outlineAll, ih, List.map_cons]

theorem Node.outlineAll_append (word assigned : String → String) (first second : List Node) :
    Node.outlineAll word assigned (first ++ second) =
      Node.outlineAll word assigned first ++ Node.outlineAll word assigned second := by
  simp only [outlineAll_eq_map, List.map_append]

/-- The nodes right below a node, but for the parts of words. -/
def Node.written : Node → List Node
  | .word .. | .assignment .. => []
  | node => node.children

/-- A property of a tree and of all that stands in it, but for what stands in its words. -/
inductive Node.Throughout (holds : Node → Prop) : Node → Prop where
  | intro {node : Node} (own : holds node) (each : ∀ child ∈ node.written, Throughout holds child) :
      Throughout holds node

section
variable {holds : Node → Prop}

theorem Node.Throughout.own {node : Node} (throughout : node.Throughout holds) : holds node := by
  cases throughout with
  | intro own _ => exact own

theorem Node.Throughout.each {node : Node} (throughout : node.Throughout holds) :
    ∀ child ∈ node.written, child.Throughout holds := by
  cases throughout with
  | intro _ each => exact each

mutual

theorem Node.throughout (all : ∀ node, holds node) : ∀ node : Node, node.Throughout holds
  | .command parts _ | .pipeline parts _ | .list parts _ =>
    .intro (all _) (Node.throughoutAll all parts)
  | .word .. | .assignment .. | .parameter .. | .pipe .. | .operator .. | .reserved .. =>
    .intro (all _) (by simp [Node.written, Node.children])
  | .substitution command _ =>
    .intro (all _) (List.forall_mem_singleton.mpr (Node.throughout all command))
  | .compound parts redirects _ => .intro (all _) (List.forall_mem_append.mpr
    ⟨Node.throughoutAll all parts, Node.throughoutAll all redirects⟩)
  | .redirect _ target _ =>
    .intro (all _) (List.forall_mem_singleton.mpr (Node.throughout all target))
  | .forLoop _ items body _ => .intro (all _) (List.forall_mem_append.mpr
    ⟨Node.throughoutAll all items, List.forall_mem_singleton.mpr (Node.throughout all body)⟩)
  | .conditional clauses _ => .intro (all _) (Clause.throughoutAll all clauses)
  | .function _ body _ => .intro (all _) (List.forall_mem_singleton.mpr (Node.throughout all body))

theorem Node.throughoutAll (all : ∀ node, holds node) :
    ∀ nodes : List Node, ∀ node ∈ nodes, node.Throughout holds
  | [] => by simp
  | node :: rest => List.forall_mem_cons.mpr ⟨Node.throughout all node, Node.throughoutAll all rest⟩

theorem Clause.throughoutAll (all : ∀ node, holds node) : ∀ clauses : List Clause,
    ∀ node ∈ clauses.flatMap fun clause => clause.condition.toList ++ [clause.body],
      node.Throughout holds
  | [] => by simp
  | .mk _ none body :: rest => List.forall_mem_cons.mpr
    ⟨Node.throughout all body, Clause.throughoutAll all rest⟩
  | .mk _ (some condition) body :: rest => List.forall_mem_cons.mpr
    ⟨Node.throughout all condition, List.forall_mem_cons.mpr
      ⟨Node.throughout all body, Clause.throughoutAll all rest⟩⟩

end

end

mutual

/-- Whether a check succeeds on a tree and on all that stands in it, but for what stands in its
words. -/
def Node.everywhere (check : Node → Bool) : Node → Bool
  | .command parts span => check (.command parts span) && Node.everywhereAll check parts
  | .pipeline parts span => check (.pipeline parts span) && Node.everywhereAll check parts
  | .list parts span => check (.list parts span) && Node.everywhereAll check parts
  | .substitution inner span => check (.substitution inner span) && inner.everywhere check
  | .compound parts redirects span => check (.compound parts redirects span) &&
    Node.everywhereAll check parts && Node.everywhereAll check redirects
  | .redirect kind target span => check (.redirect kind target span) && target.everywhere check
  | .forLoop name items body span => check (.forLoop name items body span) &&
    Node.everywhereAll check items && body.everywhere check
  | .conditional clauses span => check (.conditional clauses span) &&
    Clause.everywhereAll check clauses
  | .function name body span => check (.function name body span) && body.everywhere check
  | node => check node

def Node.everywhereAll (check : Node → Bool) : List Node → Bool
  | [] => true
  | node :: rest => node.everywhere check && Node.everywhereAll check rest

def Clause.everywhereAll (check : Node → Bool) : List Clause → Bool
  | [] => true
  | .mk _ none body :: rest => body.everywhere check && Clause.everywhereAll check rest
  | .mk _ (some condition) body :: rest =>
    condition.everywhere check && body.everywhere check && Clause.everywhereAll check rest

end

section
variable {check : Node → Bool}

mutual

theorem Node.throughout_of_everywhere : ∀ node : Node, node.everywhere check = true →
    node.Throughout (check · = true)
  | .command parts span, all | .pipeline parts span, all | .list parts span, all => by
    simp only [Node.everywhere, Bool.and_eq_true] at all
    exact .intro all.1 (Node.throughoutAll_of_everywhere parts all.2)
  | .word .., all | .assignment .., all | .parameter .., all | .pipe .., all | .operator .., all
  | .reserved .., all => .intro all (by simp [Node.written, Node.children])
  | .substitution inner span, all => by
    simp only [Node.everywhere, Bool.and_eq_true] at all
    exact .intro all.1 (List.forall_mem_singleton.mpr (Node.throughout_of_everywhere inner all.2))
  | .compound parts redirects span, all => by
    simp only [Node.everywhere, Bool.and_eq_true] at all
    exact .intro all.1.1 (List.forall_mem_append.mpr
      ⟨Node.throughoutAll_of_everywhere parts all.1.2,
        Node.throughoutAll_of_everywhere redirects all.2⟩)
  | .redirect kind target span, all => by
    simp only [Node.everywhere, Bool.and_eq_true] at all
    exact .intro all.1 (List.forall_mem_singleton.mpr (Node.throughout_of_everywhere target all.2))
  | .forLoop name items body span, all => by
    simp only [Node.everywhere, Bool.and_eq_true] at all
    exact .intro all.1.1 (List.forall_mem_append.mpr
      ⟨Node.throughoutAll_of_everywhere items all.1.2,
        List.forall_mem_singleton.mpr (Node.throughout_of_everywhere body all.2)⟩)
  | .conditional clauses span, all => by
    simp only [Node.everywhere, Bool.and_eq_true] at all
    exact .intro all.1 (Clause.throughoutAll_of_everywhere clauses all.2)
  | .function name body span, all => by
    simp only [Node.everywhere, Bool.and_eq_true] at all
    exact .intro all.1 (List.forall_mem_singleton.mpr (Node.throughout_of_everywhere body all.2))

theorem Node.throughoutAll_of_everywhere : ∀ nodes : List Node,
    Node.everywhereAll check nodes = true → ∀ node ∈ nodes, node.Throughout (check · = true)
  | [], _ => by simp
  | node :: rest, all => by
    simp only [Node.everywhereAll, Bool.and_eq_true] at all
    exact List.forall_mem_cons.mpr ⟨Node.throughout_of_everywhere node all.1,
      Node.throughoutAll_of_everywhere rest all.2⟩

theorem Clause.throughoutAll_of_everywhere : ∀ clauses : List Clause,
    Clause.everywhereAll check clauses = true →
      ∀ node ∈ clauses.flatMap fun clause => clause.condition.toList ++ [clause.body],
        node.Throughout (check · = true)
  | [], _ => by simp
  | .mk _ none body :: rest, all => by
    simp only [Clause.everywhereAll, Bool.and_eq_true] at all
    exact List.forall_mem_cons.mpr ⟨Node.throughout_of_everywhere body all.1,
      Clause.throughoutAll_of_everywhere rest all.2⟩
  | .mk _ (some condition) body :: rest, all => by
    simp only [Clause.everywhereAll, Bool.and_eq_true] at all
    exact List.forall_mem_cons.mpr ⟨Node.throughout_of_everywhere condition all.1.1,
      List.forall_mem_cons.mpr ⟨Node.throughout_of_everywhere body all.1.2,
        Clause.throughoutAll_of_everywhere rest all.2⟩⟩

end

end

theorem Node.shellJoined_cons (node second : Node) (rest : List Node) :
    Node.shellJoined (node :: second :: rest) =
      node.shell ++ " " ++ Node.shellJoined (second :: rest) := by
  rw [shellJoined]
  exact fun none => by cases none

section
variable {word assigned : String → String}

theorem Node.shellJoined_outline {nodes : List Node}
    (same : ∀ node ∈ nodes, (node.outline word assigned).shell = node.shell) :
    Node.shellJoined (Node.outlineAll word assigned nodes) = Node.shellJoined nodes := by
  induction nodes with
  | nil => rfl
  | cons node rest ih =>
    obtain ⟨here, later⟩ := List.forall_mem_cons.mp same
    cases rest with
    | nil => exact here
    | cons second rest =>
      have others := ih later
      rw [outlineAll] at others
      rw [outlineAll, outlineAll, shellJoined_cons, shellJoined_cons, here, others]

theorem Node.shellRedirects_outline {nodes : List Node}
    (same : ∀ node ∈ nodes, (node.outline word assigned).shell = node.shell) :
    Node.shellRedirects (Node.outlineAll word assigned nodes) = Node.shellRedirects nodes := by
  induction nodes with
  | nil => rfl
  | cons node rest ih =>
    obtain ⟨here, later⟩ := List.forall_mem_cons.mp same
    rw [outlineAll, shellRedirects, shellRedirects, here, ih later]

theorem Node.shellList_outline (spaced : Bool) {nodes : List Node}
    (same : ∀ node ∈ nodes, (node.outline word assigned).shell = node.shell) :
    Node.shellList spaced (Node.outlineAll word assigned nodes) = Node.shellList spaced nodes := by
  induction nodes generalizing spaced with
  | nil => rfl
  | cons node rest ih =>
    obtain ⟨here, later⟩ := List.forall_mem_cons.mp same
    cases node with
    | operator op span => rw [outlineAll, outline, shellList, shellList, ih _ later]
    | _ =>
      simp only [outlineAll, outline] at here ⊢
      simp only [shellList, here, ih _ later]

theorem Node.shellGroup_outline {nodes : List Node}
    (same : ∀ node ∈ nodes, (node.outline word assigned).shell = node.shell) :
    Node.shellGroup (Node.outlineAll word assigned nodes) = Node.shellGroup nodes := by
  induction nodes with
  | nil => rfl
  | cons node rest ih =>
    obtain ⟨here, later⟩ := List.forall_mem_cons.mp same
    cases node with
    | reserved word span => rw [outlineAll, outline, shellGroup, shellGroup, ih later]
    | _ =>
      simp only [outlineAll, outline] at here ⊢
      simp only [shellGroup, here, ih later]

/-- What the changed texts of a node come to is what the texts themselves come to, for one more
change and in the shell text. -/
def Node.Retold (word assigned another other : String → String) : Node → Prop
  | .word text _ _ _ =>
    another (word text) = another text ∧ Word.quote (word text) = Word.quote text
  | .assignment text _ _ =>
    other (assigned text) = other text ∧ assignmentText (assigned text) = assignmentText text
  | _ => True

theorem Clause.shellAll_outline {clauses : List Clause}
    (same : ∀ node ∈ clauses.flatMap fun clause => clause.condition.toList ++ [clause.body],
      (node.outline word assigned).shell = node.shell) :
    Clause.shellAll (Clause.outlineAll word assigned clauses) = Clause.shellAll clauses := by
  induction clauses with
  | nil => rfl
  | cons clause rest ih =>
    obtain ⟨here, later⟩ := List.forall_mem_append.mp same
    rcases clause with ⟨keyword, _ | condition, body⟩
    · have body := here _ (List.mem_singleton_self _)
      simp only [Clause.body] at body
      rw [outlineAll, shellAll, shellAll, outline, shell, shell, body, ih later]
    · obtain ⟨condition, body⟩ := List.forall_mem_cons.mp here
      have body := body _ (List.mem_singleton_self _)
      simp only [Clause.body] at body
      rw [outlineAll, shellAll, shellAll, outline, shell, shell, condition, body, ih later]

theorem Node.outlineAll_retold {another other : String → String} {nodes : List Node}
    (same : ∀ node ∈ nodes,
      (node.outline word assigned).outline another other = node.outline another other) :
    Node.outlineAll another other (Node.outlineAll word assigned nodes) =
      Node.outlineAll another other nodes := by
  simp only [outlineAll_eq_map, List.map_map]
  exact List.map_congr_left same

theorem Clause.outlineAll_retold {another other : String → String} {clauses : List Clause}
    (same : ∀ node ∈ clauses.flatMap fun clause => clause.condition.toList ++ [clause.body],
      (node.outline word assigned).outline another other = node.outline another other) :
    Clause.outlineAll another other (Clause.outlineAll word assigned clauses) =
      Clause.outlineAll another other clauses := by
  induction clauses with
  | nil => rfl
  | cons clause rest ih =>
    obtain ⟨here, later⟩ := List.forall_mem_append.mp same
    rcases clause with ⟨keyword, _ | condition, body⟩
    · have body := here _ (List.mem_singleton_self _)
      simp only [Clause.body] at body
      rw [outlineAll, outlineAll, outlineAll, outline, outline, outline, body, ih later]
    · obtain ⟨condition, body⟩ := List.forall_mem_cons.mp here
      have body := body _ (List.mem_singleton_self _)
      simp only [Clause.body] at body
      rw [outlineAll, outlineAll, outlineAll, outline, outline, outline, condition, body, ih later]

theorem Node.Throughout.retold {another other : String → String} {node : Node}
    (throughout : node.Throughout (Node.Retold word assigned another other)) :
    (node.outline word assigned).outline another other = node.outline another other ∧
      (node.outline word assigned).shell = node.shell := by
  induction throughout with
  | @intro node own each ih =>
    have traced := fun child member => (ih child member).1
    have shown := fun child member => (ih child member).2
    cases node with
    | command parts span =>
      exact ⟨congrArg (command · default) (outlineAll_retold traced), shellJoined_outline shown⟩
    | pipeline parts span =>
      exact ⟨congrArg (pipeline · default) (outlineAll_retold traced), shellJoined_outline shown⟩
    | list parts span =>
      exact ⟨congrArg (list · default) (outlineAll_retold traced), shellList_outline false shown⟩
    | word text parts quoted span =>
      exact ⟨congrArg (Node.word · [] false default) own.1, own.2⟩
    | assignment text parts span =>
      exact ⟨congrArg (assignment · [] default) own.1, own.2⟩
    | substitution inner span | redirect kind inner span | function name inner span =>
      have inside := traced inner (List.mem_singleton_self _)
      have text := shown inner (List.mem_singleton_self _)
      simp only [outline, shell, inside, text, and_self]
    | compound parts redirects span =>
      obtain ⟨here, there⟩ := List.forall_mem_append.mp traced
      obtain ⟨first, second⟩ := List.forall_mem_append.mp shown
      simp only [outline, shell, outlineAll_retold here, outlineAll_retold there,
        shellGroup_outline first, shellRedirects_outline second, and_self]
    | forLoop name items body span =>
      obtain ⟨here, there⟩ := List.forall_mem_append.mp traced
      obtain ⟨first, second⟩ := List.forall_mem_append.mp shown
      have inside := there body (List.mem_singleton_self _)
      have text := second body (List.mem_singleton_self _)
      simp only [outline, shell, outlineAll_retold here, inside, shellJoined_outline first, text,
        and_self]
    | conditional clauses span =>
      have inside := Clause.outlineAll_retold traced
      have text := Clause.shellAll_outline shown
      simp only [outline, shell, inside, text, and_self]
    | parameter | pipe | operator | reserved => exact ⟨rfl, rfl⟩

/-- Neither another change of the texts nor the shell text depends on the places. -/
theorem Node.shape_retold (node : Node) : node.shape.outline word assigned =
    node.outline word assigned ∧ node.shape.shell = node.shell :=
  Throughout.retold (throughout (fun other => by cases other <;> simp [Retold]) node)

end

end StepShell

import StepShell.Proofs.Compilation.Balance
import StepShell.Proofs.Compilation.Unrolling
import StepShell.Proofs.Script.Defines

/-! Compiling in another place. What a node is compiled to does not depend on the slots that are
there already: they only decide which numbers the new slots have. -/

namespace StepShell

namespace Node

/-- Whether compiling the node itself asks about the values of a loop or defines a function. -/
def unrolls : Node → Bool
  | .forLoop .. | .function .. => true
  | _ => false

/-- No loop and no definition of a function stands anywhere in the tree. -/
def Still (root : Node) : Prop :=
  ∀ node, Within node root → node.unrolls = false

theorem Still.child {root child : Node} (still : root.Still) (member : child ∈ root.children) :
    child.Still :=
  fun node within => still node (.inside member within)

theorem still_of_children {root : Node} (plain : root.unrolls = false)
    (each : ∀ child ∈ root.children, child.Still) : root.Still := by
  intro node within
  cases within with
  | self => exact plain
  | inside member within => exact each _ member node within

theorem mem_children_of_together {node child : Node} (member : child ∈ node.together) :
    child ∈ node.children := by
  cases node with
  | list | pipeline => exact member
  | compound => exact List.mem_append_left _ member
  | forLoop => exact List.mem_append_right _ member
  | _ => cases member

/-- A node without loops and definitions is settled in every setting. -/
theorem Still.settled {ω : Type} [Operator ω] {setting : Compilation.Setting} {root : Node}
    (still : root.Still) (values : Node → List String) : root.Settled ω setting values := by
  refine ⟨fun defining => ?_, fun item unrolls => ?_⟩
  · induction defining with
    | own => exact Bool.noConfusion (still _ .self)
    | inside member _ ih => exact ih (still.child (mem_children_of_together member))
  · induction unrolls with
    | own => exact Bool.noConfusion (still _ .self)
    | inside member _ ih => exact ih (still.child (mem_children_of_together member))

end Node

namespace Operation

/-- The operation with its slot in another place. -/
def moved (place : Nat → Nat) : Operation → Operation
  | .readRedirect slot index => .readRedirect (place slot) index
  | .writeRedirect slot index append => .writeRedirect (place slot) index append
  | .run slot => .run (place slot)
  | .assign slot => .assign (place slot)
  | .enterSubstitution slot word part => .enterSubstitution (place slot) word part
  | .leaveSubstitution slot word part => .leaveSubstitution (place slot) word part
  | operation => operation

theorem moved_id (operation : Operation) : operation.moved id = operation := by
  cases operation <;> rfl

/-- Whether the operation looks at what is on the screen. -/
def looks : Operation → Bool
  | .judge _ | .writeRedirect .. => true
  | _ => false

end Operation

/-- The second actions do in their slots what the first ones do in theirs. What looks at the screen
stands right before the end of a capture. -/
inductive Follows (place : Nat → Nat) : List Action → List Action → Prop where
  | done : Follows place [] []
  | next {action twin : Action} {first second : List Action}
      (same : twin.operation = action.operation.moved place)
      (blind : action.operation.looks = false) (later : Follows place first second) :
      Follows place (action :: first) (twin :: second)
  | looking {action twin closing closed : Action} {first second : List Action}
      (same : twin.operation = action.operation.moved place)
      (ends : closing.operation = .endCapture) (ended : closed.operation = .endCapture)
      (later : Follows place first second) :
      Follows place (action :: closing :: first) (twin :: closed :: second)

namespace Follows

variable {place : Nat → Nat} {first second early late : List Action}

theorem append (before : Follows place first second) (after : Follows place early late) :
    Follows place (first ++ early) (second ++ late) := by
  induction before with
  | done => exact after
  | next same blind _ ih => exact .next same blind ih
  | looking same ends ended _ ih => exact .looking same ends ended ih

theorem single {action twin : Action} (same : twin.operation = action.operation.moved place)
    (blind : action.operation.looks = false) : Follows place [action] [twin] :=
  .next same blind .done

theorem optional {action twin : Action} (same : twin.operation = action.operation.moved place)
    (blind : action.operation.looks = false) (given : Bool) :
    Follows place (if given then [action] else []) (if given then [twin] else []) := by
  cases given with
  | false => exact .done
  | true => exact .single same blind

theorem isEmpty (follows : Follows place first second) : second.isEmpty = first.isEmpty := by
  cases follows <;> rfl

theorem flatMap {α : Type} {items : List α} {actions twins : α → List Action}
    (each : ∀ item ∈ items, Follows place (actions item) (twins item)) :
    Follows place (items.flatMap actions) (items.flatMap twins) := by
  induction items with
  | nil => exact .done
  | cons item rest ih =>
    obtain ⟨start, later⟩ := List.forall_mem_cons.mp each
    rw [List.flatMap_cons, List.flatMap_cons]
    exact start.append (ih later)

theorem tail {action act : Action} (follows : Follows place (action :: first) (act :: second)) :
    Follows place first second := by
  cases follows with
  | next _ _ later => exact later
  | looking _ ends ended later =>
    refine .next ?_ ?_ later
    · rw [ends, ended]
      rfl
    · rw [ends]
      rfl

theorem head {action act : Action} (follows : Follows place (action :: first) (act :: second)) :
    act.operation = action.operation.moved place := by
  cases follows with
  | next same _ _ => exact same
  | looking same _ _ _ => exact same

end Follows

namespace Compilation

section
variable {place : Nat → Nat}

theorem substitutions_follows (slot : Nat) (parts : List Node) (pass : Pass) :
    Follows place (substitutions slot parts pass) (substitutions (place slot) parts pass) := by
  refine .flatMap fun part _ => .flatMap fun node _ => ?_
  unfold substitutionPair
  split
  · exact .next rfl rfl (.single rfl rfl)
  · exact .done

theorem opening_follows (redirects : Redirects) (slot : Nat) (kind : String) :
    Follows place (redirects.opening slot kind) (redirects.opening (place slot) kind) := by
  obtain ⟨input, output⟩ := redirects
  refine .append ?_ ?_
  · cases output with
    | none => exact .done
    | some => exact .single rfl rfl
  · cases input with
    | none => exact .done
    | some => exact .single rfl rfl

theorem closing_follows (redirects : Redirects) (slot : Nat) (kind : String) :
    Follows place (redirects.closing slot kind) (redirects.closing (place slot) kind) := by
  obtain ⟨input, _ | ⟨index, append⟩⟩ := redirects
  · exact .done
  · exact .next rfl rfl (.looking rfl rfl rfl .done)

theorem commandActions_follows (slot : Nat) (redirects : Redirects) (source : String)
    (parts : List Node) :
    Follows place (commandActions slot redirects source parts)
      (commandActions (place slot) redirects source parts) :=
  .append (.append (.append (.append (.append (.append (substitutions_follows ..)
    (opening_follows ..)) (.optional rfl rfl _)) (substitutions_follows ..))
      (.optional rfl rfl _)) (.optional rfl rfl _)) (closing_follows ..)

theorem clauseActions_follows (earlier : List String) (clauses : List Clause) :
    Follows place (clauseActions earlier clauses) (clauseActions earlier clauses) := by
  induction clauses generalizing earlier with
  | nil => exact .done
  | cons clause rest ih =>
    rcases clause with ⟨keyword, _ | condition, body⟩
    · exact .next rfl rfl (.next rfl rfl (ih _))
    · exact .next rfl rfl (.next rfl rfl (ih _))

theorem reservedActions_follows {text : String} {actions : List Action}
    (known : reservedActions text = .ok actions) : Follows place actions actions := by
  unfold reservedActions at known
  split at known
  · cases known
    exact .single rfl rfl
  · split at known
    · cases known
      exact .single rfl rfl
    · split at known <;> cases known
      exact .done

end

/-- The slots from `first` on, so many of them, stand from `second` on. -/
def Shifted (place : Nat → Nat) (first second count : Nat) : Prop :=
  ∀ offset < count, place (first + offset) = second + offset

theorem Shifted.split {place : Nat → Nat} {first second early late : Nat}
    (shifted : Shifted place first second (early + late)) :
    Shifted place first second early ∧ Shifted place (first + early) (second + early) late := by
  refine ⟨fun offset below => shifted offset (by omega), fun offset below => ?_⟩
  have whole := shifted (early + offset) (by omega)
  rwa [← Nat.add_assoc, ← Nat.add_assoc] at whole

/-- Wherever the slots start, some way of placing them moves them there. -/
theorem exists_shifted (first second count : Nat) : ∃ place, Shifted place first second count :=
  ⟨fun slot => slot - first + second, fun offset _ => by dsimp only; omega⟩

/-- Compiling in two places, with functions and operators that are `around` one another: both add
the same slots, and make the same of them wherever they stand. -/
def Shifts {ω α : Type} (around : Functions × ω → Functions × ω → Prop)
    (compile twin : Compile ω α) (good : (Nat → Nat) → α → α → Prop) : Prop :=
  ∀ first second value other after later,
    around (first.functions, first.operator) (second.functions, second.operator) →
    compile.run first = (.ok value, after) → twin.run second = (.ok other, later) →
    around (after.functions, after.operator) (later.functions, later.operator) ∧
      ∃ added : Array (List Node), after.slots = first.slots ++ added ∧
        later.slots = second.slots ++ added ∧
        ∀ place, Shifted place first.slots.size second.slots.size added.size →
          good place value other

section
variable {ω α β : Type} {around : Functions × ω → Functions × ω → Prop}
  {good : (Nat → Nat) → α → α → Prop} {better : (Nat → Nat) → β → β → Prop}

theorem Shifts.bind {compile twin : Compile ω α} {next other : α → Compile ω β}
    (start : Shifts around compile twin good)
    (rest : ∀ value same, (∃ place, good place value same) →
      Shifts around (next value) (other same) fun place result results =>
        good place value same → better place result results) :
    Shifts around (compile >>= next) (twin >>= other) better := by
  intro first second result results after later together done doing
  obtain ⟨value, middle, made, done⟩ := run_bind_eq_ok.mp done
  obtain ⟨same, between, making, doing⟩ := run_bind_eq_ok.mp doing
  obtain ⟨still, early, grown, growing, holds⟩ := start _ _ _ _ _ _ together made making
  obtain ⟨somewhere, fits⟩ := exists_shifted first.slots.size second.slots.size early.size
  obtain ⟨last, late, ended, ending, better⟩ :=
    rest value same ⟨somewhere, holds somewhere fits⟩ _ _ _ _ _ _ still done doing
  refine ⟨last, early ++ late, ?_, ?_, fun place shifted => ?_⟩
  · rw [ended, grown, Array.append_assoc]
  · rw [ending, growing, Array.append_assoc]
  · rw [Array.size_append] at shifted
    rw [grown, growing, Array.size_append, Array.size_append] at better
    exact better place shifted.split.2 (holds place shifted.split.1)

theorem Shifts.imp {compile twin : Compile ω α} {weaker : (Nat → Nat) → α → α → Prop}
    (shifts : Shifts around compile twin good)
    (imp : ∀ place value same, good place value same → weaker place value same) :
    Shifts around compile twin weaker := by
  intro first second value other after later together done doing
  obtain ⟨still, added, grown, growing, holds⟩ := shifts _ _ _ _ _ _ together done doing
  exact ⟨still, added, grown, growing, fun place shifted => imp _ _ _ (holds place shifted)⟩

/-- After a part that gives the same in every place. -/
theorem Shifts.same {compile twin : Compile ω α} {next other : α → Compile ω β}
    (start : Shifts around compile twin fun _ value same => same = value)
    (rest : ∀ value, Shifts around (next value) (other value) better) :
    Shifts around (compile >>= next) (twin >>= other) better := by
  refine start.bind ?_
  rintro value _ ⟨_, rfl⟩
  exact (rest _).imp fun _ _ _ holds _ => holds

theorem Shifts.pure {value same : α} (holds : ∀ place, good place value same) :
    Shifts around (pure value : Compile ω α) (pure same) good := by
  intro first second result results after later together done doing
  obtain ⟨rfl, rfl⟩ := run_pure_eq_ok.mp done
  obtain ⟨rfl, rfl⟩ := run_pure_eq_ok.mp doing
  exact ⟨together, #[], by simp, by simp, fun place _ => holds place⟩

theorem Shifts.lift {result : Except Failure α} (holds : ∀ value, result = .ok value →
      ∀ place, good place value value) :
    Shifts around (liftM result : Compile ω α) (liftM result) good := by
  intro first second value same after later together done doing
  obtain ⟨rfl, rfl⟩ := run_lift_eq_ok.mp done
  obtain ⟨made, rfl⟩ := run_lift_eq_ok.mp doing
  cases made
  exact ⟨together, #[], by simp, by simp, fun place _ => holds _ rfl place⟩

/-- Two checks that may refuse differ in nothing else. -/
theorem Shifts.checks {result other : Except Failure Unit} :
    Shifts around (liftM result : Compile ω Unit) (liftM other) fun _ _ _ => True := by
  intro first second value same after later together done doing
  obtain ⟨_, rfl⟩ := run_lift_eq_ok.mp done
  obtain ⟨_, rfl⟩ := run_lift_eq_ok.mp doing
  exact ⟨together, #[], by simp, by simp, fun _ _ => trivial⟩

theorem Shifts.throw {failure : Failure} {twin : Compile ω α} :
    Shifts around (throw failure) twin good :=
  fun _ _ _ _ _ _ _ done _ => absurd done run_throw_eq_ok

theorem Shifts.mapM {items : List β} {compile twin : β → Compile ω (List Action)}
    (each : ∀ item ∈ items, Shifts around (compile item) (twin item) Follows) :
    Shifts around (items.mapM compile) (items.mapM twin) fun place rounds others =>
      Follows place rounds.flatten others.flatten := by
  induction items with
  | nil =>
    rw [List.mapM_nil, List.mapM_nil]
    exact .pure fun _ => .done
  | cons first rest ih =>
    obtain ⟨start, later⟩ := List.forall_mem_cons.mp each
    rw [List.mapM_cons, List.mapM_cons]
    refine start.bind fun round other _ => (ih later).bind fun rounds others _ => ?_
    refine .pure fun place follows early => ?_
    rw [List.flatten_cons, List.flatten_cons]
    exact early.append follows

theorem newSlot_shifts {parts : List Node} :
    Shifts around (newSlot parts) (newSlot parts) fun place slot twin => twin = place slot := by
  intro first second value other after later together done doing
  cases done
  cases doing
  refine ⟨together, #[parts], Array.push_eq_append, Array.push_eq_append, fun place shifted => ?_⟩
  exact (shifted 0 (Nat.succ_pos 0)).symm

/-- Defining a function where the functions are the same. -/
theorem define_shifts {name : String} {body : Node} :
    Shifts Eq (define name body : Compile ω Unit) (define name body) fun _ _ _ => True := by
  intro first second value other after later together done doing
  cases done
  cases doing
  refine ⟨?_, #[], by simp, by simp, fun _ _ => trivial⟩
  obtain ⟨functions, operator⟩ := Prod.mk.inj together
  exact Prod.ext (congrArg (Table.insert · name body) functions) operator

/-- Where operators are the same they give the same answer. -/
theorem Shifts.asked (question : ω → α × ω) (next : α → Compile ω β)
    (rest : ∀ answer, Shifts Eq (next answer) (next answer) better) :
    Shifts Eq
      (do
        let compilation ← get
        let (answer, operator) := question compilation.operator
        set { compilation with operator }
        next answer)
      (do
        let compilation ← get
        let (answer, operator) := question compilation.operator
        set { compilation with operator }
        next answer) better := by
  intro first second value other after later together done doing
  obtain ⟨functions, operator⟩ := Prod.mk.inj together
  rw [run_get_bind] at done doing
  rw [← operator] at doing
  obtain ⟨_, middle, noted, answered⟩ := run_bind_eq_ok.mp done
  obtain ⟨_, between, noting, answering⟩ := run_bind_eq_ok.mp doing
  have same : (middle.functions, middle.operator) = (between.functions, between.operator) := by
    rw [run_set_eq_ok.mp noted, run_set_eq_ok.mp noting]
    exact Prod.ext functions rfl
  obtain ⟨still, added, grown, growing, holds⟩ := rest _ _ _ _ _ _ _ same answered answering
  rw [run_set_eq_ok.mp noted, run_set_eq_ok.mp noting] at holds
  rw [run_set_eq_ok.mp noted] at grown
  rw [run_set_eq_ok.mp noting] at growing
  exact ⟨still, added, grown, growing, holds⟩

end

section
variable {ω : Type} [Operator ω] {setting : Setting}

omit [Operator ω] in
/-- Whatever the answer, it gives the same values in every place. -/
theorem answer_shifts (quoted : Bool) (answer : Option String) :
    Shifts Eq
      (match answer with
        | some answer => return if quoted then [answer] else Text.words answer
        | none => return [] : Compile ω (List String))
      (match answer with
        | some answer => return if quoted then [answer] else Text.words answer
        | none => return [])
      fun _ values same => same = values := by
  cases answer <;> exact .pure fun _ => rfl

theorem itemValues_shifts {item : Node} :
    Shifts Eq (itemValues setting item : Compile ω (List String)) (itemValues setting item)
      fun _ values same => same = values := by
  unfold itemValues
  split
  · rename_i text parts quoted span
    split
    · have asked := Shifts.asked (Operator.items (Node.word text parts quoted span).shell : ω → _)
        _ (answer_shifts quoted)
      exact asked
    · split <;> exact .pure fun _ => rfl
  · exact .pure fun _ => rfl

theorem valuesOfItems_shifts {items : List Node} :
    Shifts Eq (valuesOfItems setting items : Compile ω (List String)) (valuesOfItems setting items)
      fun _ values same => same = values := by
  induction items with
  | nil => exact .pure fun _ => rfl
  | cons first rest ih => exact itemValues_shifts.same fun _ => ih.same fun _ => .pure fun _ => rfl

section
variable {around : Functions × ω → Functions × ω → Prop} {twin : Setting}

/-- Parts are compiled in another place as each of them is, if their signs and what leads to them
name no place. -/
theorem compileEach_shifts {sign : Node → Option Action} {lead : List Action} {parts : List Node}
    (signs : ∀ place part action, sign part = some action → Follows place [action] [action])
    (leads : ∀ place, Follows place lead lead)
    (each : ∀ part ∈ parts, Shifts around
      (part.compile setting : Compile ω (List Action)) (part.compile twin) Follows) :
    Shifts around (Node.compileEach sign lead setting parts : Compile ω (List Action))
      (Node.compileEach sign lead twin parts) Follows := by
  induction parts with
  | nil => exact .pure fun _ => .done
  | cons part rest ih =>
    obtain ⟨first, later⟩ := List.forall_mem_cons.mp each
    rw [Node.compileEach, Node.compileEach]
    cases signed : sign part with
    | some action =>
      refine (ih later).bind fun actions others _ => .pure fun place follows => ?_
      exact (signs place part action signed).append follows
    | none =>
      refine first.bind fun actions others _ => (ih later).bind fun after behind _ => ?_
      exact .pure fun place follows early => ((leads place).append early).append follows

theorem operatorSign_follows (place : Nat → Nat) (part : Node) (action : Action)
    (signed : Node.operatorSign part = some action) : Follows place [action] [action] := by
  cases part <;> cases signed
  exact .next rfl rfl .done

theorem pipeSign_follows (place : Nat → Nat) (part : Node) (action : Action)
    (signed : Node.pipeSign part = some action) : Follows place [action] [action] := by
  cases part <;> cases signed
  exact .next rfl rfl .done

theorem compilePipeline_shifts {parts : List Node} (each : ∀ part ∈ parts, Shifts around
      (part.compile setting : Compile ω (List Action)) (part.compile twin) Follows) :
    Shifts around (Node.compilePipeline setting parts : Compile ω (List Action))
      (Node.compilePipeline twin parts) Follows := by
  rw [Node.compilePipeline_eq, Node.compilePipeline_eq]
  exact compileEach_shifts pipeSign_follows (fun _ => .done) each

theorem compileAll_shifts {parts : List Node} (each : ∀ part ∈ parts, Shifts around
      (part.compile setting : Compile ω (List Action)) (part.compile twin) Follows) :
    Shifts around (Node.compileAll setting parts : Compile ω (List Action))
      (Node.compileAll twin parts) Follows := by
  rw [Node.compileAll_eq, Node.compileAll_eq]
  refine compileEach_shifts ?_ (fun _ => .done) each
  intro place part action signed
  cases signed

/-- The actions of one round of a loop. -/
def round (setting : Setting) (name : String) (body : Node) (value : String) :
    Compile ω (List Action) := do
  let actions ← body.compile setting
  return .plain (.bindLoop name value) "Set loop iterator value for next itr" :: actions ++
    [.plain .flush "iterate for loop"]

theorem round_shifts {name value : String} {body : Node}
    (inside : Shifts around (body.compile setting : Compile ω (List Action)) (body.compile twin)
      Follows) :
    Shifts around (round setting name body value : Compile ω (List Action))
      (round twin name body value) Follows :=
  inside.bind fun _ _ _ => .pure fun _ follows =>
    .append (.next rfl rfl follows) (.single rfl rfl)

/-- Compiling in another place makes the same actions, for the slots of that place. Only the lists
of loops and definitions of functions need the variables, functions and operator to be the same
there. -/
theorem compile_shifts (node : Node) (fits : (around = Eq ∧ twin = setting) ∨
      ∃ values, node.Settled ω setting values ∧ node.Settled ω twin values) :
    Shifts around (node.compile setting : Compile ω (List Action)) (node.compile twin) Follows := by
  have below : ∀ child ∈ node.together, (around = Eq ∧ twin = setting) ∨
      ∃ values, child.Settled ω setting values ∧ child.Settled ω twin values := by
    intro child member
    refine fits.imp_right ?_
    rintro ⟨values, settled, other⟩
    exact ⟨values, settled.child member, other.child member⟩
  cases node with
  | list parts _ =>
    rw [Node.compile, Node.compile, Node.compileSequence_eq, Node.compileSequence_eq]
    have flushed : ∀ place, Follows place [.plain .flush "Resetting for new command"]
        [.plain .flush "Resetting for new command"] := fun _ => .next rfl rfl .done
    refine (compileEach_shifts operatorSign_follows flushed fun part member => ?_).bind
      fun _ _ _ => .pure fun _ follows => .next rfl rfl follows
    exact compile_shifts part (below part member)
  | pipeline parts _ =>
    rw [Node.compile, Node.compile]
    exact compilePipeline_shifts fun part member => compile_shifts part (below part member)
  | command parts _ =>
    rw [Node.compile, Node.compile]
    refine Shifts.same (.lift fun _ _ _ => rfl) fun redirects => newSlot_shifts.bind fun _ _ _ => ?_
    refine .pure ?_
    rintro place rfl
    exact commandActions_follows ..
  | compound parts redirects _ =>
    have inside : ∀ part ∈ parts, Shifts around (part.compile setting : Compile ω (List Action))
        (part.compile twin) Follows := fun part member =>
      compile_shifts part (below part member)
    cases redirects with
    | nil =>
      rw [compile_group, compile_group]
      exact compileAll_shifts inside
    | cons first rest =>
      rw [Node.compile, Node.compile]
      refine Shifts.same (.lift fun _ _ _ => rfl) fun redirects => ?_
      refine newSlot_shifts.bind fun _ _ _ => (compileAll_shifts inside).bind fun _ _ _ => ?_
      refine .pure ?_
      rintro place inside rfl
      exact .append (.append (.append (substitutions_follows ..) (opening_follows ..)) inside)
        (closing_follows ..)
  | forLoop name items body _ =>
    have inside := compile_shifts body (below body (.head _))
    have listed : Shifts around (valuesOfItems setting items : Compile ω (List String))
        (valuesOfItems twin items) fun _ values same => same = values := by
      rcases fits with ⟨rfl, rfl⟩ | ⟨values, settled, other⟩
      · exact valuesOfItems_shifts
      · rw [valuesOfItems_known fun item member => settled.lists item (.own member),
          valuesOfItems_known fun item member => other.lists item (.own member)]
        exact .pure fun _ => rfl
    rw [Node.compile, Node.compile]
    refine listed.same fun values => Shifts.checks.bind fun _ _ _ => Shifts.imp ?_
      fun _ _ _ holds _ => holds
    refine (Shifts.mapM fun value _ => round_shifts inside).bind fun _ _ _ => .pure ?_
    exact fun place follows => .append (.next rfl rfl follows) (.next rfl rfl (.single rfl rfl))
  | conditional clauses _ =>
    rw [Node.compile, Node.compile]
    exact .pure fun _ => clauseActions_follows ..
  | reserved text _ =>
    rw [Node.compile, Node.compile]
    exact .lift fun _ known _ => reservedActions_follows known
  | function name body _ =>
    obtain ⟨rfl, rfl⟩ | ⟨_, settled, _⟩ := fits
    · rw [Node.compile]
      exact define_shifts.bind fun _ _ _ => .pure fun _ _ => .done
    · exact absurd .own settled.plain
  | word | assignment | substitution | parameter | pipe | operator | redirect =>
    simp only [Node.compile]
    exact .throw
termination_by sizeOf node

theorem compile_shifts_eq (node : Node) (setting : Setting) :
    Shifts Eq (node.compile setting : Compile ω (List Action)) (node.compile setting) Follows :=
  compile_shifts node (.inl ⟨rfl, rfl⟩)

/-- Actions stand for themselves where the slots that they name stay. -/
theorem compile_stands {node : Node} {before after : Compilation ω} {actions : List Action}
    (made : (node.compile setting).run before = (.ok actions, after)) {place : Nat → Nat}
    (fixed : ∀ slot < after.slots.size, place slot = slot) : Follows place actions actions := by
  have shifts : Shifts Eq (node.compile setting : Compile ω (List Action)) (node.compile setting)
      Follows := compile_shifts_eq node setting
  obtain ⟨_, added, grown, _, follows⟩ := shifts _ _ _ _ _ _ rfl made made
  refine follows place fun slot below => fixed _ ?_
  rw [grown, Array.size_append]
  omega

/-- Of a settled node, compiling changes nothing but the slots and looks at nothing but the lists of
loops. -/
theorem settled_compile {values : Node → List String} {node : Node}
    (settled : node.Settled ω setting values) (other : node.Settled ω twin values)
    {first second after later : Compilation ω} {actions others : List Action}
    (made : (node.compile setting).run first = (.ok actions, after))
    (making : (node.compile twin).run second = (.ok others, later)) :
    (after.functions = first.functions ∧ after.operator = first.operator) ∧
      (later.functions = second.functions ∧ later.operator = second.operator) ∧
      ∃ added : Array (List Node), after.slots = first.slots ++ added ∧
        later.slots = second.slots ++ added ∧ ∀ place,
          Shifted place first.slots.size second.slots.size added.size →
            Follows place actions others := by
  have shifts : Shifts (fun alone other => alone = (first.functions, first.operator) ∧
      other = (second.functions, second.operator)) (node.compile setting) (node.compile twin)
      Follows := compile_shifts node (.inr ⟨_, settled, other⟩)
  obtain ⟨⟨kept, keeping⟩, added⟩ := shifts _ _ _ _ _ _ ⟨rfl, rfl⟩ made making
  exact ⟨Prod.mk.inj kept, Prod.mk.inj keeping, added⟩

end

end

end Compilation

end StepShell

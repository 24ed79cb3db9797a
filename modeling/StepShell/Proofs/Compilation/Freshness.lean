import StepShell.Proofs.Compilation.Residue
import StepShell.Proofs.Compilation.Supply

/-! What compiled actions keep away from, whatever node they are compiled from. None of them stores
the truth of a condition, and the substitutions that they resolve stand in slots of their own. -/

namespace StepShell

/-- The operation stores the truth of no condition, and resolves no substitution in a slot before
the mark. -/
def Operation.Fresh (mark : Nat) : Operation → Prop
  | .judge _ => False
  | .enterSubstitution slot _ _ | .leaveSubstitution slot _ _ => mark ≤ slot
  | _ => True

namespace Operation.Fresh

variable {mark : Nat} {operation : Operation}

theorem ne_judge (fresh : operation.Fresh mark) (condition : String) :
    operation ≠ .judge condition := by
  rintro rfl
  exact fresh

theorem le_of_resolves {target : Nat × Nat × Span} (fresh : operation.Fresh mark)
    (resolves : operation.resolves? = some target) : mark ≤ target.1 := by
  cases operation with
  | enterSubstitution | leaveSubstitution =>
    cases resolves
    exact fresh
  | _ => cases resolves

end Operation.Fresh

/-- All these actions are fresh. -/
def AllFresh (mark : Nat) (actions : List Action) : Prop :=
  ∀ action ∈ actions, action.operation.Fresh mark

namespace AllFresh

variable {mark : Nat} {first second actions : List Action}

theorem nil : AllFresh mark [] := by
  simp [AllFresh]

theorem append (early : AllFresh mark first) (late : AllFresh mark second) :
    AllFresh mark (first ++ second) :=
  List.forall_mem_append.mpr ⟨early, late⟩

theorem cons {action : Action} (here : action.operation.Fresh mark)
    (later : AllFresh mark actions) : AllFresh mark (action :: actions) :=
  List.forall_mem_cons.mpr ⟨here, later⟩

theorem single {action : Action} (here : action.operation.Fresh mark) : AllFresh mark [action] :=
  cons here nil

end AllFresh

namespace Compilation

variable {ω α β : Type}

/-- Where the slots reach up to the mark, they still do so behind the step, and what it gives is
good. -/
def Gives (mark : Nat) (step : Compile ω α) (good : α → Prop) : Prop :=
  ∀ before value after, mark ≤ before.slots.size → step.run before = (.ok value, after) →
    mark ≤ after.slots.size ∧ good value

namespace Gives

variable {mark : Nat} {good : α → Prop} {better : β → Prop}

theorem bind {first : Compile ω α} {next : α → Compile ω β} (start : Gives mark first good)
    (rest : ∀ value, good value → Gives mark (next value) better) :
    Gives mark (first >>= next) better := by
  intro before result after reach done
  obtain ⟨value, middle, made, later⟩ := run_bind_eq_ok.mp done
  obtain ⟨reaching, holds⟩ := start before value middle reach made
  exact rest value holds middle result after reaching later

theorem pure {value : α} (holds : good value) : Gives mark (pure value : Compile ω α) good := by
  intro before result after reach done
  obtain ⟨rfl, rfl⟩ := run_pure_eq_ok.mp done
  exact ⟨reach, holds⟩

theorem lift {result : Except Failure α} (holds : ∀ value, result = .ok value → good value) :
    Gives mark (liftM result : Compile ω α) good := by
  intro before value after reach done
  obtain ⟨made, rfl⟩ := run_lift_eq_ok.mp done
  exact ⟨reach, holds value made⟩

theorem throw {failure : Failure} : Gives mark (throw failure : Compile ω α) good :=
  fun _ _ _ _ done => absurd done run_throw_eq_ok

theorem mapM {items : List β} {compile : β → Compile ω α}
    (each : ∀ item ∈ items, Gives mark (compile item) good) :
    Gives mark (items.mapM compile) fun values => ∀ value ∈ values, good value := by
  induction items with
  | nil =>
    rw [List.mapM_nil]
    exact .pure (by simp)
  | cons first rest ih =>
    obtain ⟨start, later⟩ := List.forall_mem_cons.mp each
    rw [List.mapM_cons]
    refine start.bind fun value holds => (ih later).bind fun values all => ?_
    exact .pure (List.forall_mem_cons.mpr ⟨holds, all⟩)

theorem newSlot (parts : List Node) :
    Gives mark (newSlot parts : Compile ω Nat) fun slot => mark ≤ slot := by
  intro before slot after reach done
  cases done
  refine ⟨?_, reach⟩
  rw [Array.size_push]
  exact Nat.le_succ_of_le reach

theorem values [Operator ω] {setting : Setting} (items : List Node) :
    Gives mark (valuesOfItems setting items : Compile ω (List String)) fun _ => True := by
  intro before values after reach done
  have grown : Grown (fun _ => True) before ((valuesOfItems setting items).run before).2 :=
    valuesOfItems_preserves (fun _ _ _ => trivial) (.refl _ before)
  rw [done] at grown
  obtain ⟨added, same⟩ := grown.slots
  refine ⟨?_, trivial⟩
  rw [same, Array.size_append]
  exact Nat.le_add_right_of_le reach

end Gives

section
variable {mark slot : Nat} {redirects : Redirects} {kind : String}

theorem substitutions_fresh {parts : List Node} {pass : Pass} (reach : mark ≤ slot) :
    AllFresh mark (substitutions slot parts pass) := by
  intro action member
  obtain ⟨_, _, _, _, _, _, enters | leaves⟩ := mem_substitutions member
  · rw [enters]
    exact reach
  · rw [leaves]
    exact reach

theorem opening_fresh : AllFresh mark (redirects.opening slot kind) := by
  obtain ⟨input, output⟩ := redirects
  refine .append ?_ ?_
  · cases output with
    | none => exact .nil
    | some => exact .single trivial
  · cases input with
    | none => exact .nil
    | some => exact .single trivial

theorem closing_fresh : AllFresh mark (redirects.closing slot kind) := by
  obtain ⟨input, output⟩ := redirects
  cases output with
  | none => exact .nil
  | some => exact .cons trivial (.cons trivial (.single trivial))

theorem commandActions_fresh {source : String} {parts : List Node} (reach : mark ≤ slot) :
    AllFresh mark (commandActions slot redirects source parts) := by
  have whether : ∀ (choice : Bool) (action : Action), action.operation.Fresh mark →
      AllFresh mark (if choice then [action] else []) := by
    intro choice action fresh
    cases choice with
    | false => exact .nil
    | true => exact .single fresh
  have targets : AllFresh mark (substitutions slot parts .targets) := substitutions_fresh reach
  have words : AllFresh mark (substitutions slot parts .words) := substitutions_fresh reach
  exact (((((targets.append opening_fresh).append (whether _ _ (by trivial))).append words).append
    (whether _ _ (by trivial))).append (whether _ _ (by trivial))).append closing_fresh

theorem clauseActions_fresh (earlier : List String) (clauses : List Clause) :
    AllFresh mark (clauseActions earlier clauses) := by
  induction clauses generalizing earlier with
  | nil => exact .nil
  | cons clause rest ih =>
    rcases clause with ⟨keyword, _ | condition, body⟩ <;>
      exact .cons trivial (.cons trivial (ih _))

theorem reservedActions_fresh {text : String} {actions : List Action}
    (made : reservedActions text = .ok actions) : AllFresh mark actions := by
  unfold reservedActions at made
  split at made
  · cases made
    exact .single trivial
  · split at made
    · cases made
      exact .single trivial
    · split at made
      · cases made
        exact .nil
      · cases made

end

section
variable {ω : Type} [Operator ω] {setting : Setting} {mark : Nat}

theorem compileEach_fresh {sign : Node → Option Action} {lead : List Action} {parts : List Node}
    (signs : ∀ node action, sign node = some action → action.operation.Fresh mark)
    (leads : AllFresh mark lead) (each : ∀ part ∈ parts,
      Gives mark (part.compile setting : Compile ω (List Action)) (AllFresh mark)) :
    Gives mark (Node.compileEach sign lead setting parts : Compile ω (List Action))
      (AllFresh mark) := by
  induction parts with
  | nil => exact .pure .nil
  | cons part rest ih =>
    obtain ⟨first, later⟩ := List.forall_mem_cons.mp each
    rw [Node.compileEach]
    split
    · rename_i action found
      exact (ih later).bind fun actions all => .pure (.cons (signs part action found) all)
    · exact first.bind fun actions all => (ih later).bind fun others rest =>
        .pure ((leads.append all).append rest)

/-- Whatever is compiled, its actions are fresh. -/
theorem compile_fresh (node : Node) :
    Gives mark (node.compile setting : Compile ω (List Action)) (AllFresh mark) := by
  cases node with
  | list parts _ =>
    have signs : ∀ node action, Node.operatorSign node = some action →
        action.operation.Fresh mark := by
      intro node action found
      cases node <;> cases found
      trivial
    rw [Node.compile, Node.compileSequence_eq]
    exact (compileEach_fresh signs (.single (by trivial)) fun part _ => compile_fresh part).bind
      fun actions all => .pure (.cons trivial all)
  | pipeline parts _ =>
    have signs : ∀ node action, Node.pipeSign node = some action →
        action.operation.Fresh mark := by
      intro node action found
      cases node <;> cases found
      trivial
    rw [Node.compile, Node.compilePipeline_eq]
    exact compileEach_fresh signs .nil fun part _ => compile_fresh part
  | command parts _ =>
    rw [Node.compile]
    exact (Gives.lift fun _ _ => trivial).bind fun redirects (_ : True) =>
      (Gives.newSlot parts).bind fun slot reach => .pure (commandActions_fresh reach)
  | compound parts redirected _ =>
    have inside : Gives mark (Node.compileAll setting parts : Compile ω (List Action))
        (AllFresh mark) := by
      rw [Node.compileAll_eq]
      refine compileEach_fresh (fun _ _ found => ?_) .nil fun part _ => compile_fresh part
      cases found
    rw [Node.compile]
    refine (Gives.lift fun _ _ => trivial).bind fun redirects (_ : True) => ?_
    -- without redirects there is no slot, and nothing that would stand in it
    split
    · rename_i none
      rw [List.isEmpty_iff.mp none]
      exact (Gives.pure trivial).bind fun slot (_ : True) => inside.bind fun actions all =>
        .pure ((AllFresh.append (.append .nil opening_fresh) all).append closing_fresh)
    · exact (Gives.newSlot redirected).bind fun slot reach => inside.bind fun actions all =>
        .pure (((substitutions_fresh reach).append opening_fresh |>.append all).append
          closing_fresh)
  | forLoop name items body span =>
    rw [Node.compile]
    refine (Gives.values items).bind fun values _ => ?_
    refine (Gives.lift fun _ _ => trivial).bind fun _ (_ : True) => ?_
    have rounds : ∀ value ∈ values, Gives mark (do
        let actions ← body.compile setting
        return .plain (.bindLoop name value) "Set loop iterator value for next itr" :: actions ++
          [.plain .flush "iterate for loop"] : Compile ω (List Action)) (AllFresh mark) :=
      fun value _ => (compile_fresh body).bind fun actions all =>
        .pure ((AllFresh.cons (by trivial) all).append (.single (by trivial)))
    refine (Gives.mapM rounds).bind fun rounds all => .pure ?_
    have whole : AllFresh mark rounds.flatten := List.forall_mem_flatten.mpr all
    exact (AllFresh.cons (by trivial) whole).append (.cons (by trivial) (.single (by trivial)))
  | conditional clauses _ =>
    rw [Node.compile]
    exact .pure (clauseActions_fresh [] clauses)
  | reserved text _ =>
    rw [Node.compile]
    exact .lift fun _ => reservedActions_fresh
  | function name body _ =>
    have defined : Gives mark (define name body : Compile ω Unit) fun _ => True := by
      intro before value after reach done
      cases done
      exact ⟨reach, trivial⟩
    rw [Node.compile]
    exact defined.bind fun _ _ => .pure .nil
  | word | assignment | substitution | parameter | pipe | operator | redirect =>
    simp only [Node.compile]
    exact .throw
termination_by sizeOf node

theorem compileAll_fresh (parts : List Node) :
    Gives mark (Node.compileAll setting parts : Compile ω (List Action)) (AllFresh mark) := by
  rw [Node.compileAll_eq]
  exact compileEach_fresh nofun .nil fun part _ => compile_fresh part

end

end Compilation

end StepShell

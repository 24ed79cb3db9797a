import StepShell.Proofs.Compilation.Freshness
import StepShell.Proofs.Machine.Outside

/-! What an operation keeps away from. Only deciding a condition, and judging what it wrote, bears on
the truth of that condition; and the parts of commands that stand in slots stay as they are but for
the one in which a substitution is resolved. This holds whether the operation succeeds or fails. -/

namespace StepShell

/-- Whether somebody is asked if this condition holds. -/
def Event.asksAbout (condition : String) : Event → Bool
  | .condition text _ => text == condition
  | _ => false

theorem Event.asksAbout_of_isItems {event : Event} {condition : String}
    (items : event.isItems = true) : event.asksAbout condition = false := by
  cases event <;> first | rfl | cases items

/-- The part of a command at a place of a slot. -/
def partAt? (slots : Array (List Node)) (place : Nat × Nat) : Option Node :=
  slots[place.1]?.bind (·[place.2]?)

theorem Extends.partAt? {before after : Array (List Node)} (grown : Extends before after)
    {place : Nat × Nat} {node : Node} (found : partAt? before place = some node) :
    StepShell.partAt? after place = some node := by
  obtain ⟨parts, held, found⟩ := Option.bind_eq_some_iff.mp found
  exact Option.bind_eq_some_iff.mpr ⟨parts, grown.held held, found⟩

/-- Putting a part in its place leaves the others. -/
theorem partAt?_set {slots : Array (List Node)} {slot word : Nat} {parts : List Node}
    {spliced node : Node} {place : Nat × Nat} (held : slots[slot]? = some parts)
    (found : partAt? slots place = some node) :
    partAt? (slots.setIfInBounds slot (parts.set word spliced)) place =
      some (if (slot, word) = place then spliced else node) := by
  obtain ⟨other, index⟩ := place
  obtain ⟨others, stands, inside⟩ := Option.bind_eq_some_iff.mp found
  obtain ⟨now, replaced, picked⟩ := picked_replaced held stands inside word spliced
  simp only [Prod.mk.injEq]
  exact Option.bind_eq_some_iff.mpr ⟨now, replaced, picked⟩

/-- The operation stores the truth of another condition if of any, and resolves no substitution in a
slot before the mark. -/
structure Operation.Spares (condition : String) (mark : Nat) (operation : Operation) : Prop where
  judges : operation ≠ .judge condition
  resolves : ∀ target, operation.resolves? = some target → mark ≤ target.1

/-- The place of the part in which an operation resolves a substitution. -/
def Operation.place? (operation : Operation) : Option (Nat × Nat) :=
  operation.resolves?.map fun target => (target.1, target.2.1)

theorem Operation.Fresh.spares {mark : Nat} {operation : Operation} (fresh : operation.Fresh mark)
    (condition : String) : operation.Spares condition mark :=
  ⟨fresh.ne_judge condition, fun _ => fresh.le_of_resolves⟩

namespace Command

variable {ω : Type}

theorem unset_truths (args : List String) (sandbox : Sandbox) :
    (unset args sandbox).2.truths = sandbox.truths := by
  have folded : ∀ (change : Sandbox → String → Sandbox) (names : List String) (sandbox : Sandbox),
      (∀ sandbox name, (change sandbox name).truths = sandbox.truths) →
        (names.foldl change sandbox).truths = sandbox.truths := by
    intro change names sandbox each
    induction names generalizing sandbox with
    | nil => rfl
    | cons name rest ih => exact (ih _).trans (each sandbox name)
  have either : ∀ (sandbox : Sandbox) (name : String),
      (unsetEither sandbox name).truths = sandbox.truths := by
    intro sandbox name
    unfold unsetEither
    split <;> rfl
  unfold unset
  split
  · rfl
  · split
    · exact folded _ _ _ fun _ _ => rfl
    · split
      · exact folded _ _ _ fun _ _ => rfl
      · split
        · rfl
        · exact folded _ _ _ either

/-- No command that every sandbox knows touches the truths. -/
theorem standard_truths [Operator ω] {name : String} {command : Command ω}
    (found : (standard : Table (Command ω)).get? name = some command) (args : List String)
    (sandbox : Sandbox) (operator : ω) :
    (command args sandbox operator).2.1.truths = sandbox.truths := by
  rcases standard_cases found with works | ⟨-, rfl⟩ | ⟨-, rfl⟩
  · obtain ⟨_, _, _, same⟩ := works args sandbox operator
    rw [same]
  · exact unset_truths args sandbox
  · rfl

end Command

namespace Machine

variable {ω η α β : Type} [Operator ω]

/-- A compilation that only adds slots, asks about items of loops, and makes fresh actions. -/
structure Tame (compile : Compilation.Setting → Compile ω (List Action)) : Prop where
  grown : ∀ setting start,
    Compilation.Grown (fun _ => True) start ((compile setting).run start).2
  fresh : ∀ setting mark, Compilation.Gives mark (compile setting) (AllFresh mark)

theorem compile_tame (node : Node) : Tame (ω := ω) node.compile where
  grown _ start := Compilation.compile_preserves node (fun _ _ => trivial) start (.refl _ start)
  fresh _ _ := Compilation.compile_fresh node

theorem nestedActions_tame (nodes : List Node) :
    Tame (ω := ω) fun setting => nestedActions setting nodes where
  grown := nestedActions_grown nodes
  fresh setting mark := by
    induction nodes with
    | nil => exact .pure .nil
    | cons node rest ih =>
      exact (Compilation.compile_fresh node).bind fun actions all => ih.bind fun others later =>
        .pure ((AllFresh.cons (by trivial) all).append later)

variable [Host η] {condition : String} {spared : Option (Nat × Nat)}
  {origin before : Machine ω η}

/-- Since the origin nothing happened that bears on the condition or on a part of a command, but for
the one that is spared here. -/
structure Confined (condition : String) (spared : Option (Nat × Nat)) (origin now : Machine ω η) :
    Prop where
  commands : now.commands = origin.commands
  truth : now.sandbox.truth? condition = origin.sandbox.truth? condition
  reach : origin.slots.size ≤ now.slots.size
  parts : ∀ place node, partAt? origin.slots place = some node →
    ∃ held, partAt? now.slots place = some held ∧ (spared ≠ some place → held = node)
  pending : ∃ first, now.pending = first ++ origin.pending ∧
    ∀ action ∈ first, action.operation.Spares condition origin.slots.size
  course : ∃ events, (∀ event ∈ events, event.asksAbout condition = false) ∧
    StepShell.Course origin.outside events now.outside

namespace Confined

variable {now after : Machine ω η}

theorem refl (machine : Machine ω η) : Confined condition spared machine machine where
  commands := rfl
  truth := rfl
  reach := Nat.le_refl _
  parts _ node found := ⟨node, found, fun _ => rfl⟩
  pending := ⟨[], rfl, by simp⟩
  course := ⟨[], by simp, .ended _⟩

/-- A change of the sandbox. -/
theorem altered {sandbox : Sandbox} (confined : Confined condition spared origin now)
    (truth : sandbox.truth? condition = now.sandbox.truth? condition) :
    Confined condition spared origin { now with sandbox } :=
  { confined with truth := truth.trans confined.truth }

/-- Something happens outside. -/
theorem outside {operator : ω} {host : η} {sandbox : Sandbox} {events : List Event}
    (confined : Confined condition spared origin now)
    (truth : sandbox.truth? condition = now.sandbox.truth? condition)
    (apart : ∀ event ∈ events, event.asksAbout condition = false)
    (happens : StepShell.Course now.outside events (operator, host)) :
    Confined condition spared origin { now with sandbox, operator, host } := by
  obtain ⟨earlier, calm, course⟩ := confined.course
  exact { confined.altered truth with
    course := ⟨earlier ++ events, List.forall_mem_append.mpr ⟨calm, apart⟩,
      course.append happens⟩ }

theorem first {actions : List Action} (confined : Confined condition spared origin now)
    (spares : ∀ action ∈ actions, action.operation.Spares condition origin.slots.size) :
    Confined condition spared origin (now.withFirst actions) := by
  obtain ⟨earlier, put, each⟩ := confined.pending
  refine { confined with
    pending := ⟨actions ++ earlier, ?_, List.forall_mem_append.mpr ⟨spares, each⟩⟩ }
  change actions ++ now.pending = _
  rw [put, List.append_assoc]

/-- An answer to another question. -/
theorem answered {event : Event} {operator : ω} (confined : Confined condition spared origin now)
    (apart : event.asksAbout condition = false)
    (happens : event.Happens now.outside (operator, now.host)) :
    Confined condition spared origin { now with operator } :=
  confined.outside rfl (List.forall_mem_singleton.mpr apart) (.single happens)

end Confined

theorem change_confined {alter : Sandbox → Sandbox}
    (truth : (alter before.sandbox).truth? condition = before.sandbox.truth? condition) :
    Preserves (Confined condition spared origin) before (change alter) :=
  .modify fun confined => confined.altered truth

theorem checkDepth_confined : Preserves (Confined condition spared origin) before checkDepth :=
  .get .lift

theorem slot_confined {index : Nat} :
    Preserves (Confined condition spared origin) before (slot index) :=
  .still slot_still

theorem compiling_confined {compile : Compilation.Setting → Compile ω (List Action)}
    (tame : Tame compile) :
    Preserves (Confined condition spared origin) before (compiling compile) := by
  intro confined
  obtain ⟨⟨added, same⟩, texts, -, asked⟩ := tame.grown before.setting
    ⟨before.sandbox.functions, before.slots, before.operator⟩
  obtain ⟨events, items, course⟩ := StepShell.Course.ofItems texts before.operator before.host
  rw [← asked] at course
  have grown : Extends before.slots ((compiling compile).run before).2.slots := ⟨added, same⟩
  have calm : ∀ event ∈ events, event.asksAbout condition = false :=
    fun event member => Event.asksAbout_of_isItems (items event member)
  have outside : Confined condition spared origin { before with
      sandbox := ((compiling compile).run before).2.sandbox
      operator := ((compiling compile).run before).2.operator } :=
    confined.outside rfl calm course
  exact { outside with
    reach := Nat.le_trans confined.reach grown.size_le
    parts := fun place node found =>
      (confined.parts place node found).imp fun _ => And.imp_left grown.partAt? }

omit [Host η] in
/-- What is compiled from here on is fresh for all slots that there are. -/
theorem compiling_fresh {compile : Compilation.Setting → Compile ω (List Action)} {mark : Nat}
    {actions : List Action} {after : Machine ω η} (tame : Tame compile)
    (reach : mark ≤ before.slots.size)
    (made : (compiling compile : Step ω η (List Action)).run before = (.ok actions, after)) :
    AllFresh mark actions := by
  obtain ⟨compiled, compiles, rfl⟩ := compiling_eq.mp made
  exact (tame.fresh before.setting mark _ _ _ reach compiles).2

/-- Compile, then put the actions of a block first. -/
theorem compiled_confined {compile : Compilation.Setting → Compile ω (List Action)}
    {block : List Action → List Action} (tame : Tame compile)
    (spares : ∀ mark actions, AllFresh mark actions →
      ∀ action ∈ block actions, action.operation.Spares condition mark) :
    Preserves (Confined condition spared origin) before (do
      let actions ← compiling compile
      putFirst (block actions)) := by
  intro confined
  refine Preserves.bind (compiling_confined tame) (fun actions middle made => ?_) confined
  have fresh := compiling_fresh tame confined.reach made
  exact .modify fun compiled => compiled.first (spares _ actions fresh)

omit [Operator ω] [Host η] in
/-- Actions of other kinds around those that are compiled. -/
theorem spares_around {opening closing : List Action}
    (opens : ∀ mark, AllFresh mark opening) (closes : ∀ mark, AllFresh mark closing) (mark : Nat)
    (actions : List Action) (fresh : AllFresh mark actions) :
    ∀ action ∈ opening ++ actions ++ closing, action.operation.Spares condition mark :=
  fun action member =>
    ((((opens mark).append fresh).append (closes mark)) action member).spares condition

theorem separate_confined {op : String} :
    Preserves (Confined condition spared origin) before (separate op) :=
  .get (.bind (change_confined rfl) fun _ _ _ => .get (.bind .lift fun _ _ _ =>
    .modify fun confined => { confined with }))

theorem redirectPath_confined {index place : Nat} :
    Preserves (Confined condition spared origin) before (redirectPath index place) := by
  refine .bind slot_confined fun _ _ _ => ?_
  split
  · exact .get .pure
  · exact .throw
  · exact .throw

theorem readRedirect_confined {path : String} :
    Preserves (Confined condition spared origin) before (readRedirect path) := by
  refine .get ?_
  split
  · exact change_confined rfl
  · have asking : (Event.input path (Operator.input path before.operator).1).Happens before.outside
        ((Operator.input path before.operator).2, before.host) := ⟨rfl, rfl⟩
    exact .bind (.set fun confined => confined.answered rfl asking) fun _ _ _ =>
      change_confined rfl

theorem runNested_confined {name script : String} :
    Preserves (Confined condition spared origin) before (runNested name script) := by
  unfold runNested
  split
  · exact change_confined rfl
  · exact compiled_confined (nestedActions_tame _)
      (spares_around (fun _ => .single (by trivial)) fun _ => .single (by trivial))

theorem nestedShell_confined {name : String} {args : List String} :
    Preserves (Confined condition spared origin) before (nestedShell name args) := by
  unfold nestedShell
  split
  · exact .pure
  · split
    · split
      · exact runNested_confined
      · exact change_confined rfl
    · refine .get ?_
      dsimp only
      split
      · exact runNested_confined
      · exact change_confined rfl

theorem runKnown_confined {command : Command ω} {args : List String} (fetches : command.Fetches)
    (truths : ∀ args sandbox operator,
      (command args sandbox operator).2.1.truths = sandbox.truths) :
    Preserves (Confined condition spared origin) before (runKnown command args) := by
  have truth : (command args before.sandbox before.operator).2.1.truth? condition =
      before.sandbox.truth? condition :=
    congrArg (·.get? condition) (truths args before.sandbox before.operator)
  refine .get (.bind (.set fun confined => ?_) fun _ _ _ =>
    .bind .lift fun _ _ _ => change_confined rfl)
  rcases fetches args before.sandbox before.operator with same | ⟨address, same⟩
  · rw [same]
    exact confined.altered truth
  · have asking : (Event.fetch address (Operator.fetch address before.operator).1).Happens
        before.outside ((command args before.sandbox before.operator).2.2, before.host) :=
      ⟨Prod.ext rfl same.symm, rfl⟩
    exact confined.outside truth (List.forall_mem_singleton.mpr rfl) (.single asking)

theorem assignParts_confined {parts : List Node} :
    Preserves (Confined condition spared origin) before (assignParts parts) := by
  induction parts generalizing before with
  | nil => exact .pure
  | cons part rest ih =>
    cases part with
    | assignment text inner span =>
      unfold assignParts
      split
      · exact .bind (change_confined rfl) fun _ _ _ => ih
      · exact .throw
    | _ => exact ih

theorem leaveToOperator_confined {name : String} {parts : List Node} :
    Preserves (Confined condition spared origin) before (leaveToOperator name parts) := by
  have asking : (Event.command (commandLine parts)
      (Operator.command (commandLine parts) before.operator).1).Happens before.outside
      ((Operator.command (commandLine parts) before.operator).2, before.host) := ⟨rfl, rfl⟩
  refine .get (.bind (.set fun confined => confined.answered rfl asking) fun _ middle _ => ?_)
  split
  · exact .pure
  · refine .modify fun confined => ?_
    let text := middle.sandbox.vars.replaceReferences (commandLine parts)
    let input := some middle.sandbox.io.input
    have running : (Event.ran text input (Host.run text input middle.host).1).Happens
        middle.outside (middle.operator, (Host.run text input middle.host).2) := ⟨rfl, rfl⟩
    exact confined.outside rfl (List.forall_mem_singleton.mpr rfl) (.single running)
  · exact .throw

theorem runParts_confined {parts : List Node} (standard : before.commands = Command.standard) :
    Preserves (Confined condition spared origin) before (runParts parts) := by
  refine .get ?_
  split
  · exact .pure
  · split
    · rename_i body _
      exact compiled_confined (compile_tame body)
        (spares_around (fun _ => .single (by trivial)) fun _ => .single (by trivial))
    · split
      · exact nestedShell_confined
      · split
        · rename_i known
          rw [standard] at known
          exact runKnown_confined (Command.standard_fetches known) (Command.standard_truths known)
        · exact leaveToOperator_confined

theorem enterSubstitution_confined {index word : Nat} {part : Span} :
    Preserves (Confined condition spared origin) before (enterSubstitution index word part) := by
  refine .bind slot_confined fun _ _ _ => ?_
  dsimp only
  split
  · exact .throw
  · split
    · exact .throw
    · rename_i inner _
      intro confined
      refine Preserves.bind (compiling_confined (compile_tame inner)) (fun actions _ made => ?_)
        confined
      have fresh := compiling_fresh (compile_tame inner) confined.reach made
      refine .bind checkDepth_confined fun _ _ _ => .bind (change_confined rfl) fun _ _ _ => ?_
      exact .modify fun lowered => lowered.first fun action member =>
        (fresh action member).spares condition

omit [Operator ω] [Host η] in
theorem raise_truths (sandbox : Sandbox) : sandbox.raise.truths = sandbox.truths := by
  unfold Sandbox.raise
  split <;> rfl

omit [Operator ω] [Host η] in
theorem flush_truths (sandbox : Sandbox) : sandbox.flush.truths = sandbox.truths := by
  unfold Sandbox.flush
  split <;> rfl

/-- The output goes nowhere but into the word of the substitution. -/
theorem leaveSubstitution_confined {index word : Nat} {part : Span} :
    Preserves (Confined condition (some (index, word)) origin) before
      (leaveSubstitution index word part) := by
  have truth : ∀ sandbox : Sandbox,
      { sandbox.clearOutput with screen := "" }.raise.truth? condition =
        sandbox.truth? condition :=
    fun sandbox => congrArg (·.get? condition) (raise_truths _)
  refine .get (.bind (change_confined (truth _)) fun _ middle _ => .get ?_)
  split
  · rename_i parts target held _
    refine .bind .lift fun spliced _ lifted => .set fun confined => ?_
    obtain ⟨_, rfl⟩ := run_lift_eq_ok.mp lifted
    exact { confined with
      reach := by
        rw [Array.size_setIfInBounds]
        exact confined.reach
      parts := fun place node found => by
        obtain ⟨old, stands, same⟩ := confined.parts place node found
        refine ⟨_, partAt?_set held stands, fun apart => ?_⟩
        rw [if_neg fun equal => apart (congrArg some equal)]
        exact same apart }
  · exact .throw

theorem decideCondition_confined {text : String} {node : Node}
    (apart : text ≠ condition ∨ (before.sandbox.truth? text).isSome = true) :
    Preserves (Confined condition spared origin) before (decideCondition text node) := by
  refine .get ?_
  split
  · rename_i undecided
    have different : text ≠ condition := by
      refine apart.resolve_right ?_
      rw [Option.isNone_iff_eq_none.mp undecided]
      nofun
    let event := Event.condition text (Operator.condition text before.operator).1
    have asking : event.Happens before.outside
        ((Operator.condition text before.operator).2, before.host) := ⟨rfl, rfl⟩
    have about : event.asksAbout condition = false := beq_eq_false_iff_ne.mpr different
    have other : ∀ (sandbox : Sandbox) (value : Bool),
        (sandbox.withTruth text value).truth? condition = sandbox.truth? condition := by
      intro sandbox value
      rw [Sandbox.truth?, Sandbox.withTruth, Table.get?_insert, if_neg different.symm]
      rfl
    refine .bind (.set fun confined => confined.answered about asking) fun _ _ _ => ?_
    split
    · exact change_confined (other _ _)
    · exact change_confined (other _ _)
    · refine compiled_confined (compile_tame node) fun mark actions fresh action member => ?_
      simp only [List.cons_append, List.mem_cons, List.mem_append, List.not_mem_nil,
        or_false] at member
      rcases member with rfl | compiled | rfl | rfl
      · exact Operation.Fresh.spares (by trivial) condition
      · exact (fresh action compiled).spares condition
      · exact ⟨fun same => different (Operation.judge.inj same), nofun⟩
      · exact Operation.Fresh.spares (by trivial) condition
  · exact .pure

theorem chooseBody_confined {chosen : Option String} {earlier : List String} {body : Node} :
    Preserves (Confined condition spared origin) before (chooseBody chosen earlier body) := by
  refine .get ?_
  split
  · exact compiled_confined (compile_tame body)
      (spares_around (fun _ => .single (by trivial)) fun _ => .single (by trivial))
  · exact .pure

/-- Whatever becomes of an operation: if it neither judges the condition nor is to decide it, it
neither asks about it nor changes its truth, and puts no action first that stores one. -/
theorem execute_confined {machine : Machine ω η} (standard : machine.commands = Command.standard)
    {operation : Operation} (judges : operation ≠ .judge condition)
    (decides : ∀ node, operation = .decide condition node →
      (machine.sandbox.truth? condition).isSome = true) :
    Confined condition operation.place? machine ((execute operation).run machine).2 := by
  have start : ∀ spared, Confined condition spared machine machine := fun _ => .refl machine
  have flushed : ∀ sandbox : Sandbox, sandbox.flush.truth? condition = sandbox.truth? condition :=
    fun sandbox => congrArg (·.get? condition) (flush_truths sandbox)
  have raised : ∀ sandbox : Sandbox, sandbox.raise.truth? condition = sandbox.truth? condition :=
    fun sandbox => congrArg (·.get? condition) (raise_truths sandbox)
  cases operation with
  | run index =>
    refine Preserves.bind slot_confined (fun parts middle found => ?_) (start _)
    obtain ⟨-, rfl⟩ := slot_eq_ok found
    exact runParts_confined standard
  | separator op => exact separate_confined (start _)
  | readRedirect index place =>
    exact Preserves.bind redirectPath_confined (fun _ _ _ => readRedirect_confined) (start _)
  | writeRedirect index place append =>
    exact Preserves.bind redirectPath_confined (fun _ _ _ => change_confined rfl) (start _)
  | assign index =>
    exact Preserves.bind slot_confined (fun _ _ _ => assignParts_confined) (start _)
  | enterSubstitution index word part => exact enterSubstitution_confined (start _)
  | leaveSubstitution index word part => exact leaveSubstitution_confined (start _)
  | decide text node =>
    refine decideCondition_confined ?_ (start _)
    by_cases same : text = condition
    · obtain rfl := same
      exact .inr (decides node rfl)
    · exact .inl same
  | judge text =>
    refine change_confined ?_ (start _)
    have different : condition ≠ text := fun same => judges (by rw [same])
    rw [judgeOutput, Sandbox.truth?, Sandbox.clearOutput, Sandbox.withTruth, Table.get?_insert,
      if_neg different]
    rfl
  | choose chosen earlier body => exact chooseBody_confined (start _)
  | lower | enterFunction | enterSubshell =>
    exact Preserves.bind checkDepth_confined (fun _ _ _ => change_confined rfl) (start _)
  | nothing => exact start _
  | cleanUp | flush => exact change_confined (flushed _) (start _)
  | raise | leaveFunction =>
    exact change_confined ((raised _).trans (flushed _)) (start _)
  | endCapture =>
    refine change_confined ?_ (start _)
    unfold Sandbox.endCapture
    split <;> rfl
  | resetIo | pipe | beginCapture | bindLoop | unbindLoop => exact change_confined rfl (start _)

end Machine

end StepShell

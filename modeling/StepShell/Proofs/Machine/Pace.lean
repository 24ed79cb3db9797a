import StepShell.Machine.Run
import StepShell.Proofs.Compilation.Unrolling
import StepShell.Proofs.Machine.Moves

/-! The count of executed actions and the limit on it decide when a machine is stopped, and nothing
else: what an operation does is the same at every pace. -/

namespace StepShell

namespace Compilation

variable {ω : Type} [Operator ω]

/-- The setting under another limit on actions. -/
def Setting.allowing (setting : Setting) (actions : Nat) : Setting :=
  ⟨setting.vars, { setting.limits with actions }⟩

/-- Compiling looks at no limit but that on loops. -/
theorem compile_allowing (node : Node) (setting : Setting) (actions : Nat) :
    (node.compile (setting.allowing actions) : Compile ω (List Action)) = node.compile setting :=
  compile_congr node rfl fun _ _ => rfl

end Compilation

namespace Machine

variable {ω η α : Type} {before : Machine ω η} {ticks actions : Nat}

/-- The machine with another count of executed actions and another limit on it. -/
def paced (ticks actions : Nat) (machine : Machine ω η) : Machine ω η :=
  { machine with ticks, limits := { machine.limits with actions } }

section
variable (ticks actions : Nat) (machine : Machine ω η)

@[simp] theorem paced_sandbox : (machine.paced ticks actions).sandbox = machine.sandbox := rfl

@[simp] theorem paced_pending : (machine.paced ticks actions).pending = machine.pending := rfl

@[simp] theorem paced_slots : (machine.paced ticks actions).slots = machine.slots := rfl

@[simp] theorem paced_commands : (machine.paced ticks actions).commands = machine.commands := rfl

@[simp] theorem paced_operator : (machine.paced ticks actions).operator = machine.operator := rfl

theorem paced_settle :
    (machine.paced ticks actions).settle = machine.settle.paced ticks actions := by
  unfold settle
  rw [paced_pending]
  split <;> rfl

end

/-- The step does the same at every pace. -/
abbrev Unhurried (ticks actions : Nat) (before : Machine ω η) (step : Step ω η α) : Prop :=
  Mirrors (paced ticks actions) before step step

theorem change_unhurried {alter : Sandbox → Sandbox} :
    Unhurried ticks actions before (change alter) :=
  .modify rfl

theorem putFirst_unhurried {put : List Action} : Unhurried ticks actions before (putFirst put) :=
  .modify rfl

theorem slot_unhurried {index : Nat} : Unhurried ticks actions before (slot index) := by
  refine .get ?_
  rw [paced_slots]
  split
  · exact .pure
  · exact .throw

theorem checkDepth_unhurried : Unhurried ticks actions before checkDepth :=
  .get .lift

theorem compiling_unhurried {compile : Compilation.Setting → Compile ω α}
    (same : ∀ setting actions, compile (setting.allowing actions) = compile setting) :
    Unhurried ticks actions before (compiling compile) := by
  have whole : (compiling compile : Step ω η α).run (before.paced ticks actions) =
      (let made := (compile (before.setting.allowing actions)).run
        ⟨before.sandbox.functions, before.slots, before.operator⟩
      (made.1, (before.withCompilation made.2).paced ticks actions)) := rfl
  rw [same] at whole
  exact whole

theorem separate_unhurried {op : String} : Unhurried ticks actions before (separate op) := by
  refine .get (.bind change_unhurried fun _ _ _ => .get (.bind .lift fun _ _ _ => ?_))
  exact .modify rfl

theorem redirectPath_unhurried {index place : Nat} :
    Unhurried ticks actions before (redirectPath index place) := by
  refine .bind slot_unhurried fun _ _ _ => ?_
  split
  · exact .get .pure
  · exact .throw
  · exact .throw

variable [Operator ω]

theorem readRedirect_unhurried {path : String} :
    Unhurried ticks actions before (readRedirect path) := by
  refine .get ?_
  rw [paced_sandbox]
  split
  · exact change_unhurried
  · exact .bind (.set rfl) fun _ _ _ => change_unhurried

theorem call_unhurried {name : String} {args : List String} {body : Node} :
    Unhurried ticks actions before (call name args body) :=
  .bind (compiling_unhurried (Compilation.compile_allowing body)) fun _ _ _ => putFirst_unhurried

theorem nestedActions_allowing (nodes : List Node) (setting : Compilation.Setting)
    (actions : Nat) :
    (nestedActions (setting.allowing actions) nodes : Compile ω (List Action)) =
      nestedActions setting nodes := by
  induction nodes with
  | nil => rfl
  | cons node rest ih =>
    rw [nestedActions, nestedActions, Compilation.compile_allowing, ih]

theorem runNested_unhurried {name script : String} :
    Unhurried ticks actions before (runNested name script) := by
  unfold runNested
  split
  · exact change_unhurried
  · exact .bind (compiling_unhurried (nestedActions_allowing _)) fun _ _ _ => putFirst_unhurried

theorem nestedShell_unhurried {name : String} {args : List String} :
    Unhurried ticks actions before (nestedShell name args) := by
  unfold nestedShell
  split
  · exact .pure
  · split
    · split
      · exact runNested_unhurried
      · exact change_unhurried
    · refine .get ?_
      rw [paced_sandbox]
      dsimp only
      split
      · exact runNested_unhurried
      · exact change_unhurried

omit [Operator ω] in
theorem runKnown_unhurried {command : Command ω} {args : List String} :
    Unhurried ticks actions before (runKnown command args) :=
  .get (.bind (.set rfl) fun _ _ _ => .bind .lift fun _ _ _ => change_unhurried)

variable [Host η]

theorem leaveToOperator_unhurried {name : String} {parts : List Node} :
    Unhurried ticks actions before (leaveToOperator name parts) := by
  refine .get (.bind (.set rfl) fun _ _ _ => ?_)
  rw [paced_operator]
  split
  · exact .pure
  · exact .modify rfl
  · exact .throw

theorem runParts_unhurried {parts : List Node} :
    Unhurried ticks actions before (runParts parts) := by
  refine .get ?_
  rw [paced_sandbox, paced_commands]
  split
  · exact .pure
  · split
    · exact call_unhurried
    · split
      · exact nestedShell_unhurried
      · split
        · exact runKnown_unhurried
        · exact leaveToOperator_unhurried

omit [Operator ω] [Host η] in
theorem assignParts_unhurried {parts : List Node} :
    Unhurried ticks actions before (assignParts parts) := by
  induction parts generalizing before with
  | nil => exact .pure
  | cons part rest ih =>
    cases part with
    | assignment text inner span =>
      unfold assignParts
      split
      · exact .bind change_unhurried fun _ _ _ => ih
      · exact .throw
    | _ => exact ih

omit [Host η] in
theorem enterSubstitution_unhurried {index word : Nat} {part : Span} :
    Unhurried ticks actions before (enterSubstitution index word part) := by
  refine .bind slot_unhurried fun _ _ _ => ?_
  dsimp only
  split
  · exact .throw
  · split
    · exact .throw
    · refine .bind (compiling_unhurried (Compilation.compile_allowing _)) fun _ _ _ => ?_
      refine .bind checkDepth_unhurried fun _ _ _ => ?_
      exact .bind change_unhurried fun _ _ _ => putFirst_unhurried

omit [Operator ω] [Host η] in
theorem leaveSubstitution_unhurried {index word : Nat} {part : Span} :
    Unhurried ticks actions before (leaveSubstitution index word part) := by
  refine .get (.bind change_unhurried fun _ _ _ => .get ?_)
  rw [paced_slots]
  split
  · exact .bind .lift fun _ _ _ => .set rfl
  · exact .throw

omit [Host η] in
theorem decideCondition_unhurried {condition : String} {node : Node} :
    Unhurried ticks actions before (decideCondition condition node) := by
  refine .get ?_
  rw [paced_sandbox]
  split
  · refine .bind (.set rfl) fun _ _ _ => ?_
    rw [paced_operator]
    split
    · exact change_unhurried
    · exact change_unhurried
    · exact .bind (compiling_unhurried (Compilation.compile_allowing node)) fun _ _ _ =>
        putFirst_unhurried
  · exact .pure

omit [Host η] in
theorem chooseBody_unhurried {condition : Option String} {earlier : List String} {body : Node} :
    Unhurried ticks actions before (chooseBody condition earlier body) := by
  refine .get ?_
  rw [paced_sandbox]
  split
  · exact .bind (compiling_unhurried (Compilation.compile_allowing body)) fun _ _ _ =>
      putFirst_unhurried
  · exact .pure

/-- What an operation does, and where it leaves the machine, is the same at every pace. -/
theorem execute_unhurried (operation : Operation) :
    Unhurried ticks actions before (execute operation) := by
  cases operation with
  | separator op => exact separate_unhurried
  | readRedirect index place =>
    exact .bind redirectPath_unhurried fun _ _ _ => readRedirect_unhurried
  | writeRedirect index place append =>
    exact .bind redirectPath_unhurried fun _ _ _ => change_unhurried
  | run index => exact .bind slot_unhurried fun _ _ _ => runParts_unhurried
  | assign index => exact .bind slot_unhurried fun _ _ _ => assignParts_unhurried
  | enterSubstitution index word part => exact enterSubstitution_unhurried
  | leaveSubstitution index word part => exact leaveSubstitution_unhurried
  | decide condition node => exact decideCondition_unhurried
  | choose condition earlier body => exact chooseBody_unhurried
  | lower | enterFunction | enterSubshell =>
    exact .bind checkDepth_unhurried fun _ _ _ => change_unhurried
  | nothing => exact .pure
  | resetIo | cleanUp | flush | pipe | beginCapture | endCapture | bindLoop | unbindLoop | judge
  | raise | leaveFunction => exact change_unhurried

theorem execute_paced (operation : Operation) (machine : Machine ω η) (ticks actions : Nat) :
    (execute operation).run (machine.paced ticks actions) =
      (((execute operation).run machine).1,
        ((execute operation).run machine).2.paced ticks actions) :=
  execute_unhurried operation

end Machine

end StepShell

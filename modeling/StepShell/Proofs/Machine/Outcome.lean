import StepShell.Proofs.Machine.Moves

/-! What an operation leaves in every outcome. Wherever it fails, nothing was put before what is
pending, and no scope was lowered that the limit forbids. -/

namespace StepShell.Machine

variable {ω η α β : Type} {start before : Machine ω η}

/-- What an operation keeps from its start, whether it succeeds or fails. The commands can change
the depth only if they touch the scopes. -/
structure Retains (start now : Machine ω η) : Prop where
  commands : now.commands = start.commands
  limits : now.limits = start.limits
  pending : now.pending = start.pending
  depth : (∀ name command, start.commands.get? name = some command → command.Keeps) →
    now.sandbox.depth ≤ max start.sandbox.depth start.limits.depth

theorem Retains.refl (machine : Machine ω η) : machine.Retains machine :=
  ⟨rfl, rfl, rfl, fun _ => Nat.le_max_left _ _⟩

/-- All else may change as long as the sandbox does not get deeper. -/
theorem Retains.beside {after : Machine ω η} (retains : Retains start before)
    (commands : after.commands = before.commands) (limits : after.limits = before.limits)
    (pending : after.pending = before.pending)
    (shallow : after.sandbox.depth ≤ before.sandbox.depth) : Retains start after := by
  constructor
  · exact commands.trans retains.commands
  · exact limits.trans retains.limits
  · exact pending.trans retains.pending
  · exact fun keeps => Nat.le_trans shallow (retains.depth keeps)

theorem Retains.asDeep {after : Machine ω η} (retains : Retains start before)
    (commands : after.commands = before.commands) (limits : after.limits = before.limits)
    (pending : after.pending = before.pending)
    (depth : after.sandbox.depth = before.sandbox.depth) : Retains start after :=
  retains.beside commands limits pending (Nat.le_of_eq depth)

theorem depth_le_of_keeps {sandbox after : Sandbox} (keeps : sandbox.Keeps after) :
    after.depth ≤ sandbox.depth :=
  Nat.le_of_eq (congrArg List.length keeps.scopes)

/-- The step keeps what it found, but that on success it may put actions first. -/
def Puts (start before : Machine ω η) (step : Step ω η α) : Prop :=
  Retains start before → ∃ first middle, Retains start middle ∧
    (step.run before).2 = middle.withFirst first ∧ ((step.run before).1.isOk = false → first = [])

theorem Puts.nothing {step : Step ω η α} (still : Preserves (Retains start) before step) :
    Puts start before step :=
  fun retains => ⟨[], _, still retains, rfl, fun _ => rfl⟩

theorem Puts.bind {first : Step ω η α} {next : α → Step ω η β}
    (still : Preserves (Retains start) before first)
    (rest : ∀ value middle, first.run before = (.ok value, middle) →
      Puts start middle (next value)) : Puts start before (first >>= next) := by
  intro retains
  have kept := still retains
  rcases made : first.run before with ⟨failure | value, middle⟩
  · rw [made] at kept
    rw [run_bind_of_error made]
    exact ⟨[], middle, kept, rfl, fun _ => rfl⟩
  · rw [made] at kept
    rw [run_bind_of_ok made]
    exact rest value middle made kept

theorem Puts.get {next : Machine ω η → Step ω η α} (rest : Puts start before (next before)) :
    Puts start before (MonadState.get >>= next) :=
  rest

theorem putFirst_puts {actions : List Action} : Puts start before (putFirst actions) := by
  intro retains
  refine ⟨actions, before, retains, rfl, fun failed => ?_⟩
  cases failed

theorem change_retains {alter : Sandbox → Sandbox}
    (shallow : (alter before.sandbox).depth ≤ before.sandbox.depth) :
    Preserves (Retains start) before (change alter) :=
  .modify fun retains => retains.beside rfl rfl rfl shallow

theorem keeping_retains {alter : Sandbox → Sandbox}
    (keeps : before.sandbox.Keeps (alter before.sandbox)) :
    Preserves (Retains start) before (change alter) :=
  change_retains (depth_le_of_keeps keeps)

theorem slot_retains {index : Nat} : Preserves (Retains start) before (slot index) := by
  refine .get ?_
  split
  · exact .pure
  · exact .throw

theorem checkDepth_retains : Preserves (Retains start) before checkDepth :=
  .get .lift

theorem checkDepth_ok_depth {after : Machine ω η} {value : Unit}
    (done : (checkDepth : Step ω η Unit).run before = (.ok value, after)) :
    before.sandbox.depth < before.limits.depth := by
  obtain ⟨machine, middle, got, checked⟩ := run_bind_eq_ok.mp done
  obtain ⟨rfl, rfl⟩ := run_get_eq_ok.mp got
  have passed := (run_lift_eq_ok.mp checked).1
  unfold Failure.ofLimit Limits.checkDepth at passed
  refine Nat.lt_of_not_le fun deep => ?_
  rw [if_pos deep] at passed
  cases passed

/-- A scope may be lowered once the depth is checked. -/
theorem Retains.lowered {lower : Sandbox → Sandbox} (retains : Retains start before)
    (allowed : before.sandbox.depth < before.limits.depth)
    (deeper : (lower before.sandbox).depth = before.sandbox.depth + 1) :
    Retains start (before.withSandbox lower) := by
  refine ⟨retains.commands, retains.limits, retains.pending, fun _ => ?_⟩
  change (lower before.sandbox).depth ≤ _
  rw [retains.limits] at allowed
  omega

theorem lowering_retains {lower : Sandbox → Sandbox}
    (deeper : (lower before.sandbox).depth = before.sandbox.depth + 1) :
    Preserves (Retains start) before (do checkDepth; change lower) := by
  refine .bind checkDepth_retains fun _ middle checked => ?_
  have allowed := checkDepth_ok_depth checked
  obtain rfl := checkDepth_eq_ok checked
  exact .modify fun retains => retains.lowered allowed deeper

theorem compiling_retains {compile : Compilation.Setting → Compile ω α} :
    Preserves (Retains start) before (compiling compile) :=
  fun retains => retains.asDeep rfl rfl rfl rfl

theorem separate_retains {op : String} : Preserves (Retains start) before (separate op) := by
  refine .get (.bind (change_retains (Nat.le_refl _)) fun _ _ _ => .get (.bind .lift fun _ _ _ => ?_))
  exact .modify fun retains => retains.asDeep rfl rfl rfl rfl

theorem redirectPath_retains {index place : Nat} :
    Preserves (Retains start) before (redirectPath index place) := by
  refine .bind slot_retains fun _ _ _ => ?_
  split
  · exact .get .pure
  · exact .throw
  · exact .throw

/-- Compile, then put the actions of a block first. -/
theorem Puts.compiled {compile : Compilation.Setting → Compile ω (List Action)}
    {block : List Action → List Action} :
    Puts start before (do let actions ← compiling compile; putFirst (block actions)) :=
  .bind compiling_retains fun _ _ _ => putFirst_puts

section
variable [Operator ω]

theorem readRedirect_retains {path : String} :
    Preserves (Retains start) before (readRedirect path) := by
  refine .get ?_
  split
  · exact change_retains (Nat.le_refl _)
  · refine .bind (.set fun retains => ?_) fun _ _ _ => change_retains (Nat.le_refl _)
    exact retains.asDeep rfl rfl rfl rfl

theorem runNested_puts {name script : String} : Puts start before (runNested name script) := by
  unfold runNested
  split
  · exact .nothing (keeping_retains (Sandbox.write_keeps _ _))
  · exact .compiled

theorem nestedShell_puts {name : String} {args : List String} :
    Puts start before (nestedShell name args) := by
  unfold nestedShell
  split
  · exact .nothing .pure
  · split
    · split
      · exact runNested_puts
      · exact .nothing (keeping_retains (Sandbox.write_keeps _ _))
    · refine .get ?_
      dsimp only
      split
      · exact runNested_puts
      · exact .nothing (keeping_retains (Sandbox.write_keeps _ _))

omit [Operator ω] in
theorem runKnown_retains {name : String} {command : Command ω} {args : List String}
    (known : before.commands.get? name = some command) :
    Preserves (Retains start) before (runKnown command args) := by
  refine .get (.bind (.set fun retains => ?_) fun _ _ _ => .bind .lift fun _ _ _ => ?_)
  · refine ⟨retains.commands, retains.limits, retains.pending, fun keeps => ?_⟩
    rw [retains.commands] at known
    have same := keeps name command known args before.sandbox before.operator
    exact Nat.le_trans (depth_le_of_keeps same) (retains.depth keeps)
  · exact keeping_retains ((Sandbox.write_keeps _ _).trans (Sandbox.write_keeps _ _))

variable [Host η]

theorem leaveToOperator_retains {name : String} {parts : List Node} :
    Preserves (Retains start) before (leaveToOperator name parts) := by
  refine .get (.bind (.set fun retains => ?_) fun _ _ _ => ?_)
  · exact retains.asDeep rfl rfl rfl rfl
  · split
    · exact .pure
    · refine .modify fun retains => retains.beside rfl rfl rfl ?_
      exact depth_le_of_keeps (Sandbox.write_keeps _ _)
    · exact .throw

theorem runParts_puts {parts : List Node} : Puts start before (runParts parts) := by
  refine .get ?_
  split
  · exact .nothing .pure
  · split
    · exact .compiled
    · split
      · exact nestedShell_puts
      · split
        · rename_i known
          exact .nothing (runKnown_retains known)
        · exact .nothing leaveToOperator_retains

omit [Operator ω] [Host η] in
theorem assignParts_retains {parts : List Node} :
    Preserves (Retains start) before (assignParts parts) := by
  induction parts generalizing before with
  | nil => exact .pure
  | cons part rest ih =>
    cases part with
    | assignment text inner span =>
      unfold assignParts
      split
      · exact .bind (change_retains (Nat.le_refl _)) fun _ _ _ => ih
      · exact .throw
    | _ => exact ih

omit [Host η] in
theorem enterSubstitution_puts {index word : Nat} {part : Span} :
    Puts start before (enterSubstitution index word part) := by
  refine .bind slot_retains fun _ _ _ => ?_
  dsimp only
  split
  · exact .nothing .throw
  · split
    · exact .nothing .throw
    · refine .bind compiling_retains fun _ _ _ => .bind checkDepth_retains fun _ middle checked => ?_
      have allowed := checkDepth_ok_depth checked
      obtain rfl := checkDepth_eq_ok checked
      exact .bind (.modify fun retains => retains.lowered allowed rfl) fun _ _ _ => putFirst_puts

omit [Operator ω] [Host η] in
theorem leaveSubstitution_retains {index word : Nat} {part : Span} :
    Preserves (Retains start) before (leaveSubstitution index word part) := by
  refine .get (.bind (change_retains ?_) fun _ _ _ => .get ?_)
  · rw [Sandbox.depth_raise]
    exact Nat.sub_le _ _
  · split
    · refine .bind .lift fun spliced _ lifted => .set fun retains => ?_
      obtain ⟨_, rfl⟩ := run_lift_eq_ok.mp lifted
      exact retains.asDeep rfl rfl rfl rfl
    · exact .throw

omit [Host η] in
theorem decideCondition_puts {condition : String} {node : Node} :
    Puts start before (decideCondition condition node) := by
  refine .get ?_
  split
  · refine .bind (.set fun retains => ?_) fun _ _ _ => ?_
    · exact retains.asDeep rfl rfl rfl rfl
    · split
      · exact .nothing (change_retains (Nat.le_refl _))
      · exact .nothing (change_retains (Nat.le_refl _))
      · exact .compiled
  · exact .nothing .pure

omit [Host η] in
theorem chooseBody_puts {condition : Option String} {earlier : List String} {body : Node} :
    Puts start before (chooseBody condition earlier body) := by
  refine .get ?_
  split
  · exact .compiled
  · exact .nothing .pure

/-- Whatever becomes of an operation, it keeps what `Retains` says, and it puts actions first only
when it succeeds. -/
theorem execute_puts (operation : Operation) : Puts start before (execute operation) := by
  cases operation with
  | cleanUp | flush => exact .nothing (change_retains (Nat.le_of_eq (Sandbox.depth_flush _)))
  | separator op => exact .nothing separate_retains
  | endCapture =>
    refine .nothing (change_retains ?_)
    unfold Sandbox.endCapture
    split <;> exact (Nat.le_refl _)
  | readRedirect index place =>
    exact .nothing (.bind redirectPath_retains fun _ _ _ => readRedirect_retains)
  | writeRedirect index place append =>
    exact .nothing (.bind redirectPath_retains fun _ _ _ => change_retains (Nat.le_refl _))
  | unbindLoop name =>
    exact .nothing (keeping_retains (Sandbox.unset_keeps _ _))
  | run index => exact .bind slot_retains fun _ _ _ => runParts_puts
  | assign index => exact .nothing (.bind slot_retains fun _ _ _ => assignParts_retains)
  | enterSubstitution index word part => exact enterSubstitution_puts
  | leaveSubstitution index word part => exact .nothing leaveSubstitution_retains
  | decide condition node => exact decideCondition_puts
  | choose condition earlier body => exact chooseBody_puts
  | lower | enterFunction | enterSubshell => exact .nothing (lowering_retains rfl)
  | raise | leaveFunction =>
    refine .nothing (change_retains ?_)
    rw [Sandbox.depth_raise, Sandbox.depth_flush]
    exact Nat.sub_le _ _
  | nothing => exact .nothing .pure
  | resetIo | pipe | beginCapture | bindLoop | judge => exact .nothing (change_retains (Nat.le_refl _))

/-- An operation keeps what was pending, and puts nothing before it when it fails. -/
theorem execute_retains (operation : Operation) (machine : Machine ω η) :
    ∃ first middle, Retains machine middle ∧
      ((execute operation).run machine).2 = middle.withFirst first ∧
      (((execute operation).run machine).1.isOk = false → first = []) :=
  execute_puts operation (.refl machine)

end

end StepShell.Machine

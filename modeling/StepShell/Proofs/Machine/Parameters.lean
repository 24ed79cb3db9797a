import StepShell.Proofs.Machine.Symmetry
import StepShell.Proofs.Sandbox.Positionals

/-! What becomes of positional parameters while actions run. Besides lowering and raising scopes,
only `shift`, `unset` and assignments to a name made of digits change them. -/

namespace StepShell

namespace Command

/-- The names of variables that `unset` may remove when it is given these arguments. -/
def unsetNames (args : List String) : List String :=
  match args with
  | [] => []
  | flag :: names =>
    if flag = "-f" ∨ flag = "-n" then [] else if flag = "-v" then names else args

theorem passes_foldl {names given : List String} {alter : Sandbox → String → Sandbox}
    (each : ∀ sandbox, ∀ name ∈ names, sandbox.vars.Passes given →
      (alter sandbox name).vars.Passes given) {sandbox : Sandbox}
    (passes : sandbox.vars.Passes given) : (names.foldl alter sandbox).vars.Passes given := by
  induction names generalizing sandbox with
  | nil => exact passes
  | cons first rest ih =>
    exact ih (fun sandbox name member => each sandbox name (.tail first member))
      (each sandbox first (.head rest) passes)

theorem unset_passes {args given : List String} {sandbox : Sandbox}
    (passes : sandbox.vars.Passes given)
    (plain : ∀ name ∈ unsetNames args, Variables.isPositional name = false) :
    (unset args sandbox).2.vars.Passes given := by
  unfold unset
  unfold unsetNames at plain
  split
  · exact passes
  · rename_i flag names
    dsimp only at plain
    split
    · exact @passes_foldl names given Sandbox.undefine (fun _ _ _ => id) sandbox passes
    · rename_i notFunctions
      split
      · rename_i removes
        rw [if_neg (by simp [removes]), if_pos removes] at plain
        exact passes_foldl (fun sandbox name member kept => kept.erase (plain name member)) passes
      · rename_i notVariables
        split
        · exact passes
        · rename_i notReferences
          rw [if_neg (by simp [notFunctions, notReferences]), if_neg notVariables] at plain
          refine passes_foldl (fun sandbox name member kept => ?_) passes
          unfold unsetEither
          split
          · exact kept.erase (plain name member)
          · exact kept

end Command

namespace Machine

section
variable {ω η α : Type} {given : List String} {before : Machine ω η}

/-- The machine is to assign, shift or remove a positional parameter. -/
def Resets (machine : Machine ω η) : Operation → Prop
  | .bindLoop name _ | .unbindLoop name => Variables.isPositional name = true
  | .assign index => ∃ parts, machine.slots[index]? = some parts ∧
      ∃ text inner span, .assignment text inner span ∈ parts ∧
        ∃ name value, Text.splitOnce '=' text = some (name, value) ∧
          Variables.isPositional name = true
  | .run index => ∃ parts name args, machine.slots[index]? = some parts ∧
      words machine.sandbox.vars parts = name :: args ∧
      machine.sandbox.functions.get? name = none ∧ (name = "shift" ∨
        name = "unset" ∧ ∃ name ∈ Command.unsetNames args, Variables.isPositional name = true)
  | _ => False

/-- The machine passes these arguments. -/
abbrev PassesOn (given : List String) (machine : Machine ω η) : Prop :=
  machine.sandbox.vars.Passes given

theorem change_passes {alter : Sandbox → Sandbox}
    (same : (alter before.sandbox).vars = before.sandbox.vars) :
    Preserves (PassesOn given) before (change alter) := by
  refine .modify fun passes => ?_
  change (alter before.sandbox).vars.Passes given
  rw [same]
  exact passes

theorem putFirst_passes {actions : List Action} :
    Preserves (PassesOn given) before (putFirst actions) :=
  .modify id

theorem slot_passes {index : Nat} : Preserves (PassesOn given) before (slot index) := by
  refine .get ?_
  split
  · exact .pure
  · exact .throw

theorem flush_vars (sandbox : Sandbox) : sandbox.flush.vars = sandbox.vars := by
  unfold Sandbox.flush
  split <;> rfl

theorem endCapture_vars (sandbox : Sandbox) : sandbox.endCapture.vars = sandbox.vars := by
  unfold Sandbox.endCapture
  split <;> rfl

theorem compiled_passes {compile : Compilation.Setting → Compile ω (List Action)}
    {block : List Action → List Action} : Preserves (PassesOn given) before
      (do let actions ← compiling compile; putFirst (block actions)) :=
  .bind (fun passes => passes) fun _ _ _ => putFirst_passes

theorem separate_passes {op : String} : Preserves (PassesOn given) before (separate op) :=
  .get (.bind (change_passes rfl) fun _ _ _ => .get (.bind .lift fun _ _ _ => .modify id))

theorem redirectPath_passes {index place : Nat} :
    Preserves (PassesOn given) before (redirectPath index place) := by
  refine .bind slot_passes fun _ _ _ => ?_
  split
  · exact .get .pure
  · exact .throw
  · exact .throw

/-- Only assignments to positional parameters change them. -/
theorem assignParts_passes {parts : List Node}
    (plain : ∀ text inner span, .assignment text inner span ∈ parts →
      ∀ name value, Text.splitOnce '=' text = some (name, value) →
        Variables.isPositional name = false) :
    Preserves (PassesOn given) before (assignParts parts) := by
  induction parts generalizing before with
  | nil => exact .pure
  | cons part rest ih =>
    have later := fun before => @ih before fun text inner span member =>
      plain text inner span (.tail part member)
    cases part with
    | assignment text inner span =>
      unfold assignParts
      split
      · rename_i name value parted
        have named := plain text inner span (.head rest) name value parted
        exact .bind (.modify fun passes => passes.assign _ named) fun _ middle _ => later middle
      · exact .throw
    | _ => exact later before

variable [Operator ω]

theorem readRedirect_passes {path : String} :
    Preserves (PassesOn given) before (readRedirect path) := by
  refine .get ?_
  split
  · exact change_passes rfl
  · exact .bind (.set id) fun _ _ _ => change_passes rfl

theorem runNested_passes {name script : String} :
    Preserves (PassesOn given) before (runNested name script) := by
  unfold runNested
  split
  · exact change_passes rfl
  · exact compiled_passes

theorem nestedShell_passes {name : String} {args : List String} :
    Preserves (PassesOn given) before (nestedShell name args) := by
  unfold nestedShell
  split
  · exact .pure
  · split
    · split
      · exact runNested_passes
      · exact change_passes rfl
    · refine .get ?_
      dsimp only
      split
      · exact runNested_passes
      · exact change_passes rfl

omit [Operator ω] in
theorem runKnown_passes {command : Command ω} {args : List String}
    (kept : before.sandbox.vars.Passes given →
      (command args before.sandbox before.operator).2.1.vars.Passes given) :
    Preserves (PassesOn given) before (runKnown command args) :=
  .get (.bind (.set kept) fun _ _ _ => .bind .lift fun _ _ _ => change_passes rfl)

theorem decideCondition_passes {condition : String} {node : Node} :
    Preserves (PassesOn given) before (decideCondition condition node) := by
  refine .get ?_
  split
  · refine .bind (.set id) fun _ _ _ => ?_
    split
    · exact change_passes rfl
    · exact change_passes rfl
    · exact compiled_passes
  · exact .pure

theorem chooseBody_passes {condition : Option String} {earlier : List String} {body : Node} :
    Preserves (PassesOn given) before (chooseBody condition earlier body) := by
  refine .get ?_
  split
  · exact compiled_passes
  · exact .pure

variable [Host η]

theorem leaveToOperator_passes {name : String} {parts : List Node} :
    Preserves (PassesOn given) before (leaveToOperator name parts) := by
  refine .get (.bind (.set id) fun _ _ _ => ?_)
  split
  · exact .pure
  · exact .modify id
  · exact .throw

/-- Of all commands only `shift` and `unset` change positional parameters. -/
theorem run_passes {index : Nat} (standard : before.commands = Command.standard)
    (own : ¬before.Resets (.run index)) :
    Preserves (PassesOn given) before (execute (.run index)) := by
  refine .bind slot_passes fun parts middle found => ?_
  obtain ⟨held, rfl⟩ := slot_eq_ok found
  refine .get ?_
  split
  · exact .pure
  · rename_i name args named
    split
    · exact compiled_passes
    · rename_i undefined
      split
      · exact nestedShell_passes
      · split
        · rename_i command known
          rw [standard] at known
          refine runKnown_passes fun passes => ?_
          have shown := fun resets => own ⟨parts, name, args, held, named, undefined, resets⟩
          rcases Command.standard_cases known with works | ⟨rfl, rfl⟩ | ⟨rfl, rfl⟩
          · rw [(works args _ _).vars]
            exact passes
          · refine Command.unset_passes passes fun name member => ?_
            exact Bool.eq_false_iff.mpr fun positional =>
              shown (.inr ⟨rfl, name, member, positional⟩)
          · exact absurd (.inl rfl) shown
        · exact leaveToOperator_passes

/-- An operation that neither lowers nor raises a scope, and does not reset positional parameters by
itself, leaves them as they are. -/
theorem execute_passes {operation : Operation} (standard : before.commands = Command.standard)
    (own : ¬before.Resets operation)
    (within : operation.move ≠ .opens .scope ∧ operation.move ≠ .closes .scope) :
    Preserves (PassesOn given) before (execute operation) := by
  cases operation with
  | lower | enterFunction | enterSubshell | enterSubstitution => exact absurd rfl within.1
  | raise | leaveFunction | leaveSubstitution => exact absurd rfl within.2
  | cleanUp | flush => exact change_passes (flush_vars _)
  | endCapture => exact change_passes (endCapture_vars _)
  | separator op => exact separate_passes
  | readRedirect index place => exact .bind redirectPath_passes fun _ _ _ => readRedirect_passes
  | writeRedirect index place append =>
    exact .bind redirectPath_passes fun _ _ _ => change_passes rfl
  | bindLoop name value =>
    exact .modify fun passes => passes.assign value (Bool.eq_false_iff.mpr own)
  | unbindLoop name => exact .modify fun passes => passes.erase (Bool.eq_false_iff.mpr own)
  | run index => exact run_passes standard own
  | assign index =>
    refine .bind slot_passes fun parts middle found => ?_
    obtain ⟨held, rfl⟩ := slot_eq_ok found
    refine assignParts_passes fun text inner span member name value parted => ?_
    exact Bool.eq_false_iff.mpr fun positional =>
      own ⟨parts, held, text, inner, span, member, name, value, parted, positional⟩
  | decide condition node => exact decideCondition_passes
  | choose condition earlier body => exact chooseBody_passes
  | nothing => exact .pure
  | resetIo | pipe | beginCapture | judge => exact change_passes rfl

end

variable {ω η : Type} [Operator ω] [Host η] {given : List String}

/-- An action of a machine that was reached makes its move. -/
theorem Reached.executes {machine after : Machine ω η} {action : Action} {rest : List Action}
    (reached : Reached machine) (pending : machine.pending = action :: rest)
    (inched : inch.run machine = (.ok true, after)) :
    ∃ executed, (execute action.operation).run
        { machine with pending := rest, ticks := machine.ticks + 1 } = (.ok (), executed) ∧
      Executed action.operation.move
        { machine with pending := rest, ticks := machine.ticks + 1 } executed ∧
      after.sandbox = executed.sandbox := by
  obtain ⟨outer, _, inside⟩ := reached.inside
  obtain ⟨opened, first, left, closes, _⟩ := inside.brackets
  obtain ⟨_, _, executed, done, rfl⟩ := inch_eq_ok pending inched
  have sound : action.operation.Sound := by
    rw [pending, List.append_nil] at left
    subst left
    exact closes.sound
  exact ⟨executed, done, execute_moves (withPending_sound reached.sound _ _) sound done,
    (settle_frame executed).2.1⟩

/-- Lowering and raising are all that changes the scopes. -/
theorem Executed.scopes {operation : Operation} {machine after : Machine ω η}
    (done : (execute operation).run machine = (.ok (), after))
    (executed : Executed operation.move machine after)
    (within : operation.move ≠ .opens .scope ∧ operation.move ≠ .closes .scope) :
    after.sandbox.scopes = machine.sandbox.scopes := by
  have moves := executed.sandbox
  cases moved : operation.move with
  | stay =>
    rw [moved] at moves
    exact Sandbox.Keeps.scopes moves
  | opens bracket =>
    cases bracket with
    | scope => exact absurd moved within.1
    | capture =>
      rw [moved] at moves
      obtain ⟨below, keeps, scopes, _⟩ := moves
      exact scopes.trans keeps.scopes
  | closes bracket =>
    cases bracket with
    | scope => exact absurd moved within.2
    | capture =>
      obtain rfl : operation = .endCapture := by
        cases operation <;> first | rfl | cases moved
      rw [run_modify_eq_ok.mp done]
      change machine.sandbox.endCapture.scopes = _
      unfold Sandbox.endCapture
      split <;> rfl

end Machine

end StepShell

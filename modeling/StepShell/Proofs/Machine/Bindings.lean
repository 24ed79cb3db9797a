import StepShell.Proofs.Compilation.Redirection
import StepShell.Proofs.Compilation.Unrolling
import StepShell.Proofs.Machine.Sequence
import StepShell.Proofs.Token.Spelling

/-! Assigning to a variable and removing it, as commands of their own. Whatever the machine had left
to read or to print before, what they leave is the variable. -/

namespace StepShell

/-- A name stands for itself. -/
theorem Variables.expand_name {name : String} (form : Grammar.isName name = true)
    (vars : Variables) : vars.expand name = name := by
  have bare : Word.protect name = name := by
    have chars : Expansion.protectChars name.toList = name.toList := by
      refine (List.flatMap_congr fun c member => ?_).trans (List.flatMap_singleton' _)
      have named := Lexer.isNameChar_of_isName form c member
      refine if_neg fun special => ?_
      simp only [Word.isSpecial, Bool.or_eq_true, beq_iff_eq] at special
      rcases special with (rfl | rfl) | rfl <;> exact absurd named (by decide)
    rw [Word.protect, chars, String.ofList_toList]
  have whole := vars.expand_protect name
  rwa [bare] at whole

namespace Node

/-- The parts of the assignment of a value to a variable. -/
def bindingParts (name value : String) : List Node :=
  [.assignment (name ++ "=" ++ Word.protect value) [] default]

/-- The assignment as a command. -/
def binding (name value : String) : Node :=
  .command (bindingParts name value) default

/-- The parts of the command that removes a variable. -/
def unbindingParts (name : String) : List Node :=
  [.word "unset" [] false default, .word "-v" [] false default, .word name [] false default]

def unbinding (name : String) : Node :=
  .command (unbindingParts name) default

end Node

theorem Command.unset_variable {ω : Type} (name : String) (sandbox : Sandbox) (operator : ω) :
    ofSandbox unset ["-v", name] sandbox operator =
      (.ok .nothing, sandbox.unset name, operator) := by
  simp [ofSandbox, unset]

theorem Command.standard_unset {ω : Type} [Operator ω] :
    (standard : Table (Command ω)).get? "unset" = some (ofSandbox unset) := by
  simp [standard, standardList, Table.ofList, Table.get?_insert]

namespace Machine

variable {ω η : Type} {machine after : Machine ω η} {name value : String}

theorem runKnown_of_ok {command : Command ω} {args : List String} {printed : Printed}
    {sandbox : Sandbox} {operator : ω}
    (answers : command args machine.sandbox machine.operator = (.ok printed, sandbox, operator)) :
    (runKnown command args).run machine = (.ok (), { machine with
      sandbox := (sandbox.write printed.output).write printed.errors
      operator }) := by
  unfold runKnown
  rw [run_get_bind, answers]
  rfl

variable [Operator ω] [Host η]

/-- A command that comes down to one operation, which changes the sandbox but nothing that is to be
read or printed. -/
theorem run_single {parts : List Node} {span : Span} {operation : Operation}
    {start change : Sandbox → Sandbox}
    (compiles : ∀ redirects source, Redirects.collect parts = .ok redirects →
      ∃ lead action, Compilation.commandActions 0 redirects source parts = lead ++ [action] ∧
        Tidies ω η lead start ∧ action.operation = operation)
    (starts : ∀ sandbox : Sandbox, sandbox.io.output = "" → start sandbox = sandbox)
    (quiet : ∀ sandbox, (change sandbox).io = sandbox.io)
    (does : ∀ now executed : Machine ω η, now.slots[0]? = some parts →
      now.commands = machine.commands → now.sandbox = machine.sandbox.clearOutput.clearInput →
      (execute operation).run now = (.ok (), executed) → executed = now.withSandbox change)
    (done : (run (.command parts span)).run machine = (.ok (), after)) :
    Tidied (fun sandbox => change sandbox.clearOutput.clearInput) machine after := by
  obtain ⟨_, _, compiling, _, runs⟩ := run_compiles done
  obtain ⟨redirects, collected, rfl, rfl⟩ := Compilation.compile_command_eq_ok compiling
  obtain ⟨lead, action, actions, leads, rfl⟩ := compiles redirects _ collected
  have whole : wrapped (Compilation.commandActions 0 redirects (Node.command parts span).shell
      parts) = ([.plain .resetIo "Initialize state for command"] ++ lead) ++
        ([action] ++ [.plain .cleanUp "Exit Node Cleanup"]) := by
    rw [actions]
    simp [wrapped]
  obtain ⟨now, before, later⟩ := runs.until whole
  have begun := (Tidies.resetIo.append leads) _ _ _ before whole
  have cleared : now.sandbox = machine.sandbox.clearOutput.clearInput :=
    begun.sandbox.trans (starts _ rfl)
  have slots := begun.slots (by simp [before.pending])
  have left : now.pending = action :: [.plain .cleanUp "Exit Node Cleanup"] ++ [] := before.pending
  obtain ⟨_, ran, onward⟩ := later.first left
  have changed := does { now with
      pending := [.plain .cleanUp "Exit Node Cleanup"] ++ [], ticks := now.ticks + 1 } _
    (congrArg (·[0]?) slots) begun.commands cleared ran
  subst changed
  rw [settle_of_pending (List.cons_ne_nil _ _)] at onward
  have ended := Tidies.cleanUp [] _ _ onward rfl
  refine ⟨?_, fun some => absurd onward.pending some, ended.commands.trans begun.commands,
    ended.limits.trans begun.limits, ended.operator.trans begun.operator,
    ended.host.trans begun.host⟩
  have silent : (change now.sandbox).io = ⟨machine.sandbox.io.id, "", ""⟩ := by
    rw [quiet, cleared]
    rfl
  rw [ended.sandbox]
  change (change now.sandbox).flush.clearInput = change machine.sandbox.clearOutput.clearInput
  rw [Sandbox.flush_of_unwritten _ (by rw [silent]), Sandbox.clearInput_of_dry _ (by rw [silent]),
    cleared]

theorem assign_binds (form : Grammar.isName name = true)
    (held : machine.slots[0]? = some (Node.bindingParts name value))
    (done : (execute (.assign 0)).run machine = (.ok (), after)) :
    after = machine.withSandbox (·.assign name value) := by
  have split : Text.splitOnce '=' (name ++ "=" ++ Word.protect value) =
      some (name, Word.protect value) := by
    refine Text.splitOnce_eq (by simp) fun member => ?_
    exact absurd (Lexer.isNameChar_of_isName form _ member) (by decide)
  have assigning : (assignParts (Node.bindingParts name value) : Step ω η Unit).run machine =
      (.ok (), after) := slotted_eq_ok held done
  rw [Node.bindingParts, assignParts, split] at assigning
  dsimp only at assigning
  obtain ⟨_, _, assigned, ended⟩ := run_bind_eq_ok.mp assigning
  obtain ⟨_, rfl⟩ := run_pure_eq_ok.mp ended
  simp only [Variables.expand_protect] at assigned
  exact run_modify_eq_ok.mp assigned

/-- After the assignment the variable has the value. -/
theorem run_binding (form : Grammar.isName name = true)
    (done : (run (.binding name value)).run machine = (.ok (), after)) :
    Tidied (fun sandbox => sandbox.clearOutput.clearInput.assign name value) machine after := by
  have compiles : ∀ redirects source,
      Redirects.collect (Node.bindingParts name value) = .ok redirects →
      ∃ lead action, Compilation.commandActions 0 redirects source
          (Node.bindingParts name value) = lead ++ [action] ∧
        Tidies ω η lead Sandbox.flush ∧ action.operation = .assign 0 := by
    rintro redirects source collected
    cases collected
    exact ⟨_, _, rfl, .flush, rfl⟩
  have quiet : ∀ sandbox : Sandbox, (sandbox.assign name value).io = sandbox.io := fun _ => rfl
  exact run_single compiles Sandbox.flush_of_unwritten quiet
    (fun _ _ held _ _ ran => assign_binds form held ran) done

theorem run_unsets (form : Grammar.isName name = true)
    (standard : machine.commands = Command.standard)
    (bare : machine.sandbox.functions.get? "unset" = none)
    (held : machine.slots[0]? = some (Node.unbindingParts name))
    (done : (execute (.run 0)).run machine = (.ok (), after)) :
    after = machine.withSandbox (·.unset name) := by
  have named : words machine.sandbox.vars (Node.unbindingParts name) = ["unset", "-v", name] := by
    have flag : machine.sandbox.vars.expand "-v" = "-v" := Variables.expand_protect _ "-v"
    have command : machine.sandbox.vars.expand "unset" = "unset" :=
      Variables.expand_protect _ "unset"
    simp [Node.unbindingParts, words, flag, command, Variables.expand_name form]
  have known : machine.commands.get? "unset" = some (Command.ofSandbox Command.unset) := by
    rw [standard, Command.standard_unset]
  have unsets : (runKnown (Command.ofSandbox Command.unset) ["-v", name]).run machine =
      (.ok (), after) :=
    (runParts_known named bare (by decide) known).symm.trans (run_eq_ok held done)
  rw [runKnown_of_ok (Command.unset_variable name _ _)] at unsets
  obtain rfl : _ = after := congrArg Prod.snd unsets
  simp [withSandbox, Printed.nothing, Printed.ok, Sandbox.write, Socket.write]

/-- After the removal the variable is gone. -/
theorem run_unbinding (form : Grammar.isName name = true)
    (standard : machine.commands = Command.standard)
    (bare : machine.sandbox.functions.get? "unset" = none)
    (done : (run (.unbinding name)).run machine = (.ok (), after)) :
    Tidied (fun sandbox => sandbox.clearOutput.clearInput.unset name) machine after := by
  have compiles : ∀ redirects source,
      Redirects.collect (Node.unbindingParts name) = .ok redirects →
      ∃ lead action, Compilation.commandActions 0 redirects source
          (Node.unbindingParts name) = lead ++ [action] ∧
        Tidies ω η lead id ∧ action.operation = .run 0 := by
    rintro redirects source collected
    cases collected
    exact ⟨[], _, rfl, .nil, rfl⟩
  have quiet : ∀ sandbox : Sandbox, (sandbox.unset name).io = sandbox.io := fun _ => rfl
  refine run_single compiles (fun _ _ => rfl) quiet ?_ done
  intro now executed held commands sandbox ran
  exact run_unsets form (commands.trans standard) (by rw [sandbox]; exact bare) held ran

end Machine

end StepShell

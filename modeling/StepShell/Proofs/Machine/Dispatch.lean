import StepShell.Operator.Scripted
import StepShell.Proofs.Machine.Outside
import StepShell.Proofs.Machine.Unwinding

/-! Where a command goes: to a function, else to a nested shell, else to a command of the sandbox,
else to the operator, who is asked about it once. An empty name goes the same ways, so nothing comes
of it only where a registered command of that name does nothing. -/

namespace StepShell

section
variable {ω : Type}

/-- What this reads off an operator is the unknown commands that he was asked about, in their
order. -/
structure Operator.Logs [Operator ω] (log : ω → List String) : Prop where
  command : ∀ text operator, log (Operator.command text operator).2 = log operator ++ [text]
  condition : ∀ text operator, log (Operator.condition text operator).2 = log operator
  input : ∀ path operator, log (Operator.input path operator).2 = log operator
  fetch : ∀ address operator, log (Operator.fetch address operator).2 = log operator
  items : ∀ item operator, log (Operator.items item operator).2 = log operator

/-- An operator, and the unknown commands that he was asked about. -/
structure Watched (ω : Type) where
  operator : ω
  commands : List String

instance [Operator ω] : Operator (Watched ω) where
  condition text watched :=
    (Operator.condition text watched.operator).map id fun operator => { watched with operator }
  command text watched :=
    (Operator.command text watched.operator).map id fun operator =>
      ⟨operator, watched.commands ++ [text]⟩
  input path watched :=
    (Operator.input path watched.operator).map id fun operator => { watched with operator }
  fetch address watched :=
    (Operator.fetch address watched.operator).map id fun operator => { watched with operator }
  items item watched :=
    (Operator.items item watched.operator).map id fun operator => { watched with operator }

variable [Operator ω]

/-- Every operator can be watched. -/
theorem Watched.logs : Operator.Logs (Watched.commands : Watched ω → List String) :=
  ⟨fun _ _ => rfl, fun _ _ => rfl, fun _ _ => rfl, fun _ _ => rfl, fun _ _ => rfl⟩

theorem Operator.Logs.itemsAsked {log : ω → List String} (logs : Logs log) (operator : ω)
    (asked : List String) : log (Operator.itemsAsked operator asked) = log operator := by
  induction asked generalizing operator with
  | nil => rfl
  | cons item rest ih => exact (ih _).trans (logs.items item operator)

end

/-- No standard command has an empty name. -/
theorem Command.standard_unnamed {ω : Type} [Operator ω] :
    (standard : Table (Command ω)).get? "" = none := by
  have named : ∀ entry ∈ (standardList : List (String × Command ω)), entry.1 ≠ "" := by
    simp [standardList]
  cases found : (standard : Table (Command ω)).get? "" with
  | none => rfl
  | some command => exact absurd rfl (named _ (Table.mem_of_get?_ofList found))

namespace Machine

variable {ω η α : Type} [Operator ω]

section
variable {log : ω → List String} {past : List String} {before : Machine ω η}

/-- Besides the past the operator was asked about no unknown command. -/
def Unasked (log : ω → List String) (past : List String) (machine : Machine ω η) : Prop :=
  log machine.operator = past

theorem compiling_unasked {compile : Compilation.Setting → Compile ω α} (logs : Operator.Logs log)
    (asks : AsksItems compile) : Preserves (Unasked log past) before (compiling compile) := by
  intro unasked
  obtain ⟨asked, same⟩ :=
    asks before.setting ⟨before.sandbox.functions, before.slots, before.operator⟩
  exact (congrArg log same).trans ((logs.itemsAsked _ asked).trans unasked)

theorem compiled_unasked {compile : Compilation.Setting → Compile ω (List Action)}
    {block : List Action → List Action} (logs : Operator.Logs log) (asks : AsksItems compile) :
    Preserves (Unasked log past) before (do
      let actions ← compiling compile
      putFirst (block actions)) :=
  .bind (compiling_unasked logs asks) fun _ _ _ => .modify id

theorem call_unasked {name : String} {args : List String} {body : Node}
    (logs : Operator.Logs log) :
    Preserves (Unasked log past) before (call name args body) :=
  compiled_unasked logs (compile_asksItems body)

theorem runNested_unasked {name script : String} (logs : Operator.Logs log) :
    Preserves (Unasked log past) before (runNested name script) := by
  unfold runNested
  split
  · exact .modify id
  · exact compiled_unasked logs (nestedActions_asksItems _)

theorem nestedShell_unasked {name : String} {args : List String} (logs : Operator.Logs log) :
    Preserves (Unasked log past) before (nestedShell name args) := by
  unfold nestedShell
  split
  · exact .pure
  · split
    · split
      · exact runNested_unasked logs
      · exact .modify id
    · refine .get ?_
      dsimp only
      split
      · exact runNested_unasked logs
      · exact .modify id

omit [Operator ω] in
/-- Running a command of the sandbox asks what that command asks by itself. -/
theorem runKnown_operator (command : Command ω) (args : List String) (machine : Machine ω η) :
    ((runKnown command args).run machine).2.operator =
      (command args machine.sandbox machine.operator).2.2 := by
  unfold runKnown
  rw [run_get_bind]
  rcases command args machine.sandbox machine.operator with ⟨_ | _, _, _⟩ <;> rfl

end

/-- A function that is called has actions to be done first. -/
theorem call_pending {machine after : Machine ω η} {name : String} {args : List String}
    {body : Node} (done : (call name args body).run machine = (.ok (), after)) :
    machine.pending.length < after.pending.length := by
  obtain ⟨actions, middle, made, put⟩ := run_bind_eq_ok.mp done
  obtain rfl := run_modify_eq_ok.mp put
  obtain ⟨compilation, _, rfl⟩ := compiling_eq.mp made
  have first : (machine.withCompilation compilation).pending = machine.pending := rfl
  simp only [withFirst, first, List.length_append, List.length_cons]
  omega

variable [Host η]

/-- What comes of a command by the operator's answer to it. -/
def answered (machine : Machine ω η) (name text : String) :
    CommandAnswer × ω → Except Failure Unit × Machine ω η
  | (.skip, operator) => (.ok (), { machine with operator })
  | (.execute, operator) => (.ok (), { machine with operator }.shell text true)
  | (.abort, operator) => (.error (.commandNotFound name), { machine with operator })

omit [Operator ω] in
theorem answered_operator (machine : Machine ω η) (name text : String)
    (answer : CommandAnswer × ω) : (machine.answered name text answer).2.operator = answer.2 := by
  rcases answer with ⟨_ | _ | _, _⟩ <;> rfl

theorem leaveToOperator_run (machine : Machine ω η) (name : String) (parts : List Node) :
    (leaveToOperator name parts).run machine = machine.answered name (commandLine parts)
      (Operator.command (commandLine parts) machine.operator) := by
  unfold leaveToOperator
  rw [run_get_bind]
  rcases Operator.command (commandLine parts) machine.operator with ⟨_ | _ | _, _⟩ <;> rfl

theorem runParts_unfound {machine : Machine ω η} {parts : List Node} {name : String}
    {args : List String} (named : words machine.sandbox.vars parts = name :: args)
    (undefined : machine.sandbox.functions.get? name = none)
    (plain : ¬(name = "bash" ∨ name = "sh")) (unknown : machine.commands.get? name = none) :
    (runParts parts).run machine = machine.answered name (commandLine parts)
      (Operator.command (commandLine parts) machine.operator) := by
  unfold runParts
  rw [run_get_bind, named]
  dsimp only
  rw [undefined]
  dsimp only
  rw [if_neg plain, unknown]
  exact leaveToOperator_run machine name parts

theorem runParts_nameless {machine : Machine ω η} {parts : List Node}
    (nameless : words machine.sandbox.vars parts = []) :
    (runParts parts).run machine = (.ok (), machine) := by
  unfold runParts
  rw [run_get_bind, nameless]
  rfl

theorem execute_run {machine : Machine ω η} {index : Nat} {parts : List Node}
    (held : machine.slots[index]? = some parts) :
    (execute (.run index)).run machine = (runParts parts).run machine :=
  run_bind_of_ok (slot_of_held held)

omit [Operator ω] [Host η] in
/-- A name that is not empty, and that nothing in the sandbox goes by. -/
structure Unknown (machine : Machine ω η) (name : String) : Prop where
  named : name ≠ ""
  undefined : machine.sandbox.functions.get? name = none
  plain : ¬(name = "bash" ∨ name = "sh")
  unregistered : machine.commands.get? name = none

/-- The operator is asked about the command in a slot, and what he answers is all that comes of
it. -/
structure LeftToOperator (log : ω → List String) (index : Nat) (name : String) (parts : List Node)
    (machine : Machine ω η) : Prop where
  result : (execute (.run index)).run machine = machine.answered name (commandLine parts)
    (Operator.command (commandLine parts) machine.operator)
  asked : log ((execute (.run index)).run machine).2.operator =
    log machine.operator ++ [commandLine parts]

/-- The command in a slot goes where it should go by its name. The log tells that an unknown one is
asked about once, and no other unless a command of the sandbox does so by itself. -/
structure Dispatched (log : ω → List String) (index : Nat) (parts : List Node)
    (machine : Machine ω η) : Prop where
  unknown : ∀ name args, words machine.sandbox.vars parts = name :: args → machine.Unknown name →
    LeftToOperator log index name parts machine
  function : ∀ name args body, words machine.sandbox.vars parts = name :: args →
    machine.sandbox.functions.get? name = some body →
    (execute (.run index)).run machine = (call name args body).run machine ∧
      log ((execute (.run index)).run machine).2.operator = log machine.operator
  shell : ∀ name args, words machine.sandbox.vars parts = name :: args →
    machine.sandbox.functions.get? name = none → name = "bash" ∨ name = "sh" →
    (execute (.run index)).run machine = (nestedShell name args).run machine ∧
      log ((execute (.run index)).run machine).2.operator = log machine.operator
  command : ∀ name args command, words machine.sandbox.vars parts = name :: args →
    machine.sandbox.functions.get? name = none → ¬(name = "bash" ∨ name = "sh") →
    machine.commands.get? name = some command →
    (execute (.run index)).run machine = (runKnown command args).run machine ∧
      log ((execute (.run index)).run machine).2.operator =
        log (command args machine.sandbox machine.operator).2.2
  /-- Nothing comes of a command without a name. -/
  nameless : (∀ name args, words machine.sandbox.vars parts = name :: args → name = "") →
    (execute (.run index)).run machine = (.ok (), machine)

/-- Nothing comes of an empty name: no function goes by it, but a command that does nothing. -/
def EmptyIdles (parts : List Node) (machine : Machine ω η) : Prop :=
  ∀ args, words machine.sandbox.vars parts = "" :: args →
    machine.sandbox.functions.get? "" = none ∧
      ∃ command, machine.commands.get? "" = some command ∧
        (runKnown command args).run machine = (.ok (), machine)

section
variable {log : ω → List String} {index : Nat} {parts : List Node} {machine : Machine ω η}

theorem left_of_unfound {name : String} {args : List String} (logs : Operator.Logs log)
    (held : machine.slots[index]? = some parts)
    (named : words machine.sandbox.vars parts = name :: args)
    (undefined : machine.sandbox.functions.get? name = none)
    (plain : ¬(name = "bash" ∨ name = "sh")) (unknown : machine.commands.get? name = none) :
    LeftToOperator log index name parts machine := by
  have left := (execute_run held).trans (runParts_unfound named undefined plain unknown)
  refine ⟨left, ?_⟩
  rw [left, answered_operator, logs.command]

theorem Dispatched.emptyIdles (logs : Operator.Logs log)
    (held : machine.slots[index]? = some parts) (dispatched : Dispatched log index parts machine) :
    EmptyIdles parts machine := by
  intro args named
  have idle : (execute (.run index)).run machine = (.ok (), machine) :=
    dispatched.nameless fun name args other => (List.cons.inj (other.symm.trans named)).1
  cases defined : machine.sandbox.functions.get? "" with
  | some body =>
    have called := (dispatched.function "" args body named defined).1.symm.trans idle
    exact absurd (call_pending called) (Nat.lt_irrefl _)
  | none =>
    refine ⟨rfl, ?_⟩
    have plain : ¬("" = "bash" ∨ "" = "sh") := by decide
    cases known : machine.commands.get? "" with
    | some command =>
      have ran := (dispatched.command "" args command named defined plain known).1.symm.trans idle
      exact ⟨command, rfl, ran⟩
    | none =>
      -- The question would be in the log of a machine that is as before.
      have asked := (left_of_unfound logs held named defined plain known).asked
      rw [idle] at asked
      simp at asked

theorem EmptyIdles.dispatched (logs : Operator.Logs log)
    (held : machine.slots[index]? = some parts) (idles : EmptyIdles parts machine) :
    Dispatched log index parts machine := by
  constructor
  case unknown =>
    intro name args named unknown
    exact left_of_unfound logs held named unknown.undefined unknown.plain unknown.unregistered
  case function =>
    intro name args body named defined
    rw [execute_run held, runParts_call named defined]
    exact ⟨rfl, call_unasked logs rfl⟩
  case shell =>
    intro name args named undefined shell
    rw [execute_run held, runParts_nested named undefined shell]
    exact ⟨rfl, nestedShell_unasked logs rfl⟩
  case command =>
    intro name args command named undefined plain known
    rw [execute_run held, runParts_known named undefined plain known, runKnown_operator]
    exact ⟨rfl, rfl⟩
  case nameless =>
    intro empty
    rw [execute_run held]
    cases named : words machine.sandbox.vars parts with
    | nil => exact runParts_nameless named
    | cons name args =>
      obtain rfl := empty name args named
      obtain ⟨undefined, command, known, idle⟩ := idles args named
      rw [runParts_known named undefined (by decide) known, idle]

/-- A command goes where it should exactly if nothing comes of an empty name; where the commands are
the standard ones, exactly if its name is not empty. Where nothing goes by the empty name, it is
treated as that of an unknown command. -/
theorem dispatched_iff (logs : Operator.Logs log) (held : machine.slots[index]? = some parts) :
    (Dispatched log index parts machine ↔ EmptyIdles parts machine) ∧
      (machine.commands = Command.standard →
        (Dispatched log index parts machine ↔
          ∀ args, words machine.sandbox.vars parts ≠ "" :: args)) ∧
      ∀ args, words machine.sandbox.vars parts = "" :: args →
        machine.sandbox.functions.get? "" = none → machine.commands.get? "" = none →
        LeftToOperator log index "" parts machine := by
  have general : Dispatched log index parts machine ↔ EmptyIdles parts machine :=
    ⟨Dispatched.emptyIdles logs held, EmptyIdles.dispatched logs held⟩
  refine ⟨general, fun standard => general.trans ⟨fun idles args named => ?_, fun nonempty => ?_⟩,
    fun args named undefined unknown =>
      left_of_unfound logs held named undefined (by decide) unknown⟩
  · obtain ⟨_, command, known, _⟩ := idles args named
    rw [standard, Command.standard_unnamed] at known
    cases known
  · exact fun args named => absurd named (nonempty args)

end

/-- A new machine that holds one command, and whose operator is to answer so. -/
def holding (parts : List Node) (commands : List CommandAnswer) :
    Machine (Watched Scripted) Disabled :=
  { create Sandbox.empty Command.standard {} ⟨{ (default : Scripted) with commands }, []⟩ {} with
    slots := #[parts] }

/-- The command `nmap -A`. -/
def unknownParts : List Node :=
  [.word "nmap" [] false ⟨0, 4⟩, .word "-A" [] false ⟨5, 7⟩]

theorem dispatched_unknown :
    (holding unknownParts [.skip]).slots[0]? = some unknownParts ∧
      Dispatched Watched.commands 0 unknownParts (holding unknownParts [.skip]) := by
  have held : (holding unknownParts [.skip]).slots[0]? = some unknownParts := rfl
  have nonempty : ∀ args,
      words (holding unknownParts [.skip]).sandbox.vars unknownParts ≠ "" :: args := by
    have named : words (holding unknownParts [.skip]).sandbox.vars unknownParts =
        ["nmap", "-A"] := by
      decide +kernel
    simp [named]
  exact ⟨held, ((dispatched_iff Watched.logs held).2.1 rfl).mpr nonempty⟩

/-- The command `$a`. -/
def variableParts : List Node :=
  [.word "$a" [.parameter "a" ⟨0, 2⟩] false ⟨0, 2⟩]

/-- A variable without a value leaves an empty name, about which the operator is asked, and which is
refused when he says so. -/
theorem empty_name_refused :
    words (holding variableParts [.abort]).sandbox.vars variableParts = [""] ∧
      ((execute (.run 0)).run (holding variableParts [.abort])).1 =
        .error (.commandNotFound "") ∧
      ((execute (.run 0)).run (holding variableParts [.abort])).2.operator.commands = ["$a"] ∧
      ¬Dispatched Watched.commands 0 variableParts (holding variableParts [.abort]) := by
  have named : words (holding variableParts [.abort]).sandbox.vars variableParts = [""] := by
    decide +kernel
  have left : LeftToOperator Watched.commands 0 "" variableParts
      (holding variableParts [.abort]) :=
    left_of_unfound Watched.logs rfl named rfl (by decide) Command.standard_unnamed
  have line : commandLine variableParts = "$a" := by decide +kernel
  have refused : ((execute (.run 0)).run (holding variableParts [.abort])).1 =
      .error (.commandNotFound "") := by
    rw [left.result]
    rfl
  refine ⟨named, refused, left.asked.trans (by rw [line]; rfl), fun dispatched => ?_⟩
  have idle := dispatched.nameless fun name args other =>
    (List.cons.inj (other.symm.trans named)).1
  rw [idle] at refused
  cases refused

end Machine

end StepShell

import StepShell.Proofs.Machine.Discipline

/-! Constructs with a scope of their own: groups in parentheses, calls of functions, nested shells
and substitutions. Whatever runs inside, the variables and the working directory come back. The
functions come back as they were when the scope was lowered, and by then the body is compiled. -/

namespace StepShell

theorem Closes.append {opened : List Bracket} {first second : List Action}
    (closes : Closes opened first) (block : Block second) : Closes opened (first ++ second) := by
  induction closes with
  | done => simpa using block.closes
  | stay move sound _ ih => exact .stay move sound ih
  | opens move _ ih => exact .opens move ih
  | closes move _ ih => exact .closes move ih

namespace Machine

variable {ω η : Type} [Operator ω] [Host η]

/-- The machines that come of building commands of scripts and executing actions, from any sandbox
whose functions were defined by scripts. -/
inductive Reached : Machine ω η → Prop where
  | start {machine : Machine ω η} (idle : machine.pending = [] ∧ machine.slots = #[])
      (functions : ∀ name body,
        machine.sandbox.functions.get? name = some body → Script.Defines body)
      (commands : machine.commands = Command.standard) : Reached machine
  | built {machine after : Machine ω η} {text : String} {nodes : List Node} {node : Node}
      {append : Bool} (reached : Reached machine) (parsed : Script.parse text = .ok nodes)
      (member : node ∈ nodes) (done : (build node append).run machine = (.ok (), after)) :
      Reached after
  | inched {machine after : Machine ω η} {more : Bool} (reached : Reached machine)
      (done : inch.run machine = (.ok more, after)) : Reached after

/-- What is pending on a machine that was reached closes the brackets that it stands in. -/
theorem Reached.inside {machine : Machine ω η} (reached : Reached machine) :
    ∃ outer, outer.functions.Sound ∧ Inside outer [] machine := by
  induction reached with
  | @start machine idle functions commands =>
    have known : machine.sandbox.functions.Sound :=
      fun name body found => (functions name body found).formed
    have slots : SoundSlots machine.slots := by
      rw [idle.2]
      exact .empty
    refine ⟨machine.sandbox, known, ⟨commands, known, slots⟩, [], [], ?_, .done, .here (.refl _)⟩
    rw [idle.1, List.append_nil]
  | @built machine after _ _ node append _ parsed member done ih =>
    obtain ⟨outer, known, inside⟩ := ih
    obtain ⟨opened, first, pending, closes, within⟩ := inside.brackets
    have formed := Script.parse_formed parsed node member
    obtain ⟨sound, keeps, block, balanced, put⟩ := build_sound formed inside.sound.functions
      inside.sound.commands (fun _ => inside.sound.slots) done
    cases append with
    | false =>
      refine ⟨after.sandbox, sound.functions, sound, [], block, ?_, balanced.closes,
        .here (.refl _)⟩
      simpa using put
    | true =>
      refine ⟨outer, known, sound, opened, first ++ block, ?_, closes.append balanced,
        within.keeps keeps⟩
      simpa [pending] using put
  | @inched machine after more _ done ih =>
    obtain ⟨outer, known, inside⟩ := ih
    by_cases ended : machine.pending = []
    · obtain ⟨_, rfl⟩ := inch_nil_eq_ok ended done
      exact ⟨outer, known, inside⟩
    · exact ⟨outer, known, (inside.inch known ended done).2.1⟩

theorem Reached.sound {machine : Machine ω η} (reached : Reached machine) : machine.Sound := by
  obtain ⟨_, _, inside⟩ := reached.inside
  exact inside.sound

/-- Nothing runs where nothing is pending before the rest. -/
theorem Runs.ended {rest : List Action} {machine after : Machine ω η}
    (runs : Runs rest machine after) (pending : machine.pending = rest) : after = machine := by
  cases runs with
  | done => rfl
  | inch left _ _ =>
    rw [pending, List.self_eq_append_left] at left
    cases left

/-- The first action of a run is executed, then the others. -/
theorem Runs.first {rest tail : List Action} {action : Action} {machine after : Machine ω η}
    (runs : Runs rest machine after) (pending : machine.pending = action :: tail ++ rest) :
    ∃ executed, (execute action.operation).run
        { machine with pending := tail ++ rest, ticks := machine.ticks + 1 } = (.ok (), executed) ∧
      Runs rest executed.settle after := by
  cases runs with
  | done ended =>
    rw [ended, List.self_eq_append_left] at pending
    cases pending
  | inch left inched later =>
    obtain ⟨_, _, executed, done, rfl⟩ := inch_eq_ok pending inched
    exact ⟨executed, done, later⟩

/-- What opens a bracket is executed, and the rest of the run starts inside it. -/
theorem Runs.opening {rest actions : List Action} {opening : Action} {bracket : Bracket}
    {machine after : Machine ω η} (runs : Runs rest machine after) (sound : machine.Sound)
    (opens : opening.operation.move = .opens bracket)
    (pending : machine.pending = opening :: actions ++ rest) :
    ∃ opened : Machine ω η, (execute opening.operation).run
        { machine with pending := actions ++ rest, ticks := machine.ticks + 1 } =
          (.ok (), opened) ∧
      Executed (.opens bracket)
        { machine with pending := actions ++ rest, ticks := machine.ticks + 1 } opened ∧
      opened.Sound ∧ Runs rest opened.settle after := by
  obtain ⟨opened, done, later⟩ := runs.first pending
  have step := execute_moves (withPending_sound sound _ _)
    (Operation.sound_of_move (by rw [opens]; nofun)) done
  rw [opens] at step
  refine ⟨opened, done, step, ⟨step.commands.trans sound.commands, ?_, step.slots⟩, later⟩
  cases bracket with
  | scope =>
    obtain ⟨below, keeps, _, _, _, _, functions⟩ := step.sandbox
    exact functions ▸ keeps.functions sound.functions
  | capture =>
    obtain ⟨below, keeps, _, _, functions⟩ := step.sandbox
    exact functions ▸ keeps.functions sound.functions

/-- A block runs through inside the bracket that the next action closes. -/
theorem Runs.closing {rest actions : List Action} {closing : Action} {bracket : Bracket}
    {machine after : Machine ω η} (runs : Runs rest machine after) (sound : machine.Sound)
    (block : Block actions) (closes : closing.operation.move = .closes bracket)
    (pending : machine.pending = actions ++ closing :: rest) :
    ∃ middle closed : Machine ω η, machine.sandbox.Keeps middle.sandbox ∧
      (execute closing.operation).run
        { middle with pending := rest, ticks := middle.ticks + 1 } = (.ok (), closed) ∧
      Executed (.closes bracket)
        { middle with pending := rest, ticks := middle.ticks + 1 } closed ∧
      after = closed.settle := by
  have inside : Inside machine.sandbox ([closing] ++ rest) machine :=
    ⟨sound, [], actions, pending, block.closes, .here (.refl _)⟩
  have onward : machine.pending = actions ++ ([closing] ++ rest) := pending
  obtain ⟨middle, early, late⟩ := runs.split onward
  obtain ⟨keeps, sound⟩ := early.keeps sound.functions inside
  have left : middle.pending = closing :: [] ++ rest := early.pending
  obtain ⟨closed, done, later⟩ := late.first left
  have step := execute_moves (withPending_sound sound _ _)
    (Operation.sound_of_move (by rw [closes]; nofun)) done
  rw [closes] at step
  exact ⟨middle, closed, keeps, done, step,
    later.ended ((settle_frame closed).1.trans (step.closed _ rfl))⟩

/-- When the scope that a block runs in is raised, what it saved is back. -/
theorem Runs.restores {rest actions : List Action} {closing : Action} {scope : Scope}
    {scopes : List Scope} {machine after : Machine ω η} (runs : Runs rest machine after)
    (sound : machine.Sound) (lowered : machine.sandbox.scopes = scope :: scopes)
    (block : Block actions) (closes : closing.operation.move = .closes .scope)
    (pending : machine.pending = actions ++ closing :: rest) :
    after.sandbox.vars = scope.vars ∧ after.sandbox.workingDir = scope.workingDir ∧
      after.sandbox.functions = scope.functions := by
  obtain ⟨middle, closed, keeps, _, step, rfl⟩ := runs.closing sound block closes pending
  obtain ⟨_, _, _, restored⟩ := step.sandbox scope scopes (keeps.scopes.trans lowered)
  rw [(settle_frame closed).2.1]
  exact restored

/-- A block between lowering a scope and raising it gives back what there was before, and the
functions as they stood when the scope was lowered. -/
theorem Runs.scoped {rest actions : List Action} {opening closing : Action}
    {machine after : Machine ω η} (runs : Runs rest machine after) (sound : machine.Sound)
    (opens : opening.operation.move = .opens .scope) (block : Block actions)
    (closes : closing.operation.move = .closes .scope)
    (pending : machine.pending = opening :: actions ++ closing :: rest) :
    ∃ lowered, (execute opening.operation).run
        { machine with pending := actions ++ closing :: rest, ticks := machine.ticks + 1 } =
          (.ok (), lowered) ∧
      after.sandbox.vars = machine.sandbox.vars ∧
      after.sandbox.workingDir = machine.sandbox.workingDir ∧
      after.sandbox.functions = lowered.sandbox.functions := by
  have left : machine.pending = opening :: (actions ++ [closing]) ++ rest := by
    rw [pending]
    simp
  obtain ⟨lowered, done, step, entered, later⟩ := runs.opening sound opens left
  obtain ⟨put, added, first⟩ := step.pending
  obtain ⟨below, _, vars, workingDir, scopes, _, functions⟩ := step.sandbox
  obtain ⟨samePending, sameSandbox, _⟩ := settle_frame lowered
  have restored := later.restores (settle_sound entered) (sameSandbox ▸ scopes)
    (first.append block) closes (by rw [samePending, added]; simp)
  refine ⟨lowered, ?_, restored.1.trans vars, restored.2.1.trans workingDir, ?_⟩
  · simpa using done
  · exact restored.2.2.trans functions.symm

/-- What compiling makes of the functions, slots and operator of a machine. -/
def compiled (machine : Machine ω η) (body : Compilation.Setting → Compile ω (List Action)) :
    Compilation ω :=
  ((body machine.setting).run ⟨machine.sandbox.functions, machine.slots, machine.operator⟩).2

/-- The commands that a nested shell with these arguments runs. There are none if it is given no
text, or one with an error. -/
def nestedNodes (sandbox : Sandbox) : List String → List Node
  | [] => []
  | first :: rest =>
    let script := if first = "-c" then rest.head?
      else sandbox.files.text? (sandbox.resolve first)
    (script.map Script.nodes).getD []

/-- A construct with a scope of its own, which the machine is about to run before `rest`: how its
body is compiled, and the machine when it runs. -/
inductive Construct (machine : Machine ω η) (rest : List Action) :
    (Compilation.Setting → Compile ω (List Action)) → Machine ω η → Prop where
  /-- A group in parentheses of some script, built before the rest. -/
  | subshell {root body : Node} {text : String} {nodes redirects : List Node}
      {openSpan closeSpan span : Span} {built : Machine ω η}
      (parsed : Script.parse text = .ok nodes) (member : root ∈ nodes)
      (within : Node.Within (.compound [.reserved "(" openSpan, body, .reserved ")" closeSpan]
        redirects span) root)
      (pending : machine.pending = rest)
      (done : (do
        let actions ← compiling fun setting => Node.compileAll setting
          [.reserved "(" openSpan, body, .reserved ")" closeSpan]
        putFirst actions).run machine = (.ok (), built)) :
      Construct machine rest (fun setting => Node.compileAll setting
        [.reserved "(" openSpan, body, .reserved ")" closeSpan]) built
  /-- A command whose first word is the name of a function. -/
  | call {action : Action} {index : Nat} {parts : List Node} {name : String} {args : List String}
      {body : Node} (pending : machine.pending = action :: rest)
      (runs : action.operation = .run index) (held : machine.slots[index]? = some parts)
      (named : words machine.sandbox.vars parts = name :: args)
      (defined : machine.sandbox.functions.get? name = some body) :
      Construct machine rest body.compile machine
  /-- A command whose first word is the name of a shell. -/
  | nested {action : Action} {index : Nat} {parts : List Node} {name : String} {args : List String}
      (pending : machine.pending = action :: rest) (runs : action.operation = .run index)
      (held : machine.slots[index]? = some parts)
      (named : words machine.sandbox.vars parts = name :: args)
      (undefined : machine.sandbox.functions.get? name = none)
      (shell : name = "bash" ∨ name = "sh") :
      Construct machine rest (fun setting => nestedActions setting
        (nestedNodes machine.sandbox args)) machine
  /-- A substitution in a word, assignment or redirect of a command. -/
  | substitution {enter leave : Action} {index word : Nat} {part : Span} {inner : Node}
      (pending : machine.pending = enter :: leave :: rest)
      (enters : enter.operation = .enterSubstitution index word part)
      (leaves : leave.operation = .leaveSubstitution index word part)
      (found : machine.substituted? index word part = some inner) :
      Construct machine rest inner.compile machine

/-- A scope that is lowered by itself gives back everything. -/
theorem Runs.lowered {rest actions : List Action} {opening closing : Action}
    {machine after : Machine ω η} (runs : Runs rest machine after) (sound : machine.Sound)
    (opens : opening.operation = .lower ∨ opening.operation = .enterSubshell ∨
      ∃ name args, opening.operation = .enterFunction name args) (block : Block actions)
    (closes : closing.operation.move = .closes .scope)
    (pending : machine.pending = opening :: actions ++ closing :: rest) :
    after.sandbox.vars = machine.sandbox.vars ∧
      after.sandbox.workingDir = machine.sandbox.workingDir ∧
      after.sandbox.functions = machine.sandbox.functions := by
  have move : opening.operation.move = .opens .scope := by
    rcases opens with opens | opens | ⟨name, args, opens⟩ <;> rw [opens] <;> rfl
  obtain ⟨lowered, done, vars, workingDir, functions⟩ := runs.scoped sound move block closes pending
  refine ⟨vars, workingDir, functions.trans ?_⟩
  rcases opens with opens | opens | ⟨name, args, opens⟩
  · rw [opens] at done
    rw [lowering_eq_ok done]
    rfl
  · rw [opens] at done
    rw [lowering_eq_ok done]
    rfl
  · rw [opens] at done
    have entered : lowered = withSandbox _ fun sandbox => sandbox.enterFunction args :=
      lowering_eq_ok done
    rw [entered]
    rfl

/-- A block that was just compiled, put first between lowering a scope and raising it. -/
theorem Runs.wrapped {rest actions : List Action} {opening closing : Action}
    {body : Compilation.Setting → Compile ω (List Action)} {compilation : Compilation ω}
    {machine after : Machine ω η}
    (runs : Runs rest ((machine.withCompilation compilation).withFirst
      (opening :: actions ++ [closing])).settle after)
    (sound : machine.Sound) (pending : machine.pending = rest)
    (made : (body machine.setting).run
      ⟨machine.sandbox.functions, machine.slots, machine.operator⟩ = (.ok actions, compilation))
    (makes : ∀ setting, Compilation.Makes (body setting) Block)
    (opens : opening.operation = .lower ∨ opening.operation = .enterSubshell ∨
      ∃ name args, opening.operation = .enterFunction name args)
    (closes : closing.operation.move = .closes .scope) :
    after.sandbox.vars = machine.sandbox.vars ∧
      after.sandbox.workingDir = machine.sandbox.workingDir ∧
      after.sandbox.functions = (machine.compiled body).functions := by
  obtain ⟨block, compiles⟩ := makes _ _ _ _ ⟨sound.functions, sound.slots⟩ made
  have started : Sound ((machine.withCompilation compilation).withFirst
      (opening :: actions ++ [closing])) := ⟨sound.commands, compiles.functions, compiles.slots⟩
  obtain ⟨samePending, sameSandbox, _⟩ :=
    settle_frame ((machine.withCompilation compilation).withFirst
      (opening :: actions ++ [closing]))
  have left : ((machine.withCompilation compilation).withFirst
      (opening :: actions ++ [closing])).pending = opening :: actions ++ closing :: rest := by
    change opening :: actions ++ [closing] ++ machine.pending = _
    rw [pending, List.append_assoc]
    rfl
  obtain ⟨vars, workingDir, functions⟩ :=
    runs.lowered (settle_sound started) opens block closes (samePending.trans left)
  rw [sameSandbox] at vars workingDir functions
  refine ⟨vars, workingDir, functions.trans ?_⟩
  rw [compiled, made]
  rfl

theorem runParts_call {machine : Machine ω η} {parts : List Node} {name : String}
    {args : List String} {body : Node} (named : words machine.sandbox.vars parts = name :: args)
    (defined : machine.sandbox.functions.get? name = some body) :
    (runParts parts : Step ω η Unit).run machine = (call name args body).run machine := by
  unfold runParts
  rw [run_get_bind, named]
  dsimp only
  rw [defined]

theorem runParts_nested {machine : Machine ω η} {parts : List Node} {name : String}
    {args : List String} (named : words machine.sandbox.vars parts = name :: args)
    (undefined : machine.sandbox.functions.get? name = none) (shell : name = "bash" ∨ name = "sh") :
    (runParts parts : Step ω η Unit).run machine = (nestedShell name args).run machine := by
  unfold runParts
  rw [run_get_bind, named]
  dsimp only
  rw [undefined]
  dsimp only
  rw [if_pos shell]

theorem runParts_known {machine : Machine ω η} {parts : List Node} {name : String}
    {args : List String} {command : Command ω}
    (named : words machine.sandbox.vars parts = name :: args)
    (undefined : machine.sandbox.functions.get? name = none)
    (plain : ¬(name = "bash" ∨ name = "sh")) (known : machine.commands.get? name = some command) :
    (runParts parts : Step ω η Unit).run machine = (runKnown command args).run machine := by
  unfold runParts
  rw [run_get_bind, named]
  dsimp only
  rw [undefined]
  dsimp only
  rw [if_neg plain, known]

omit [Host η] in
/-- A nested shell writes at most a complaint, or compiles its commands and puts them first. -/
theorem runNested_eq_ok {machine after : Machine ω η} {name script : String} {value : Unit}
    (done : (runNested name script : Step ω η Unit).run machine = (.ok value, after)) :
    (Script.nodes script = [] ∧
      ∃ io, after = machine.withSandbox fun sandbox => { sandbox with io }) ∨
    ∃ actions compilation, Script.parse script = .ok (Script.nodes script) ∧
      (nestedActions machine.setting (Script.nodes script)).run
        ⟨machine.sandbox.functions, machine.slots, machine.operator⟩ = (.ok actions, compilation) ∧
      after = (machine.withCompilation compilation).withFirst
        (.plain .enterSubshell "Entering sub-shell env" :: actions ++
          [.plain .raise "Exiting sub-shell env"]) := by
  unfold runNested at done
  split at done
  · rename_i error parsed
    refine .inl ⟨?_, _, run_modify_eq_ok.mp done⟩
    rw [Script.nodes, parsed]
    rfl
  · rename_i nodes parsed
    have same : Script.nodes script = nodes := by
      rw [Script.nodes, parsed]
      rfl
    obtain ⟨actions, _, made, put⟩ := run_bind_eq_ok.mp done
    obtain ⟨compilation, compiles, rfl⟩ := compiling_eq.mp made
    rw [same]
    exact .inr ⟨actions, compilation, parsed, compiles, run_modify_eq_ok.mp put⟩

omit [Host η] in
theorem nestedShell_eq_ok {machine after : Machine ω η} {name : String} {args : List String}
    {value : Unit}
    (done : (nestedShell name args : Step ω η Unit).run machine = (.ok value, after)) :
    (nestedNodes machine.sandbox args = [] ∧
      ∃ io, after = machine.withSandbox fun sandbox => { sandbox with io }) ∨
    ∃ actions compilation script, Script.parse script = .ok (nestedNodes machine.sandbox args) ∧
      (nestedActions machine.setting (nestedNodes machine.sandbox args)).run
        ⟨machine.sandbox.functions, machine.slots, machine.operator⟩ = (.ok actions, compilation) ∧
      after = (machine.withCompilation compilation).withFirst
        (.plain .enterSubshell "Entering sub-shell env" :: actions ++
          [.plain .raise "Exiting sub-shell env"]) := by
  cases args with
  | nil => exact .inl ⟨rfl, machine.sandbox.io, (run_pure_eq_ok.mp done).2⟩
  | cons first rest =>
    unfold nestedShell at done
    dsimp only at done
    split at done
    · rename_i dash
      cases rest with
      | nil =>
        refine .inl ⟨?_, _, run_modify_eq_ok.mp done⟩
        simp [nestedNodes, dash]
      | cons script rest =>
        have same :
            nestedNodes machine.sandbox (first :: script :: rest) = Script.nodes script := by
          simp [nestedNodes, dash]
        rw [same]
        exact (runNested_eq_ok done).imp_right fun ⟨actions, compilation, ran⟩ =>
          ⟨actions, compilation, script, ran⟩
    · rename_i dash
      rw [run_get_bind] at done
      split at done
      · rename_i script found
        have same : nestedNodes machine.sandbox (first :: rest) = Script.nodes script := by
          simp [nestedNodes, dash, found]
        rw [same]
        exact (runNested_eq_ok done).imp_right fun ⟨actions, compilation, ran⟩ =>
          ⟨actions, compilation, script, ran⟩
      · rename_i missing
        refine .inl ⟨?_, _, run_modify_eq_ok.mp done⟩
        simp [nestedNodes, dash, missing]

omit [Operator ω] [Host η] in
/-- An operation on a slot is done to the parts that are there. -/
theorem slotted_eq_ok {machine after : Machine ω η} {index : Nat} {parts : List Node}
    {step : List Node → Step ω η Unit} {value : Unit} (held : machine.slots[index]? = some parts)
    (done : (do step (← slot index)).run machine = (.ok value, after)) :
    (step parts).run machine = (.ok value, after) := by
  obtain ⟨found, _, looked, ran⟩ := run_bind_eq_ok.mp done
  obtain ⟨same, rfl⟩ := slot_eq_ok looked
  obtain rfl : parts = found := Option.some.inj (held.symm.trans same)
  exact ran

theorem run_eq_ok {machine after : Machine ω η} {index : Nat} {parts : List Node} {value : Unit}
    (held : machine.slots[index]? = some parts)
    (done : (execute (.run index) : Step ω η Unit).run machine = (.ok value, after)) :
    (runParts parts : Step ω η Unit).run machine = (.ok value, after) :=
  slotted_eq_ok held done

theorem Runs.call {rest : List Action} {machine executed after : Machine ω η} {index : Nat}
    {parts : List Node} {name : String} {args : List String} {body : Node}
    (runs : Runs rest executed.settle after)
    (done : (execute (.run index)).run machine = (.ok (), executed)) (sound : machine.Sound)
    (pending : machine.pending = rest) (held : machine.slots[index]? = some parts)
    (named : words machine.sandbox.vars parts = name :: args)
    (defined : machine.sandbox.functions.get? name = some body) :
    after.sandbox.vars = machine.sandbox.vars ∧
      after.sandbox.workingDir = machine.sandbox.workingDir ∧
      after.sandbox.functions = (machine.compiled body.compile).functions := by
  have ran := run_eq_ok held done
  rw [runParts_call named defined] at ran
  obtain ⟨actions, _, made, put⟩ := run_bind_eq_ok.mp ran
  obtain ⟨compilation, compiles, rfl⟩ := compiling_eq.mp made
  rw [run_modify_eq_ok.mp put] at runs
  exact runs.wrapped sound pending compiles
    (Compilation.compile_makes (sound.functions name body defined)) (.inr (.inr ⟨_, _, rfl⟩)) rfl

theorem Runs.nested {rest : List Action} {machine executed after : Machine ω η} {index : Nat}
    {parts : List Node} {name : String} {args : List String}
    (runs : Runs rest executed.settle after)
    (done : (execute (.run index)).run machine = (.ok (), executed)) (sound : machine.Sound)
    (pending : machine.pending = rest) (held : machine.slots[index]? = some parts)
    (named : words machine.sandbox.vars parts = name :: args)
    (undefined : machine.sandbox.functions.get? name = none)
    (shell : name = "bash" ∨ name = "sh") :
    after.sandbox.vars = machine.sandbox.vars ∧
      after.sandbox.workingDir = machine.sandbox.workingDir ∧
      after.sandbox.functions = (machine.compiled fun setting =>
        nestedActions setting (nestedNodes machine.sandbox args)).functions := by
  have ran := run_eq_ok held done
  rw [runParts_nested named undefined shell] at ran
  rcases nestedShell_eq_ok ran with
    ⟨none, io, rfl⟩ | ⟨actions, compilation, script, parsed, compiles, rfl⟩
  · obtain ⟨samePending, sameSandbox, _⟩ :=
      settle_frame (machine.withSandbox fun sandbox => { sandbox with io })
    rw [runs.ended (samePending.trans pending), sameSandbox, none]
    exact ⟨rfl, rfl, rfl⟩
  · exact runs.wrapped sound pending compiles
      (fun setting => nestedActions_makes (Script.parse_formed parsed)) (.inr (.inl rfl)) rfl

omit [Host η] in
/-- What is built of a group in parentheses is a block between lowering a scope and raising it. -/
theorem subshell_built {machine built : Machine ω η} {body : Node} {openSpan closeSpan : Span}
    (sound : machine.Sound) (formed : Formed .command body)
    (done : (do
      let actions ← compiling fun setting => Node.compileAll setting
        [.reserved "(" openSpan, body, .reserved ")" closeSpan]
      putFirst actions).run machine = (.ok (), built)) :
    built.Sound ∧ ∃ inner, Block inner ∧
      built.pending = .plain .lower "Entering sub-shell env" :: inner ++
        .plain .raise "Exiting sub-shell env" :: machine.pending ∧
      built.sandbox = { machine.sandbox with functions := (machine.compiled fun setting =>
        Node.compileAll setting
          [.reserved "(" openSpan, body, .reserved ")" closeSpan]).functions } := by
  obtain ⟨actions, _, made, put⟩ := run_bind_eq_ok.mp done
  obtain ⟨⟨inner, block, rfl⟩, executed⟩ := compiling_makes
    (fun setting =>
      Compilation.compileGroup_makes rfl rfl (Compilation.compile_makes formed setting))
    sound made
  have compiles := executed.sound sound
  obtain ⟨compilation, same, rfl⟩ := compiling_eq.mp made
  rw [run_modify_eq_ok.mp put]
  refine ⟨⟨compiles.commands, compiles.functions, compiles.slots⟩, inner, block, ?_, ?_⟩
  · change _ ++ machine.pending = _
    simp
  · rw [compiled, same]
    rfl

/-- What is built of a group in parentheses gives back variables and working directory. -/
theorem Runs.subshell {rest : List Action} {machine built after : Machine ω η} {body : Node}
    {openSpan closeSpan : Span} (runs : Runs rest built after) (sound : machine.Sound)
    (pending : machine.pending = rest) (formed : Formed .command body)
    (done : (do
      let actions ← compiling fun setting => Node.compileAll setting
        [.reserved "(" openSpan, body, .reserved ")" closeSpan]
      putFirst actions).run machine = (.ok (), built)) :
    after.sandbox.vars = machine.sandbox.vars ∧
      after.sandbox.workingDir = machine.sandbox.workingDir ∧
      after.sandbox.functions = (machine.compiled fun setting => Node.compileAll setting
        [.reserved "(" openSpan, body, .reserved ")" closeSpan]).functions := by
  obtain ⟨started, inner, block, put, same⟩ := subshell_built sound formed done
  rw [pending] at put
  have restored := runs.lowered started (.inl rfl) block rfl put
  rw [same] at restored
  exact restored

/-- Constructs with a scope of their own give back variables and working directory. The function
table is the one that compiling the body left behind: what the body defines while it is compiled,
before its scope is lowered, stays defined. -/
theorem construct_symmetric {machine begun after : Machine ω η} {rest : List Action}
    {body : Compilation.Setting → Compile ω (List Action)} (reached : Reached machine)
    (construct : Construct machine rest body begun) (runs : Runs rest begun after) :
    after.sandbox.vars = machine.sandbox.vars ∧
      after.sandbox.workingDir = machine.sandbox.workingDir ∧
      after.sandbox.functions = (machine.compiled body).functions := by
  have sound := reached.sound
  cases construct with
  | subshell parsed member within pending done =>
    rcases (Script.parse_formed parsed _ member).within within with ⟨_, formed⟩ | ⟨_, _, same⟩
    · exact runs.subshell sound pending formed.groupBody done
    · cases same
  | call pending isRun held named defined =>
    have alone : machine.pending = _ :: [] ++ rest := pending
    obtain ⟨executed, done, later⟩ := runs.first alone
    rw [isRun] at done
    have restored := later.call done (withPending_sound sound _ _) rfl held named defined
    exact restored
  | nested pending isRun held named undefined shell =>
    have alone : machine.pending = _ :: [] ++ rest := pending
    obtain ⟨executed, done, later⟩ := runs.first alone
    rw [isRun] at done
    have restored := later.nested done (withPending_sound sound _ _) rfl held named undefined shell
    exact restored
  | @substitution enter leave index word part inner pending enters leaves found =>
    have pair : machine.pending = enter :: [] ++ leave :: rest := pending
    obtain ⟨lowered, done, vars, workingDir, functions⟩ :=
      runs.scoped sound (by rw [enters]; rfl) Block.nil (by rw [leaves]; rfl) pair
    rw [enters] at done
    obtain ⟨command, actions, compilation, same, compiles, rfl⟩ := enterSubstitution_eq_ok done
    obtain rfl : inner = command := Option.some.inj (found.symm.trans same)
    have made : (inner.compile machine.setting).run
        ⟨machine.sandbox.functions, machine.slots, machine.operator⟩ = (.ok actions, compilation) :=
      compiles
    refine ⟨vars, workingDir, functions.trans ?_⟩
    rw [compiled, made]
    rfl

/-- A machine that starts in the home directory of the root with nothing defined. -/
def fresh : Machine Absent Disabled :=
  create (Sandbox.startingIn "/root") Command.standard {} {} {}

theorem fresh_reached : Reached fresh := by
  refine .start ⟨rfl, rfl⟩ ?_ rfl
  intro name body found
  change Table.empty.get? name = some body at found
  rw [Table.get?_empty] at found
  cases found

/-- A group that assigns, goes elsewhere and defines a function: only the function is left. -/
theorem construct_symmetric_subshell :
    let text := "( x=1; cd /tmp; f() { echo a; }; )"
    let inside := (((Script.nodes text).flatMap Node.children)[1]?).getD default
    let body := fun setting => Node.compileAll setting
      [.reserved "(" ⟨0, 1⟩, inside, .reserved ")" ⟨33, 34⟩]
    ∃ built after, Reached fresh ∧ Construct fresh [] body built ∧ Runs [] built after ∧
      after.sandbox.vars = fresh.sandbox.vars ∧
      after.sandbox.workingDir = fresh.sandbox.workingDir ∧
      after.sandbox.functions = (fresh.compiled body).functions := by
  intro text inside body
  have single : Script.nodes text = [.compound
      [.reserved "(" ⟨0, 1⟩, inside, .reserved ")" ⟨33, 34⟩] [] ⟨0, 34⟩] := by decide +kernel
  have parsed : Script.parse text = .ok (Script.nodes text) :=
    Script.parse_eq_nodes (by decide +kernel)
  let step : Step Absent Disabled Unit := do
    let actions ← compiling body
    putFirst actions
  have built : step.run fresh = (.ok (), (step.run fresh).2) := run_eq_of_isOk (by decide +kernel)
  have construct : Construct fresh [] body (step.run fresh).2 :=
    .subshell parsed (single ▸ List.mem_singleton_self _) .self rfl built
  have drained : drain.run (step.run fresh).2 = (.ok (), (drain.run (step.run fresh).2).2) :=
    run_eq_of_isOk (by decide +kernel)
  have counted : (step.run fresh).2.ticks = 0 := by decide +kernel
  have ran := drain_runs drained
  rw [← counted] at ran
  exact ⟨_, _, fresh_reached, construct, ran, construct_symmetric fresh_reached construct ran⟩

/-- A function that a group in parentheses defines outlives the group. -/
theorem subshell_leaks_functions :
    let node := (Script.nodes "( f() { echo a; }; )").headD default
    ∃ after, Script.parse "( f() { echo a; }; )" = .ok [node] ∧
      (run node).run fresh = (.ok (), after) ∧
      after.sandbox.functions ≠ fresh.sandbox.functions := by
  intro node
  have parsed : Script.parse "( f() { echo a; }; )" = .ok [node] := by
    rw [Script.parse_eq_nodes (by decide +kernel)]
    exact congrArg _ (by decide +kernel)
  exact ⟨_, parsed, run_eq_of_isOk (by decide +kernel), by decide +kernel⟩

end Machine

end StepShell

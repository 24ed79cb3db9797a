import StepShell.Proofs.Machine.Sequence

/-! Commands with a pipe between them. A single action moves what the first one has written to where
the second one reads; what was printed before that is on the screen already. -/

namespace StepShell

namespace Sandbox

/-- The text as it is printed: as a line, if there is any. -/
def line (text : String) : String :=
  if text.isEmpty then "" else text ++ "\n"

theorem flush_screen (sandbox : Sandbox) :
    sandbox.flush.screen = sandbox.screen ++ line sandbox.io.output := by
  unfold flush line
  split <;> simp [String.append_assoc]

/-- Before the second stage of a pipeline: what there is to read is all that the first stage prints
when it runs alone, and nothing of it is on the screen. -/
structure Piped (before alone ready : Sandbox) : Prop where
  whole : alone.screen = before.screen ++ line ready.io.input
  unseen : ready.screen = before.screen

end Sandbox

namespace Machine

variable {ω η : Type} [Operator ω] [Host η]

/-- What ends every command that is built. -/
def closing : List Action :=
  [.plain .cleanUp "Exit Node Cleanup"]

/-- Alone, the command prints nothing before the action that ends it. -/
def HoldsBack (machine : Machine ω η) (node : Node) : Prop :=
  ∃ built ended, (build node false).run machine = (.ok (), built) ∧
    Runs closing { built with ticks := 0 } ended ∧
    ended.sandbox.screen = machine.sandbox.screen

omit [Host η] in
theorem compile_pipeline_eq_ok {first : Node} {rest : List Node} {sign : String}
    {signSpan span : Span} {setting : Compilation.Setting} {before after : Compilation ω}
    {actions : List Action} (ordinary : ∀ sign span, first = .pipe sign span → False)
    (made : (Node.compile setting (.pipeline (first :: .pipe sign signSpan :: rest) span)).run
      before = (.ok actions, after)) :
    ∃ early middle late, (first.compile setting).run before = (.ok early, middle) ∧
      (Node.compilePipeline setting rest).run middle = (.ok late, after) ∧
      actions = early ++ .plain .pipe "pipeline transfer" :: late := by
  rw [Node.compile, Node.compilePipeline.eq_3 _ _ _ ordinary, Node.compilePipeline] at made
  obtain ⟨early, middle, one, made⟩ := run_bind_eq_ok.mp made
  obtain ⟨_, _, piped, made⟩ := run_bind_eq_ok.mp made
  obtain ⟨rfl, rfl⟩ := run_pure_eq_ok.mp made
  obtain ⟨late, _, two, piped⟩ := run_bind_eq_ok.mp piped
  obtain ⟨rfl, rfl⟩ := run_pure_eq_ok.mp piped
  exact ⟨early, middle, late, one, two, rfl⟩

theorem Tidies.pipe : Tidies ω η [.plain .pipe "pipeline transfer"]
    fun sandbox => { sandbox with io := sandbox.io.transfer } :=
  .change rfl

theorem Runs.unique {rest : List Action} {machine after other : Machine ω η}
    (runs : Runs rest machine after) (others : Runs rest machine other) : other = after := by
  induction runs with
  | done ended => exact others.ended ended
  | inch left inched _ ih =>
    cases others with
    | done ended =>
      rw [ended, List.self_eq_append_left] at left
      cases left
    | inch _ inching later =>
      cases inched.symm.trans inching
      exact ih later

/-- The slots of the first stage stand where they stand when it is built alone. -/
theorem pipeline_grows {rest : List Node} {setting : Compilation.Setting}
    {before after : Compilation ω} {actions : List Action}
    (made : (Node.compilePipeline setting rest).run before = (.ok actions, after)) :
    ∃ added : Array (List Node), after.slots = before.slots ++ added := by
  obtain ⟨_, added, grown, _⟩ := Compilation.compilePipeline_shifts
    (fun part _ => Compilation.compile_shifts_eq part setting) _ _ _ _ _ _ rfl made made
  exact ⟨added, grown⟩

/-- Nothing that the first stage of a pipeline prints is lost: when the first action of the next
stage is executed, what it does not find to read is on the screen. It finds everything just when the
first stage alone prints nothing before its end. What the other stages define or ask while they are
built is taken to be of no account to the first. -/
theorem pipeline_carries_iff {first : Node} {rest : List Node} {sign : String}
    {signSpan span : Span} {machine single alone built last : Machine ω η}
    (started : (build first false).run machine = (.ok (), single))
    (ran : drain.run single = (.ok (), alone))
    (made : (build (.pipeline (first :: .pipe sign signSpan :: rest) span) false).run machine =
      (.ok (), built))
    (drained : drain.run built = (.ok (), last))
    (functions : built.sandbox.functions = single.sandbox.functions)
    (operator : built.operator = single.operator) :
    ∃ next compilation ready,
      (Node.compilePipeline machine.setting rest).run
        ⟨single.sandbox.functions, single.slots, single.operator⟩ = (.ok next, compilation) ∧
      Runs (next ++ closing) { built with ticks := 0 } ready ∧ Runs [] ready last ∧
      alone.sandbox.screen = ready.sandbox.screen ++ Sandbox.line ready.sandbox.io.input ∧
      (Sandbox.Piped machine.sandbox alone.sandbox ready.sandbox ↔ HoldsBack machine first) := by
  obtain ⟨actions, compiled, compiles, alike⟩ := build_eq_ok started
  obtain ⟨all, compilation, compiling, same⟩ := build_eq_ok made
  have ordinary : ∀ sign span, first = .pipe sign span → False := by
    rintro sign span rfl
    simp only [Node.compile] at compiles
    exact run_throw_eq_ok compiles
  obtain ⟨early, middle, next, one, two, rfl⟩ := compile_pipeline_eq_ok ordinary compiling
  cases one.symm.trans compiles
  obtain ⟨added, grown⟩ := pipeline_grows two
  have slots : single.slots = compiled.slots ∧ built.slots = compiled.slots ++ added := by
    rw [alike, same]
    exact ⟨rfl, grown⟩
  have sandbox : built.sandbox = single.sandbox := by
    rw [alike, same] at functions ⊢
    exact congrArg (fun functions => { machine.sandbox with functions }) functions
  have twins : Twins (Link.stretched 0 compiled.slots.size (compiled.slots.size + added.size)
      (by omega) fun slot => (compiled.slots ++ added)[slot]?) Eq
      { single with ticks := 0, sandbox := single.sandbox.clearOutput.clearInput }
      { built with ticks := 0, sandbox := built.sandbox.clearOutput.clearInput } := by
    refine ⟨?_, ?_, ?_, ?_, operator, ?_⟩
    · rw [sandbox]
      exact Sandbox.alike_eq _
    · rw [slots.1, slots.2]
      exact joins_between _ _
    all_goals
      rw [alike, same]
      rfl
  have pending : Machine.pending { single with ticks := 0 } =
      [.plain .resetIo "Initialize state for command"] ++ (actions ++ closing) := by
    rw [alike]
    rfl
  have twinPending : Machine.pending { built with ticks := 0 } =
      [.plain .resetIo "Initialize state for command"] ++
        (actions ++ ([.plain .pipe "pipeline transfer"] ++ (next ++ closing))) := by
    rw [same]
    simp [wrapped, closing]
  obtain ⟨ended, done, agree, through, reached, ending, going⟩ := twins.command .resetIo .resetIo
    (by simp [closing]) (by simp) (Compilation.compile_stands compiles
      fun slot below => (Link.stretched_below below).trans (Nat.zero_add slot)) pending twinPending
    (drain_runs ran) (drain_runs drained)
  have tidied := Tidies.cleanUp _ _ _ ending through.pending
  obtain ⟨ready, moved, onward⟩ := going.until reached.pending
  have piped := Tidies.pipe _ _ _ moved reached.pending
  have screen : ready.sandbox.screen = ended.sandbox.screen := by
    rw [piped.sandbox, agree.sandbox.eq]
  have printed : alone.sandbox.screen =
      ready.sandbox.screen ++ Sandbox.line ready.sandbox.io.input := by
    rw [tidied.sandbox, piped.sandbox, agree.sandbox.eq]
    exact Sandbox.flush_screen _
  have compiles : (Node.compilePipeline machine.setting rest).run
      ⟨single.sandbox.functions, single.slots, single.operator⟩ = (.ok next, compilation) := by
    rw [alike]
    exact two
  refine ⟨next, compilation, ready, compiles, reached.trans moved, onward, printed, ?_, ?_⟩
  · intro carried
    exact ⟨single, ended, started, through, screen.symm.trans carried.unseen⟩
  · rintro ⟨again, held, begun, holding, unseen⟩
    cases started.symm.trans begun
    rw [through.unique holding, ← screen] at unseen
    exact ⟨unseen ▸ printed, unseen⟩

/-- A group that assigns from a substitution and prints in two commands, before a command that is
told what to print. -/
theorem pipeline_carries_iff_group :
    let text := "\x7b x=$(echo a); echo $x; echo b; \x7d | cat"
    let stages := (Script.nodes text).flatMap Node.children
    let first := stages.headD default
    let second := (stages[2]?).getD default
    ∃ single alone built last : Machine Absent Disabled,
      Script.parse text = .ok [.pipeline [first, .pipe "|" ⟨34, 35⟩, second] ⟨0, 39⟩] ∧
      (build first false).run fresh = (.ok (), single) ∧ drain.run single = (.ok (), alone) ∧
      (build (.pipeline [first, .pipe "|" ⟨34, 35⟩, second] ⟨0, 39⟩) false).run fresh =
        (.ok (), built) ∧
      drain.run built = (.ok (), last) ∧ built.sandbox.functions = single.sandbox.functions ∧
      ∃ next compilation ready,
        (Node.compilePipeline fresh.setting [second]).run
          ⟨single.sandbox.functions, single.slots, single.operator⟩ = (.ok next, compilation) ∧
        Runs (next ++ closing) { built with ticks := 0 } ready ∧ Runs [] ready last ∧
        alone.sandbox.screen = ready.sandbox.screen ++ Sandbox.line ready.sandbox.io.input ∧
        (Sandbox.Piped fresh.sandbox alone.sandbox ready.sandbox ↔ HoldsBack fresh first) := by
  intro text stages first second
  have parsed : Script.parse text =
      .ok [.pipeline [first, .pipe "|" ⟨34, 35⟩, second] ⟨0, 39⟩] := by
    rw [Script.parse_eq_nodes (by decide +kernel)]
    exact congrArg _ (by decide +kernel)
  have started : (build first false).run fresh = (.ok (), _) :=
    run_eq_of_isOk (by decide +kernel)
  have ran : drain.run ((build first false).run fresh).2 = (.ok (), _) :=
    run_eq_of_isOk (by decide +kernel)
  have made : (build (.pipeline [first, .pipe "|" ⟨34, 35⟩, second] ⟨0, 39⟩) false).run fresh =
      (.ok (), _) := run_eq_of_isOk (by decide +kernel)
  have drained : drain.run ((build (.pipeline [first, .pipe "|" ⟨34, 35⟩, second] ⟨0, 39⟩)
      false).run fresh).2 = (.ok (), _) := run_eq_of_isOk (by decide +kernel)
  have functions : ((build (.pipeline [first, .pipe "|" ⟨34, 35⟩, second] ⟨0, 39⟩) false).run
      fresh).2.sandbox.functions = ((build first false).run fresh).2.sandbox.functions := by
    decide +kernel
  exact ⟨_, _, _, _, parsed, started, ran, made, drained, functions,
    pipeline_carries_iff started ran made drained functions rfl⟩

/-- What a group prints before its last command is on the screen when the next stage of the pipeline
is reached, and not there to be read. -/
theorem group_printed_before_pipe :
    let text := "\x7b echo a; echo b; \x7d | echo c"
    let node := (Script.nodes text).headD default
    let group := ((Script.nodes text).flatMap Node.children).headD default
    ∃ alone built ready : Machine Absent Disabled,
      Script.parse text = .ok [node] ∧ (run group).run fresh = (.ok (), alone) ∧
      (build node false).run fresh = (.ok (), built) ∧ (inches 8).run built = (.ok (), ready) ∧
      ready.pending.map (·.description) = ["Command node: echo", "Exit Node Cleanup"] ∧
      ¬ Sandbox.Piped fresh.sandbox alone.sandbox ready.sandbox := by
  intro text node group
  have parsed : Script.parse text = .ok [node] := by
    rw [Script.parse_eq_nodes (by decide +kernel)]
    exact congrArg _ (by decide +kernel)
  refine ⟨_, _, _, parsed, run_eq_of_isOk (by decide +kernel), run_eq_of_isOk (by decide +kernel),
    run_eq_of_isOk (by decide +kernel), by decide +kernel, fun piped => ?_⟩
  have unseen := piped.unseen
  revert unseen
  decide +kernel

end Machine

end StepShell

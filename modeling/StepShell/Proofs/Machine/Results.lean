import StepShell.Proofs.Machine.Judging
import StepShell.Proofs.Machine.Withholding

/-! What the operators of a list judge by. When an operator has its turn, all that the command
before it has printed is written and not yet on the screen; but it is not what there is to read. To
read there is what the last pipe of that command moved, and nothing where there was none. -/

namespace StepShell

namespace Node

theorem Within.trans {inner middle outer : Node} (first : Within inner middle)
    (second : Within middle outer) : Within inner outer := by
  induction second with
  | self => exact first
  | inside member _ ih => exact .inside member ih

theorem Alternates.within {inner outer : Node} (alternates : outer.Alternates)
    (within : inner.Within outer) : inner.Alternates :=
  ⟨fun parts span here => alternates.lists parts span (here.trans within),
    fun parts span here => alternates.pipelines parts span (here.trans within)⟩

theorem operatorSign_eq_none {part : Node} (ordinary : part.isOperator = false) :
    part.operatorSign = none := by
  cases part with
  | operator => cases ordinary
  | _ => rfl

theorem eq_operator_of_isOperator {part : Node} (sign : part.isOperator = true) :
    ∃ op span, part = .operator op span := by
  cases part with
  | operator op span => exact ⟨op, span, rfl⟩
  | _ => cases sign

end Node

/-- Wherever a list stands, it is a command. -/
theorem Formed.listCommand {place : Place} {parts : List Node} {span : Span}
    (formed : Formed place (.list parts span)) : Formed .command (.list parts span) := by
  generalize same : Node.list parts span = node at formed
  induction formed with
  | list each => exact .list each
  | argument _ ih | redirection _ ih | stage _ ih | entry _ ih => exact ih same
  | _ => cases same

namespace Machine

variable {ω η : Type}

/-- An operator of a list at its turn, with the command before it. -/
structure Judgment (ω η : Type) where
  command : Node
  op : String
  /-- Before the command is run. -/
  start : Machine ω η
  /-- The verdicts of the operators in the substitutions of the command. -/
  inside : List Verdict
  /-- When the operator judges. -/
  stop : Machine ω η

namespace Judgment

/-- The operator judges by what there is to read. -/
def verdict (judgment : Judgment ω η) : Verdict :=
  ⟨judgment.op, Text.natural64? judgment.stop.sandbox.io.input⟩

/-- What the operator would say by what the command has printed, with numbers read like this. -/
def due (number? : String → Option Nat) (judgment : Judgment ω η) : Verdict :=
  ⟨judgment.op, number? judgment.stop.sandbox.io.output⟩

/-- All verdicts in their order, those of a command before that of the operator behind it. -/
def spoken (judgments : List (Judgment ω η)) (trailing : List Verdict) : List Verdict :=
  judgments.flatMap (fun judgment => judgment.inside ++ [judgment.verdict]) ++ trailing

/-- Only what was written earlier has come onto the screen since the command is run, so that what is
written is what it has printed. There was nothing to read at its start, and only a pipeline leaves
something. -/
structure Held (judgment : Judgment ω η) : Prop where
  screen : judgment.stop.sandbox.screen = judgment.start.sandbox.flush.screen
  dry : judgment.start.sandbox.io.input = ""
  unread : judgment.command.isBare = true → judgment.stop.sandbox.io.input = ""

/-- Behind a simple command an operator finds no number, so it stops nothing. -/
theorem Held.calm {judgment : Judgment ω η} (held : judgment.Held)
    (bare : judgment.command.isBare = true) : judgment.verdict.stops = false := by
  have nothing : Text.natural64? "" = none := by decide +kernel
  rw [verdict, held.unread bare, nothing]
  simp [Verdict.stops]

end Judgment

variable [Operator ω] [Host η]

/-- A run of a list up to what ends it: command by command, each with the operator behind it. The
last command may be without one; then the verdicts inside it stand by themselves. -/
inductive TakesTurns : List Node → Machine ω η → List (Judgment ω η) → List Verdict →
    Machine ω η → Prop where
  | done {machine : Machine ω η} (ended : machine.pending = closing) :
      TakesTurns [] machine [] [] machine
  | last {command : Node} {start stop : Machine ω η} {inside : List Verdict}
      (judges : Judges closing start inside stop) : TakesTurns [command] start [] inside stop
  | turn {command : Node} {op description : String} {span : Span} {rest : List Node}
      {later : List Action} {start stop next after : Machine ω η}
      {inside trailing : List Verdict} {judgments : List (Judgment ω η)}
      (judges : Judges (.plain (.separator op) description :: later) start inside stop)
      (judged : inch.run stop = (.ok true, next))
      (onward : TakesTurns rest next judgments trailing after) :
      TakesTurns (command :: .operator op span :: rest) start
        (⟨command, op, start, inside, stop⟩ :: judgments) trailing after

/-- The flag is what the operators of the list and those of its substitutions have made of it, each
in its turn. -/
theorem TakesTurns.continuing {parts : List Node} {machine after : Machine ω η}
    {judgments : List (Judgment ω η)} {trailing : List Verdict}
    (turns : TakesTurns parts machine judgments trailing after) :
    after.continuing =
      Verdict.followed (Judgment.spoken judgments trailing) machine.continuing := by
  induction turns with
  | done => rfl
  | last judges => exact judges.continuing
  | @turn command op description _ _ later start stop next _ inside trailing judgments judges judged
      _ ih =>
    have left : stop.pending = .plain (.separator op) description :: later := judges.runs.pending
    have spoken : Judgment.spoken (⟨command, op, start, inside, stop⟩ :: judgments) trailing =
        inside ++ (stop.verdicts (.plain (.separator op) description) ++
          Judgment.spoken judgments trailing) := by
      simp [Judgment.spoken, Judgment.verdict, verdicts, Action.plain]
    rw [ih, inch_continuing left judged, judges.continuing, spoken]
    simp only [Verdict.followed, List.foldl_append]

section
variable {machine after middle : Machine ω η} {rest : List Action} {action : Action}

/-- A run goes on after its first inch. -/
theorem Runs.inch_first {first : List Action} (runs : Runs rest machine after)
    (pending : machine.pending = action :: first ++ rest) :
    ∃ middle, Machine.inch.run machine = (.ok true, middle) ∧ Runs rest middle after := by
  cases runs with
  | done ended =>
    rw [ended, List.self_eq_append_left] at pending
    cases pending
  | inch _ inched later => exact ⟨_, inched, later⟩

/-- Behind an operator there is nothing to read. -/
theorem inch_separates {op description : String}
    (pending : machine.pending = .plain (.separator op) description :: rest)
    (done : Machine.inch.run machine = (.ok true, middle)) :
    middle.sandbox.io.input = "" ∧ middle.pending = rest := by
  obtain ⟨_, _, executed, ran, rfl⟩ := inch_eq_ok pending done
  obtain ⟨samePending, sameSandbox, _⟩ := settle_frame executed
  rw [samePending, sameSandbox, separate_eq_ok ran]
  exact ⟨rfl, rfl⟩

end

/-- What a list is compiled to, run up to what ends it, takes turns, and what its commands print is
held back for the operators behind them. -/
def KeepsTurns (start : Machine ω η) (bound : Nat) (parts : List Node) : Prop :=
  ∀ (setting : Compilation.Setting) (actions : List Action) (before after : Compilation ω)
    (machine last : Machine ω η), after.slots.size ≤ bound →
    (Node.compileEach Node.operatorSign [.plain .flush "Resetting for new command"] setting
      parts).run before = (.ok actions, after) →
    Reaches start machine → machine.Sound → machine.sandbox.io.input = "" →
    Runs closing machine last → machine.pending = actions ++ closing →
    ∃ judgments trailing, TakesTurns parts machine judgments trailing last ∧
      ∀ judgment ∈ judgments, judgment.Held

section
variable {start : Machine ω η} {bound : Nat}

/-- A command of a list, with the flush before it. -/
theorem turn_leaves {setting : Compilation.Setting} {command : Node} {actions : List Action}
    {before after : Compilation ω}
    (usual : ∀ moment, Reaches start moment → moment.nextUsual bound = true)
    (plain : command.isPlain = true) (alternates : command.Alternates)
    (within : after.slots.size ≤ bound)
    (made : (command.compile setting).run before = (.ok actions, after)) :
    Leaves start (fun one other => other.screen = one.flush.screen ∧ (command.isBare = true →
      other.io.input = one.io.input ∨ other.io.input = ""))
      ([.plain .flush "Resetting for new command"] ++ actions) := by
  have inner : Leaves start (Unwritten fun one other => other.screen = one.screen ∧
      (command.isBare = true → other.io.input = one.io.input ∨ other.io.input = "")) actions := by
    by_cases bare : command.isBare = true
    · exact (bare_leaves usual bare within made).imp fun withholds unwritten =>
        ⟨(withholds unwritten).screen, fun _ => (withholds unwritten).input⟩
    · exact (plain_leaves usual plain alternates within made).imp fun same unwritten =>
        ⟨same unwritten, fun isBare => absurd isBare bare⟩
  have flushes : Leaves start (fun one other => other = one.flush)
      [.plain .flush "Resetting for new command"] :=
    .tidies (.single rfl trivial) rfl fun _ => rfl
  refine flushes.append inner ?_
  rintro one _ last rfl held
  obtain ⟨screen, input⟩ := held one.flush_output
  refine ⟨screen, fun bare => ?_⟩
  have kept : one.flush.io.input = one.io.input := one.flush_input
  rw [← kept]
  exact input bare

theorem KeepsTurns.nil : KeepsTurns start bound [] := by
  intro setting actions before after machine last _ made _ _ _ runs pending
  obtain ⟨rfl, rfl⟩ := Compilation.compileEach_nil_eq_ok made
  obtain rfl := runs.ended pending
  exact ⟨[], [], .done pending, nofun⟩

theorem KeepsTurns.single (command : Node) : KeepsTurns start bound [command] := by
  intro setting actions before after machine last _ made _ _ _ runs _
  obtain ⟨inside, judges⟩ := runs.judges
  exact ⟨[], inside, .last judges, nofun⟩

/-- A command, the operator behind it, and what follows. -/
theorem KeepsTurns.more {command sign : Node} {rest : List Node}
    (usual : ∀ moment, Reaches start moment → moment.nextUsual bound = true)
    (ordinary : command.isOperator = false) (between : sign.isOperator = true)
    (plain : command.isPlain = true) (alternates : command.Alternates)
    (later : KeepsTurns start bound rest) : KeepsTurns start bound (command :: sign :: rest) := by
  obtain ⟨op, span, rfl⟩ := Node.eq_operator_of_isOperator between
  intro setting actions before after machine last within made reaches sound dry runs pending
  obtain ⟨early, middle, late, one, others, rfl⟩ :=
    Compilation.compileEach_cons_eq_ok (Node.operatorSign_eq_none ordinary) made
  obtain ⟨late, behind, rfl⟩ := Compilation.compileEach_sign_eq_ok rfl others
  have leaves := turn_leaves usual plain alternates
    (Nat.le_trans (Compilation.compileEach_size_le others) within) one
  rw [List.append_assoc] at pending
  obtain ⟨stop, command, operator⟩ := runs.split pending
  obtain ⟨screen, input⟩ := leaves.relates _ _ _ reaches sound command pending
  have stopped := command.sound sound leaves.block pending
  obtain ⟨next, judged, onward⟩ := operator.inch_first command.pending
  obtain ⟨read, left⟩ := inch_separates command.pending judged
  have block : Block [.plain (.separator op)
      ("list node transfer character: " ++ Text.escaped op)] := .single rfl trivial
  have first : stop.pending = [_] ++ (late ++ closing) := command.pending
  have settled : next.Sound :=
    (Runs.inch first judged (.done left)).sound stopped block first
  obtain ⟨judgments, trailing, turns, held⟩ := later _ _ _ _ _ _ within behind
    ((reaches.runs command).inch judged) settled read onward left
  obtain ⟨inside, judges⟩ := command.judges
  refine ⟨_, trailing, .turn judges judged turns,
    List.forall_mem_cons.mpr ⟨⟨screen, dry, ?_⟩, held⟩⟩
  intro bare
  exact (input bare).elim (fun same => same.trans dry) id

/-- So it is with every list in which commands and operators alternate. -/
theorem keepsTurns_of_alternating {parts : List Node}
    (usual : ∀ moment, Reaches start moment → moment.nextUsual bound = true)
    (alternating : Node.Alternating Node.isOperator parts)
    (plain : ∀ part ∈ parts, part.isOperator = true ∨ part.isPlain = true)
    (alternates : ∀ part ∈ parts, part.Alternates) : KeepsTurns start bound parts := by
  have command : ∀ {first : Node} {rest : List Node}, first.isOperator = false →
      (∀ part ∈ first :: rest, part.isOperator = true ∨ part.isPlain = true) →
      first.isPlain = true := by
    intro first rest ordinary plain
    refine (plain _ List.mem_cons_self).resolve_left ?_
    rw [ordinary]
    nofun
  induction alternating with
  | last => exact .single _
  | trailing ordinary behind =>
    exact .more usual ordinary behind (command ordinary plain) (alternates _ List.mem_cons_self)
      .nil
  | more ordinary between _ ih =>
    exact .more usual ordinary between (command ordinary plain) (alternates _ List.mem_cons_self)
      (ih (fun part member => plain part (.tail _ (.tail _ member)))
        fun part member => alternates part (.tail _ (.tail _ member)))

end

section
variable {machine after : Machine ω η} {rest : List Action} {action : Action}

/-- An action that changes the sandbox leaves the flag as it is. -/
theorem inch_changes {alter : Sandbox → Sandbox}
    (does : (execute action.operation : Step ω η Unit) = Machine.change alter)
    (other : ∀ op, action.operation ≠ .separator op)
    (pending : machine.pending = action :: rest)
    (done : Machine.inch.run machine = (.ok true, after)) :
    after.sandbox = alter machine.sandbox ∧ after.pending = rest ∧
      after.continuing = machine.continuing := by
  have flag := inch_continuing pending done
  rw [verdicts_of_other other] at flag
  obtain ⟨_, _, executed, ran, rfl⟩ := inch_eq_ok pending done
  obtain ⟨samePending, sameSandbox, _⟩ := settle_frame executed
  rw [does] at ran
  have changed := run_modify_eq_ok.mp ran
  exact ⟨sameSandbox.trans (congrArg sandbox changed),
    samePending.trans (congrArg Machine.pending changed), flag⟩

/-- Two actions lead to a list. Behind them there is nothing to read. -/
theorem list_begins {sequence : List Action} (sound : machine.Sound)
    (pending : machine.pending = .plain .resetIo "Initialize state for command" ::
      .plain .flush "list node entry" :: sequence ++ closing)
    (runs : Runs closing machine after) :
    (machine.inched 2).Sound ∧ (machine.inched 2).sandbox.io.input = "" ∧
      (machine.inched 2).continuing = machine.continuing ∧
      (machine.inched 2).pending = sequence ++ closing ∧
      Runs closing (machine.inched 2) after := by
  obtain ⟨reset, first, later⟩ := runs.inch_first pending
  obtain ⟨cleared, left, sameFlag⟩ := inch_changes rfl (by rintro _ ⟨⟩) pending first
  have behind : reset.pending = .plain .flush "list node entry" :: sequence ++ closing := left
  obtain ⟨begun, second, onward⟩ := later.inch_first behind
  obtain ⟨flushed, ready, stillFlag⟩ := inch_changes rfl (by rintro _ ⟨⟩) behind second
  have reached : machine.inched 2 = begun := by
    rw [inched_succ, first]
    exact congrArg Prod.snd second
  have both : Block [.plain .resetIo "Initialize state for command",
      .plain .flush "list node entry"] :=
    .cons rfl trivial (.single rfl trivial)
  have apart : machine.pending = [_, _] ++ (sequence ++ closing) := pending
  have entry : reset.pending = [_] ++ (sequence ++ closing) := behind
  have led : Runs (sequence ++ closing) machine begun :=
    .inch apart first (.inch entry second (.done ready))
  rw [reached]
  refine ⟨led.sound sound both apart, ?_, stillFlag.trans sameFlag, ready, onward⟩
  rw [flushed, Sandbox.flush_input, cleared]
  rfl

end

section
variable {judgments : List (Judgment ω η)}

omit [Operator ω] [Host η] in
theorem spoken_of_silent (silent : ∀ judgment ∈ judgments, judgment.inside = []) :
    Judgment.spoken judgments [] = judgments.map Judgment.verdict := by
  rw [Judgment.spoken, List.append_nil, List.map_eq_flatMap]
  refine List.flatMap_congr fun judgment member => ?_
  rw [silent judgment member]
  rfl

omit [Operator ω] [Host η] in
/-- Whether an operator resumes does not depend on any result. -/
theorem resumed_due_iff (number? : String → Option Nat) :
    Verdict.Resumed (judgments.map (Judgment.due number?)) ↔
      Verdict.Resumed (judgments.map Judgment.verdict) := by
  simp [Verdict.Resumed, Verdict.resumes, Judgment.due, Judgment.verdict]

end

/-- The flag that a list of plain commands leaves behind. It is what the operators have made of it
by what there was to read; so it is what they would make of it by what the commands printed exactly
if both let go on what comes next, or neither. If no substitution holds an operator, that is so
exactly if the flag was down and nothing has resumed, or both have stopped something for good, or
neither. -/
theorem results_followed_iff {text : String} {nodes parts : List Node} {root : Node} {span : Span}
    {machine built last : Machine ω η} (parsed : Script.parse text = .ok nodes)
    (member : root ∈ nodes) (within : (Node.list parts span).Within root)
    (plain : ∀ part ∈ parts, part.isOperator = true ∨ part.isPlain = true)
    (functions : ∀ name body, machine.sandbox.functions.get? name = some body → Script.Defines body)
    (commands : machine.commands = Command.standard)
    (started : (build (.list parts span) false).run machine = (.ok (), built))
    (drained : drain.run built = (.ok (), last))
    (usual : ∀ moment, Reaches { built with ticks := 0 } moment →
      moment.nextUsual built.slots.size = true) :
    ∃ judgments trailing ended,
      TakesTurns parts (inched { built with ticks := 0 } 2) judgments trailing ended ∧
      inch.run ended = (.ok true, last) ∧
      (∀ judgment ∈ judgments, judgment.Held ∧
        (judgment.command.isBare = true → judgment.verdict.stops = false)) ∧
      last.continuing = Verdict.followed (Judgment.spoken judgments trailing) machine.continuing ∧
      ∀ number? : String → Option Nat,
        (last.continuing = Verdict.followed (judgments.map (Judgment.due number?))
            machine.continuing ↔
          (Verdict.GoesOn (Judgment.spoken judgments trailing) machine.continuing ↔
            Verdict.GoesOn (judgments.map (Judgment.due number?)) machine.continuing)) ∧
        ((∀ judgment ∈ judgments, judgment.inside = []) → trailing = [] →
          (last.continuing = Verdict.followed (judgments.map (Judgment.due number?))
              machine.continuing ↔
            (machine.continuing = false ∧
                ¬ Verdict.Resumed (judgments.map (Judgment.due number?))) ∨
              (Verdict.Stopped (judgments.map Judgment.verdict) ↔
                Verdict.Stopped (judgments.map (Judgment.due number?))))) := by
  have alternates := (Script.parse_alternates parsed member).within within
  have formed : Formed .command (.list parts span) := by
    rcases (Script.parse_formed parsed root member).within within with ⟨_, formed⟩ | ⟨_, _, same⟩
    · exact formed.listCommand
    · cases same
  obtain ⟨sound, _⟩ := build_sound formed
    (fun name body found => (functions name body found).formed) commands (by nofun) started
  obtain ⟨actions, compiled, made, same⟩ := build_eq_ok started
  rw [Node.compile, Node.compileSequence_eq] at made
  obtain ⟨sequence, _, each, made⟩ := run_bind_eq_ok.mp made
  obtain ⟨rfl, rfl⟩ := run_pure_eq_ok.mp made
  have begun : Machine.Sound { built with ticks := 0 } :=
    ⟨sound.commands, sound.functions, sound.slots⟩
  have pending : Machine.pending { built with ticks := 0 } =
      (.plain .resetIo "Initialize state for command" ::
        .plain .flush "list node entry" :: sequence) ++ (closing ++ []) := by
    rw [same]
    rfl
  obtain ⟨ended, runs, cleans⟩ := (drain_runs drained).split pending
  obtain ⟨ready, dry, flag, left, onward⟩ := list_begins begun pending runs
  obtain ⟨judgments, trailing, turns, held⟩ := keepsTurns_of_alternating usual
    (alternates.lists _ _ .self) plain
    (fun part member => alternates.within (.inside member .self)) _ _ _ _ _ _
    (Nat.le_of_eq (by rw [same]; rfl)) each ⟨2, rfl⟩ ready dry onward left
  have tidies : ended.pending = .plain .cleanUp "Exit Node Cleanup" :: [] ++ [] := onward.pending
  obtain ⟨middle, inched, rest⟩ := cleans.inch_first tidies
  obtain ⟨_, nothing, stays⟩ := inch_changes rfl (by rintro _ ⟨⟩) tidies inched
  obtain rfl := rest.ended nothing
  have kept : Machine.continuing { built with ticks := 0 } = machine.continuing := by
    rw [same]
    rfl
  have law : last.continuing =
      Verdict.followed (Judgment.spoken judgments trailing) machine.continuing := by
    rw [stays, turns.continuing, flag, kept]
  refine ⟨judgments, trailing, ended, turns, inched,
    fun judgment member => ⟨held judgment member, (held judgment member).calm⟩, law,
    fun number? => ?_⟩
  have general : last.continuing = Verdict.followed (judgments.map (Judgment.due number?))
        machine.continuing ↔
      (Verdict.GoesOn (Judgment.spoken judgments trailing) machine.continuing ↔
        Verdict.GoesOn (judgments.map (Judgment.due number?)) machine.continuing) := by
    rw [law, Bool.eq_iff_iff, Verdict.followed_eq_true_iff, Verdict.followed_eq_true_iff]
  refine ⟨general, fun silent none => ?_⟩
  rw [general, none, spoken_of_silent silent, Verdict.GoesOn, Verdict.GoesOn, resumed_due_iff]
  have idle : (machine.continuing = false ∧
      ¬ Verdict.Resumed (judgments.map Judgment.verdict)) ↔
      ¬ (machine.continuing = true ∨ Verdict.Resumed (judgments.map Judgment.verdict)) := by
    rw [not_or, Bool.not_eq_true]
  rw [idle, and_congr_left_iff, not_iff_not, imp_iff_not_or]

/-- To know that every command has been a usual one it is enough to look until nothing is left. -/
theorem usual_of_ended {start : Machine ω η} {bound : Nat} (count : Nat)
    (each : ∀ early ≤ count, (start.inched early).nextUsual bound = true)
    (ended : (start.inched count).pending = []) :
    ∀ moment, Reaches start moment → moment.nextUsual bound = true := by
  have stays : ∀ more, start.inched (count + more) = start.inched count := by
    intro more
    induction more with
    | zero => rfl
    | succ more ih =>
      rw [← ih] at ended
      exact (congrArg Prod.snd (inch_of_ended ended)).trans ih
  rintro _ ⟨many, rfl⟩
  rcases Nat.le_total many count with before | behind
  · exact each many before
  · obtain ⟨more, rfl⟩ := Nat.exists_eq_add_of_le behind
    rw [stays more]
    exact each count (Nat.le_refl _)

/-- Three commands, one of them a pipeline that leaves a number to be read. -/
theorem results_followed_iff_pipeline :
    let text := "x=1; echo 0 | true || pwd"
    let parts := (Script.nodes text).flatMap Node.children
    ∃ built last : Machine Absent Disabled,
      Script.parse text = .ok [.list parts ⟨0, 25⟩] ∧
      (build (.list parts ⟨0, 25⟩) false).run fresh = (.ok (), built) ∧
      drain.run built = (.ok (), last) ∧
      ∃ judgments trailing ended,
        TakesTurns parts (inched { built with ticks := 0 } 2) judgments trailing ended ∧
        inch.run ended = (.ok true, last) ∧
        (∀ judgment ∈ judgments, judgment.Held ∧
          (judgment.command.isBare = true → judgment.verdict.stops = false)) ∧
        last.continuing =
          Verdict.followed (Judgment.spoken judgments trailing) fresh.continuing ∧
        ∀ number? : String → Option Nat,
          (last.continuing = Verdict.followed (judgments.map (Judgment.due number?))
              fresh.continuing ↔
            (Verdict.GoesOn (Judgment.spoken judgments trailing) fresh.continuing ↔
              Verdict.GoesOn (judgments.map (Judgment.due number?)) fresh.continuing)) ∧
          ((∀ judgment ∈ judgments, judgment.inside = []) → trailing = [] →
            (last.continuing = Verdict.followed (judgments.map (Judgment.due number?))
                fresh.continuing ↔
              (fresh.continuing = false ∧
                  ¬ Verdict.Resumed (judgments.map (Judgment.due number?))) ∨
                (Verdict.Stopped (judgments.map Judgment.verdict) ↔
                  Verdict.Stopped (judgments.map (Judgment.due number?))))) := by
  intro text parts
  have parsed : Script.parse text = .ok [.list parts ⟨0, 25⟩] := by
    rw [Script.parse_eq_nodes (by decide +kernel)]
    exact congrArg _ (by decide +kernel)
  have started : (build (.list parts ⟨0, 25⟩) false).run fresh = (.ok (), _) :=
    run_eq_of_isOk (by decide +kernel)
  have drained : drain.run ((build (.list parts ⟨0, 25⟩) false).run fresh).2 = (.ok (), _) :=
    run_eq_of_isOk (by decide +kernel)
  have functions : ∀ name body, fresh.sandbox.functions.get? name = some body →
      Script.Defines body := by
    intro name body found
    change Table.empty.get? name = some body at found
    rw [Table.get?_empty] at found
    cases found
  have usual : ∀ moment, Reaches
      { ((build (.list parts ⟨0, 25⟩) false).run fresh).2 with ticks := 0 } moment →
      moment.nextUsual ((build (.list parts ⟨0, 25⟩) false).run fresh).2.slots.size = true :=
    usual_of_ended 14 (by decide +kernel) (by decide +kernel)
  exact ⟨_, _, parsed, started, drained, results_followed_iff parsed (List.mem_singleton_self _)
    .self (by decide +kernel) functions rfl started drained usual⟩

/-- A zero that was printed does not hold up what comes behind `||`: it is not yet on the screen,
and not there to be read. -/
theorem printed_zero_unread :
    let text := "echo 0 || echo x"
    let list := (Script.nodes text).headD default
    ∃ built stop last : Machine Absent Disabled,
      Script.parse text = .ok [list] ∧ (build list false).run fresh = (.ok (), built) ∧
      (inches 4).run built = (.ok (), stop) ∧
      stop.pending.head?.map (·.description) = some "list node transfer character: ||" ∧
      stop.sandbox.screen = "" ∧ stop.sandbox.io.output = "0" ∧ stop.sandbox.io.input = "" ∧
      drain.run built = (.ok (), last) ∧ last.sandbox.screen = "0\nx\n" ∧
      last.continuing = true ∧
      Verdict.followed [⟨"||", Text.natural64? stop.sandbox.io.output⟩] fresh.continuing =
        false := by
  intro text list
  have parsed : Script.parse text = .ok [list] := by
    rw [Script.parse_eq_nodes (by decide +kernel)]
    exact congrArg _ (by decide +kernel)
  exact ⟨_, _, _, parsed, run_eq_of_isOk (by decide +kernel), run_eq_of_isOk (by decide +kernel),
    by decide +kernel, by decide +kernel, by decide +kernel, by decide +kernel,
    run_eq_of_isOk (by decide +kernel), by decide +kernel, by decide +kernel, by decide +kernel⟩

end Machine

end StepShell

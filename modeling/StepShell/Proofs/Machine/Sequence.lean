import StepShell.Proofs.Machine.Lockstep

/-! Commands one after another. It makes no difference whether the second one is built when the
first one is done, or is pending behind it, or is the second command of one list: what is pending
behind a command neither changes what it does nor is changed by it. -/

namespace StepShell

theorem Link.redirects_nil : Nat → ∀ part ∈ ([] : List Node), ∃ kind target span,
    part = .redirect kind target span := by
  intro _ _ member
  cases member

theorem Link.stretched_injective {start count next : Nat}
    (apart : 0 < count → start + count ≤ next) : ∀ slot other : Nat,
    (if slot < count then start + slot else next + (slot - count)) =
      (if other < count then start + other else next + (other - count)) → slot = other := by
  intro slot other same
  split at same <;> split at same <;> omega

/-- The first so many slots stand from `start` on, all later ones from `next` on. -/
def Link.stretched (start count next : Nat) (apart : 0 < count → start + count ≤ next)
    (kept : Nat → Option (List Node)) : Link where
  place slot := if slot < count then start + slot else next + (slot - count)
  extra _ := []
  width _ := 0
  kept
  injective := stretched_injective apart
  redirects := redirects_nil

section
variable {start count next : Nat} {apart : 0 < count → start + count ≤ next}
  {kept : Nat → Option (List Node)}

theorem Link.stretched_below {slot : Nat} (below : slot < count) :
    (stretched start count next apart kept).place slot = start + slot :=
  if_pos below

theorem Link.stretched_beyond (offset : Nat) :
    (stretched start count next apart kept).place (count + offset) = next + offset := by
  have beyond : ¬ count + offset < count := by omega
  refine (if_neg beyond).trans ?_
  rw [Nat.add_sub_cancel_left]

end

namespace Machine

variable {ω η : Type} [Operator ω] [Host η]

/-- Only the sandbox is changed, and what has no bearing on it; slots that nothing names may go. -/
structure Tidied (change : Sandbox → Sandbox) (machine after : Machine ω η) : Prop where
  sandbox : after.sandbox = change machine.sandbox
  slots : after.pending ≠ [] → after.slots = machine.slots
  commands : after.commands = machine.commands
  limits : after.limits = machine.limits
  operator : after.operator = machine.operator
  host : after.host = machine.host

/-- Whatever stands behind them, the actions only change the sandbox. -/
def Tidies (ω η : Type) [Operator ω] [Host η] (actions : List Action)
    (change : Sandbox → Sandbox) : Prop :=
  ∀ rest (machine after : Machine ω η), Runs rest machine after →
    machine.pending = actions ++ rest → Tidied change machine after

theorem Tidies.single {action : Action} {change : Sandbox → Sandbox}
    (step : ∀ machine after : Machine ω η, (execute action.operation).run machine = (.ok (), after) →
      after.pending = machine.pending ∧ Tidied change machine after) :
    Tidies ω η [action] change := by
  intro rest machine after runs pending
  obtain ⟨executed, done, onward⟩ := runs.first pending
  obtain ⟨same, tidied⟩ := step _ _ done
  rw [onward.ended ((settle_frame executed).1.trans same)]
  unfold settle
  split
  · rename_i none
    exact ⟨tidied.sandbox, fun some => absurd (List.isEmpty_iff.mp none) some, tidied.commands,
      tidied.limits, tidied.operator, tidied.host⟩
  · exact ⟨tidied.sandbox, tidied.slots, tidied.commands, tidied.limits, tidied.operator,
      tidied.host⟩

theorem Tidies.nil : Tidies ω η [] id := by
  intro rest machine after runs pending
  rw [runs.ended pending]
  exact ⟨rfl, fun _ => rfl, rfl, rfl, rfl, rfl⟩

theorem Tidies.append {first second : List Action} {change later : Sandbox → Sandbox}
    (early : Tidies ω η first change) (late : Tidies ω η second later) :
    Tidies ω η (first ++ second) (later ∘ change) := by
  intro rest machine after runs pending
  rw [List.append_assoc] at pending
  obtain ⟨middle, before, behind⟩ := runs.split pending
  have start := early _ _ _ before pending
  have done := late _ _ _ behind before.pending
  refine ⟨done.sandbox.trans (congrArg later start.sandbox), fun some => ?_,
    done.commands.trans start.commands, done.limits.trans start.limits,
    done.operator.trans start.operator, done.host.trans start.host⟩
  refine (done.slots some).trans (start.slots ?_)
  rw [before.pending, ← behind.pending]
  exact List.append_ne_nil_of_right_ne_nil second some

/-- An operation that does nothing but change the sandbox. -/
theorem Tidies.change {action : Action} {alter : Sandbox → Sandbox}
    (does : (execute action.operation : Step ω η Unit) = Machine.change alter) :
    Tidies ω η [action] alter := by
  refine .single fun machine after done => ?_
  rw [does] at done
  rw [run_modify_eq_ok.mp done]
  exact ⟨rfl, rfl, fun _ => rfl, rfl, rfl, rfl, rfl⟩

/-- Between two commands the separator only drops what there is to read. -/
theorem Tidies.separator {description : String} :
    Tidies ω η [.plain (.separator ";") description] Sandbox.clearInput := by
  refine .single fun machine after done => ?_
  obtain ⟨current, _, got, changing⟩ := run_bind_eq_ok.mp done
  obtain ⟨rfl, rfl⟩ := run_get_eq_ok.mp got
  obtain ⟨_, middle, changed, judging⟩ := run_bind_eq_ok.mp changing
  obtain rfl := run_modify_eq_ok.mp changed
  obtain ⟨_, _, got, judging⟩ := run_bind_eq_ok.mp judging
  obtain ⟨rfl, rfl⟩ := run_get_eq_ok.mp got
  obtain ⟨continuing, _, judged, noting⟩ := run_bind_eq_ok.mp judging
  obtain ⟨_, rfl⟩ := run_lift_eq_ok.mp judged
  rw [run_modify_eq_ok.mp noting]
  exact ⟨rfl, rfl, fun _ => rfl, rfl, rfl, rfl, rfl⟩

/-- A run to the end goes first through what is pending before any rest. -/
theorem Runs.until {first rest : List Action} {machine after : Machine ω η}
    (runs : Runs [] machine after) (pending : machine.pending = first ++ rest) :
    ∃ middle, Runs rest machine middle ∧ Runs [] middle after := by
  have whole : machine.pending = first ++ (rest ++ []) := by rw [pending, List.append_nil]
  obtain ⟨middle, early, late⟩ := runs.split whole
  rw [List.append_nil] at early
  exact ⟨middle, early, late⟩

/-- Two machines that agree once their sandboxes are tidied go through a command in the same way. -/
theorem Twins.command {link : Link} {opening starting first second rest behind : List Action}
    {change changing : Sandbox → Sandbox} {machine final twin last : Machine ω η}
    (twins : Twins link Eq { machine with sandbox := change machine.sandbox }
      { twin with sandbox := changing twin.sandbox })
    (opens : Tidies ω η opening change) (starts : Tidies ω η starting changing)
    (some : rest ≠ []) (more : behind ≠ []) (follows : Follows link.place first second)
    (pending : machine.pending = opening ++ (first ++ rest))
    (twinPending : twin.pending = starting ++ (second ++ behind))
    (runs : Runs [] machine final) (others : Runs [] twin last) :
    ∃ ended done, Twins link Eq ended done ∧ Runs rest machine ended ∧ Runs behind twin done ∧
      Runs [] ended final ∧ Runs [] done last := by
  obtain ⟨begun, before, later⟩ := runs.until pending
  obtain ⟨started, early, onward⟩ := others.until twinPending
  obtain ⟨ended, through, tail⟩ := later.until before.pending
  obtain ⟨done, going, left⟩ := onward.until early.pending
  have tidied := opens _ _ _ before pending
  have tidy := starts _ _ _ early twinPending
  have agree : Twins link Eq begun started := by
    refine ⟨?_, ?_, ?_, ?_, ?_, ?_⟩
    · rw [tidied.sandbox, tidy.sandbox]
      exact twins.sandbox
    · rw [tidied.slots (by simp [before.pending, some]), tidy.slots (by simp [early.pending, more])]
      exact twins.slots
    · rw [tidied.commands, tidy.commands]
      exact twins.commands
    · rw [tidied.limits, tidy.limits]
      exact twins.limits
    · rw [tidied.operator, tidy.operator]
      exact twins.operator
    · rw [tidied.host, tidy.host]
      exact twins.host
  exact ⟨ended, done, agree.runs some more through going before.pending early.pending follows,
    before.trans through, early.trans going, tail, left⟩

/-- What ends a command. -/
theorem Tidies.cleanUp : Tidies ω η [.plain .cleanUp "Exit Node Cleanup"]
    fun sandbox => sandbox.flush.clearInput :=
  .change rfl

/-- What starts a command. -/
theorem Tidies.resetIo : Tidies ω η [.plain .resetIo "Initialize state for command"]
    fun sandbox => sandbox.clearOutput.clearInput :=
  .change rfl

theorem Tidies.flush {description : String} :
    Tidies ω η [.plain .flush description] Sandbox.flush :=
  .change rfl

/-- At the start of a list nothing is written yet that could be printed. -/
theorem Tidies.listStart : Tidies ω η ([.plain .resetIo "Initialize state for command"] ++
    ([.plain .flush "list node entry"] ++ [.plain .flush "Resetting for new command"]))
      fun sandbox => sandbox.clearOutput.clearInput :=
  Tidies.resetIo.append (Tidies.flush.append Tidies.flush)

/-- Between its commands a list does what is done at the end of one command and the start of the
next. -/
theorem Tidies.listMiddle {description : String} :
    Tidies ω η ([.plain (.separator ";") description] ++
      [.plain .flush "Resetting for new command"])
        fun sandbox => sandbox.flush.clearInput.clearOutput.clearInput := by
  have same : (fun sandbox : Sandbox => sandbox.flush.clearInput.clearOutput.clearInput) =
      Sandbox.flush ∘ Sandbox.clearInput := by
    funext sandbox
    cases written : sandbox.io.output.isEmpty with
    | false => simp [Sandbox.flush, Sandbox.clearInput, Sandbox.clearOutput, written]
    | true =>
      have none := String.isEmpty_iff.mp written
      simp [Sandbox.flush, Sandbox.clearInput, Sandbox.clearOutput, none]
  rw [same]
  exact Tidies.separator.append Tidies.flush

/-- Two commands that are pending on one machine, with these actions before and between them. -/
structure Queued (machine : Machine ω η) (opening first between second : List Action) : Prop where
  pending : machine.pending = opening ++ (first ++ (between ++ (second ++
    [.plain .cleanUp "Exit Node Cleanup"])))
  opens : Tidies ω η opening fun sandbox => sandbox.clearOutput.clearInput
  parts : Tidies ω η between fun sandbox => sandbox.flush.clearInput.clearOutput.clearInput

theorem Queued.appended {machine : Machine ω η} {first second : List Action}
    (pending : machine.pending = wrapped first ++ wrapped second) :
    Queued machine [.plain .resetIo "Initialize state for command"] first
      ([.plain .cleanUp "Exit Node Cleanup"] ++
        [.plain .resetIo "Initialize state for command"]) second :=
  ⟨by simp [pending, wrapped], .resetIo, Tidies.cleanUp.append .resetIo⟩

theorem Queued.listed {machine : Machine ω η} {first second : List Action} {description : String}
    (pending : machine.pending = wrapped ([.plain .flush "list node entry",
      .plain .flush "Resetting for new command"] ++ (first ++
        ([.plain (.separator ";") description, .plain .flush "Resetting for new command"] ++
          second)))) :
    Queued machine ([.plain .resetIo "Initialize state for command"] ++
      ([.plain .flush "list node entry"] ++ [.plain .flush "Resetting for new command"])) first
      ([.plain (.separator ";") description] ++ [.plain .flush "Resetting for new command"])
      second :=
  ⟨by simp [pending, wrapped], .listStart, .listMiddle⟩

/-- Slots that were put in between stand between those of the machine. -/
theorem joins_between (slots added : Array (List Node)) :
    (Link.stretched 0 slots.size (slots.size + added.size) (by omega)
      fun slot => (slots ++ added)[slot]?).Joins slots (slots ++ added) := by
  refine ⟨fun offset => ⟨?_, rfl⟩, fun slot parts found => ?_, fun _ _ _ more => absurd rfl more,
    fun slot _ => rfl⟩
  · rw [Link.stretched_beyond, Array.size_append]
  · have below := (Array.getElem?_eq_some_iff.mp found).1
    rw [Link.stretched_below below, Nat.zero_add, Array.getElem?_append_left below, found]
    exact congrArg some (List.append_nil parts).symm

/-- Slots that were put down from `start` on stand there, and the next ones come after all. -/
theorem joins_stretched {start : Nat} {added done : Array (List Node)}
    (stays : ∀ offset < added.size, done[start + offset]? = added[offset]?) :
    ∃ apart, (Link.stretched start added.size done.size apart fun slot => done[slot]?).Joins added
      done := by
  refine ⟨fun positive => ?_, fun offset => ⟨?_, rfl⟩, fun slot parts found => ?_,
    fun _ _ _ more => absurd rfl more, fun slot _ => rfl⟩
  · have last := stays (added.size - 1) (by omega)
    rw [Array.getElem?_eq_getElem (show added.size - 1 < added.size by omega)] at last
    have below := (Array.getElem?_eq_some_iff.mp last).1
    omega
  · rw [Link.stretched_beyond]
  · have below := (Array.getElem?_eq_some_iff.mp found).1
    rw [Link.stretched_below below, stays slot below, found]
    exact congrArg some (List.append_nil parts).symm

/-- After the first command the slots of the second one stand where they were put. -/
theorem joins_after {slots added ended done : Array (List Node)}
    (joins : (Link.stretched 0 slots.size (slots.size + added.size) (by omega)
      fun slot => (slots ++ added)[slot]?).Joins ended done) :
    ∃ apart, (Link.stretched slots.size added.size done.size apart
      fun slot => done[slot]?).Joins added done := by
  refine joins_stretched fun offset below => ?_
  rw [joins.kept _ fun origin => ?_]
  · change (slots ++ added)[slots.size + offset]? = _
    rw [Array.getElem?_append_right (Nat.le_add_right _ _), Nat.add_sub_cancel_left]
  · intro same
    simp only [Link.stretched] at same
    split at same <;> omega

omit [Operator ω] [Host η] in
/-- A machine on which a command was built from no slots goes with one that holds the parts of the
command somewhere in its slots, if the compiler left the functions and the operator alone. -/
theorem twins_built {link : Link} {fresh other : Machine ω η} {compiled : Compilation ω}
    {sandbox : Sandbox} {added : Array (List Node)} (acts : List Action)
    (functions : compiled.functions = fresh.sandbox.functions) (grown : compiled.slots = added)
    (joins : link.Joins added other.slots) (operator : other.operator = compiled.operator)
    (cleared : sandbox = fresh.sandbox.clearOutput.clearInput)
    (commands : other.commands = fresh.commands) (limits : other.limits = fresh.limits)
    (host : other.host = fresh.host) :
    Twins link Eq
      { fresh.withCompilation compiled with
        pending := wrapped acts
        ticks := 0
        sandbox := (fresh.withCompilation compiled).sandbox.clearOutput.clearInput }
      { other with sandbox } := by
  obtain rfl := grown
  refine ⟨?_, joins, commands, limits, operator, host⟩
  change Sandbox.Alike Eq { fresh.sandbox with
    functions := compiled.functions }.clearOutput.clearInput sandbox
  rw [functions, cleared]
  exact Sandbox.alike_eq _

/-- The second of two queued commands runs as if it had been built when the first one was done. -/
theorem Queued.runs {node : Node} (still : node.Still)
    {opening first between second apart : List Action}
    {machine finished final queued last : Machine ω η} {setting : Compilation.Setting}
    {compiled alone : Compilation ω}
    (pending : machine.pending = wrapped first) (runs : Runs [] machine finished)
    (stands : ∀ place, (∀ slot < machine.slots.size, place slot = slot) →
      Follows place first first)
    (made : (node.compile finished.setting).run
      ⟨finished.sandbox.functions, #[], finished.operator⟩ = (.ok apart, alone))
    (onward : Runs [] { finished.withCompilation alone with
      pending := wrapped apart, ticks := 0 } final)
    (compiles : (node.compile setting).run
      ⟨machine.sandbox.functions, machine.slots, machine.operator⟩ = (.ok second, compiled))
    (same : queued = { machine.withCompilation compiled with
      pending := queued.pending, ticks := queued.ticks })
    (waiting : Queued queued opening first between second) (others : Runs [] queued last) :
    last.sandbox = final.sandbox ∧ last.operator = final.operator ∧ last.host = final.host := by
  obtain ⟨⟨functions, operator⟩, ⟨kept, asked⟩, added, grown, growing, moves⟩ :=
    Compilation.settled_compile (still.settled fun _ => []) (still.settled _) made compiles
  rw [Array.empty_append] at grown
  have begins : Twins (Link.stretched 0 machine.slots.size (machine.slots.size + added.size)
      (by omega) fun slot => (machine.slots ++ added)[slot]?) Eq
      { machine with sandbox := machine.sandbox.clearOutput.clearInput }
      { queued with sandbox := queued.sandbox.clearOutput.clearInput } := by
    rw [same]
    refine ⟨?_, ?_, rfl, rfl, asked, rfl⟩
    · change Sandbox.Alike Eq _
        { machine.sandbox with functions := compiled.functions }.clearOutput.clearInput
      rw [kept]
      exact Sandbox.alike_eq _
    · change Link.Joins _ machine.slots compiled.slots
      rw [growing]
      exact joins_between _ _
  have whole : machine.pending = [.plain .resetIo "Initialize state for command"] ++
      (first ++ [.plain .cleanUp "Exit Node Cleanup"]) := by
    rw [pending, wrapped]
    rfl
  obtain ⟨ended, done, agree, left, twinLeft, ending, going⟩ := begins.command .resetIo waiting.opens
    (by simp) (by simp) (stands _ fun slot below => (Link.stretched_below below).trans (by omega))
    whole waiting.pending runs others
  have tidied := Tidies.cleanUp _ _ _ ending left.pending
  obtain ⟨room, joins⟩ := joins_after agree.slots
  have cleared : done.sandbox.flush.clearInput.clearOutput.clearInput =
      finished.sandbox.clearOutput.clearInput := by
    rw [agree.sandbox.eq, tidied.sandbox]
  have asks : done.operator = alone.operator := by
    rw [agree.operator, operator, tidied.operator]
  have continues := twins_built apart functions grown joins asks cleared
    (agree.commands.trans tidied.commands.symm) (agree.limits.trans tidied.limits.symm)
    (agree.host.trans tidied.host.symm)
  have behind : wrapped apart = [.plain .resetIo "Initialize state for command"] ++
      (apart ++ [.plain .cleanUp "Exit Node Cleanup"]) := rfl
  have stands : Follows (Link.stretched machine.slots.size added.size done.slots.size room
      fun slot => done.slots[slot]?).place apart second := by
    refine moves _ fun slot below => ?_
    exact (congrArg _ (Nat.zero_add slot)).trans (Link.stretched_below below)
  obtain ⟨closed, shut, agree, left, twinLeft, ending, going⟩ :=
    continues.command .resetIo waiting.parts (by simp) (by simp) stands behind twinLeft.pending
      onward going
  have tidied := Tidies.cleanUp _ _ _ ending left.pending
  have tidy := Tidies.cleanUp _ _ _ going twinLeft.pending
  refine ⟨?_, ?_, ?_⟩
  · rw [tidy.sandbox, tidied.sandbox, agree.sandbox.eq]
  · rw [tidy.operator, tidied.operator, agree.operator]
  · rw [tidy.host, tidied.host, agree.host]

omit [Host η] in
theorem ordinary_of_compile {node : Node} {setting : Compilation.Setting}
    {before after : Compilation ω} {actions : List Action}
    (made : (node.compile setting).run before = (.ok actions, after)) :
    ∀ op span, node = .operator op span → False := by
  rintro op span rfl
  simp only [Node.compile] at made
  exact run_throw_eq_ok made

omit [Host η] in
/-- A list of two commands is compiled as the one and then the other. -/
theorem compile_pair_eq_ok {first second : Node} {op : String} {opSpan span : Span}
    {setting : Compilation.Setting} {before after : Compilation ω} {actions : List Action}
    (ordinary : ∀ op span, first = .operator op span → False)
    (other : ∀ op span, second = .operator op span → False)
    (made : (Node.compile setting (.list [first, .operator op opSpan, second] span)).run before =
      (.ok actions, after)) :
    ∃ early middle late, (first.compile setting).run before = (.ok early, middle) ∧
      (second.compile setting).run middle = (.ok late, after) ∧
      actions = [.plain .flush "list node entry", .plain .flush "Resetting for new command"] ++
        (early ++ ([.plain (.separator op) ("list node transfer character: " ++ Text.escaped op),
          .plain .flush "Resetting for new command"] ++ late)) := by
  rw [Node.compile, Node.compileSequence.eq_3 _ _ _ ordinary, Node.compileSequence,
    Node.compileSequence.eq_3 _ _ _ other, Node.compileSequence] at made
  obtain ⟨_, _, sequence, made⟩ := run_bind_eq_ok.mp made
  obtain ⟨rfl, rfl⟩ := run_pure_eq_ok.mp made
  obtain ⟨early, middle, one, sequence⟩ := run_bind_eq_ok.mp sequence
  obtain ⟨_, _, rest, sequence⟩ := run_bind_eq_ok.mp sequence
  obtain ⟨rfl, rfl⟩ := run_pure_eq_ok.mp sequence
  obtain ⟨_, _, rest, separated⟩ := run_bind_eq_ok.mp rest
  obtain ⟨rfl, rfl⟩ := run_pure_eq_ok.mp separated
  obtain ⟨late, _, two, rest⟩ := run_bind_eq_ok.mp rest
  obtain ⟨_, _, none, rest⟩ := run_bind_eq_ok.mp rest
  obtain ⟨rfl, rfl⟩ := run_pure_eq_ok.mp rest
  obtain ⟨rfl, rfl⟩ := run_pure_eq_ok.mp none
  exact ⟨early, middle, late, one, two, by simp⟩

/-- A node that runs through is built and then executed to the end. -/
theorem run_runs {node : Node} {machine after : Machine ω η} {value : Unit}
    (done : (run node).run machine = (.ok value, after)) :
    ∃ built, (build node false).run machine = (.ok (), built) ∧
      Runs [] { built with ticks := 0 } after := by
  obtain ⟨_, built, made, drained⟩ := run_bind_eq_ok.mp done
  exact ⟨built, made, drain_runs drained⟩

/-- It is compiled where no slots are. -/
theorem run_compiles {node : Node} {machine after : Machine ω η} {value : Unit}
    (done : (run node).run machine = (.ok value, after)) :
    ∃ actions compiled, (node.compile machine.setting).run
        ⟨machine.sandbox.functions, #[], machine.operator⟩ = (.ok actions, compiled) ∧
      (build node false).run machine = (.ok (), { machine.withCompilation compiled with
        pending := wrapped actions
        ticks := 0 }) ∧
      Runs [] { machine.withCompilation compiled with pending := wrapped actions, ticks := 0 }
        after := by
  obtain ⟨_, made, runs⟩ := run_runs done
  obtain ⟨actions, compiled, compiling, rfl⟩ := build_eq_ok made
  exact ⟨actions, compiled, compiling, made, runs⟩

/-- Running two commands one after the other, building the second one behind the first one and
draining once, and running the list of both come to the same: the same sandbox, and the same
questions to operator and host in the same order. -/
theorem sequence_agrees {first second : Node} (still : second.Still) {opSpan span : Span}
    {machine apart queued listed : Machine ω η}
    (each : (do run first; run second : Step ω η Unit).run machine = (.ok (), apart))
    (both : (do build first false; build second true; drain : Step ω η Unit).run machine =
      (.ok (), queued))
    (list : (run (.list [first, .operator ";" opSpan, second] span)).run machine =
      (.ok (), listed)) :
    (queued.sandbox = apart.sandbox ∧ queued.operator = apart.operator ∧
        queued.host = apart.host) ∧
      listed.sandbox = apart.sandbox ∧ listed.operator = apart.operator ∧
        listed.host = apart.host := by
  obtain ⟨_, finished, one, two⟩ := run_bind_eq_ok.mp each
  obtain ⟨begun, built, early⟩ := run_runs one
  obtain ⟨next, rebuilt, late⟩ := run_runs two
  obtain ⟨_, same, again, both⟩ := run_bind_eq_ok.mp both
  obtain rfl : same = begun := congrArg Prod.snd (again.symm.trans built)
  obtain ⟨_, waiting, appended, drained⟩ := run_bind_eq_ok.mp both
  obtain ⟨whole, listing, going⟩ := run_runs list
  obtain ⟨actions, compiled, made, rfl⟩ := build_eq_ok built
  obtain ⟨others, alone, remade, rfl⟩ := build_eq_ok rebuilt
  obtain ⟨behind, added, compiles, rfl⟩ := build_eq_ok appended
  obtain ⟨all, joined, compiling, rfl⟩ := build_eq_ok listing
  obtain ⟨actions', middle, behind', made', compiles', rfl⟩ := compile_pair_eq_ok
    (ordinary_of_compile made) (ordinary_of_compile remade) compiling
  cases made.symm.trans made'
  have same : ((.ok behind, added) : Except Failure _ × _) = (.ok behind', joined) :=
    compiles.symm.trans compiles'
  cases same
  have stands : ∀ place, (∀ slot < compiled.slots.size, place slot = slot) →
      Follows place actions actions := fun _ => Compilation.compile_stands made
  exact ⟨Queued.runs still rfl early stands remade late compiles rfl (.appended rfl)
      (drain_runs drained),
    Queued.runs still rfl early stands remade late compiles rfl (.listed rfl) going⟩

/-- A group whose output goes to a file, and a command that reads the file while it is run. -/
theorem sequence_agrees_file :
    let first := (Script.nodes "( cd /tmp; echo a ) > f && x=$(cat f)").headD default
    let second := (Script.nodes "echo $x $(cat f)").headD default
    ∃ apart queued listed, second.Still ∧
      (do run first; run second : Step Absent Disabled Unit).run fresh = (.ok (), apart) ∧
      (do build first false; build second true; drain : Step Absent Disabled Unit).run fresh =
        (.ok (), queued) ∧
      (run (.list [first, .operator ";" ⟨37, 38⟩, second] ⟨0, 54⟩)).run fresh =
        (.ok (), listed) ∧
      (queued.sandbox = apart.sandbox ∧ queued.operator = apart.operator ∧
        queued.host = apart.host) ∧
      listed.sandbox = apart.sandbox ∧ listed.operator = apart.operator ∧
        listed.host = apart.host := by
  intro first second
  have literal : second = .command [.word "echo" [] false ⟨0, 4⟩,
      .word "$x" [.parameter "$x" ⟨5, 7⟩] false ⟨5, 7⟩,
      .word "$(cat f)" [.substitution (.command [.word "cat" [] false ⟨10, 13⟩,
        .word "f" [] false ⟨14, 15⟩] ⟨10, 15⟩) ⟨8, 16⟩] false ⟨8, 16⟩] ⟨0, 16⟩ := by
    decide +kernel
  have still : second.Still := by
    have word : ∀ text span, (Node.word text [] false span).Still :=
      fun _ _ => Node.still_of_children rfl nofun
    have parameter : (Node.parameter "$x" ⟨5, 7⟩).Still := Node.still_of_children rfl nofun
    rw [literal]
    refine Node.still_of_children rfl (List.forall_mem_cons.mpr ⟨word _ _, ?_⟩)
    refine List.forall_mem_cons.mpr ⟨Node.still_of_children rfl (List.forall_mem_singleton.mpr
      parameter), List.forall_mem_singleton.mpr ?_⟩
    refine Node.still_of_children rfl (List.forall_mem_singleton.mpr ?_)
    refine Node.still_of_children rfl (List.forall_mem_singleton.mpr ?_)
    exact Node.still_of_children rfl (List.forall_mem_cons.mpr
      ⟨word _ _, List.forall_mem_singleton.mpr (word _ _)⟩)
  have each : (do run first; run second : Step Absent Disabled Unit).run fresh = (.ok (), _) :=
    run_eq_of_isOk (by decide +kernel)
  have both : (do build first false; build second true; drain : Step Absent Disabled Unit).run
      fresh = (.ok (), _) := run_eq_of_isOk (by decide +kernel)
  have list : (run (.list [first, .operator ";" ⟨37, 38⟩, second] ⟨0, 54⟩)).run fresh =
      (.ok (), _) := run_eq_of_isOk (by decide +kernel)
  exact ⟨_, _, _, still, each, both, list, sequence_agrees still each both list⟩

end Machine

end StepShell

import StepShell.Operator.Scripted
import StepShell.Proofs.Machine.Bindings

/-! Loops round by round. All rounds of a loop are compiled before the first one, so the lists of
the loops in its body have the values from before the loop; but for that, the loop does what is done
by an assignment and the body for each of its values, one after the other, and a removal in the
end. -/

namespace StepShell

/-- For each value, the assignment to the variable and then the body. -/
def Node.rounds (name : String) (body : Node) (values : List String) : List Node :=
  values.flatMap fun value => [.binding name value, body]

/-- A loop whose list has these values is compiled to its rounds. -/
theorem Compilation.compile_loop_eq_ok {ω : Type} [Operator ω] {setting : Setting} {name : String}
    {items : List Node} {body : Node} {span : Span} {list : List String}
    {before after : Compilation ω} {actions : List Action}
    (known : (valuesOfItems setting items : Compile ω (List String)) = pure list)
    (made : ((Node.forLoop name items body span).compile setting).run before =
      (.ok actions, after)) :
    ∃ rounds, (list.mapM (round setting name body)).run before = (.ok rounds, after) ∧
      actions = .plain .flush "for loop entry" :: rounds.flatten ++
        [.plain (.unbindLoop name) "Remove loop iterator", .plain .flush "Exit for loop"] := by
  rw [Node.compile, known, pure_bind] at made
  obtain ⟨_, _, checked, onward⟩ := run_bind_eq_ok.mp made
  obtain ⟨_, rfl⟩ := run_lift_eq_ok.mp checked
  obtain ⟨rounds, _, rounded, joined⟩ := run_bind_eq_ok.mp onward
  obtain ⟨rfl, rfl⟩ := run_pure_eq_ok.mp joined
  exact ⟨rounds, rounded, rfl⟩

namespace Machine

variable {ω η : Type} [Operator ω] [Host η] {machine after : Machine ω η} {name value : String}

theorem run_stays {node : Node} (done : (run node).run machine = (.ok (), after)) :
    after.commands = machine.commands ∧ after.limits = machine.limits := by
  obtain ⟨_, _, _, _, runs⟩ := run_compiles done
  exact runs.stays

theorem runAll_stays {nodes : List Node} (done : (runAll nodes).run machine = (.ok (), after)) :
    after.commands = machine.commands ∧ after.limits = machine.limits := by
  induction nodes generalizing machine with
  | nil =>
    obtain ⟨_, rfl⟩ := run_pure_eq_ok.mp done
    exact ⟨rfl, rfl⟩
  | cons node rest ih =>
    obtain ⟨_, _, first, later⟩ := run_bind_eq_ok.mp done
    obtain ⟨commands, limits⟩ := run_stays first
    exact ⟨(ih later).1.trans commands, (ih later).2.trans limits⟩

/-- Once the node is executed up to its clean-up, there is nothing left to read. -/
def Dries (node : Node) (machine : Machine ω η) : Prop :=
  ∀ built ended, (build node false).run machine = (.ok (), built) →
    Runs [.plain .cleanUp "Exit Node Cleanup"] built ended → ended.sandbox.io.input = ""

/-- The machine that goes through a loop has come as far as the one that goes round by round, but
for what there is to read once it has tidied up. -/
structure Abreast (tidy : Sandbox → Sandbox) (alone looping : Machine ω η) : Prop where
  sandbox : (tidy looping.sandbox).clearInput = alone.sandbox.clearOutput.clearInput
  commands : looping.commands = alone.commands
  limits : looping.limits = alone.limits
  operator : looping.operator = alone.operator
  host : looping.host = alone.host

variable {setting : Compilation.Setting} {values : Node → List String} {body : Node}

/-- One round of a loop does what the assignment and the body do one after the other. -/
theorem Abreast.round {tidy : Sandbox → Sandbox} {alone bound next looping final : Machine ω η}
    {pre acts behind : List Action} {before after : Compilation ω}
    (abreast : Abreast tidy alone looping) (dry : (tidy looping.sandbox).io.input = "")
    (tidies : Tidies ω η pre tidy) (form : Grammar.isName name = true)
    (settled : body.Settled ω setting values)
    (limits : setting.limits.checkValues = alone.limits.checkValues)
    (made : (body.compile setting).run before = (.ok acts, after))
    (kept : ∀ slot, before.slots.size ≤ slot → slot < after.slots.size →
      looping.slots[slot]? = after.slots[slot]?)
    (some : behind ≠ [])
    (pending : looping.pending = (pre ++ [.plain (.bindLoop name value)
      "Set loop iterator value for next itr"]) ++ (acts ++ behind))
    (binds : (run (.binding name value)).run alone = (.ok (), bound))
    (ran : (run (body.fixed values)).run bound = (.ok (), next)) (runs : Runs [] looping final) :
    ∃ done, done.pending = behind ∧ Runs [] done final ∧
      (∀ slot, after.slots.size ≤ slot → slot < looping.slots.size →
        done.slots[slot]? = looping.slots[slot]?) ∧
      Abreast Sandbox.flush next done ∧
      (Dries (body.fixed values) bound → done.sandbox.io.input = "") := by
  have assigned := run_binding form binds
  obtain ⟨acting, compiled, compiling, builds, through⟩ := run_compiles ran
  have checks : bound.setting.limits.checkValues = setting.limits.checkValues := by
    rw [limits, ← assigned.limits]
    rfl
  rw [Compilation.compile_fixed body checks settled.lists] at compiling
  obtain ⟨⟨functions, operator⟩, _, added, grown, growing, moves⟩ :=
    Compilation.settled_compile settled settled compiling made
  have stays : ∀ offset < added.size,
      looping.slots[before.slots.size + offset]? = added[offset]? := by
    intro offset below
    rw [kept _ (Nat.le_add_right _ _) (by rw [growing, Array.size_append]; omega), growing,
      Array.getElem?_append_right (Nat.le_add_right _ _), Nat.add_sub_cancel_left]
  obtain ⟨room, joins⟩ := joins_stretched stays
  rw [Array.empty_append] at grown
  -- both machines come to the body with the same sandbox
  have cleared : ((·.assign name value) ∘ tidy) looping.sandbox =
      bound.sandbox.clearOutput.clearInput := by
    have tidied := (Sandbox.clearInput_of_dry _ dry).symm.trans abreast.sandbox
    rw [assigned.sandbox, Function.comp_apply, tidied]
    rfl
  have asks : looping.operator = compiled.operator := by
    rw [operator, abreast.operator, assigned.operator]
  have begins := twins_built acting functions grown joins asks cleared
    (abreast.commands.trans assigned.commands.symm) (abreast.limits.trans assigned.limits.symm)
    (abreast.host.trans assigned.host.symm)
  have follows : Follows (Link.stretched before.slots.size added.size looping.slots.size room
      fun slot => looping.slots[slot]?).place acting acts := moves _ fun offset below =>
    (congrArg _ (Nat.zero_add offset)).trans (Link.stretched_below below)
  obtain ⟨ended, done, agree, left, twinLeft, ending, going⟩ := begins.command .resetIo
    (tidies.append (.change rfl)) (by simp) some follows rfl pending through runs
  have closed := Tidies.cleanUp _ _ _ ending left.pending
  refine ⟨done, twinLeft.pending, going, fun slot above below => ?_, ⟨?_, ?_, ?_, ?_, ?_⟩,
    fun dries => ?_⟩
  · refine agree.slots.kept slot fun origin same => ?_
    simp only [Link.stretched] at same
    rw [growing, Array.size_append] at above
    split at same <;> omega
  · rw [agree.sandbox.eq, closed.sandbox]
    change ended.sandbox.flush.clearInput = ended.sandbox.flush.clearOutput.clearInput
    rw [Sandbox.clearOutput_flush]
  · exact agree.commands.trans closed.commands.symm
  · exact agree.limits.trans closed.limits.symm
  · exact agree.operator.trans closed.operator.symm
  · exact agree.host.trans closed.host.symm
  · rw [agree.sandbox.eq]
    exact dries _ _ builds left

/-- The rounds of a loop do what the assignments and the body do one after the other. -/
theorem Abreast.rounds {list : List String} {tidy : Sandbox → Sandbox}
    {alone left looping final : Machine ω η} {pre tail : List Action} {rounds : List (List Action)}
    {before after : Compilation ω} (abreast : Abreast tidy alone looping)
    (dry : list ≠ [] → (tidy looping.sandbox).io.input = "") (tidies : Tidies ω η pre tidy)
    (form : Grammar.isName name = true) (settled : body.Settled ω setting values)
    (limits : setting.limits = alone.limits)
    (made : (list.mapM (Compilation.round setting name body)).run before = (.ok rounds, after))
    (kept : ∀ slot, before.slots.size ≤ slot → slot < after.slots.size →
      looping.slots[slot]? = after.slots[slot]?)
    (pending : looping.pending = pre ++ (rounds.flatten ++ tail))
    (dries : ∀ early value late bound, list = early ++ value :: late → late ≠ [] →
      (runAll (Node.rounds name (body.fixed values) early ++ [.binding name value])).run alone =
        (.ok (), bound) → Dries (body.fixed values) bound)
    (each : (runAll (Node.rounds name (body.fixed values) list)).run alone = (.ok (), left))
    (runs : Runs [] looping final) :
    ∃ pre tidy last, Tidies ω η pre tidy ∧ last.pending = pre ++ tail ∧ Abreast tidy left last ∧
      Runs [] last final := by
  induction list generalizing alone looping pre tidy before rounds with
  | nil =>
    obtain ⟨rfl, rfl⟩ := run_pure_eq_ok.mp made
    obtain ⟨_, rfl⟩ := run_pure_eq_ok.mp each
    exact ⟨pre, tidy, looping, tidies, pending, abreast, runs⟩
  | cons value rest ih =>
    rw [List.mapM_cons] at made
    obtain ⟨first, middle, one, made⟩ := run_bind_eq_ok.mp made
    obtain ⟨others, _, more, made⟩ := run_bind_eq_ok.mp made
    obtain ⟨rfl, rfl⟩ := run_pure_eq_ok.mp made
    obtain ⟨acts, _, compiles, one⟩ := run_bind_eq_ok.mp one
    obtain ⟨rfl, rfl⟩ := run_pure_eq_ok.mp one
    obtain ⟨_, bound, binds, each⟩ := run_bind_eq_ok.mp each
    obtain ⟨_, next, bodied, each⟩ := run_bind_eq_ok.mp each
    have passed := (run_stays bodied).2.trans (run_binding form binds).limits
    have whole : looping.pending = (pre ++ [.plain (.bindLoop name value)
        "Set loop iterator value for next itr"]) ++ (acts ++
          ([.plain .flush "iterate for loop"] ++ (others.flatten ++ tail))) := by
      simp [pending]
    have shifts : Compilation.Shifts Eq (rest.mapM (Compilation.round setting name body) :
        Compile ω (List (List Action))) (rest.mapM (Compilation.round setting name body))
        fun place rounds others => Follows place rounds.flatten others.flatten :=
      Compilation.Shifts.mapM fun _ _ =>
        Compilation.round_shifts (Compilation.compile_shifts_eq body setting)
    obtain ⟨_, added, grown, _⟩ := shifts _ _ _ _ _ _ rfl more more
    have early : ∀ slot, before.slots.size ≤ slot → slot < middle.slots.size →
        looping.slots[slot]? = middle.slots[slot]? := by
      intro slot above below
      rw [kept slot above (by rw [grown, Array.size_append]; omega), grown,
        Array.getElem?_append_left below]
    obtain ⟨done, left, onward, stays, level, dried⟩ := abreast.round (dry (by simp)) tidies form
      settled (congrArg _ limits) compiles early (by simp) whole binds bodied runs
    have nearer : ∀ slot, middle.slots.size ≤ slot → slot < after.slots.size →
        done.slots[slot]? = after.slots[slot]? := by
      intro slot above below
      obtain ⟨_, _, start, _⟩ := Compilation.compile_shifts_eq body setting _ _ _ _ _ _ rfl
        compiles compiles
      have held := kept slot (by rw [start, Array.size_append] at above; omega) below
      rw [Array.getElem?_eq_getElem below] at held
      rw [stays slot above (Array.getElem?_eq_some_iff.mp held).1, held,
        Array.getElem?_eq_getElem below]
    refine ih level (fun some => ?_) .flush (limits.trans passed.symm) more nearer left ?_ each
      onward
    · rw [Sandbox.flush_input]
      exact dried (dries [] value rest bound rfl some ((run_bind_of_ok binds).trans rfl))
    · intro early other late last same some ran
      refine dries (value :: early) other late last (congrArg _ same) some ?_
      change (do run (.binding name value); run (body.fixed values); runAll _ :
        Step ω η Unit).run alone = _
      rw [run_bind_of_ok binds, run_bind_of_ok bodied]
      exact ran

theorem runAll_append (first second : List Node) :
    (runAll (first ++ second) : Step ω η Unit) = (do runAll first; runAll second) := by
  induction first with
  | nil => rfl
  | cons node rest ih => simp only [List.cons_append, runAll, ih, bind_assoc]

/-- Where two nodes are compiled in the same way they run in the same way. -/
theorem run_congr {node other : Node}
    (same : (node.compile machine.setting : Compile ω (List Action)) =
      other.compile machine.setting) :
    (run node : Step ω η Unit).run machine = (run other).run machine := by
  have compiles : (compiling node.compile : Step ω η (List Action)).run
        { machine with slots := #[] } =
      (compiling other.compile).run { machine with slots := #[] } := by
    rcases held : (compiling other.compile : Step ω η (List Action)).run
      { machine with slots := #[] } with ⟨result, after⟩
    obtain ⟨compiled, made, rfl⟩ := compiling_eq.mp held
    change (other.compile machine.setting).run _ = _ at made
    rw [← same] at made
    exact compiling_eq.mpr ⟨compiled, made, rfl⟩
  have builds : (build node false : Step ω η Unit).run machine =
      (build other false).run machine := by
    unfold build
    rw [ExceptT.run_mk, ExceptT.run_mk]
    simp only [Bool.false_eq_true, if_false, compiles]
  change ExceptT.bindCont (fun _ => drain) ((build node false : Step ω η Unit).run machine).1
    ((build node false : Step ω η Unit).run machine).2 = _
  rw [builds]
  rfl

/-- A loop does what its rounds do one after the other, each with the assignment and then the body,
and the removal of the variable in the end. But the lists of the loops that are compiled together
with the body have the values that they had before the first round. -/
theorem loop_unrolls {items : List Node} {span : Span} {looped apart : Machine ω η}
    (standard : machine.commands = Command.standard) (form : Grammar.isName name = true)
    (settled : (Node.forLoop name items body span).Settled ω machine.setting values)
    (dries : ∀ early value late bound, items.flatMap values = early ++ value :: late → late ≠ [] →
      (runAll (Node.rounds name (body.fixed values) early ++ [.binding name value])).run machine =
        (.ok (), bound) → Dries (body.fixed values) bound)
    (bare : ∀ left, (runAll (Node.rounds name (body.fixed values) (items.flatMap values))).run
      machine = (.ok (), left) → left.sandbox.functions.get? "unset" = none)
    (loop : (run (.forLoop name items body span)).run machine = (.ok (), looped))
    (each : (runAll (Node.rounds name (body.fixed values) (items.flatMap values) ++
      [.unbinding name])).run machine = (.ok (), apart)) :
    (looped.sandbox = apart.sandbox ∧ looped.operator = apart.operator ∧
        looped.host = apart.host) ∧
      ∀ now : Machine ω η, now.limits = machine.limits →
        (∀ item, body.Unrolls item →
          (Compilation.itemValues now.setting item : Compile ω (List String)) =
            pure (values item)) →
        (run (body.fixed values)).run now = (run body).run now := by
  obtain ⟨actions, compiled, compiling, _, runs⟩ := run_compiles loop
  have own : body.Settled ω machine.setting values := settled.child (List.mem_singleton_self body)
  have known := Compilation.valuesOfItems_known fun item member => settled.lists item (.own member)
  obtain ⟨⟨functions, operator⟩, _⟩ :=
    Compilation.settled_compile settled settled compiling compiling
  obtain ⟨rounds, rounded, rfl⟩ := Compilation.compile_loop_eq_ok known compiling
  refine ⟨?_, fun now limits lists => ?_⟩
  · rw [runAll_append] at each
    obtain ⟨_, left, rounding, each⟩ := run_bind_eq_ok.mp each
    obtain ⟨_, _, removing, ended⟩ := run_bind_eq_ok.mp each
    obtain ⟨_, rfl⟩ := run_pure_eq_ok.mp ended
    let looping : Machine ω η := { machine.withCompilation compiled with
      pending := wrapped (.plain .flush "for loop entry" :: rounds.flatten ++
        [.plain (.unbindLoop name) "Remove loop iterator", .plain .flush "Exit for loop"])
      ticks := 0 }
    have unchanged : looping.sandbox = machine.sandbox := by
      change { machine.sandbox with functions := compiled.functions } = machine.sandbox
      rw [functions]
    have abreast : Abreast (Sandbox.flush ∘ fun sandbox => sandbox.clearOutput.clearInput) machine
        looping := by
      refine ⟨?_, rfl, rfl, operator, rfl⟩
      rw [unchanged, Function.comp_apply, Sandbox.flush_of_unwritten _ rfl]
      rfl
    have pending : looping.pending = ([.plain .resetIo "Initialize state for command"] ++
        [.plain .flush "for loop entry"]) ++ (rounds.flatten ++
          ([.plain (.unbindLoop name) "Remove loop iterator"] ++
            ([.plain .flush "Exit for loop"] ++ [.plain .cleanUp "Exit Node Cleanup"]))) := by
      simp [looping, wrapped]
    obtain ⟨pre, tidy, last, tidies, waiting, level, onward⟩ := abreast.rounds
      (fun _ => Sandbox.flush_input _) (Tidies.resetIo.append .flush) form own rfl rounded
      (fun _ _ _ => rfl) pending dries rounding runs
    have closed := (tidies.append ((Tidies.change rfl).append (Tidies.flush.append .cleanUp))) []
      last looped onward (by rw [waiting, List.append_nil])
    have removed := run_unbinding form ((runAll_stays rounding).1.trans standard)
      (bare left rounding) removing
    have unwritten : (tidy last.sandbox).io.output = "" :=
      congrArg (·.io.output) level.sandbox
    refine ⟨?_, ?_, ?_⟩
    · rw [closed.sandbox, removed.sandbox, ← level.sandbox]
      change ((tidy last.sandbox).unset name).flush.flush.clearInput = _
      rw [Sandbox.flush_of_unwritten ((tidy last.sandbox).unset name) unwritten,
        Sandbox.flush_of_unwritten ((tidy last.sandbox).unset name) unwritten]
      rfl
    · rw [closed.operator, removed.operator, level.operator]
    · rw [closed.host, removed.host, level.host]
  · exact run_congr (Compilation.compile_fixed body rfl lists)

/-- The last of what is pending is reached after so few actions, with nothing left to read. -/
def driesWithin : Nat → Machine ω η → Bool
  | 0, _ => false
  | count + 1, machine =>
    if machine.pending.length ≤ 1 then machine.sandbox.io.input.isEmpty
    else driesWithin count (inch.run machine).2

theorem Runs.input {count : Nat} {last : Action} (runs : Runs [last] machine after)
    (dries : machine.driesWithin count = true) : after.sandbox.io.input = "" := by
  induction runs generalizing count with
  | done ended =>
    cases count with
    | zero => cases dries
    | succ count =>
      rw [driesWithin, ended, if_pos (by simp)] at dries
      exact String.isEmpty_iff.mp dries
  | inch left inched _ ih =>
    cases count with
    | zero => cases dries
    | succ count =>
      rw [driesWithin, left, if_neg (by simp), inched] at dries
      exact ih dries

theorem dries_of_driesWithin {node : Node} (count : Nat)
    (dries : ((build node false).run machine).2.driesWithin count = true) :
    Dries node machine := by
  intro built ended made runs
  rw [made] at dries
  exact runs.input dries

/-- A loop in a loop whose list has the outer variable. Where the inner list is compiled it has no
value yet. -/
theorem loop_unrolls_nested :
    let loop := (Script.nodes "for x in a b; do for y in $x c; do echo $x$y; done; done").headD
      default
    let body := loop.children.getLastD default
    let values := Compilation.closedValues fresh.sandbox.vars
    ∃ looped apart, loop.Settled Absent fresh.setting values ∧
      (run loop).run (fresh : Machine Absent Disabled) = (.ok (), looped) ∧
      (runAll (Node.rounds "x" (body.fixed values) ["a", "b"] ++ [.unbinding "x"])).run fresh =
        (.ok (), apart) ∧
      looped.sandbox = apart.sandbox ∧ looped.sandbox.screen = "ac\nbc\n" := by
  intro loop body values
  let items : List Node := [.word "a" [] false ⟨9, 10⟩, .word "b" [] false ⟨11, 12⟩]
  have literal : loop = .forLoop "x" items body ⟨0, 56⟩ := by decide +kernel
  have inner : body = .forLoop "y" [.word "$x" [.parameter "$x" ⟨26, 28⟩] false ⟨26, 28⟩,
      .word "c" [] false ⟨29, 30⟩] (.command [.word "echo" [] false ⟨35, 39⟩,
        .word "$x$y" [.parameter "$x" ⟨40, 42⟩, .parameter "$y" ⟨42, 44⟩] false ⟨40, 44⟩]
          ⟨35, 44⟩) ⟨17, 50⟩ := by decide +kernel
  have lists : ∀ list : List Node, list.all Compilation.isClosed = true → ∀ item ∈ list,
      (Compilation.itemValues fresh.setting item : Compile Absent (List String)) =
        pure (values item) := fun _ closed item member =>
    Compilation.itemValues_closed (List.all_eq_true.mp closed item member)
  have nested : body.Settled Absent fresh.setting values := by
    rw [inner]
    have own := lists [.word "$x" [.parameter "$x" ⟨26, 28⟩] false ⟨26, 28⟩,
      .word "c" [] false ⟨29, 30⟩] (by decide)
    exact Node.Settled.forLoop own Node.Settled.command
  have outer := lists items (by decide)
  have settled : (Node.forLoop "x" items body ⟨0, 56⟩).Settled Absent fresh.setting values :=
    Node.Settled.forLoop outer nested
  have known : items.flatMap values = ["a", "b"] := by decide +kernel
  have dries : ∀ early value late (bound : Machine Absent Disabled),
      items.flatMap values = early ++ value :: late → late ≠ [] →
      (runAll (Node.rounds "x" (body.fixed values) early ++ [.binding "x" value])).run fresh =
        (.ok (), bound) → Dries (body.fixed values) bound := by
    intro early value late bound split some ran
    rw [known] at split
    obtain rfl : _ = bound := congrArg Prod.snd ran
    rcases early with _ | ⟨_, _ | _⟩
    · obtain ⟨rfl, -⟩ := List.cons.inj split
      exact dries_of_driesWithin 20 (by rw [inner]; decide +kernel)
    · simp_all
    · simp_all
  have bare : ∀ left : Machine Absent Disabled,
      (runAll (Node.rounds "x" (body.fixed values) (items.flatMap values))).run fresh =
        (.ok (), left) → left.sandbox.functions.get? "unset" = none := by
    intro left ran
    obtain rfl : _ = left := congrArg Prod.snd ran
    rw [inner]
    decide +kernel
  have ran : (run (.forLoop "x" items body ⟨0, 56⟩)).run (fresh : Machine Absent Disabled) =
      (.ok (), _) := run_eq_of_isOk (by rw [inner]; decide +kernel)
  have each : (runAll (Node.rounds "x" (body.fixed values) (items.flatMap values) ++
      [.unbinding "x"])).run (fresh : Machine Absent Disabled) = (.ok (), _) :=
    run_eq_of_isOk (by rw [inner]; decide +kernel)
  have standard : (fresh : Machine Absent Disabled).commands = Command.standard := rfl
  have form : Grammar.isName "x" = true := by decide
  have same := (loop_unrolls standard form settled dries bare ran each).1.1
  rw [known] at each same
  rw [literal]
  exact ⟨_, _, settled, ran, each, same, by rw [inner]; decide +kernel⟩

/-- With the body as it stands the rounds do something else than the loop: where an inner list has
the outer variable; where the operator is asked for an inner list, which happens before the first
round; where a round leaves something to read to the next; and where a function hides the
removal. -/
theorem unrolling_differs :
    (let loop := (Script.nodes "for x in a b; do for y in $x; do echo $y; done; done").headD default
      let body := loop.children.getLastD default
      ∃ looped apart, (run loop).run (fresh : Machine Absent Disabled) = (.ok (), looped) ∧
        (runAll (Node.rounds "x" body ["a", "b"] ++ [.unbinding "x"])).run fresh =
          (.ok (), apart) ∧
        looped.sandbox.screen = "" ∧ apart.sandbox.screen = "a\nb\n") ∧
    (let loop := (Script.nodes "for x in a b; do for y in $(c); do u; done; done").headD default
      let body := loop.children.getLastD default
      let answering : Scripted := { (default : Scripted) with items := [some "1", some "2"] }
      let asked : Machine Scripted Disabled :=
        create (Sandbox.startingIn "/root") Command.standard {} answering {}
      ∃ looped apart, (run loop).run asked = (.ok (), looped) ∧
        (runAll (Node.rounds "x" body ["a", "b"] ++ [.unbinding "x"])).run asked =
          (.ok (), apart) ∧
        looped.operator.asked.toList =
          ["loop: \"$(c)\"", "loop: \"$(c)\"", "command: u", "command: u"] ∧
        apart.operator.asked.toList =
          ["loop: \"$(c)\"", "command: u", "loop: \"$(c)\"", "command: u"]) ∧
    (let loop := (Script.nodes "for x in a b; do cat; echo $x | true; done").headD default
      let body := loop.children.getLastD default
      ∃ looped apart, (run loop).run (fresh : Machine Absent Disabled) = (.ok (), looped) ∧
        (runAll (Node.rounds "x" body ["a", "b"] ++ [.unbinding "x"])).run fresh =
          (.ok (), apart) ∧
        looped.sandbox.screen = "a\n" ∧ apart.sandbox.screen = "") ∧
    (let loop := (Script.nodes "for x in a b; do pwd; done").headD default
      let body := loop.children.getLastD default
      let hidden : Machine Absent Disabled := fresh.withSandbox fun sandbox =>
        { sandbox with functions := sandbox.functions.insert "unset" body }
      ∃ looped apart, (run loop).run hidden = (.ok (), looped) ∧
        (runAll (Node.rounds "x" body ["a", "b"] ++ [.unbinding "x"])).run hidden =
          (.ok (), apart) ∧
        looped.sandbox.vars.get? "x" = none ∧ (apart.sandbox.vars.get? "x").isSome) := by
  refine ⟨?_, ?_, ?_, ?_⟩
  · exact exists_runs_of_isOk (by decide +kernel)
  · exact exists_runs_of_isOk (by decide +kernel)
  · exact exists_runs_of_isOk (by decide +kernel)
  · exact exists_runs_of_isOk (by decide +kernel)

end Machine

end StepShell

import StepShell.Proofs.Machine.Moves
import StepShell.Proofs.Sandbox.View

/-! Two machines that do the same. Their slots may stand in different places, their sandboxes may
show different things from before, and different things may be pending behind what they do; none of
it makes a difference to what an operation does. -/

namespace StepShell

/-- Where the slots of one machine stand in another, and with which redirects more. -/
structure Link where
  place : Nat → Nat
  extra : Nat → List Node
  /-- How many parts stand before the redirects more. -/
  width : Nat → Nat
  /-- The slots of the second machine that are none of the first. -/
  kept : Nat → Option (List Node)
  injective : ∀ slot other, place slot = place other → slot = other
  redirects : ∀ slot, ∀ part ∈ extra slot, ∃ kind target span, part = .redirect kind target span

/-- The slots stand where the link says, and the next ones will. -/
structure Link.Joins (link : Link) (first second : Array (List Node)) : Prop where
  fresh : ∀ offset, link.place (first.size + offset) = second.size + offset ∧
    link.extra (first.size + offset) = []
  held : ∀ (slot : Nat) parts, first[slot]? = some parts →
    second[link.place slot]? = some (parts ++ link.extra slot)
  width : ∀ (slot : Nat) parts, first[slot]? = some parts → link.extra slot ≠ [] →
    parts.length = link.width slot
  kept : ∀ slot, (∀ origin, link.place origin ≠ slot) → second[slot]? = link.kept slot

namespace Link.Joins

variable {link : Link} {first second : Array (List Node)}

/-- Slots that only the second array has stand before its end. -/
theorem lt_of_kept (joins : link.Joins first second) {slot : Nat}
    (own : ∀ origin, link.place origin ≠ slot) : slot < second.size := by
  refine Nat.lt_of_not_le fun beyond => own (first.size + (slot - second.size)) ?_
  rw [(joins.fresh _).1]
  omega

theorem lt_of_extra (joins : link.Joins first second) {slot : Nat} (more : link.extra slot ≠ []) :
    slot < first.size := by
  refine Nat.lt_of_not_le fun beyond => more ?_
  obtain ⟨offset, rfl⟩ := Nat.exists_eq_add_of_le beyond
  exact (joins.fresh offset).2

theorem append (joins : link.Joins first second) (added : Array (List Node)) :
    link.Joins (first ++ added) (second ++ added) := by
  refine ⟨fun offset => ?_, fun slot parts found => ?_, fun slot parts found more => ?_,
    fun slot own => ?_⟩
  · rw [Array.size_append, Array.size_append, Nat.add_assoc, Nat.add_assoc]
    exact joins.fresh _
  · by_cases old : slot < first.size
    · rw [Array.getElem?_append_left old] at found
      have held := joins.held slot parts found
      obtain ⟨below, _⟩ := Array.getElem?_eq_some_iff.mp held
      rw [Array.getElem?_append_left below]
      exact held
    · obtain ⟨offset, rfl⟩ := Nat.exists_eq_add_of_le (Nat.le_of_not_lt old)
      obtain ⟨placed, bare⟩ := joins.fresh offset
      rw [Array.getElem?_append_right (Nat.le_add_right _ _), Nat.add_sub_cancel_left] at found
      rw [placed, bare, Array.getElem?_append_right (Nat.le_add_right _ _),
        Nat.add_sub_cancel_left, List.append_nil]
      exact found
  · rw [Array.getElem?_append_left (joins.lt_of_extra more)] at found
    exact joins.width slot parts found more
  · rw [Array.getElem?_append_left (joins.lt_of_kept own)]
    exact joins.kept slot own

theorem set (joins : link.Joins first second) {slot : Nat} (present : slot < first.size)
    {parts : List Node} (long : parts.length = first[slot].length) :
    link.Joins (first.setIfInBounds slot parts)
      (second.setIfInBounds (link.place slot) (parts ++ link.extra slot)) := by
  have below : link.place slot < second.size := by
    have held := joins.held slot first[slot] (Array.getElem?_eq_getElem present)
    exact (Array.getElem?_eq_some_iff.mp held).1
  refine ⟨fun offset => ?_, fun other found look => ?_, fun other found look more => ?_,
    fun other own => ?_⟩
  · rw [Array.size_setIfInBounds, Array.size_setIfInBounds]
    exact joins.fresh offset
  · by_cases same : slot = other
    · subst same
      rw [Array.getElem?_setIfInBounds_self_of_lt present] at look
      cases look
      exact Array.getElem?_setIfInBounds_self_of_lt below
    · rw [Array.getElem?_setIfInBounds_ne same] at look
      rw [Array.getElem?_setIfInBounds_ne fun moved => same (link.injective _ _ moved)]
      exact joins.held other found look
  · by_cases same : slot = other
    · subst same
      rw [Array.getElem?_setIfInBounds_self_of_lt present] at look
      cases look
      exact long.trans (joins.width slot _ (Array.getElem?_eq_getElem present) more)
    · rw [Array.getElem?_setIfInBounds_ne same] at look
      exact joins.width other found look more
  · rw [Array.getElem?_setIfInBounds_ne (own slot)]
    exact joins.kept other own

end Link.Joins

/-- Every slot stands where it stood. -/
def Link.none : Link :=
  ⟨id, fun _ => [], fun _ => 0, fun _ => .none, fun _ _ => id, by simp⟩

theorem Link.none_joins (slots : Array (List Node)) : Link.none.Joins slots slots := by
  refine ⟨fun _ => ⟨rfl, rfl⟩, fun _ parts found => ?_, fun _ _ _ more => absurd rfl more,
    fun slot own => absurd rfl (own slot)⟩
  rw [none, List.append_nil]
  exact found

/-- On sandboxes that are alike the command says the same, asks the same and leaves them alike. -/
def Command.Respects {ω : Type} (rel : View → View → Prop) (command : Command ω) : Prop :=
  ∀ args sandbox twin operator, Sandbox.Alike rel sandbox twin →
    (command args twin operator).1 = (command args sandbox operator).1 ∧
      Sandbox.Alike rel (command args sandbox operator).2.1 (command args twin operator).2.1 ∧
      (command args twin operator).2.2 = (command args sandbox operator).2.2

theorem Command.respects_eq {ω : Type} (command : Command ω) : command.Respects Eq := by
  intro args sandbox twin operator alike
  rw [alike.eq]
  exact ⟨rfl, Sandbox.alike_eq _, rfl⟩

namespace Machine

variable {ω η α β : Type}

/-- The machines agree in all that an operation looks at. -/
structure Twins (link : Link) (rel : View → View → Prop) (machine twin : Machine ω η) : Prop where
  sandbox : Sandbox.Alike rel machine.sandbox twin.sandbox
  slots : link.Joins machine.slots twin.slots
  commands : twin.commands = machine.commands
  limits : twin.limits = machine.limits
  operator : twin.operator = machine.operator
  host : twin.host = machine.host

/-- What stays on both machines, and what both put first. -/
structure Beside (place : Nat → Nat) (machine twin after later : Machine ω η) : Prop where
  commands : after.commands = machine.commands ∧ later.commands = twin.commands
  limits : after.limits = machine.limits ∧ later.limits = twin.limits
  ticks : after.ticks = machine.ticks ∧ later.ticks = twin.ticks
  pending : ∃ first second, after.pending = first ++ machine.pending ∧
    later.pending = second ++ twin.pending ∧ Follows place first second

section
variable {link : Link} {rel next : View → View → Prop} {place : Nat → Nat}
  {machine twin middle between after later : Machine ω η}

/-- Nothing is put first. -/
theorem Beside.still (commands : after.commands = machine.commands)
    (limits : after.limits = machine.limits) (ticks : after.ticks = machine.ticks)
    (pending : after.pending = machine.pending) (twinCommands : later.commands = twin.commands)
    (twinLimits : later.limits = twin.limits) (twinTicks : later.ticks = twin.ticks)
    (twinPending : later.pending = twin.pending) : Beside place machine twin after later :=
  ⟨⟨commands, twinCommands⟩, ⟨limits, twinLimits⟩, ⟨ticks, twinTicks⟩, [], [], pending,
    twinPending, .done⟩

theorem Beside.refl (machine twin : Machine ω η) : Beside place machine twin machine twin :=
  .still rfl rfl rfl rfl rfl rfl rfl rfl

theorem Beside.trans (first : Beside place machine twin middle between)
    (second : Beside place middle between after later) :
    Beside place machine twin after later := by
  obtain ⟨early, twinEarly, put, putting, follows⟩ := first.pending
  obtain ⟨late, twinLate, added, adding, later⟩ := second.pending
  refine ⟨⟨second.commands.1.trans first.commands.1, second.commands.2.trans first.commands.2⟩,
    ⟨second.limits.1.trans first.limits.1, second.limits.2.trans first.limits.2⟩,
    ⟨second.ticks.1.trans first.ticks.1, second.ticks.2.trans first.ticks.2⟩,
    late ++ early, twinLate ++ twinEarly, ?_, ?_, later.append follows⟩
  · rw [added, put, List.append_assoc]
  · rw [adding, putting, List.append_assoc]

/-- Steps that both succeed give related results and leave the machines twins. -/
def Agree (link : Link) (next : View → View → Prop) (machine twin : Machine ω η)
    (step other : Step ω η α) (good : α → α → Prop) : Prop :=
  ∀ value same after later, step.run machine = (.ok value, after) →
    other.run twin = (.ok same, later) →
    good value same ∧ Twins link next after later ∧ Beside link.place machine twin after later

namespace Agree

variable {good : α → α → Prop} {better : β → β → Prop}

theorem bind {first second : Step ω η α} {onward other : α → Step ω η β}
    (start : Agree link rel machine twin first second good)
    (rest : ∀ value same middle between, good value same → Twins link rel middle between →
      middle.commands = machine.commands →
      Agree link next middle between (onward value) (other same) better) :
    Agree link next machine twin (first >>= onward) (second >>= other) better := by
  intro result results after later done doing
  obtain ⟨value, middle, made, done⟩ := run_bind_eq_ok.mp done
  obtain ⟨same, between, making, doing⟩ := run_bind_eq_ok.mp doing
  obtain ⟨holds, twins, early⟩ := start _ _ _ _ made making
  obtain ⟨better, still, late⟩ := rest _ _ _ _ holds twins early.commands.1 _ _ _ _ done doing
  exact ⟨better, still, early.trans late⟩

theorem get {onward other : Machine ω η → Step ω η β}
    (rest : Agree link next machine twin (onward machine) (other twin) better) :
    Agree link next machine twin (MonadState.get >>= onward) (MonadState.get >>= other) better :=
  rest

theorem pure {value same : α} (twins : Twins link rel machine twin) (holds : good value same) :
    Agree link rel machine twin (Pure.pure value) (Pure.pure same) good := by
  intro result results after later done doing
  obtain ⟨rfl, rfl⟩ := run_pure_eq_ok.mp done
  obtain ⟨rfl, rfl⟩ := run_pure_eq_ok.mp doing
  exact ⟨holds, twins, .refl _ _⟩

theorem lifts {result results : Except Failure α} {onward other : α → Step ω η β}
    (rest : ∀ value same, result = .ok value → results = .ok same →
      Agree link next machine twin (onward value) (other same) better) :
    Agree link next machine twin (liftM result >>= onward) (liftM results >>= other) better := by
  intro value same after later done doing
  obtain ⟨given, middle, lifted, ran⟩ := run_bind_eq_ok.mp done
  obtain ⟨giving, between, lifting, running⟩ := run_bind_eq_ok.mp doing
  obtain ⟨made, rfl⟩ := run_lift_eq_ok.mp lifted
  obtain ⟨making, rfl⟩ := run_lift_eq_ok.mp lifting
  exact rest given giving made making _ _ _ _ ran running

theorem lift {result : Except Failure α} {onward other : α → Step ω η β}
    (rest : ∀ value, Agree link next machine twin (onward value) (other value) better) :
    Agree link next machine twin (liftM result >>= onward) (liftM result >>= other) better := by
  refine lifts fun value same made making => ?_
  cases made.symm.trans making
  exact rest value

theorem throw {failure : Failure} {other : Step ω η α} :
    Agree link next machine twin (MonadExcept.throw failure) other good :=
  fun _ _ _ _ done _ => absurd done run_throw_eq_ok

theorem modified {alter alters : Machine ω η → Machine ω η}
    (twins : Twins link next (alter machine) (alters twin))
    (beside : Beside link.place machine twin (alter machine) (alters twin)) :
    Agree link next machine twin (modify alter) (modify alters) fun _ _ => True := by
  intro _ _ after later done doing
  rw [run_modify_eq_ok.mp done, run_modify_eq_ok.mp doing]
  exact ⟨trivial, twins, beside⟩

theorem stored (twins : Twins link rel middle between)
    (beside : Beside link.place machine twin middle between) :
    Agree link rel machine twin (set middle) (set between) fun _ _ => True := by
  intro _ _ after later done doing
  rw [run_set_eq_ok.mp done, run_set_eq_ok.mp doing]
  exact ⟨trivial, twins, beside⟩

theorem storing {onward other : Step ω η α} (twins : Twins link rel middle between)
    (beside : Beside link.place machine twin middle between)
    (rest : ∀ middle between, Twins link rel middle between →
      Agree link next middle between onward other good) :
    Agree link next machine twin (do set middle; onward) (do set between; other) good :=
  (stored twins beside).bind fun _ _ middle between _ twins _ => rest middle between twins

/-- Put down what became of the operator. -/
theorem answered {operator : ω} {onward other : Step ω η α} (twins : Twins link rel machine twin)
    (rest : ∀ middle between, Twins link rel middle between →
      Agree link next middle between onward other good) :
    Agree link next machine twin (do set { machine with operator }; onward)
      (do set { twin with operator }; other) good := by
  refine storing ?_ (.still rfl rfl rfl rfl rfl rfl rfl rfl) rest
  exact ⟨twins.sandbox, twins.slots, twins.commands, twins.limits, rfl, twins.host⟩

theorem change {alter alters : Sandbox → Sandbox} (twins : Twins link rel machine twin)
    (alike : Sandbox.Alike next (alter machine.sandbox) (alters twin.sandbox)) :
    Agree link next machine twin (Machine.change alter) (Machine.change alters)
      fun _ _ => True := by
  refine .modified ?_ (.still rfl rfl rfl rfl rfl rfl rfl rfl)
  exact ⟨alike, twins.slots, twins.commands, twins.limits, twins.operator, twins.host⟩

theorem blind {alter : Sandbox → Sandbox} (twins : Twins link rel machine twin)
    (same : Sandbox.Blind alter) :
    Agree link rel machine twin (Machine.change alter) (Machine.change alter) fun _ _ => True :=
  .change twins (twins.sandbox.change same)

theorem putFirst {actions others : List Action} (twins : Twins link rel machine twin)
    (follows : Follows link.place actions others) :
    Agree link rel machine twin (Machine.putFirst actions) (Machine.putFirst others)
      fun _ _ => True := by
  refine .modified ?_ ⟨⟨rfl, rfl⟩, ⟨rfl, rfl⟩, ⟨rfl, rfl⟩, _, _, rfl, rfl, follows⟩
  exact ⟨twins.sandbox, twins.slots, twins.commands, twins.limits, twins.operator, twins.host⟩

end Agree

/-- What both compile does the same, each in its own slots. -/
theorem compiling_agrees {compile : Compilation.Setting → Compile ω α}
    {good : (Nat → Nat) → α → α → Prop} (twins : Twins link rel machine twin)
    (shifts : ∀ setting, Compilation.Shifts Eq (compile setting) (compile setting) good) :
    Agree link rel machine twin (compiling compile) (compiling compile) (good link.place) := by
  intro value same after later done doing
  obtain ⟨compiled, made, rfl⟩ := compiling_eq.mp done
  obtain ⟨compiles, making, rfl⟩ := compiling_eq.mp doing
  have vars := twins.sandbox.read (·.vars) fun _ => rfl
  have setting : twin.setting = machine.setting := by
    rw [setting, setting, vars, twins.limits]
  have functions := twins.sandbox.read (·.functions) fun _ => rfl
  rw [setting] at making
  obtain ⟨together, added, grown, growing, holds⟩ := shifts machine.setting _ _ _ _ _ _
    (Prod.ext functions.symm twins.operator.symm) made making
  obtain ⟨known, operator⟩ := Prod.mk.inj together
  refine ⟨holds _ fun offset _ => (twins.slots.fresh offset).1, ⟨?_, ?_, twins.commands,
    twins.limits, operator.symm, twins.host⟩, .still rfl rfl rfl rfl rfl rfl rfl rfl⟩
  · have blind : Sandbox.Blind fun sandbox => { sandbox with functions := compiled.functions } :=
      fun _ _ => rfl
    change Sandbox.Alike rel _ { twin.sandbox with functions := compiles.functions }
    rw [← known]
    exact twins.sandbox.change blind
  · change link.Joins compiled.slots compiles.slots
    rw [grown, growing]
    exact twins.slots.append added

theorem slot_agrees (twins : Twins link rel machine twin) (index : Nat) :
    Agree link rel machine twin (slot index) (slot (link.place index))
      fun parts others => others = parts ++ link.extra index := by
  intro parts others after later done doing
  obtain ⟨found, rfl⟩ := slot_eq_ok done
  obtain ⟨finding, rfl⟩ := slot_eq_ok doing
  exact ⟨Option.some.inj (finding.symm.trans (twins.slots.held _ _ found)), twins, .refl _ _⟩

theorem redirectPath_agrees (twins : Twins link rel machine twin) (index place : Nat) :
    Agree link rel machine twin (redirectPath index place) (redirectPath (link.place index) place)
      fun path same => same = path := by
  refine (slot_agrees twins index).bind ?_
  rintro parts _ middle between rfl twins _
  cases found : parts[place]? with
  | none => exact .throw
  | some part =>
    have below : place < parts.length := (List.getElem?_eq_some_iff.mp found).1
    rw [List.getElem?_append_left below, found]
    split
    · refine .get (.pure twins ?_)
      exact twins.sandbox.read (fun sandbox => sandbox.resolve (sandbox.vars.expand _)) fun _ => rfl
    · exact .throw
    · exact .throw

section
variable [Operator ω]

theorem readRedirect_agrees (twins : Twins link rel machine twin) (path : String) :
    Agree link rel machine twin (readRedirect path) (readRedirect path) fun _ _ => True := by
  have read : ∀ text, Sandbox.Blind fun sandbox =>
      { sandbox with io := { sandbox.io with input := text } } := fun _ _ _ => rfl
  refine .get ?_
  rw [twins.sandbox.read (fun sandbox => sandbox.files.get? path) fun _ => rfl, twins.operator]
  split
  · exact .blind twins (read _)
  · exact .answered twins fun _ _ twins => .blind twins (read _)

omit [Operator ω] in
/-- What is compiled is put first, between actions that are the same on both machines. -/
theorem putCompiled_agrees {compile : Compilation.Setting → Compile ω (List Action)}
    {wrap : List Action → List Action} (twins : Twins link rel machine twin)
    (shifts : ∀ setting, Compilation.Shifts Eq (compile setting) (compile setting) Follows)
    (around : ∀ actions others, Follows link.place actions others →
      Follows link.place (wrap actions) (wrap others)) :
    Agree link rel machine twin (do let actions ← compiling compile; putFirst (wrap actions))
      (do let actions ← compiling compile; putFirst (wrap actions)) fun _ _ => True :=
  (compiling_agrees twins shifts).bind fun actions others _ _ follows twins _ =>
    .putFirst twins (around actions others follows)

theorem nestedActions_shifts (nodes : List Node) (setting : Compilation.Setting) :
    Compilation.Shifts Eq (nestedActions setting nodes : Compile ω (List Action))
      (nestedActions setting nodes) Follows := by
  induction nodes with
  | nil => exact .pure fun _ => .done
  | cons node rest ih =>
    refine (Compilation.compile_shifts_eq node setting).bind fun _ _ _ => ih.bind fun _ _ _ => ?_
    exact .pure fun _ later early => .append (.next rfl rfl early) later

theorem call_agrees (twins : Twins link rel machine twin) (name : String) (args : List String)
    (body : Node) :
    Agree link rel machine twin (call name args body) (call name args body) fun _ _ => True :=
  putCompiled_agrees twins (Compilation.compile_shifts_eq body) fun _ _ follows =>
    .append (.next rfl rfl follows) (.single rfl rfl)

theorem runNested_agrees (twins : Twins link rel machine twin) (name script : String) :
    Agree link rel machine twin (runNested name script) (runNested name script)
      fun _ _ => True := by
  unfold runNested
  split
  · exact .blind twins (Sandbox.write_blind _)
  · exact putCompiled_agrees twins (nestedActions_shifts _) fun _ _ follows =>
      .append (.next rfl rfl follows) (.single rfl rfl)

theorem nestedShell_agrees (twins : Twins link rel machine twin) (name : String)
    (args : List String) :
    Agree link rel machine twin (nestedShell name args) (nestedShell name args)
      fun _ _ => True := by
  unfold nestedShell
  split
  · exact .pure twins trivial
  · split
    · split
      · exact runNested_agrees twins _ _
      · exact .blind twins (Sandbox.write_blind _)
    · refine .get ?_
      dsimp only
      rw [twins.sandbox.read (fun sandbox => sandbox.files.text? (sandbox.resolve _)) fun _ => rfl]
      split
      · exact runNested_agrees twins _ _
      · exact .blind twins (Sandbox.write_blind _)

omit [Operator ω] in
theorem runKnown_agrees {command : Command ω} (twins : Twins link rel machine twin)
    (respects : command.Respects rel) (args : List String) :
    Agree link rel machine twin (runKnown command args) (runKnown command args)
      fun _ _ => True := by
  obtain ⟨result, sandbox, operator⟩ := respects args _ _ machine.operator twins.sandbox
  refine .get ?_
  rw [twins.operator]
  have ran : Twins link rel
      { machine with
        sandbox := (command args machine.sandbox machine.operator).2.1
        operator := (command args machine.sandbox machine.operator).2.2 }
      { twin with
        sandbox := (command args twin.sandbox machine.operator).2.1
        operator := (command args twin.sandbox machine.operator).2.2 } :=
    ⟨sandbox, twins.slots, twins.commands, twins.limits, operator, twins.host⟩
  refine .storing ran (.still rfl rfl rfl rfl rfl rfl rfl rfl) fun _ _ twins => ?_
  rw [result]
  refine .lift fun printed => ?_
  exact .change twins ((twins.sandbox.change (Sandbox.write_blind printed.output)).change
    (Sandbox.write_blind printed.errors))

omit [Operator ω] in
theorem shell_agrees [Host η] (twins : Twins link rel machine twin) (text : String)
    (forward : Bool) :
    Agree link rel machine twin (modify (Machine.shell text forward))
      (modify (Machine.shell text forward)) fun _ _ => True := by
  have ran : Host.run (twin.sandbox.vars.replaceReferences text)
      (if forward then some twin.sandbox.io.input else none) twin.host =
        Host.run (machine.sandbox.vars.replaceReferences text)
          (if forward then some machine.sandbox.io.input else none) machine.host := by
    rw [twins.sandbox.read (·.vars) fun _ => rfl, twins.sandbox.read (·.io.input) fun _ => rfl,
      twins.host]
  refine .modified ⟨?_, twins.slots, twins.commands, twins.limits, twins.operator, ?_⟩
    (.still rfl rfl rfl rfl rfl rfl rfl rfl)
  · change Sandbox.Alike rel _ (twin.sandbox.write (Host.run _ _ twin.host).1)
    rw [ran]
    exact twins.sandbox.change (Sandbox.write_blind _)
  · exact congrArg Prod.snd ran

theorem leaveToOperator_agrees [Host η] (twins : Twins link rel machine twin) (name : String)
    {parts others : List Node} (line : commandLine others = commandLine parts) :
    Agree link rel machine twin (leaveToOperator name parts) (leaveToOperator name others)
      fun _ _ => True := by
  unfold leaveToOperator
  rw [line]
  refine .get ?_
  rw [twins.operator]
  refine .answered twins fun _ _ twins => ?_
  split
  · exact .pure twins trivial
  · exact shell_agrees twins _ true
  · exact .throw

theorem words_append_extra (vars : Variables) (parts : List Node) (slot : Nat) :
    words vars (parts ++ link.extra slot) = words vars parts := by
  have none : words vars (link.extra slot) = [] := by
    refine List.filterMap_eq_nil_iff.mpr fun part member => ?_
    obtain ⟨_, _, _, rfl⟩ := link.redirects slot part member
    rfl
  rw [words, List.filterMap_append, ← words, ← words, none, List.append_nil]

theorem commandLine_append_extra (parts : List Node) (slot : Nat) :
    commandLine (parts ++ link.extra slot) = commandLine parts := by
  have none : ((link.extra slot).filter fun part => Compilation.isWord part ||
      Compilation.isAssignment part) = [] := by
    refine List.filter_eq_nil_iff.mpr fun part member => ?_
    obtain ⟨_, _, _, rfl⟩ := link.redirects slot part member
    exact Bool.false_ne_true
  rw [commandLine, List.filter_append, none, List.append_nil, commandLine]

theorem runParts_agrees [Host η] (twins : Twins link rel machine twin) (parts : List Node)
    (slot : Nat) (respects : ∀ name command, machine.commands.get? name = some command →
      command.Respects rel) :
    Agree link rel machine twin (runParts parts) (runParts (parts ++ link.extra slot))
      fun _ _ => True := by
  refine .get ?_
  rw [words_append_extra, twins.sandbox.read (·.vars) fun _ => rfl,
    twins.sandbox.read (·.functions) fun _ => rfl, twins.commands]
  split
  · exact .pure twins trivial
  · split
    · exact call_agrees twins _ _ _
    · split
      · exact nestedShell_agrees twins _ _
      · split
        · exact runKnown_agrees twins (respects _ _ ‹_›) _
        · exact leaveToOperator_agrees twins _ (commandLine_append_extra parts slot)

omit [Operator ω] in
theorem assignParts_redirects {parts : List Node}
    (each : ∀ part ∈ parts, ∃ kind target span, part = .redirect kind target span) :
    (assignParts parts : Step ω η Unit) = pure () := by
  induction parts with
  | nil => rfl
  | cons part rest ih =>
    obtain ⟨⟨_, _, _, rfl⟩, later⟩ := List.forall_mem_cons.mp each
    exact ih later

omit [Operator ω] in
theorem assignParts_agrees (twins : Twins link rel machine twin) (parts : List Node)
    (slot : Nat) :
    Agree link rel machine twin (assignParts parts) (assignParts (parts ++ link.extra slot))
      fun _ _ => True := by
  induction parts generalizing machine twin with
  | nil =>
    rw [List.nil_append, assignParts_redirects (link.redirects slot)]
    exact .pure twins trivial
  | cons part rest ih =>
    cases part with
    | assignment text parts span =>
      rw [List.cons_append, assignParts, assignParts]
      split
      · refine (Agree.change twins ?_).bind fun _ _ _ _ _ twins _ => ih twins
        rw [twins.sandbox.read (·.vars) fun _ => rfl]
        exact twins.sandbox.change (Sandbox.assign_blind _ _)
      · exact .throw
    | _ => exact ih twins

omit [Operator ω] in
theorem checkDepth_agrees (twins : Twins link rel machine twin) :
    Agree link rel machine twin checkDepth checkDepth fun _ _ => True := by
  intro _ _ after later done doing
  obtain rfl := checkDepth_eq_ok done
  obtain rfl := checkDepth_eq_ok doing
  exact ⟨trivial, twins, .refl _ _⟩

theorem enterSubstitution_agrees (twins : Twins link rel machine twin) (index word : Nat)
    (part : Span)
    (lowers : ∀ sandbox twin, Sandbox.Alike rel sandbox twin →
      Sandbox.Alike next sandbox.lower twin.lower) :
    Agree link next machine twin (enterSubstitution index word part)
      (enterSubstitution (link.place index) word part) fun _ _ => True := by
  refine (slot_agrees twins index).bind ?_
  rintro parts _ middle between rfl twins _
  cases found : parts[word]? with
  | none => exact .throw
  | some node =>
    have below : word < parts.length := (List.getElem?_eq_some_iff.mp found).1
    rw [List.getElem?_append_left below, found]
    dsimp only [Option.bind_some]
    split
    · exact .throw
    · split
      · exact .throw
      · refine (compiling_agrees twins (Compilation.compile_shifts_eq _)).bind ?_
        intro actions others _ _ follows twins _
        refine (checkDepth_agrees twins).bind fun _ _ _ _ _ twins _ => ?_
        have lowered := (lowers _ _ twins.sandbox).change Sandbox.clearOutput_blind
        refine (Agree.change twins lowered).bind fun _ _ _ _ _ twins _ => ?_
        exact .putFirst twins follows

omit [Operator ω] in
theorem leaveSubstitution_agrees (twins : Twins link rel machine twin) (index word : Nat)
    (part : Span)
    (raises : ∀ sandbox twin, Sandbox.Alike rel sandbox twin → twin.screen = sandbox.screen ∧
      Sandbox.Alike next { sandbox with screen := "" }.raise { twin with screen := "" }.raise) :
    Agree link next machine twin (leaveSubstitution index word part)
      (leaveSubstitution (link.place index) word part) fun _ _ => True := by
  have captured : twin.sandbox.captured = machine.sandbox.captured := by
    rw [Sandbox.captured, Sandbox.captured, (raises _ _ twins.sandbox).1,
      twins.sandbox.read (·.io.output) fun _ => rfl]
  refine .get ?_
  rw [captured]
  have raised := (raises _ _ (twins.sandbox.change Sandbox.clearOutput_blind)).2
  refine (Agree.change twins raised).bind fun _ _ middle between _ twins _ => .get ?_
  cases held : middle.slots[index]? with
  | none => exact .throw
  | some parts =>
    rw [twins.slots.held _ _ held, Option.bind_some, Option.bind_some]
    cases found : parts[word]? with
    | none => exact .throw
    | some node =>
      have below : word < parts.length := (List.getElem?_eq_some_iff.mp found).1
      rw [List.getElem?_append_left below, found]
      refine .lift fun spliced => ?_
      refine .stored ⟨twins.sandbox, ?_, twins.commands, twins.limits, twins.operator, twins.host⟩
        (.still rfl rfl rfl rfl rfl rfl rfl rfl)
      rw [List.set_append_left _ _ below]
      obtain ⟨present, same⟩ := Array.getElem?_eq_some_iff.mp held
      exact twins.slots.set present (by rw [List.length_set, same])

theorem decideCondition_agrees (twins : Twins link rel machine twin) (condition : String)
    (node : Node) :
    Agree link rel machine twin (decideCondition condition node) (decideCondition condition node)
      fun _ _ => True := by
  refine .get ?_
  rw [twins.sandbox.read (·.truth? condition) fun _ => rfl, twins.operator]
  split
  · refine .answered twins fun _ _ twins => ?_
    split
    · exact .blind twins fun _ _ => rfl
    · exact .blind twins fun _ _ => rfl
    · exact putCompiled_agrees twins (Compilation.compile_shifts_eq _) fun _ _ follows =>
        .append (.next rfl rfl follows) (.looking rfl rfl rfl .done)
  · exact .pure twins trivial

theorem chooseBody_agrees (twins : Twins link rel machine twin) (condition : Option String)
    (earlier : List String) (body : Node) :
    Agree link rel machine twin (chooseBody condition earlier body)
      (chooseBody condition earlier body) fun _ _ => True := by
  refine .get ?_
  rw [twins.sandbox.read (isChosen · condition earlier) fun _ => rfl]
  split
  · exact putCompiled_agrees twins (Compilation.compile_shifts_eq _) fun _ _ follows =>
      .append (.next rfl rfl follows) (.single rfl rfl)
  · exact .pure twins trivial

omit [Operator ω] in
theorem separate_agrees (twins : Twins link rel machine twin) (op : String) :
    Agree link rel machine twin (separate op) (separate op) fun _ _ => True := by
  refine .get ?_
  dsimp only
  rw [twins.sandbox.read (·.io.read) fun _ => rfl]
  refine (Agree.blind twins fun _ _ => rfl).bind fun _ _ _ _ _ twins _ => .get ?_
  refine .lifts fun _ _ _ _ => .modified ?_ (.still rfl rfl rfl rfl rfl rfl rfl rfl)
  exact ⟨twins.sandbox, twins.slots, twins.commands, twins.limits, twins.operator, twins.host⟩

omit [Operator ω] in
theorem writeRedirect_agrees {path : String} {append : Bool} (twins : Twins link rel machine twin)
    (screens : twin.sandbox.screen = machine.sandbox.screen) :
    Agree link rel machine twin (writeRedirect path append) (writeRedirect path append)
      fun _ _ => True := by
  have captured : twin.sandbox.captured = machine.sandbox.captured := by
    rw [Sandbox.captured, Sandbox.captured, screens, twins.sandbox.read (·.io.output) fun _ => rfl]
  have blind : Sandbox.Blind fun sandbox => { sandbox with
      files := if append then sandbox.files.append path machine.sandbox.captured
        else sandbox.files.write path machine.sandbox.captured } := fun _ _ => rfl
  refine .change twins ?_
  rw [captured]
  exact twins.sandbox.change blind

omit [Operator ω] in
theorem judgeOutput_agrees {condition : String} (twins : Twins link rel machine twin)
    (screens : twin.sandbox.screen = machine.sandbox.screen) :
    Agree link rel machine twin (Machine.change (judgeOutput condition))
      (Machine.change (judgeOutput condition)) fun _ _ => True := by
  refine .change twins ?_
  rw [judgeOutput, judgeOutput, screens, twins.sandbox.read (·.io.output) fun _ => rfl]
  exact (twins.sandbox.change (Sandbox.withTruth_blind _ _)).change Sandbox.clearOutput_blind

/-- What an operation does to a machine it does in its own slots to the twin. -/
theorem execute_agrees [Host η] {operation : Operation} (twins : Twins link rel machine twin)
    (additive : Sandbox.Additive rel) (carries : Sandbox.Carries rel next operation)
    (respects : ∀ name command, machine.commands.get? name = some command →
      command.Respects rel) :
    Agree link next machine twin (execute operation) (execute (operation.moved link.place))
      fun _ _ => True := by
  have flushed := twins.sandbox.flush additive
  cases operation with
  | resetIo =>
    cases carries
    exact .blind twins fun _ _ => rfl
  | cleanUp =>
    cases carries
    exact .change twins (flushed.change fun _ _ => rfl)
  | flush =>
    cases carries
    exact .change twins flushed
  | pipe =>
    cases carries
    exact .blind twins fun _ _ => rfl
  | separator op =>
    cases carries
    exact separate_agrees twins op
  | beginCapture | endCapture => exact .change twins (carries _ _ twins.sandbox)
  | readRedirect index place =>
    cases carries
    refine (redirectPath_agrees twins index place).bind ?_
    rintro path _ _ _ rfl twins _
    exact readRedirect_agrees twins _
  | writeRedirect index place append =>
    obtain ⟨rfl, screens⟩ := carries
    refine (redirectPath_agrees twins index place).bind ?_
    rintro path _ _ _ rfl twins _
    exact writeRedirect_agrees twins (screens _ _ twins.sandbox.view)
  | bindLoop name value =>
    cases carries
    exact .blind twins fun _ _ => rfl
  | unbindLoop name =>
    cases carries
    exact .blind twins fun _ _ => rfl
  | run index =>
    cases carries
    refine (slot_agrees twins index).bind ?_
    rintro parts _ middle _ rfl twins same
    exact runParts_agrees twins parts index (same ▸ respects)
  | assign index =>
    cases carries
    refine (slot_agrees twins index).bind ?_
    rintro parts _ _ _ rfl twins _
    exact assignParts_agrees twins parts index
  | enterSubstitution index word part =>
    exact enterSubstitution_agrees twins index word part carries
  | leaveSubstitution index word part =>
    exact leaveSubstitution_agrees twins index word part carries
  | decide condition node =>
    cases carries
    exact decideCondition_agrees twins condition node
  | judge condition =>
    obtain ⟨rfl, screens⟩ := carries
    exact judgeOutput_agrees twins (screens _ _ twins.sandbox.view)
  | choose condition earlier body =>
    cases carries
    exact chooseBody_agrees twins condition earlier body
  | lower =>
    exact (checkDepth_agrees twins).bind fun _ _ _ _ _ twins _ =>
      .change twins (carries _ _ twins.sandbox)
  | enterFunction name args =>
    have called : Sandbox.Blind fun sandbox => { sandbox with vars := sandbox.vars.call args } :=
      fun _ _ => rfl
    exact (checkDepth_agrees twins).bind fun _ _ _ _ _ twins _ =>
      .change twins ((carries _ _ twins.sandbox).change called)
  | enterSubshell =>
    have moved : Sandbox.Blind fun sandbox =>
        { sandbox with io := Socket.empty 0, workingDir := sandbox.startingDir } := fun _ _ => rfl
    exact (checkDepth_agrees twins).bind fun _ _ _ _ _ twins _ =>
      .change twins ((carries _ _ twins.sandbox).change moved)
  | raise | leaveFunction => exact .change twins (carries _ _ flushed)
  | nothing =>
    cases carries
    exact .pure twins trivial

end

end

section
variable [Operator ω] [Host η]

omit [Operator ω] [Host η] in
theorem Twins.refl (machine : Machine ω η) : Twins Link.none Eq machine machine :=
  ⟨Sandbox.alike_eq _, Link.none_joins _, rfl, rfl, rfl, rfl⟩

/-- Whatever an operation is, it leaves what was pending behind what it puts first. -/
theorem execute_frame {operation : Operation} {machine after : Machine ω η} {value : Unit}
    (done : (execute operation).run machine = (.ok value, after)) :
    after.commands = machine.commands ∧ after.limits = machine.limits ∧
      after.ticks = machine.ticks ∧ ∃ first, after.pending = first ++ machine.pending := by
  have doing := done
  rw [← operation.moved_id] at doing
  obtain ⟨_, _, beside⟩ := execute_agrees (Twins.refl machine) Sandbox.additive_eq
    (Sandbox.carries_eq operation) (fun _ command _ => command.respects_eq) _ _ _ _ done doing
  obtain ⟨first, _, put, _⟩ := beside.pending
  exact ⟨beside.commands.1, beside.limits.1, beside.ticks.1, first, put⟩

end

end Machine

end StepShell

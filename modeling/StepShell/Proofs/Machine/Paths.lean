import StepShell.Proofs.Command.Paths
import StepShell.Proofs.Machine.Bounds

/-! The paths that a machine comes to hold. An action makes new ones only of names seen from the
working directory, so all stay canonical until a name strays. -/

namespace StepShell.Machine

open Sandbox

variable {ω η α : Type} {origin : Sandbox} {before : Machine ω η}

/-- The sandbox holds no path but those of the origin, home, and where names lead from there. -/
def Led (origin : Sandbox) (machine : Machine ω η) : Prop :=
  origin.Leads machine.sandbox

theorem change_led {alter : Sandbox → Sandbox}
    (held : ∀ path, (alter before.sandbox).Holds path → before.sandbox.Holds path) :
    Preserves (Led origin) before (change alter) :=
  .modify fun led => led.within held

theorem slot_led {index : Nat} : Preserves (Led origin) before (slot index) := by
  refine .get ?_
  split
  · exact .pure
  · exact .throw

theorem putFirst_led {actions : List Action} : Preserves (Led origin) before (putFirst actions) :=
  .modify id

theorem compiling_led {compile : Compilation.Setting → Compile ω α} :
    Preserves (Led origin) before (compiling compile) :=
  id

theorem compiled_led {compile : Compilation.Setting → Compile ω (List Action)}
    {block : List Action → List Action} :
    Preserves (Led origin) before (do
      let actions ← compiling compile
      putFirst (block actions)) :=
  .bind compiling_led fun _ _ _ => putFirst_led

theorem flush_holds (sandbox : Sandbox) {path : String} (held : sandbox.flush.Holds path) :
    sandbox.Holds path := by
  unfold flush at held
  split at held <;> exact held

/-- A scope is raised to where it was lowered. -/
theorem raise_holds (sandbox : Sandbox) {path : String} (held : sandbox.raise.Holds path) :
    sandbox.Holds path := by
  unfold raise at held
  split at held
  · exact held
  · rename_i scope scopes lowered
    rcases held with here | start | ⟨outer, among, same⟩ | file
    · exact .inr (.inr (.inl ⟨scope, lowered ▸ List.mem_cons_self, here⟩))
    · exact .inr (.inl start)
    · exact .inr (.inr (.inl ⟨outer, lowered ▸ List.mem_cons_of_mem _ among, same⟩))
    · exact .inr (.inr (.inr file))

theorem lower_holds {sandbox after : Sandbox} {path : String} (held : after.Holds path)
    (here : after.workingDir = sandbox.workingDir ∨ after.workingDir = sandbox.startingDir)
    (start : after.startingDir = sandbox.startingDir)
    (scopes : after.scopes = sandbox.lower.scopes) (files : after.files = sandbox.files) :
    sandbox.Holds path := by
  rcases held with rfl | same | ⟨scope, among, same⟩ | file
  · rcases here with here | start
    · exact .inl here
    · exact .inr (.inl start)
  · exact .inr (.inl (same.trans start))
  · rw [scopes] at among
    rcases List.mem_cons.mp among with rfl | outer
    · exact .inl same
    · exact .inr (.inr (.inl ⟨scope, outer, same⟩))
  · rw [files] at file
    exact .inr (.inr (.inr file))

theorem checkDepth_led : Preserves (Led origin) before checkDepth :=
  .get .lift

theorem separate_led {op : String} : Preserves (Led origin) before (separate op) :=
  .get (.bind (change_led fun _ => id) fun _ _ _ => .get (.bind .lift fun _ _ _ => .modify id))

theorem redirectPath_led {index place : Nat} :
    Preserves (Led origin) before (redirectPath index place) := by
  refine .bind slot_led fun _ _ _ => ?_
  split
  · exact .get .pure
  · exact .throw
  · exact .throw

theorem redirectPath_resolves {index place : Nat} {path : String} {after : Machine ω η}
    (done : (redirectPath index place : Step ω η String).run before = (.ok path, after)) :
    after = before ∧ ∃ name, path = before.sandbox.resolve name := by
  obtain ⟨parts, middle, found, onward⟩ := run_bind_eq_ok.mp done
  obtain ⟨-, rfl⟩ := slot_eq_ok found
  split at onward
  · obtain ⟨sandbox, middle, got, resolved⟩ := run_bind_eq_ok.mp onward
    obtain ⟨rfl, rfl⟩ := run_get_eq_ok.mp got
    obtain ⟨rfl, rfl⟩ := run_pure_eq_ok.mp resolved
    exact ⟨rfl, _, rfl⟩
  · exact absurd onward run_throw_eq_ok
  · exact absurd onward run_throw_eq_ok

theorem writeRedirect_led {path : String} {append : Bool}
    (resolved : ∃ name, path = before.sandbox.resolve name) :
    Preserves (Led before.sandbox) before (writeRedirect path append) := by
  obtain ⟨name, rfl⟩ := resolved
  refine .modify fun _ => Roams.leads (.putFile name fun other different => ?_)
  split
  · rw [FileTable.get?_append, if_neg different]
  · rw [FileTable.get?_write, if_neg different]

section
variable [Operator ω]

theorem readRedirect_led {path : String} : Preserves (Led origin) before (readRedirect path) := by
  refine .get ?_
  split
  · exact change_led fun _ => id
  · exact .bind (.set id) fun _ _ _ => change_led fun _ => id

theorem runNested_led {name script : String} :
    Preserves (Led origin) before (runNested name script) := by
  unfold runNested
  split
  · exact change_led fun _ => id
  · exact compiled_led

theorem nestedShell_led {name : String} {args : List String} :
    Preserves (Led origin) before (nestedShell name args) := by
  unfold nestedShell
  split
  · exact .pure
  · split
    · split
      · exact runNested_led
      · exact change_led fun _ => id
    · refine .get ?_
      dsimp only
      split
      · exact runNested_led
      · exact change_led fun _ => id

omit [Operator ω] in
theorem runKnown_led {command : Command ω} {args : List String}
    (leads : before.sandbox.Leads (command args before.sandbox before.operator).2.1) :
    Preserves (Led before.sandbox) before (runKnown command args) :=
  .get (.bind (.set fun _ => leads) fun _ _ _ => .bind .lift fun _ _ _ => change_led fun _ => id)

variable [Host η]

theorem leaveToOperator_led {name : String} {parts : List Node} :
    Preserves (Led origin) before (leaveToOperator name parts) := by
  refine .get (.bind (.set id) fun _ _ _ => ?_)
  split
  · exact .pure
  · exact .modify id
  · exact .throw

theorem runParts_led {parts : List Node} (commands : before.commands = Command.standard) :
    Preserves (Led before.sandbox) before (runParts parts) := by
  refine .get ?_
  split
  · exact .pure
  · split
    · exact compiled_led
    · split
      · exact nestedShell_led
      · split
        · rename_i known
          rw [commands] at known
          exact runKnown_led (Command.standard_leads known _ _ _)
        · exact leaveToOperator_led

omit [Operator ω] [Host η] in
theorem assignParts_led {parts : List Node} :
    Preserves (Led origin) before (assignParts parts) := by
  induction parts generalizing before with
  | nil => exact .pure
  | cons part rest ih =>
    cases part with
    | assignment text inner span =>
      unfold assignParts
      split
      · exact .bind (change_led fun _ => id) fun _ _ _ => ih
      · exact .throw
    | _ => exact ih

omit [Host η] in
theorem enterSubstitution_led {index word : Nat} {part : Span} :
    Preserves (Led origin) before (enterSubstitution index word part) := by
  refine .bind slot_led fun _ _ _ => ?_
  dsimp only
  split
  · exact .throw
  · split
    · exact .throw
    · refine .bind compiling_led fun _ _ _ => .bind checkDepth_led fun _ _ _ => ?_
      refine .bind (change_led fun _ held => ?_) fun _ _ _ => putFirst_led
      exact lower_holds held (.inl rfl) rfl rfl rfl

omit [Operator ω] [Host η] in
theorem leaveSubstitution_led {index word : Nat} {part : Span} :
    Preserves (Led origin) before (leaveSubstitution index word part) := by
  refine .get (.bind (change_led fun _ held => ?_) fun _ _ _ => .get ?_)
  · exact raise_holds { before.sandbox.clearOutput with screen := "" } held
  · split
    · refine .bind .lift fun _ _ lifted => .set fun led => ?_
      obtain ⟨-, rfl⟩ := run_lift_eq_ok.mp lifted
      exact led
    · exact .throw

omit [Host η] in
theorem decideCondition_led {condition : String} {node : Node} :
    Preserves (Led origin) before (decideCondition condition node) := by
  refine .get ?_
  split
  · refine .bind (.set id) fun _ _ _ => ?_
    split
    · exact change_led fun _ => id
    · exact change_led fun _ => id
    · exact compiled_led
  · exact .pure

omit [Host η] in
theorem chooseBody_led {condition : Option String} {earlier : List String} {body : Node} :
    Preserves (Led origin) before (chooseBody condition earlier body) := by
  refine .get ?_
  split
  · exact compiled_led
  · exact .pure

/-- Whatever becomes of an operation, each path that is new afterwards is home or where a name leads
from the directory before it. -/
theorem execute_led (operation : Operation) (commands : before.commands = Command.standard) :
    Preserves (Led before.sandbox) before (execute operation) := by
  cases operation with
  | cleanUp | flush => exact change_led fun _ held => flush_holds _ held
  | separator op => exact separate_led
  | endCapture =>
    refine change_led fun path held => ?_
    unfold endCapture at held
    split at held <;> exact held
  | readRedirect index place => exact .bind redirectPath_led fun _ _ _ => readRedirect_led
  | writeRedirect index place append =>
    refine .bind redirectPath_led fun path middle done => ?_
    obtain ⟨rfl, resolved⟩ := redirectPath_resolves done
    exact writeRedirect_led resolved
  | run index =>
    refine .bind slot_led fun parts middle found => ?_
    obtain ⟨-, rfl⟩ := slot_eq_ok found
    exact runParts_led commands
  | assign index => exact .bind slot_led fun _ _ _ => assignParts_led
  | enterSubstitution index word part => exact enterSubstitution_led
  | leaveSubstitution index word part => exact leaveSubstitution_led
  | decide condition node => exact decideCondition_led
  | choose condition earlier body => exact chooseBody_led
  | lower | enterFunction =>
    refine .bind checkDepth_led fun _ _ _ => change_led fun _ held => ?_
    exact lower_holds held (.inl rfl) rfl rfl rfl
  | enterSubshell =>
    refine .bind checkDepth_led fun _ _ _ => change_led fun _ held => ?_
    exact lower_holds held (.inr rfl) rfl rfl rfl
  | raise | leaveFunction =>
    exact change_led fun _ held => flush_holds _ (raise_holds _ held)
  | nothing => exact .pure
  | resetIo | pipe | beginCapture | bindLoop | unbindLoop | judge => exact change_led fun _ => id

/-- The next action takes a path from a name that strays. -/
def Errs (machine : Machine ω η) : Prop :=
  ∃ name, Path.Strays machine.sandbox.workingDir name ∧
    (inch.run machine).2.sandbox.Holds (machine.sandbox.resolve name)

variable {machine after : Machine ω η}

/-- The machine knows its commands, and of paths no more than the origin leads to. -/
structure Traced (origin : Sandbox) (machine : Machine ω η) : Prop where
  commands : machine.commands = Command.standard
  led : Led origin machine

omit [Host η] in
theorem Traced.settle (traced : Traced origin machine) : Traced origin machine.settle := by
  unfold Machine.settle
  split
  · exact ⟨traced.commands, traced.led⟩
  · exact traced

theorem execute_traced (operation : Operation) (machine : Machine ω η)
    (commands : machine.commands = Command.standard) :
    Traced machine.sandbox ((execute operation).run machine).2 := by
  refine ⟨?_, execute_led operation commands (Leads.refl _)⟩
  obtain ⟨first, middle, retains, left, -⟩ := execute_retains operation machine
  rw [left]
  exact retains.commands.trans commands

theorem Inched.traced {result : Except Failure Bool} (inched : Inched machine result after)
    (commands : machine.commands = Command.standard) : Traced machine.sandbox after := by
  have started : ∀ (action : Action) (rest : List Action), Traced machine.sandbox
      ((execute action.operation).run
        { machine with pending := rest, ticks := machine.ticks + 1 }).2 :=
    fun action rest => execute_traced action.operation
      { machine with pending := rest, ticks := machine.ticks + 1 } commands
  cases inched with
  | idle => exact ⟨commands, .refl _⟩
  | refused => exact ⟨commands, .refl _⟩
  | @executed action rest after pending allowed ran =>
    have kept := started action rest
    rw [ran] at kept
    exact kept.settle
  | @failed action rest failure after pending allowed ran =>
    have kept := started action rest
    rw [ran] at kept
    exact kept.settle

/-- One action keeps all paths canonical, unless it takes one from a name that strays. -/
theorem inch_canonical_iff (commands : machine.commands = Command.standard)
    (canonical : machine.sandbox.Canonical) :
    (inch.run machine).2.sandbox.Canonical ↔ ¬ machine.Errs := by
  have resolved := Path.canonical_resolve_iff (canonical _ (.inl rfl))
  constructor
  · rintro kept ⟨name, strays, held⟩
    exact (resolved name).mp (kept _ held) strays
  · intro errs path held
    rcases ((inch_inched machine).traced commands).led path held with before | rfl | ⟨name, rfl⟩
    · exact canonical path before
    · decide
    · exact (resolved name).mpr fun strays => errs ⟨name, strays, held⟩

end

section
variable [Operator ω] [Host η] {start moment after : Machine ω η}

/-- A moment of a run at which all paths are canonical, or which comes after an action that took one
from a name that strays, the first that did. -/
structure Accounted (start moment : Machine ω η) : Prop where
  passes : Passes start moment
  commands : moment.commands = Command.standard
  canonical : moment.sandbox.Canonical ∨ ∃ earlier, Passes start earlier ∧
    earlier.sandbox.Canonical ∧ earlier.Errs ∧ Passes (inch.run earlier).2 moment

theorem Accounted.inch (accounted : Accounted start moment) :
    Accounted start (inch.run moment).2 := by
  have commands := accounted.commands
  refine ⟨.inched accounted.passes, ((inch_inched moment).traced commands).commands, ?_⟩
  rcases accounted.canonical with canonical | ⟨earlier, passed, canonical, errs, onward⟩
  · by_cases errs : moment.Errs
    · exact .inr ⟨moment, accounted.passes, canonical, errs, .start⟩
    · exact .inl ((inch_canonical_iff commands canonical).mpr errs)
  · exact .inr ⟨earlier, passed, canonical, errs, .inched onward⟩

theorem Accounted.loops {executed : List Action} {result : Except Failure Unit}
    (accounted : Accounted start moment) (loops : Loops moment executed result after) :
    Accounted start after := by
  induction loops with
  | ends inched =>
    have next := accounted.inch
    rwa [inched] at next
  | fails inched =>
    have next := accounted.inch
    rwa [inched] at next
  | goes inched _ ih =>
    have next := accounted.inch
    rw [inched] at next
    exact ih next

/-- What changes no path leaves the account as it is. -/
theorem Accounted.aside (accounted : Accounted start moment)
    (commands : after.commands = moment.commands)
    (held : ∀ path, after.sandbox.Holds path → moment.sandbox.Holds path)
    (passes : ∀ {start : Machine ω η}, Passes start moment → Passes start after) :
    Accounted start after := by
  refine ⟨passes accounted.passes, commands.trans accounted.commands, ?_⟩
  rcases accounted.canonical with canonical | ⟨earlier, passed, canonical, errs, onward⟩
  · exact .inl fun path holds => canonical path (held path holds)
  · exact .inr ⟨earlier, passed, canonical, errs, passes onward⟩

theorem Accounted.build (accounted : Accounted start moment) (node : Node) (append : Bool) :
    Accounted start ((build node append).run moment).2 := by
  refine accounted.aside ?_ ?_ (.built node append)
  all_goals rcases built : (Machine.build node append).run moment with ⟨failure | value, after⟩
  · obtain ⟨compiled, _, rfl⟩ := build_eq_error built
    rfl
  · obtain ⟨actions, compiled, _, rfl⟩ := build_eq_ok built
    rfl
  · obtain ⟨compiled, _, rfl⟩ := build_eq_error built
    exact fun _ => id
  · obtain ⟨actions, compiled, _, rfl⟩ := build_eq_ok built
    exact fun _ => id

theorem Accounted.drain (accounted : Accounted start moment) :
    Accounted start (drain.run moment).2 := by
  obtain ⟨executed, loops, -⟩ := drain_loops moment
  have counting : Accounted start { moment with ticks := 0 } :=
    accounted.aside rfl (fun _ => id) .draining
  exact counting.loops loops

theorem Accounted.run (accounted : Accounted start moment) (node : Node) :
    Accounted start ((run node).run moment).2 := by
  have built := accounted.build node false
  rcases made : (Machine.build node false).run moment with ⟨failure | value, middle⟩
  · rw [made] at built
    rw [Machine.run, run_bind_of_error made]
    exact built
  · rw [made] at built
    rw [Machine.run, run_bind_of_ok made]
    exact built.drain

theorem Passes.accounted (passes : Passes start moment)
    (commands : start.commands = Command.standard) (canonical : start.sandbox.Canonical) :
    Accounted start moment := by
  induction passes with
  | start => exact ⟨.start, commands, .inl canonical⟩
  | built node append _ ih => exact ih.build node append
  | inched _ ih => exact ih.inch
  | draining _ ih => exact ih.aside rfl (fun _ => id) .draining
  | drained _ ih => exact ih.drain
  | ran node _ ih => exact ih.run node

/-- Every path that a name resolves to is the canonical one below the root that it is seen from, but
where a `..` takes back a root that is a tilde with more behind it. A canonical path is its own, and
what leads nowhere makes no difference. Over a run all paths that a sandbox holds stay canonical, up
to the first action that takes one from a name that strays. -/
theorem paths_canonical :
    (∀ directory, Path.Canonical directory → ∀ name,
      Path.Canonical (Path.rooted directory name) ∧
      (Path.resolve directory name = Path.rooted directory name ↔ ¬ Path.Loses directory name) ∧
      (Path.Canonical (Path.resolve directory name) ↔ ¬ Path.Strays directory name)) ∧
    (∀ directory path, Path.Canonical path → Path.resolve directory path = path) ∧
    (∀ directory front back idle : String, Path.Idle idle.toList →
      Path.resolve directory (front ++ "/" ++ idle ++ back) =
        Path.resolve directory (front ++ "/" ++ back)) ∧
    ∀ start moment : Machine ω η, start.commands = Command.standard → start.sandbox.Canonical →
      Passes start moment →
      (moment.sandbox.Canonical → ((inch.run moment).2.sandbox.Canonical ↔ ¬ moment.Errs)) ∧
      (moment.sandbox.Canonical ∨ ∃ earlier, Passes start earlier ∧ earlier.sandbox.Canonical ∧
        earlier.Errs ∧ Passes (inch.run earlier).2 moment) := by
  refine ⟨fun directory canonical name => ⟨Path.canonical_rooted canonical name,
    Path.resolve_eq_rooted_iff canonical name, Path.canonical_resolve_iff canonical name⟩,
    fun directory path canonical => Path.resolve_of_canonical canonical directory,
    fun directory front back idle leads => Path.resolve_insert leads directory front back,
    fun start moment commands canonical passes => ?_⟩
  have accounted := passes.accounted commands canonical
  exact ⟨inch_canonical_iff accounted.commands, accounted.canonical⟩

end

/-- A `..` takes back a root that is a tilde with more behind it, as it takes back no other. -/
theorem tilde_taken_back :
    Path.Canonical "~" ∧ Path.resolve "~" "~a/../b" = "b" ∧ Path.resolve "~" "~a/.." = "" ∧
      ¬ Path.Canonical (Path.resolve "~" "~a/../b") ∧
      Path.rooted "~" "~a/../b" = "~a/b" ∧ Path.resolve "~" "~/../b" = "~/b" ∧
      Path.resolve "~" "/../b" = "/b" := by
  decide +kernel

/-- A directory and a file below such a root keep it, and going back up from there loses it. -/
theorem paths_canonical_left :
    let start : Machine Absent Disabled := create .empty Command.standard {} {} {}
    let enters := (Script.nodes "cd ~a//b/.").headD default
    let creates := (Script.nodes "touch x/../c").headD default
    let leaves := (Script.nodes "cd ../..").headD default
    let below := ((run creates).run ((run enters).run start).2).2
    let moment := (inch.run ((build leaves false).run below).2).2
    start.commands = Command.standard ∧ start.sandbox.Canonical ∧ Passes start moment ∧
      moment.sandbox.workingDir = "~a/b" ∧ moment.sandbox.files.contains "~a/b/c" ∧
      moment.sandbox.Canonical ∧ moment.Errs ∧
      Path.Canonical (Path.resolve "~a/b" "./c//") ∧ Path.resolve "/" "~a/b" = "~a/b" ∧
      Path.resolve "~a/b" (".." ++ "/" ++ "x/../" ++ "y") =
        Path.resolve "~a/b" (".." ++ "/" ++ "y") := by
  intro start enters creates leaves below moment
  obtain ⟨resolves, fixed, inserts, runs⟩ := paths_canonical (ω := Absent) (η := Disabled)
  have canonical : start.sandbox.Canonical := by decide
  have passes : Passes start moment :=
    .inched (.built leaves false (.ran creates (.ran enters .start)))
  have here : moment.sandbox.workingDir = "~a/b" ∧ moment.sandbox.files.contains "~a/b/c" ∧
      moment.sandbox.Canonical ∧ ¬ (inch.run moment).2.sandbox.Canonical := by
    decide +kernel
  obtain ⟨directory, file, kept, lost⟩ := here
  have errs : moment.Errs :=
    not_not.mp fun errs => lost (((runs start moment rfl canonical passes).1 kept).mpr errs)
  have root : Path.Canonical "~a/b" := by decide
  have whole : Path.resolve "~a/b" "./c//" = Path.rooted "~a/b" "./c//" := by decide
  obtain ⟨rooted, same, -⟩ := resolves "~a/b" root "./c//"
  refine ⟨rfl, canonical, passes, directory, file, kept, errs, ?_, fixed "/" "~a/b" root, ?_⟩
  · rwa [whole]
  · have back : Path.Idle (['x'] ++ ['/', '.', '.', '/']) := .back (by decide) (by decide)
    exact inserts "~a/b" ".." "y" "x/../" back

end StepShell.Machine

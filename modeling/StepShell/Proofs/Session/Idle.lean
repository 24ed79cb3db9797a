import StepShell.Proofs.Machine.Driven
import StepShell.Proofs.Machine.Leftover
import StepShell.Proofs.Session.Undoing

/-! Sessions with nothing pending. As many scopes and captures are open in them as were left open
when actions were last taken away without being executed, and none if that never happened. -/

namespace StepShell

namespace Session

variable {ω η : Type}

/-- Whether the request is to build commands in place of what is pending. -/
def replaces (session : Session ω η) : Request → Bool
  | .run text flags =>
    !(flags.inch && (Text.trim text).isEmpty) && !(Script.nodes text).isEmpty
  | .build text append =>
    !append && !(Text.trim text).isEmpty && !(Script.nodes text).isEmpty
  | .buildNext append => !append && session.program[session.cursor]?.isSome
  | _ => false

/-- How many brackets are to be left open after a request, when so many were before. Only what takes
actions away without executing them changes that. -/
def owing (session : Session ω η) (owed : Bracket → Nat) : Request → Bracket → Nat
  | .inch count true => fun bracket =>
    leftOpen bracket (session.machine.pending.drop count) (session.sandbox.opened bracket)
  | request => if session.replaces request then session.sandbox.opened else owed

/-- How many brackets are open in what a request records. The next nodes of a program are recorded
when nothing is pending, whatever is run in their place at once. -/
def recorded (session : Session ω η) (owed : Bracket → Nat) : Request → Bracket → Nat
  | .run .. | .save _ => session.sandbox.opened
  | _ => owed

/-- The session was created on the standard commands with nothing open, and all that it was asked
for since then was done. It owes as many open brackets as this, and will owe again as many as these
when it takes back its records, the newest first. -/
inductive Reached [Operator ω] [Host η] :
    (Bracket → Nat) → List (Bracket → Nat) → Session ω η → Prop where
  | created {sandbox : Sandbox} {limits : Limits} {operator : ω} {host : η}
      (given : sandbox.Given) (scopes : sandbox.scopes = []) (captures : sandbox.captures = []) :
      Reached (fun _ => 0) []
        (create (Machine.create sandbox Command.standard limits operator host))
  | asked {owed : Bracket → Nat} {records : List (Bracket → Nat)} {before after : Session ω η}
      {request : Request} {outcome : Outcome} (reached : Reached owed records before)
      (done : (perform request).run before = (.ok outcome, after)) :
      Reached (before.owing owed request)
        (List.replicate (after.history.size - before.history.size) (before.recorded owed request) ++
          records) after
  | undid {owed : Bracket → Nat} {records : List (Bracket → Nat)} {before : Session ω η}
      (reached : Reached owed records before) :
      Reached (records.headD fun _ => 0) records.tail before.undo.2
  | reset {owed : Bracket → Nat} {records : List (Bracket → Nat)} {before : Session ω η}
      (reached : Reached owed records before) : Reached (fun _ => 0) [] before.reset.2

section
variable [Operator ω]

/-- What is pending will find what it looks for and leaves so many brackets open, and the program is
one of parsed scripts. -/
structure Owes (origin : Sandbox) (owed : Bracket → Nat) (session : Session ω η) : Prop where
  machine : session.machine.Hale origin
  program : ∀ node ∈ session.program, Formed .command node
  left : ∀ bracket, session.machine.leftOpen bracket = owed bracket

variable {α : Type} {origin : Sandbox} {owed : Bracket → Nat} {before : Session ω η}

/-- Nothing is pending, so what is to be left open is open. -/
theorem Owes.opened (owes : Owes origin owed before) (idle : before.machine.pending = [])
    (bracket : Bracket) : before.sandbox.opened bracket = owed bracket := by
  have left := owes.left bracket
  rw [Machine.leftOpen, idle] at left
  exact left

theorem Owes.recordStep (owes : Owes origin owed before) (asked : Bool) (action : String) :
    Owes origin owed (before.recordStep asked action) := by
  unfold Session.recordStep
  split
  · exact ⟨owes.machine, owes.program, owes.left⟩
  · exact owes

omit [Operator ω] in
theorem recordStep_machine (session : Session ω η) (asked : Bool) (action : String) :
    (session.recordStep asked action).machine = session.machine := by
  unfold Session.recordStep
  split <;> rfl

omit [Operator ω] in
theorem stepping_attains {step : Step ω η α} {holds : Session ω η → Prop}
    (machine : ∀ value after, step.run before.machine = (.ok value, after) →
      holds { before with machine := after }) : Attains before (stepping step) holds := by
  intro value after done
  rcases ran : step.run before.machine with ⟨result, stepped⟩
  have same : (stepping step).run before = (result, { before with machine := stepped }) := by
    unfold stepping
    rw [ExceptT.run_mk, ran]
  cases same.symm.trans done
  exact machine _ _ ran

theorem build_attains {node : Node} {append : Bool} (owes : Owes origin owed before)
    (formed : Formed .command node) : Attains before (stepping (Machine.build node append))
      (Owes origin (if append then owed else before.sandbox.opened)) := by
  refine stepping_attains fun _ built done => ?_
  obtain ⟨hale, left⟩ := owes.machine.build formed done
  refine ⟨hale, owes.program, fun bracket => ?_⟩
  rw [left]
  cases append
  · rfl
  · exact owes.left bracket

theorem buildAll_attains {nodes : List Node} {append : Bool} (owes : Owes origin owed before)
    (each : ∀ node ∈ nodes, Formed .command node) : Attains before (buildAll append nodes)
      (Owes origin (if append || nodes.isEmpty then owed else before.sandbox.opened)) := by
  induction nodes generalizing append before owed with
  | nil => exact .pure (by rwa [List.isEmpty_nil, Bool.or_true])
  | cons node rest ih =>
    obtain ⟨first, later⟩ := List.forall_mem_cons.mp each
    refine .bind (build_attains owes first) fun _ built onward => ?_
    rw [List.isEmpty_cons, Bool.or_false]
    exact ih onward later

/-- Commands of a text that are built after what is pending leave nothing more open, and neither
does a text without any. -/
theorem buildText_attains (owes : Owes origin owed before) (text : String) (append : Bool) :
    Attains before (build text append) (Owes origin (before.owing owed (.build text append))) := by
  unfold build
  split
  · rename_i blank
    exact .pure (by simpa [owing, replaces, blank] using owes)
  · rename_i some
    split
    · rename_i parsed
      exact .pure (by simpa [owing, replaces, Script.nodes, parsed, Except.toOption] using owes)
    · rename_i nodes parsed
      refine .bind (buildAll_attains owes (Script.parse_formed parsed)) fun _ _ built =>
        .get (.pure ?_)
      cases append <;> cases nodes <;>
        simpa [owing, replaces, some, Script.nodes, parsed, Except.toOption] using built

theorem buildNext_attains (owes : Owes origin owed before) (append : Bool) :
    Attains before (buildNext append) (Owes origin (before.owing owed (.buildNext append))) := by
  refine .get ?_
  cases found : before.program[before.cursor]? with
  | none => exact .pure (by simpa [owing, replaces, found] using owes)
  | some node =>
    have formed := owes.program node (List.mem_of_getElem? found)
    refine .bind (build_attains owes formed) fun _ built onward => .get (.pure ?_)
    cases append <;> simpa [owing, replaces, found] using onward

theorem telling_attains {request : Session ω η → Outcome × Session ω η}
    (owes : Owes origin owed (request before).2) :
    Attains before (telling request) (Owes origin owed) := by
  intro outcome after done
  cases done
  exact owes

/-- The sandbox is edited by hand. -/
theorem Owes.edit (owes : Owes origin owed before) {change : Sandbox → Sandbox}
    (scopes : (change before.sandbox).scopes = before.sandbox.scopes)
    (captures : (change before.sandbox).captures = before.sandbox.captures)
    (functions : before.sandbox.functions.Sound → (change before.sandbox).functions.Sound) :
    Owes origin owed (before.withSandbox change) := by
  refine ⟨owes.machine.edit scopes functions, owes.program, fun bracket => ?_⟩
  rw [← owes.left bracket, Machine.leftOpen, Machine.leftOpen]
  exact congrArg _ (Sandbox.opened_eq scopes captures bracket)

theorem load_owes (owes : Owes origin owed before) (text : String) (mode : Placement) :
    Owes origin owed (load text mode before).2 := by
  unfold load
  split
  · exact owes
  · exact owes
  · rename_i nodes _ parsed
    have each := Script.parse_formed parsed
    refine ⟨owes.machine, ?_, owes.left⟩
    cases mode
    · exact each
    · exact List.forall_mem_append.mpr ⟨owes.program, each⟩
    · exact List.forall_mem_append.mpr ⟨each, owes.program⟩

variable [Host η]

theorem runAll_attains {nodes : List Node} (owes : Owes origin owed before)
    (each : ∀ node ∈ nodes, Formed .command node) :
    Attains before (stepping (Machine.runAll nodes))
      (Owes origin (if nodes.isEmpty then owed else before.sandbox.opened)) := by
  refine stepping_attains fun _ ran done => ?_
  obtain ⟨hale, left⟩ := owes.machine.runAll each done
  refine ⟨hale, owes.program, fun bracket => ?_⟩
  rw [left]
  split
  · exact owes.left bracket
  · rfl

/-- A text is run or built in place of what is pending, after it was recorded and run on the host
where that is asked for. -/
theorem running_attains {session : Session ω η} (owes : Owes origin owed session)
    (same : session.sandbox.opened = before.sandbox.opened) (text : String) (flags : RunOptions) :
    Attains session (running text flags)
      (Owes origin (before.owing owed (.run text flags))) := by
  unfold running
  split
  · rename_i inch
    have built := buildText_attains owes text false
    simpa [owing, replaces, inch, same] using built
  · rename_i through
    split
    · rename_i parsed
      exact .pure (by simpa [owing, replaces, Script.nodes, parsed, Except.toOption] using owes)
    · rename_i nodes parsed
      refine .bind (runAll_attains owes (Script.parse_formed parsed)) fun _ _ ran => .pure ?_
      cases nodes <;>
        simpa [owing, replaces, through, same, Script.nodes, parsed, Except.toOption] using ran

theorem run_attains (owes : Owes origin owed before) (text : String) (flags : RunOptions) :
    Attains before (run text flags) (Owes origin (before.owing owed (.run text flags))) := by
  have recorded := owes.recordStep flags.record text
  have same : (before.recordStep flags.record text).sandbox.opened = before.sandbox.opened :=
    congrArg (·.sandbox.opened) (recordStep_machine before flags.record text)
  unfold run
  refine .modify ?_
  dsimp only
  split
  · refine .modify (running_attains ?_ ?_ text flags)
    · exact ⟨recorded.machine.shell text true, recorded.program, recorded.left⟩
    · exact same
  · exact running_attains recorded same text flags

theorem advancing_attains {node : Node} (owes : Owes origin owed before)
    (idle : before.machine.pending = []) (formed : Formed .command node) (flags : RunOptions) :
    Attains before (advancing flags node) (Owes origin owed) := by
  have same : before.sandbox.opened = owed := funext (owes.opened idle)
  unfold advancing
  split
  · refine .bind (build_attains owes formed) fun _ _ built => .get (.pure ?_)
    rwa [same] at built
  · refine .bind (stepping_attains fun _ ran done => ?_) fun _ _ ran => .pure ran
    obtain ⟨_, _, built, drained⟩ := run_bind_eq_ok.mp done
    obtain ⟨made, left⟩ := owes.machine.build formed built
    obtain ⟨hale, _, kept⟩ := made.drain drained
    refine ⟨hale, owes.program, fun bracket => ?_⟩
    rw [kept, left, ← same]
    rfl

/-- When nothing is pending, the next node leaves nothing more open, executed or not. -/
theorem nextStep_attains {node : Node} (owes : Owes origin owed before)
    (idle : before.machine.pending = []) (formed : Formed .command node) (flags : RunOptions) :
    Attains before (nextStep flags node) (Owes origin owed) := by
  have recorded := owes.recordStep flags.record node.shell
  have still : (before.recordStep flags.record node.shell).machine.pending = [] := by
    rw [recordStep_machine]
    exact idle
  unfold nextStep
  dsimp only
  refine .modify ?_
  split
  · refine .modify (advancing_attains ?_ ?_ formed flags)
    · exact ⟨recorded.machine.shell _ true, recorded.program, recorded.left⟩
    · exact still
  · refine advancing_attains ?_ ?_ formed flags
    · exact ⟨recorded.machine, recorded.program, recorded.left⟩
    · exact still

theorem drain_attains (owes : Owes origin owed before) :
    Attains before (stepping Machine.drain) (Owes origin owed) := by
  refine stepping_attains fun _ drained done => ?_
  obtain ⟨hale, _, left⟩ := owes.machine.drain done
  exact ⟨hale, owes.program, fun bracket => (left bracket).trans (owes.left bracket)⟩

theorem nextSteps_attains (flags : RunOptions) (count : Nat) (message : String)
    (owes : Owes origin owed before) :
    Attains before (nextSteps flags count message) (Owes origin owed) := by
  induction count generalizing message before with
  | zero => exact .pure owes
  | succ count ih =>
    refine .get ?_
    split
    · exact .bind (drain_attains owes) fun _ _ drained => ih message drained
    · rename_i idle
      cases found : before.program[before.cursor]? with
      | none => exact .pure owes
      | some node =>
        have formed := owes.program node (List.mem_of_getElem? found)
        have ended : before.machine.pending = [] := by simpa using idle
        exact .bind (nextStep_attains owes ended formed flags) fun _ _ ran => ih _ ran

/-- The next nodes of a program are recorded only when nothing is pending. -/
theorem nextMoments_owes (flags : RunOptions) (count : Nat) (owes : Owes origin owed before) :
    ∀ moment ∈ nextMoments flags count before,
      Owes origin owed moment ∧ moment.machine.pending = [] := by
  induction count generalizing before with
  | zero => exact List.forall_mem_nil _
  | succ count ih =>
    rw [nextMoments]
    split
    · split
      · exact List.forall_mem_nil _
      · rename_i drained done
        exact ih (drain_attains owes _ _ done)
    · rename_i idle
      have ended : before.machine.pending = [] := by simpa using idle
      split
      · exact List.forall_mem_nil _
      · rename_i node found
        have formed := owes.program node (List.mem_of_getElem? found)
        intro moment member
        rcases List.mem_append.mp member with here | later
        · split at here
          · obtain rfl := List.mem_singleton.mp here
            exact ⟨owes, ended⟩
          · cases here
        · split at later
          · cases later
          · rename_i ran done
            exact ih (nextStep_attains owes ended formed flags _ _ done) moment later

omit [Operator ω] in
theorem replaceAction_frame (machine : Machine ω η) :
    (replaceAction machine).pending = machine.pending.tail ∧
      (replaceAction machine).sandbox.opened = machine.sandbox.opened := by
  obtain ⟨pending, sandbox, _⟩ :=
    Machine.settle_frame { machine with pending := machine.pending.tail }
  have opened := congrArg Sandbox.opened sandbox
  unfold replaceAction Machine.pop
  split <;> rename_i shape <;> obtain ⟨_, rfl⟩ := Prod.mk.inj shape
  · exact ⟨pending, opened⟩
  · dsimp only
    split <;> exact ⟨pending, opened⟩

theorem replaceAction_hale {machine : Machine ω η} (hale : machine.Hale origin) :
    (replaceAction machine).Hale origin := by
  have popped := hale.pop
  unfold replaceAction
  split <;> rename_i shape <;> rw [shape] at popped
  · exact popped
  · dsimp only
    split
    · exact (popped.shell _ true).edit rfl id
    · exact popped.edit rfl id

/-- So many actions are taken away, and what is open stays open. -/
theorem replacing_attains (count : Nat) (owes : Owes origin owed before) :
    Attains before (inches true count)
      (Owes origin (before.owing owed (.inch count true))) := by
  induction count generalizing before owed with
  | zero => exact .pure ⟨owes.machine, owes.program, fun _ => rfl⟩
  | succ count ih =>
    obtain ⟨pending, opened⟩ := replaceAction_frame before.machine
    refine .modify (.get ?_)
    have replaced : Owes origin (before.owing owed (.inch 1 true))
        { before with machine := replaceAction before.machine } := by
      refine ⟨replaceAction_hale owes.machine, owes.program, fun bracket => ?_⟩
      rw [Machine.leftOpen, pending, opened, owing, List.drop_one]
      rfl
    have same : owing { before with machine := replaceAction before.machine }
        (before.owing owed (.inch 1 true)) (.inch count true) =
          before.owing owed (.inch (count + 1) true) := by
      unfold owing
      dsimp only [Session.sandbox]
      rw [pending, opened, List.drop_tail]
    rw [← same]
    split
    · exact ih replaced
    · rename_i some
      have idle : (replaceAction before.machine).pending = [] := by simpa using some
      refine .pure ⟨replaced.machine, replaced.program, fun bracket => ?_⟩
      rw [Machine.leftOpen, owing, idle, List.drop_nil]
      rfl

theorem inches_attains (count : Nat) (owes : Owes origin owed before) :
    Attains before (inches false count) (Owes origin owed) := by
  induction count generalizing before with
  | zero => exact .pure owes
  | succ count ih =>
    have inched : Attains before (stepping Machine.inch) (Owes origin owed) := by
      refine stepping_attains fun _ inched done => ?_
      obtain ⟨hale, left⟩ := owes.machine.inch done
      exact ⟨hale, owes.program, fun bracket => (left bracket).trans (owes.left bracket)⟩
    refine .bind inched fun _ _ onward => .get ?_
    split
    · exact ih onward
    · exact .pure onward

theorem inch_attains (count : Nat) (execute : Bool) (owes : Owes origin owed before) :
    Attains before (inch count execute)
      (Owes origin (before.owing owed (.inch count execute))) := by
  refine .get ?_
  split
  · rename_i ended
    have idle : before.machine.pending = [] := by simpa using ended
    refine .pure ⟨owes.machine, owes.program, fun bracket => ?_⟩
    cases execute
    · exact owes.left bracket
    · rw [Machine.leftOpen, owing, idle, List.drop_nil]
      rfl
  · refine .bind ?_ fun _ _ ended => .get (.pure ended)
    cases execute
    · exact inches_attains count owes
    · exact replacing_attains count owes

/-- What a request leaves to be left open, where it is done. -/
theorem perform_attains (request : Request) (owes : Owes origin owed before) :
    Attains before (perform request) (Owes origin (before.owing owed request)) := by
  cases request with
  | load text mode => exact telling_attains (load_owes owes text mode)
  | next count flags showState =>
    refine .bind (nextSteps_attains flags count "" owes) fun said _ ran => ?_
    cases said
    · exact .pure ran
    · exact .get (.pure ran)
  | run text flags => exact run_attains owes text flags
  | build text append => exact buildText_attains owes text append
  | buildNext append => exact buildNext_attains owes append
  | inch count execute => exact inch_attains count execute owes
  | skip count => exact telling_attains ⟨owes.machine, owes.program, owes.left⟩
  | save name =>
    refine telling_attains ?_
    unfold save
    split
    · exact owes
    · exact ⟨owes.machine, owes.program, owes.left⟩
  | dir path => exact telling_attains (owes.edit rfl rfl id)
  | stdin text => exact telling_attains (owes.edit rfl rfl id)
  | stdout text => exact telling_attains (owes.edit rfl rfl id)
  | var pairs showAll =>
    have keeps : before.sandbox.Keeps
        (pairs.foldl (fun sandbox pair => sandbox.assign pair.1 pair.2) before.sandbox) := by
      refine Sandbox.keeps_foldl ?_ pairs _
      exact fun _ _ => .of_eq rfl rfl rfl rfl
    exact telling_attains (owes.edit keeps.scopes keeps.captures keeps.functions)
  | fs specs showAll =>
    have keeps : before.sandbox.Keeps (specs.foldl addFile before.sandbox) := by
      refine Sandbox.keeps_foldl ?_ specs _
      exact fun _ _ => .of_eq rfl rfl rfl rfl
    exact telling_attains (owes.edit keeps.scopes keeps.captures keeps.functions)
  | decide condition value => exact telling_attains (owes.edit rfl rfl id)
  | shell text forward =>
    exact telling_attains ⟨owes.machine.shell text forward, owes.program, owes.left⟩
  | setAlias name text => exact telling_attains ⟨owes.machine, owes.program, owes.left⟩
  | screen clear =>
    cases clear
    · exact telling_attains owes
    · exact telling_attains (owes.edit rfl rfl id)
  | changeRecording mode => exact telling_attains ⟨owes.machine, owes.program, owes.left⟩

/-- What a request records, where it is done or not. -/
theorem moments_recorded (request : Request) (owes : Owes origin owed before) :
    ∀ moment ∈ before.moments request,
      moment.sandbox.Known ∧ moment.sandbox.opened = before.recorded owed request := by
  have known := owes.machine.intact.sandbox
  cases request with
  | next count flags showState =>
    intro moment member
    obtain ⟨there, idle⟩ := nextMoments_owes flags count owes moment member
    exact ⟨there.machine.intact.sandbox, funext (there.opened idle)⟩
  | run text flags =>
    intro moment member
    change moment ∈ (if before.recording || flags.record then [before] else []) at member
    split at member
    · obtain rfl := List.mem_singleton.mp member
      exact ⟨known, rfl⟩
    · cases member
  | save name =>
    intro moment member
    change moment ∈ (if name.isEmpty then [] else [before]) at member
    split at member
    · cases member
    · obtain rfl := List.mem_singleton.mp member
      exact ⟨known, rfl⟩
  | _ => exact fun _ member => absurd member List.not_mem_nil

omit [Host η] in
theorem Owes.reset (owes : Owes origin owed before) (closed : ∀ bracket, origin.opened bracket = 0)
    (bracket : Bracket) : before.machine.reset.leftOpen bracket = 0 := by
  rw [← closed bracket, ← owes.machine.intact.initial.1]
  rfl

/-- A request that is done comes to where it leaves the session. -/
theorem Reached.after {records : List (Bracket → Nat)} (reached : Reached owed records before)
    (request : Request) (ok : ((perform request).run before).1.isOk = true) :
    Reached (before.owing owed request)
      (List.replicate ((before.after request).history.size - before.history.size)
        (before.recorded owed request) ++ records) (before.after request) := by
  cases result : ((perform request).run before).1 with
  | error => simp [result, Except.isOk, Except.toBool] at ok
  | ok outcome => exact reached.asked (Prod.ext result rfl)

/-- What is recorded of a session that was reached, and what is to be left open in it. -/
theorem Reached.owes {records : List (Bracket → Nat)} (reached : Reached owed records before) :
    ∃ origin, (∀ bracket, origin.opened bracket = 0) ∧ Owes origin owed before ∧
      before.history.later.map (·.sandbox.opened) = records ∧
      ∀ record ∈ before.history.later, record.sandbox.Known := by
  induction reached with
  | @created sandbox limits operator host given scopes captures =>
    have closed : ∀ bracket, sandbox.opened bracket = 0 := by
      intro bracket
      cases bracket
      · exact congrArg List.length scopes
      · exact congrArg List.length captures
    exact ⟨sandbox, closed, ⟨⟨⟨rfl, given.known.functions, .empty⟩,
      ⟨rfl, given.known, ⟨rfl, given.known⟩, .nil⟩⟩, nofun, closed⟩, rfl, nofun⟩
  | @asked owed records before after request outcome _ done ih =>
    obtain ⟨origin, closed, owes, same, known⟩ := ih
    have made := perform_records request before
    have there := moments_recorded request owes
    rw [show before.after request = after from congrArg Prod.snd done] at made
    have grown := made.length
    obtain ⟨_, added, later, kept⟩ := made
    have each : ∀ record ∈ added,
        record.sandbox.Known ∧ record.sandbox.opened = before.recorded owed request := by
      intro record member
      have pair := List.mem_map_of_mem (f := fun record => (record.sandbox, record.cursor)) member
      rw [kept] at pair
      obtain ⟨moment, stood, alike⟩ := List.mem_map.mp pair
      rw [← (Prod.mk.inj alike).1]
      exact there moment stood
    have count : after.history.size - before.history.size = added.length := by
      have lengths := congrArg List.length kept
      simp only [List.length_map] at lengths
      omega
    refine ⟨origin, closed, perform_attains request owes outcome after done, ?_, ?_⟩
    · rw [later, List.map_append, same, count]
      refine congrArg (· ++ _) (List.eq_replicate_iff.mpr ⟨by simp, fun opened member => ?_⟩)
      obtain ⟨record, among, rfl⟩ := List.mem_map.mp member
      exact (each record (List.mem_reverse.mp among)).2
    · rw [later]
      exact List.forall_mem_append.mpr
        ⟨fun record among => (each record (List.mem_reverse.mp among)).1, known⟩
  | @undid owed records before _ ih =>
    obtain ⟨origin, closed, owes, rfl, known⟩ := ih
    unfold undo History.undo
    cases later : before.history.later with
    | nil =>
      exact ⟨origin, closed, ⟨owes.machine.reset, owes.program, owes.reset closed⟩, rfl, nofun⟩
    | cons record older =>
      rw [later] at known
      obtain ⟨newest, others⟩ := List.forall_mem_cons.mp known
      exact ⟨origin, closed, ⟨owes.machine.clear.withSandbox newest, owes.program, fun _ => rfl⟩,
        rfl, others⟩
  | @reset owed records before _ ih =>
    obtain ⟨origin, closed, owes, _⟩ := ih
    exact ⟨origin, closed, ⟨owes.machine.reset, nofun, owes.reset closed⟩, rfl, nofun⟩

/-- A session with nothing pending has exactly as many scopes and captures open as it owes, so none
where it owes none. -/
theorem idle_opened {owed : Bracket → Nat} {records : List (Bracket → Nat)} {session : Session ω η}
    (reached : Reached owed records session) (idle : session.machine.pending = []) :
    session.sandbox.scopes.length = owed .scope ∧
      session.sandbox.captures.length = owed .capture := by
  obtain ⟨origin, _, owes, _⟩ := reached.owes
  exact ⟨owes.opened idle .scope, owes.opened idle .capture⟩

end

/-- A session that was just created. -/
def fresh : Session Scripted Disabled :=
  create (Machine.create Sandbox.empty Command.standard {} default {})

theorem fresh_reached : Reached (fun _ => 0) [] fresh := by
  refine .created (fun functions among name body found => ?_) rfl rfl
  obtain rfl : functions = Table.empty := among.resolve_right nofun
  rw [Table.get?_empty] at found
  cases found

/-- Inside a group, inside a substitution: the session is saved, all that is pending is taken away,
and undoing brings back what was open when it was saved. -/
theorem idle_opened_undone :
    let inside := ((fresh.after (.build "( echo $(echo a) )" false)).after (.inch 3 false)).after
      (.save "inside")
    let back := (inside.after (.run "echo b" ⟨false, false, false⟩)).undo.2.undo.2
    ∃ owed records, Reached owed records back ∧ back.machine.pending = [] ∧
      back.sandbox.scopes.length = 2 ∧ back.sandbox.captures.length = 0 ∧ owed .scope = 2 := by
  intro inside back
  have built := fresh_reached.after (.build "( echo $(echo a) )" false) (by decide +kernel)
  have inched := built.after (.inch 3 false) (by decide +kernel)
  have saved := inched.after (.save "inside") (by decide +kernel)
  have ran := saved.after (.run "echo b" ⟨false, false, false⟩) (by decide +kernel)
  have idle : back.machine.pending = [] := List.isEmpty_iff.mp (by decide +kernel)
  obtain ⟨scopes, captures⟩ := idle_opened ran.undid.undid idle
  refine ⟨_, _, ran.undid.undid, idle, ?_, ?_, ?_⟩
  · rw [scopes]
    decide +kernel
  · rw [captures]
    decide +kernel
  · decide +kernel

/-- A command is built in place of the rest of a group: when all of it was executed, the scope of
the group is still open. -/
theorem idle_left_inside :
    let inside := (fresh.after (.build "( echo a )" false)).after (.inch 2 false)
    let idle := (inside.after (.build "echo b" false)).after (.inch 9 false)
    ∃ owed records, Reached owed records idle ∧ idle.machine.pending = [] ∧
      idle.sandbox.scopes ≠ [] := by
  intro inside idle
  have built := fresh_reached.after (.build "( echo a )" false) (by decide +kernel)
  have inched := built.after (.inch 2 false) (by decide +kernel)
  have replaced := inched.after (.build "echo b" false) (by decide +kernel)
  have ended := replaced.after (.inch 9 false) (by decide +kernel)
  have deep : idle.sandbox.scopes.length = 1 := by decide +kernel
  refine ⟨_, _, ended, List.isEmpty_iff.mp (by decide +kernel), fun none => ?_⟩
  rw [none] at deep
  cases deep

end Session

end StepShell

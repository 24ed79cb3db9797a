import StepShell.Proofs.Machine.Moments
import StepShell.Proofs.Machine.Sequence
import StepShell.Proofs.Machine.Truths
import StepShell.Proofs.Script.Clauses

/-! The first match wins. When a conditional is run, each of its conditions is decided once and for
all before its clause is looked at, whatever bodies and conditions run in between, so the body that
is put first is that of the first clause whose condition is true when all is done. -/

namespace StepShell

/-- The clauses of a conditional. -/
def Node.clauses : Node → List Clause
  | .conditional clauses _ => clauses
  | _ => []

namespace Clause

/-- The shell text of the condition, by which its truth is found. -/
def text? (clause : Clause) : Option String :=
  clause.condition.map Node.shell

/-- Whether the condition is true; there is none after `else`. -/
def holds (sandbox : Sandbox) (clause : Clause) : Bool :=
  clause.text?.all fun text => sandbox.truth? text == some true

/-- The texts of the conditions of the first so many clauses. -/
def textsBefore (clauses : List Clause) (place : Nat) : List String :=
  (clauses.take place).filterMap text?

theorem textsBefore_succ {clauses : List Clause} {place : Nat} {clause : Clause}
    (stands : clauses[place]? = some clause) :
    textsBefore clauses (place + 1) = textsBefore clauses place ++ clause.text?.toList := by
  obtain ⟨within, rfl⟩ := List.getElem?_eq_some_iff.mp stands
  rw [textsBefore, ← List.take_append_getElem within, List.filterMap_append]
  cases text : clauses[place].text? <;> simp [text, textsBefore]

theorem mem_textsBefore {clauses : List Clause} {place : Nat} {text : String} :
    text ∈ textsBefore clauses place ↔
      ∃ other, ∃ within : other < clauses.length, other < place ∧
        clauses[other].text? = some text := by
  rw [textsBefore, List.mem_filterMap]
  constructor
  · rintro ⟨clause, member, same⟩
    obtain ⟨other, within, rfl⟩ := List.mem_take_iff_getElem.mp member
    obtain ⟨earlier, within⟩ := Nat.lt_min.mp within
    exact ⟨other, within, earlier, same⟩
  · rintro ⟨other, within, earlier, same⟩
    exact ⟨clauses[other], List.mem_take_iff_getElem.mpr ⟨other, by omega, rfl⟩, same⟩

/-- A clause before another one has a condition. -/
theorem ElseLast.text? {clauses : List Clause} (last : ElseLast clauses) {place other : Nat}
    (within : place < clauses.length) (earlier : other < place) :
    ∃ text, clauses[other].text? = some text := by
  have before : other < clauses.dropLast.length := by
    rw [List.length_dropLast]
    omega
  have tested := last _ (List.getElem_mem before)
  rw [List.getElem_dropLast] at tested
  obtain ⟨condition, test⟩ := Option.isSome_iff_exists.mp tested
  exact ⟨condition.shell, congrArg (Option.map Node.shell) test⟩

/-- The action that decides the condition. -/
def deciding (clause : Clause) : Action :=
  match clause.condition with
  | some condition =>
    ⟨.decide condition.shell condition, "Determine boolean statement truth", some condition.shell⟩
  | none => .plain .nothing "Determine if else should execute"

/-- The action that looks whether the body of the clause at a place is the one to run. -/
def choosing (clauses : List Clause) (place : Nat) (clause : Clause) : Action :=
  .plain (.choose clause.text? (textsBefore clauses place) clause.body)
    "Possibly append actions to stack"

end Clause

/-- The actions of a conditional that come after the one which looks at the clause at a place. -/
def followingClauses (clauses : List Clause) (place : Nat) : List Action :=
  Compilation.clauseActions (Clause.textsBefore clauses (place + 1)) (clauses.drop (place + 1)) ++
    [.plain .cleanUp "Exit Node Cleanup"]

namespace Compilation

theorem clauseActions_cons (earlier : List String) (clause : Clause) (rest : List Clause) :
    clauseActions earlier (clause :: rest) =
      clause.deciding :: .plain (.choose clause.text? earlier clause.body)
        "Possibly append actions to stack" ::
          clauseActions (earlier ++ clause.text?.toList) rest := by
  rcases clause with ⟨keyword, _ | condition, body⟩
  · simp [clauseActions, Clause.deciding, Clause.text?, Clause.condition, Clause.body]
  · rfl

theorem clauseActions_append (earlier : List String) (first second : List Clause) :
    clauseActions earlier (first ++ second) =
      clauseActions earlier first ++
        clauseActions (earlier ++ first.filterMap Clause.text?) second := by
  induction first generalizing earlier with
  | nil => simp [clauseActions]
  | cons clause rest ih =>
    rw [List.cons_append, clauseActions_cons, clauseActions_cons, ih]
    cases text : clause.text? <;> simp [text]

theorem deciding_mem {earlier : List String} {clauses : List Clause} {clause : Clause}
    (member : clause ∈ clauses) : clause.deciding ∈ clauseActions earlier clauses := by
  obtain ⟨first, second, rfl⟩ := List.append_of_mem member
  rw [clauseActions_append, clauseActions_cons]
  simp

/-- The actions of a conditional, taken apart where the clause at a place is looked at. -/
theorem wrapped_clauseActions {clauses : List Clause} {place : Nat} {clause : Clause}
    (stands : clauses[place]? = some clause) :
    Machine.wrapped (clauseActions [] clauses) =
      (.plain .resetIo "Initialize state for command" ::
        clauseActions [] (clauses.take place) ++ [clause.deciding]) ++
      (Clause.choosing clauses place clause :: followingClauses clauses place) := by
  have texts := Clause.textsBefore_succ stands
  obtain ⟨within, rfl⟩ := List.getElem?_eq_some_iff.mp stands
  have whole : clauses = clauses.take place ++ clauses[place] :: clauses.drop (place + 1) := by
    rw [List.getElem_cons_drop, List.take_append_drop]
  conv_lhs => rw [whole]
  rw [clauseActions_append, clauseActions_cons, List.nil_append]
  change Machine.wrapped (_ ++ clauses[place].deciding ::
    Clause.choosing clauses place clauses[place] ::
      clauseActions (Clause.textsBefore clauses place ++ _) _) = _
  rw [← texts, Machine.wrapped, followingClauses]
  simp

end Compilation

namespace Machine

variable {ω η : Type} [Operator ω] [Host η] {condition : String}

/-- The condition has a truth. -/
def Decided (condition : String) (machine : Machine ω η) : Prop :=
  machine.commands = Command.standard ∧ (machine.sandbox.truth? condition).isSome = true

/-- The actions that a condition puts first to be executed. -/
def capturing (condition : String) (actions : List Action) : List Action :=
  .plain .beginCapture "Capture boolean execution output" :: actions ++
    [.plain (.judge condition) "Determine if boolean execution is true",
      .plain .endCapture "Release boolean execution output"]

/-- The actions that the body of a clause puts first. -/
def branching (actions : List Action) : List Action :=
  .plain .flush "Enter If Statement Execution Block" :: actions ++
    [.plain .flush "Exit If Statement Execution Block"]

theorem capturing_append (condition : String) (actions rest : List Action) :
    capturing condition actions ++ rest =
      (.plain .beginCapture "Capture boolean execution output" :: actions) ++
        ([.plain (.judge condition) "Determine if boolean execution is true",
          .plain .endCapture "Release boolean execution output"] ++ rest) := by
  simp [capturing]

theorem branching_append (actions rest : List Action) : branching actions ++ rest =
    (.plain .flush "Enter If Statement Execution Block" :: actions) ++
      .plain .flush "Exit If Statement Execution Block" :: rest := by
  simp [branching]

omit [Operator ω] [Host η] in
theorem withTruth_isSome (sandbox : Sandbox) (condition : String) (value : Bool) :
    ((sandbox.withTruth condition value).truth? condition).isSome = true := by
  rw [Sandbox.truth?, Sandbox.withTruth, Table.get?_insert, if_pos rfl]
  rfl

theorem judge_decided {machine : Machine ω η} (standard : machine.commands = Command.standard) :
    Decided condition ((execute (.judge condition)).run machine).2 :=
  ⟨standard, withTruth_isSome _ condition _⟩

/-- A condition that is decided stays decided. -/
theorem execute_decided {operation : Operation} {before : Machine ω η} :
    Preserves (Decided condition) before (execute operation) := by
  rintro ⟨standard, decided⟩
  by_cases judges : operation = .judge condition
  · rw [judges]
    exact judge_decided standard
  · have confined := execute_confined standard judges fun _ _ => decided
    refine ⟨confined.commands.trans standard, ?_⟩
    rw [confined.truth]
    exact decided

omit [Host η] in
theorem Decided.settle {machine : Machine ω η} (decided : Decided condition machine) :
    Decided condition machine.settle := by
  refine ⟨(settle_commands machine).trans decided.1, ?_⟩
  rw [(settle_frame machine).2.1]
  exact decided.2

theorem Runs.decided {rest : List Action} {machine after : Machine ω η}
    (runs : Runs rest machine after) (decided : Decided condition machine) :
    Decided condition after := by
  induction runs with
  | done => exact decided
  | @inch machine _ _ action first left inched _ ih =>
    have turn : machine.pending = action :: (first ++ rest) := left
    obtain ⟨_, _, executed, ran, rfl⟩ := inch_eq_ok turn inched
    have started : Decided condition
        { machine with pending := first ++ rest, ticks := machine.ticks + 1 } := decided
    have kept : Decided condition ((execute action.operation).run
        { machine with pending := first ++ rest, ticks := machine.ticks + 1 }).2 :=
      execute_decided started
    rw [ran] at kept
    exact ih kept.settle

omit [Host η] in
/-- A condition is decided at once, or its actions are put first. -/
theorem decideCondition_eq_ok {node : Node} {machine after : Machine ω η} {value : Unit}
    (done : (decideCondition condition node).run machine = (.ok value, after)) :
    (after.pending = machine.pending ∧ after.commands = machine.commands ∧
      (after.sandbox.truth? condition).isSome = true) ∨
    ∃ actions, after.pending = capturing condition actions ++ machine.pending := by
  unfold decideCondition at done
  rw [run_get_bind] at done
  split at done
  · dsimp only at done
    obtain ⟨_, middle, noted, answered⟩ := run_bind_eq_ok.mp done
    obtain rfl := run_set_eq_ok.mp noted
    split at answered
    · rw [run_modify_eq_ok.mp answered]
      exact .inl ⟨rfl, rfl, withTruth_isSome _ condition true⟩
    · rw [run_modify_eq_ok.mp answered]
      exact .inl ⟨rfl, rfl, withTruth_isSome _ condition false⟩
    · obtain ⟨actions, _, made, put⟩ := run_bind_eq_ok.mp answered
      obtain ⟨_, _, rfl⟩ := compiling_eq.mp made
      rw [run_modify_eq_ok.mp put]
      exact .inr ⟨actions, rfl⟩
  · rename_i decided
    rw [(run_pure_eq_ok.mp done).2]
    exact .inl ⟨rfl, rfl, Option.isSome_iff_ne_none.mpr (mt Option.isNone_iff_eq_none.mpr decided)⟩

omit [Host η] in
/-- A body is compiled and put first if it is chosen, and otherwise nothing happens. -/
theorem chooseBody_eq_ok {chosen : Option String} {earlier : List String} {body : Node}
    {machine after : Machine ω η} {value : Unit}
    (done : (chooseBody chosen earlier body).run machine = (.ok value, after)) :
    (isChosen machine.sandbox chosen earlier = true ∧ ∃ actions compiled,
      (body.compile machine.setting).run
        ⟨machine.sandbox.functions, machine.slots, machine.operator⟩ = (.ok actions, compiled) ∧
      after.pending = branching actions ++ machine.pending) ∨
    (isChosen machine.sandbox chosen earlier = false ∧ after.pending = machine.pending) := by
  unfold chooseBody at done
  rw [run_get_bind] at done
  split at done
  · rename_i holds
    obtain ⟨actions, _, made, put⟩ := run_bind_eq_ok.mp done
    obtain ⟨compiled, compiles, rfl⟩ := compiling_eq.mp made
    rw [run_modify_eq_ok.mp put]
    exact .inl ⟨holds, actions, compiled, compiles, rfl⟩
  · rename_i fails
    rw [(run_pure_eq_ok.mp done).2]
    exact .inr ⟨Bool.eq_false_iff.mpr fails, rfl⟩

/-- A condition whose turn it is has a truth when its actions are done. -/
theorem Runs.decides {rest : List Action} {action : Action} {node : Node}
    {machine after : Machine ω η} (runs : Runs rest machine after)
    (standard : machine.commands = Command.standard)
    (decides : action.operation = .decide condition node)
    (pending : machine.pending = action :: rest) : Decided condition after := by
  have alone : machine.pending = action :: [] ++ rest := pending
  obtain ⟨executed, ran, later⟩ := runs.first alone
  have commands : executed.commands = Command.standard := (execute_frame ran).1.trans standard
  rw [decides] at ran
  rcases decideCondition_eq_ok ran with ⟨_, _, decided⟩ | ⟨actions, put⟩
  · exact later.decided (Decided.settle ⟨commands, decided⟩)
  · -- its judgment is still pending, and will store what it finds
    have split : executed.settle.pending =
        (.plain .beginCapture "Capture boolean execution output" :: actions) ++
          ([.plain (.judge condition) "Determine if boolean execution is true",
            .plain .endCapture "Release boolean execution output"] ++ rest) := by
      rw [(settle_frame executed).1, put, capturing_append]
      rfl
    obtain ⟨middle, early, late⟩ := later.split split
    obtain ⟨judged, judging, ending⟩ := late.first early.pending
    have decided : Decided condition ((execute (.judge condition)).run { middle with
        pending := [.plain .endCapture "Release boolean execution output"] ++ rest
        ticks := middle.ticks + 1 }).2 :=
      judge_decided (early.stays.1.trans ((settle_commands executed).trans commands))
    have same : ((execute (.judge condition)).run { middle with
      pending := [.plain .endCapture "Release boolean execution output"] ++ rest
      ticks := middle.ticks + 1 }).2 = judged := congrArg Prod.snd judging
    rw [same] at decided
    exact ending.decided decided.settle

/-- Each condition that is to be decided somewhere in a run has a truth at its end. -/
theorem Runs.decidesAll {first rest : List Action} {action : Action} {node : Node}
    {machine after : Machine ω η} (runs : Runs rest machine after)
    (standard : machine.commands = Command.standard) (pending : machine.pending = first ++ rest)
    (member : action ∈ first) (decides : action.operation = .decide condition node) :
    Decided condition after := by
  obtain ⟨early, late, rfl⟩ := List.append_of_mem member
  have split : machine.pending = early ++ (action :: late ++ rest) := by
    rw [pending, List.append_assoc]
  obtain ⟨middle, before, onward⟩ := runs.split split
  have turn : middle.pending = [action] ++ (late ++ rest) := before.pending
  obtain ⟨next, deciding, later⟩ := onward.split turn
  exact later.decided (deciding.decides (before.stays.1.trans standard) decides turn)

/-- A run keeps the truth of a condition that is settled. -/
theorem Runs.stable {value : Bool} {rest : List Action} {start machine after : Machine ω η}
    (runs : Runs rest machine after) (stable : Stable condition value start machine) :
    Stable condition value start after := by
  induction runs with
  | done => exact stable
  | inch _ inched _ ih =>
    have kept := inch_stable stable
    rw [inched] at kept
    exact ih kept

theorem mem_clauseActions {earlier : List String} {clauses : List Clause} {action : Action}
    (member : action ∈ Compilation.clauseActions earlier clauses) :
    (∃ condition node, action.operation = .decide condition node) ∨ action.operation = .nothing ∨
      ∃ chosen others body, action.operation = .choose chosen others body := by
  induction clauses generalizing earlier with
  | nil => cases member
  | cons clause rest ih =>
    rw [Compilation.clauseActions_cons] at member
    rcases List.mem_cons.mp member with rfl | member
    · rcases clause with ⟨keyword, _ | condition, body⟩
      · exact .inr (.inl rfl)
      · exact .inl ⟨_, _, rfl⟩
    · rcases List.mem_cons.mp member with rfl | later
      · exact .inr (.inr ⟨_, _, _, rfl⟩)
      · exact ih later

/-- The actions of a conditional end no blocks themselves, and put nothing else first. -/
theorem wrapped_puts {clauses : List Clause} {action : Action}
    (member : action ∈ wrapped (Compilation.clauseActions [] clauses)) :
    PutsBlock (ω := ω) (η := η) action ∧ action.endsBlock = false := by
  have still : ∀ {alter : Sandbox → Sandbox} {machine after : Machine ω η},
      (change alter : Step ω η Unit).run machine = (.ok (), after) →
        after.pending = machine.pending := by
    intro alter machine after done
    rw [run_modify_eq_ok.mp done]
    rfl
  rcases List.mem_append.mp member with member | closing
  · rcases List.mem_cons.mp member with rfl | own
    · exact ⟨fun _ _ done => .inl (still done), rfl⟩
    · rcases mem_clauseActions own with ⟨_, _, decides⟩ | nothing | ⟨_, _, _, chooses⟩
      · refine ⟨fun machine after done => ?_, by rw [Action.endsBlock, decides]⟩
        rw [decides] at done
        rcases decideCondition_eq_ok done with ⟨same, _, _⟩ | ⟨actions, put⟩
        · exact .inl same
        · rw [capturing_append] at put
          exact .inr ⟨_, _, put.trans (List.append_assoc _ [_] (_ :: _)).symm, rfl⟩
      · refine ⟨fun machine after done => ?_, by rw [Action.endsBlock, nothing]⟩
        rw [nothing] at done
        rw [(run_pure_eq_ok.mp done).2]
        exact .inl rfl
      · refine ⟨fun machine after done => ?_, by rw [Action.endsBlock, chooses]⟩
        rw [chooses] at done
        rcases chooseBody_eq_ok done with ⟨_, actions, _, _, put⟩ | ⟨_, same⟩
        · exact .inr ⟨_, _, put.trans (branching_append _ _), rfl⟩
        · exact .inl same
  · obtain rfl := List.mem_singleton.mp closing
    exact ⟨fun _ _ done => .inl (still done), rfl⟩

/-- After so many inches it is the turn of the conditional to look at the clause at a place, and the
next inch puts its compiled body first. -/
def Queues (clauses : List Clause) (built : Machine ω η) (place count : Nat) : Prop :=
  ∃ clause actions compiled, clauses[place]? = some clause ∧
    (built.inched count).pending =
      Clause.choosing clauses place clause :: followingClauses clauses place ∧
    (clause.body.compile (built.inched count).setting).run
      ⟨(built.inched count).sandbox.functions, (built.inched count).slots,
        (built.inched count).operator⟩ = (.ok actions, compiled) ∧
    (built.inched (count + 1)).pending = branching actions ++ followingClauses clauses place

omit [Operator ω] [Host η] in
/-- Whether a clause is chosen depends on the truths of its condition and of the earlier ones. -/
theorem isChosen_congr {sandbox other : Sandbox} {chosen : Option String} {earlier : List String}
    (same : ∀ text ∈ earlier ++ chosen.toList, other.truth? text = sandbox.truth? text) :
    isChosen other chosen earlier = isChosen sandbox chosen earlier := by
  obtain ⟨before, own⟩ := List.forall_mem_append.mp same
  have others : (earlier.any fun text => other.truth? text == some true) =
      earlier.any fun text => sandbox.truth? text == some true := by
    rw [Bool.eq_iff_iff, List.any_eq_true, List.any_eq_true]
    refine exists_congr fun text => and_congr_right fun member => ?_
    rw [before text member]
  unfold isChosen
  dsimp only
  rw [others]
  cases chosen with
  | none => rfl
  | some text => rw [Option.all_some, Option.all_some, own text (by simp)]

section
variable {clauses : List Clause} {built after : Machine ω η} {place : Nat} {clause : Clause}

/-- Each clause comes to its turn, when its condition and the earlier ones have the truths that they
will have at the end. -/
theorem clause_turn (runs : Runs [] built after) (standard : built.commands = Command.standard)
    (pending : built.pending = wrapped (Compilation.clauseActions [] clauses))
    (stands : clauses[place]? = some clause) :
    ∃ count, (built.inched count).pending =
        Clause.choosing clauses place clause :: followingClauses clauses place ∧
      (∀ text ∈ Clause.textsBefore clauses (place + 1),
        (after.sandbox.truth? text).isSome = true ∧
          after.sandbox.truth? text = (built.inched count).sandbox.truth? text) ∧
      Runs [] (built.inched count) after := by
  have split := pending.trans (Compilation.wrapped_clauseActions stands)
  rw [← List.append_nil (Clause.choosing _ _ _ :: _)] at split
  obtain ⟨middle, early, late⟩ := runs.split split
  obtain ⟨count, rfl⟩ := early.inched
  have here := early.pending
  rw [List.append_nil] at here
  refine ⟨count, here, fun text member => ?_, late⟩
  have decided : Decided text (built.inched count) := by
    rw [Clause.textsBefore_succ stands] at member
    rcases List.mem_append.mp member with before | own
    · obtain ⟨other, among, same⟩ := List.mem_filterMap.mp before
      obtain ⟨condition, test, rfl⟩ := Option.map_eq_some_iff.mp same
      have inside : other.deciding ∈ Compilation.clauseActions [] (clauses.take place) :=
        Compilation.deciding_mem among
      have decides : other.deciding.operation = .decide condition.shell condition := by
        rw [Clause.deciding, test]
      exact early.decidesAll standard split (by simp [inside]) decides
    · obtain ⟨condition, test, rfl⟩ := Option.map_eq_some_iff.mp (Option.mem_toList.mp own)
      have decides : clause.deciding.operation = .decide condition.shell condition := by
        rw [Clause.deciding, test]
      exact early.decidesAll standard split (by simp) decides
  obtain ⟨commands, known⟩ := decided
  obtain ⟨value, truth⟩ := Option.isSome_iff_exists.mp known
  have fresh : AllFresh 0 (built.inched count).pending := by
    rw [here]
    exact .cons (by trivial) ((Compilation.clauseActions_fresh _ _).append (.single (by trivial)))
  have settled : Settled text value (built.inched count) :=
    ⟨truth, fun action member => (fresh action member).ne_judge text⟩
  have kept := (late.stable ⟨commands, settled, [], .ended _, by simp⟩).settled.truth
  rw [kept, truth]
  exact ⟨rfl, rfl⟩

theorem choosing_puts (stands : clauses[place]? = some clause) :
    ∀ action ∈ Clause.choosing clauses place clause :: followingClauses clauses place,
      PutsBlock (ω := ω) (η := η) action ∧ action.endsBlock = false := by
  intro action member
  have among : action ∈ wrapped (Compilation.clauseActions [] clauses) := by
    rw [Compilation.wrapped_clauseActions stands]
    exact List.mem_append_right _ member
  exact wrapped_puts among

/-- It is the turn of a clause once. -/
theorem clause_turn_unique {first second : Nat} (drainable : Drainable built)
    (stands : clauses[place]? = some clause)
    (here : (built.inched first).pending =
      Clause.choosing clauses place clause :: followingClauses clauses place)
    (again : (built.inched second).pending =
      Clause.choosing clauses place clause :: followingClauses clauses place) : first = second :=
  turn_unique drainable (fun action member => (choosing_puts stands action member).1)
    (fun action member => (choosing_puts (ω := ω) (η := η) stands action member).2) here again

/-- The body of a clause is put first if and only if the clause is chosen by the truths that there
are at the end. -/
theorem queues_iff_isChosen (runs : Runs [] built after)
    (standard : built.commands = Command.standard)
    (pending : built.pending = wrapped (Compilation.clauseActions [] clauses))
    (stands : clauses[place]? = some clause) :
    (∃ count, Queues clauses built place count) ↔
      isChosen after.sandbox clause.text? (Clause.textsBefore clauses place) = true := by
  obtain ⟨count, here, truths, late⟩ := clause_turn runs standard pending stands
  rw [Clause.textsBefore_succ stands] at truths
  have same : isChosen after.sandbox clause.text? (Clause.textsBefore clauses place) =
      isChosen (built.inched count).sandbox clause.text? (Clause.textsBefore clauses place) :=
    isChosen_congr fun text member => (truths text member).2
  have next : (built.inched (count + 1)).pending = followingClauses clauses place ∧
      isChosen after.sandbox clause.text? (Clause.textsBefore clauses place) = false ∨
      Queues clauses built place count ∧
        isChosen after.sandbox clause.text? (Clause.textsBefore clauses place) = true := by
    cases late with
    | done ended =>
      rw [ended] at here
      cases here
    | inch _ inching _ =>
      obtain ⟨_, _, executed, ran, rfl⟩ := inch_eq_ok here inching
      have reached : (built.inched (count + 1)).pending = executed.pending := by
        rw [inched, inching]
        exact (settle_frame executed).1
      rcases chooseBody_eq_ok ran with ⟨chosen, actions, compiled, compiles, put⟩ | ⟨passed, put⟩
      · exact .inr ⟨⟨clause, actions, compiled, stands, here, compiles, reached.trans put⟩,
          same.trans chosen⟩
      · exact .inl ⟨reached.trans put, same.trans passed⟩
  constructor
  · rintro ⟨other, found, actions, compiled, present, there, _, queued⟩
    obtain rfl := Option.some.inj (stands.symm.trans present)
    obtain rfl := clause_turn_unique ⟨after, runs⟩ stands here there
    rcases next with ⟨passed, _⟩ | ⟨_, chosen⟩
    · rw [passed] at queued
      have long := congrArg List.length queued
      simp [branching] at long
      omega
    · exact chosen
  · intro chosen
    rcases next with ⟨_, passed⟩ | ⟨queues, _⟩
    · rw [passed] at chosen
      cases chosen
    · exact ⟨count, queues⟩

end

omit [Operator ω] [Host η] in
/-- In the clauses of a parsed conditional the first one that holds is the one that is chosen. -/
theorem isChosen_iff_findIdx? {clauses : List Clause} {place : Nat} {clause : Clause}
    (last : Clause.ElseLast clauses) (stands : clauses[place]? = some clause) (sandbox : Sandbox) :
    isChosen sandbox clause.text? (Clause.textsBefore clauses place) = true ↔
      clauses.findIdx? (Clause.holds sandbox) = some place := by
  obtain ⟨within, rfl⟩ := List.getElem?_eq_some_iff.mp stands
  rw [List.findIdx?_eq_some_iff_getElem]
  unfold isChosen
  dsimp only
  rw [Bool.and_eq_true, Bool.not_eq_true', List.any_eq_false]
  constructor
  · rintro ⟨before, own⟩
    refine ⟨within, own, fun other earlier holds => ?_⟩
    obtain ⟨text, test⟩ := last.text? within earlier
    refine before text (Clause.mem_textsBefore.mpr ⟨other, by omega, earlier, test⟩) ?_
    rwa [Clause.holds, test] at holds
  · rintro ⟨_, own, before⟩
    refine ⟨fun text member holds => ?_, own⟩
    obtain ⟨other, _, earlier, test⟩ := Clause.mem_textsBefore.mp member
    refine before other earlier ?_
    rw [Clause.holds, test]
    exact holds

omit [Operator ω] [Host η] in
/-- A clause without a condition is chosen where no condition is true. -/
theorem isChosen_none_iff {clauses : List Clause} {place : Nat} {clause : Clause}
    (last : Clause.ElseLast clauses) (stands : clauses[place]? = some clause)
    (none : clause.condition = none) {sandbox : Sandbox}
    (decided : ∀ other ∈ clauses, ∀ condition, other.condition = some condition →
      (sandbox.truth? condition.shell).isSome = true) :
    isChosen sandbox clause.text? (Clause.textsBefore clauses place) = true ↔
      ∀ other ∈ clauses, ∀ condition, other.condition = some condition →
        sandbox.truth? condition.shell = some false := by
  obtain ⟨within, rfl⟩ := List.getElem?_eq_some_iff.mp stands
  have alone : clauses[place].text? = .none := by rw [Clause.text?, none, Option.map_none]
  unfold isChosen
  dsimp only
  rw [alone, Option.all_none, Bool.and_true, Bool.not_eq_true', List.any_eq_false]
  constructor
  · intro before other member condition test
    obtain ⟨index, inside, rfl⟩ := List.getElem_of_mem member
    -- the clause without a condition is the last one, so this one stands before it
    have earlier : index < place := by
      by_contra behind
      have different : index ≠ place := by
        rintro rfl
        rw [none] at test
        cases test
      obtain ⟨text, test⟩ := last.text? inside (show place < index by omega)
      rw [alone] at test
      cases test
    have false_ := before condition.shell (Clause.mem_textsBefore.mpr
      ⟨index, inside, earlier, congrArg (Option.map Node.shell) test⟩)
    obtain ⟨value, truth⟩ := Option.isSome_iff_exists.mp (decided _ member condition test)
    rw [truth] at false_ ⊢
    cases value with
    | false => rfl
    | true => exact absurd rfl false_
  · intro all text member
    obtain ⟨other, inside, _, same⟩ := Clause.mem_textsBefore.mp member
    obtain ⟨condition, test, rfl⟩ := Option.map_eq_some_iff.mp same
    rw [all _ (List.getElem_mem inside) condition test]
    exact Bool.false_ne_true

/-- When a conditional of a parsed script is run and nothing fails, then at the end every one of its
conditions has a truth. One body at most was put first, and that once: the body of the first clause
whose condition is true at the end, so the body after `else` if and only if no condition is true. -/
theorem conditional_first_match {text : String} {nodes : List Node} {root : Node}
    {clauses : List Clause} {span : Span} {machine after : Machine ω η}
    (parsed : Script.parse text = .ok nodes) (member : root ∈ nodes)
    (within : Node.Within (.conditional clauses span) root)
    (standard : machine.commands = Command.standard)
    (done : (run (.conditional clauses span)).run machine = (.ok (), after)) :
    ∃ built, (build (.conditional clauses span) false).run machine = (.ok (), built) ∧
      (∃ steps, built.inched steps = after ∧ after.pending = []) ∧
      (∀ clause ∈ clauses, ∀ condition, clause.condition = some condition →
        (after.sandbox.truth? condition.shell).isSome = true) ∧
      (∀ place, (∃ count, Queues clauses built place count) ↔
        clauses.findIdx? (Clause.holds after.sandbox) = some place) ∧
      (∀ place other count later, Queues clauses built place count →
        Queues clauses built other later → place = other ∧ count = later) ∧
      ∀ place clause, clauses[place]? = some clause → clause.condition = none →
        ((∃ count, Queues clauses built place count) ↔ ∀ other ∈ clauses, ∀ condition,
          other.condition = some condition →
            after.sandbox.truth? condition.shell = some false) := by
  have last : Clause.ElseLast clauses := Script.parse_elseLast parsed member clauses span within
  obtain ⟨actions, compiled, compiles, made, runs⟩ := run_compiles done
  rw [Node.compile] at compiles
  obtain ⟨rfl, rfl⟩ := run_pure_eq_ok.mp compiles
  generalize built_eq : ({ machine.withCompilation _ with
    pending := wrapped (Compilation.clauseActions [] clauses), ticks := 0 } : Machine ω η) = built
    at made runs
  have commands : built.commands = Command.standard := by
    rw [← built_eq]
    exact standard
  have pending : built.pending = wrapped (Compilation.clauseActions [] clauses) := by
    rw [← built_eq]
  have turns : ∀ place, (∃ count, Queues clauses built place count) ↔
      clauses.findIdx? (Clause.holds after.sandbox) = some place := by
    intro place
    cases stands : clauses[place]? with
    | some clause =>
      exact (queues_iff_isChosen runs commands pending stands).trans
        (isChosen_iff_findIdx? last stands after.sandbox)
    | none =>
      constructor
      · rintro ⟨_, _, _, _, present, _⟩
        cases stands.symm.trans present
      · intro found
        obtain ⟨inside, _⟩ := List.findIdx?_eq_some_iff_getElem.mp found
        exact absurd inside (Nat.not_lt.mpr (List.getElem?_eq_none_iff.mp stands))
  have decided : ∀ clause ∈ clauses, ∀ condition, clause.condition = some condition →
      (after.sandbox.truth? condition.shell).isSome = true := by
    intro clause member condition test
    obtain ⟨place, stands⟩ := List.mem_iff_getElem?.mp member
    obtain ⟨_, _, truths, _⟩ := clause_turn runs commands pending stands
    refine (truths condition.shell ?_).1
    rw [Clause.textsBefore_succ stands, Clause.text?, test]
    exact List.mem_append_right _ (List.mem_singleton_self _)
  obtain ⟨steps, reached⟩ := runs.inched
  refine ⟨built, made, ⟨steps, reached, runs.pending⟩, decided, turns, ?_, ?_⟩
  · intro place other count later queues again
    have same := Option.some.inj
      (((turns place).mp ⟨count, queues⟩).symm.trans ((turns other).mp ⟨later, again⟩))
    subst same
    obtain ⟨clause, _, _, stands, here, _⟩ := queues
    obtain ⟨_, _, _, present, there, _⟩ := again
    obtain rfl := Option.some.inj (stands.symm.trans present)
    exact ⟨rfl, clause_turn_unique ⟨after, runs⟩ stands here there⟩
  · intro place clause stands none
    exact (queues_iff_isChosen runs commands pending stands).trans
      (isChosen_none_iff last stands none decided)

/-- A machine with a function that comes upon a second condition and writes nothing. -/
def consulting : Machine Scripted HostRecord :=
  probing.called (.runText "a() { if b; then cd /; fi; }")

theorem consulting_standard : consulting.commands = Command.standard := by
  have heeds : Heeds probing consulting := called_heeds _ ⟨rfl, [], .started⟩
  exact heeds.1

/-- The first condition is executed and calls that function, the second one is known by then, and
the third one is the first one again. -/
theorem conditional_first_match_elif :
    let text := "if a; then echo 1; elif b; then echo 2; elif a; then echo 3; else echo 4; fi"
    let node := (Script.nodes text).headD default
    ∃ built after, Script.parse text = .ok [node] ∧ node = .conditional node.clauses node.span ∧
      consulting.commands = Command.standard ∧ (run node).run consulting = (.ok (), after) ∧
      (build node false).run consulting = (.ok (), built) ∧ after.sandbox.screen = "2\n" ∧
      (∃ count, Queues node.clauses built 1 count) ∧
      ∀ place count, Queues node.clauses built place count → place = 1 := by
  intro text node
  have parsed : Script.parse text = .ok [node] := by
    rw [Script.parse_eq_nodes (by decide +kernel)]
    exact congrArg _ (by decide +kernel)
  have shape : node = .conditional node.clauses node.span := by decide +kernel
  obtain ⟨fine, found, printed⟩ : ((run node).run consulting).1.isOk = true ∧
      node.clauses.findIdx? (Clause.holds ((run node).run consulting).2.sandbox) = some 1 ∧
      ((run node).run consulting).2.sandbox.screen = "2\n" := by decide +kernel
  have ran : (run node).run consulting = (.ok (), ((run node).run consulting).2) :=
    run_eq_of_isOk fine
  generalize ((run node).run consulting).2 = after at ran found printed
  have done := ran
  rw [shape] at done
  obtain ⟨built, made, _, _, turns, once, _⟩ := conditional_first_match parsed
    (List.mem_singleton_self _) (shape ▸ .self) consulting_standard done
  rw [← shape] at made
  have queued := (turns 1).mpr found
  obtain ⟨count, queues⟩ := queued
  exact ⟨built, after, parsed, shape, consulting_standard, ran, made, printed, ⟨count, queues⟩,
    fun place other again => (once place 1 other count again queues).1⟩

end Machine

end StepShell

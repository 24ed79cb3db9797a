import Mathlib.Data.List.Induction
import StepShell.Proofs.Machine.Outside
import StepShell.Proofs.Machine.Symmetry

/-! Operators between commands, and the flag that they leave behind. Each operator judges by what
there is to read when it has its turn, and nothing else ever touches the flag. -/

namespace StepShell

/-- An operator between commands, and the number that the result before it is, if it is one. -/
structure Verdict where
  op : String
  status : Option Nat
  deriving DecidableEq, Repr

namespace Verdict

/-- The end of a command line is no condition on what follows. -/
def resumes (verdict : Verdict) : Bool :=
  verdict.op = ";" || verdict.op = "\n"

/-- Zero stops what follows `||`, any other number what follows `&&`. -/
def stops (verdict : Verdict) : Bool :=
  verdict.op = "||" && verdict.status = some 0 ||
    verdict.op = "&&" && verdict.status.any (· != 0)

/-- The flag behind the operator. -/
def follow (continuing : Bool) (verdict : Verdict) : Bool :=
  verdict.resumes || continuing && !verdict.stops

/-- The flag behind one operator after another. -/
def followed (verdicts : List Verdict) (continuing : Bool) : Bool :=
  verdicts.foldl follow continuing

/-- Some operator has stopped what follows, and none behind it resumes. -/
def Stopped (verdicts : List Verdict) : Prop :=
  ∃ early verdict late, verdicts = early ++ verdict :: late ∧ verdict.stops = true ∧
    ∀ later ∈ late, later.resumes = false

/-- Some operator has resumed. -/
def Resumed (verdicts : List Verdict) : Prop :=
  ∃ verdict ∈ verdicts, verdict.resumes = true

/-- What comes next is not held up: nothing was stopped for good, and all went on at the start or
something has resumed. -/
def GoesOn (verdicts : List Verdict) (continuing : Bool) : Prop :=
  ¬ Stopped verdicts ∧ (continuing = true ∨ Resumed verdicts)

section
variable {verdict : Verdict} {verdicts : List Verdict} {continuing : Bool}

theorem resumes_of_stops (stops : verdict.stops = true) : verdict.resumes = false := by
  obtain ⟨op, status⟩ := verdict
  simp only [Verdict.stops, Bool.or_eq_true, Bool.and_eq_true, decide_eq_true_eq] at stops
  rcases stops with ⟨rfl, _⟩ | ⟨rfl, _⟩ <;> rfl

theorem not_stopped_nil : ¬ Stopped [] := by
  rintro ⟨early, verdict, late, same, _⟩
  exact List.append_ne_nil_of_right_ne_nil early (List.cons_ne_nil verdict late) same.symm

theorem stopped_concat : Stopped (verdicts ++ [verdict]) ↔
    verdict.stops = true ∨ verdict.resumes = false ∧ Stopped verdicts := by
  constructor
  · rintro ⟨early, stopping, late, same, stops, none⟩
    rcases List.eq_nil_or_concat late with rfl | ⟨front, last, rfl⟩
    · obtain ⟨_, rfl⟩ := List.append_inj' same rfl |>.imp_right List.singleton_inj.mp
      exact .inl stops
    · rw [List.concat_eq_append] at same none
      obtain ⟨front, rfl⟩ : verdicts = early ++ stopping :: front ∧ verdict = last := by
        rw [← List.cons_append, ← List.append_assoc] at same
        exact List.append_inj' same rfl |>.imp_right List.singleton_inj.mp
      obtain ⟨before, last⟩ := List.forall_mem_append.mp none
      exact .inr ⟨last _ (List.mem_singleton_self _), early, stopping, _, front, stops, before⟩
  · rintro (stops | ⟨goes, early, stopping, late, rfl, stops, none⟩)
    · exact ⟨verdicts, verdict, [], rfl, stops, nofun⟩
    · refine ⟨early, stopping, late ++ [verdict], by simp, stops, ?_⟩
      exact List.forall_mem_append.mpr ⟨none, List.forall_mem_singleton.mpr goes⟩

/-- The flag is up in the end exactly if nothing was stopped for good, and it was up at the start or
some operator has resumed. -/
theorem followed_eq_true_iff :
    followed verdicts continuing = true ↔ GoesOn verdicts continuing := by
  unfold GoesOn
  induction verdicts using List.reverseRecOn with
  | nil => simp [followed, not_stopped_nil, Resumed]
  | append_singleton front last ih =>
    have step : followed (front ++ [last]) continuing =
        (last.resumes || followed front continuing && !last.stops) := by
      rw [followed, List.foldl_append]
      rfl
    have resumed : Resumed (front ++ [last]) ↔ last.resumes = true ∨ Resumed front := by
      simp [Resumed, or_comm]
    rw [step, Bool.or_eq_true, Bool.and_eq_true, Bool.not_eq_true', ih, stopped_concat, resumed]
    cases goes : last.resumes with
    | true =>
      have calm : last.stops = false := by
        refine Bool.eq_false_iff.mpr fun stops => ?_
        rw [resumes_of_stops stops] at goes
        cases goes
      simp [calm]
    | false =>
      cases last.stops <;> simp

end

end Verdict

namespace Machine

variable {ω η α : Type}

theorem judgeResult_eq_ok {op : String} {status : Option Nat} {continuing judged : Bool}
    (done : judgeResult op status continuing = .ok judged) :
    judged = Verdict.follow continuing ⟨op, status⟩ := by
  unfold judgeResult at done
  split at done
  · rename_i same
    cases done
    subst same
    by_cases zero : status = some 0 <;> simp [Verdict.follow, Verdict.resumes, Verdict.stops, zero]
  · split at done
    · rename_i same
      cases done
      subst same
      by_cases more : status.any (· != 0) = true <;>
        simp [Verdict.follow, Verdict.resumes, Verdict.stops, more]
    · split at done
      · rename_i same
        cases done
        subst same
        simp [Verdict.follow, Verdict.resumes, Verdict.stops]
      · split at done
        · rename_i ends
          cases done
          simp [Verdict.follow, Verdict.resumes, ends]
        · cases done

/-- An operator judges by what there is to read, of which nothing is left then. -/
theorem separate_eq_ok {op : String} {machine after : Machine ω η} {value : Unit}
    (done : (separate op).run machine = (.ok value, after)) :
    after = { machine with
      sandbox := machine.sandbox.clearInput
      continuing := Verdict.follow machine.continuing
        ⟨op, Text.natural64? machine.sandbox.io.input⟩ } := by
  unfold separate at done
  rw [run_get_bind] at done
  obtain ⟨_, middle, changed, judging⟩ := run_bind_eq_ok.mp done
  obtain rfl := run_modify_eq_ok.mp changed
  rw [run_get_bind] at judging
  obtain ⟨judged, _, lifted, noting⟩ := run_bind_eq_ok.mp judging
  obtain ⟨judging, rfl⟩ := run_lift_eq_ok.mp lifted
  rw [run_modify_eq_ok.mp noting, judgeResult_eq_ok judging]
  rfl

/-! No other operation touches the flag. -/

/-- The flag is like this. -/
def Flag (continuing : Bool) (machine : Machine ω η) : Prop :=
  machine.continuing = continuing

section
variable {continuing : Bool} {before : Machine ω η}

theorem change_flag {alter : Sandbox → Sandbox} :
    Preserves (Flag continuing) before (change alter) :=
  .modify id

theorem slot_flag {index : Nat} : Preserves (Flag continuing) before (slot index) :=
  .still slot_still

theorem compiling_flag {compile : Compilation.Setting → Compile ω α} :
    Preserves (Flag continuing) before (compiling compile) :=
  id

theorem compiled_flag {compile : Compilation.Setting → Compile ω (List Action)}
    {block : List Action → List Action} :
    Preserves (Flag continuing) before (do
      let actions ← compiling compile
      putFirst (block actions)) :=
  .bind compiling_flag fun _ _ _ => .modify id

theorem redirectPath_flag {index place : Nat} :
    Preserves (Flag continuing) before (redirectPath index place) := by
  refine .bind slot_flag fun _ _ _ => ?_
  split
  · exact .get .pure
  · exact .throw
  · exact .throw

theorem assignParts_flag {parts : List Node} :
    Preserves (Flag continuing) before (assignParts parts) := by
  induction parts generalizing before with
  | nil => exact .pure
  | cons part rest ih =>
    cases part with
    | assignment text inner span =>
      unfold assignParts
      split
      · exact .bind change_flag fun _ _ _ => ih
      · exact .throw
    | _ => exact ih

theorem leaveSubstitution_flag {index word : Nat} {part : Span} :
    Preserves (Flag continuing) before (leaveSubstitution index word part) := by
  refine .get (.bind change_flag fun _ _ _ => .get ?_)
  split
  · refine .bind .lift fun _ _ lifted => .set fun same => ?_
    obtain ⟨_, rfl⟩ := run_lift_eq_ok.mp lifted
    exact same
  · exact .throw

theorem runKnown_flag {command : Command ω} {args : List String} :
    Preserves (Flag continuing) before (runKnown command args) :=
  .get (.bind (.set id) fun _ _ _ => .bind .lift fun _ _ _ => change_flag)

variable [Operator ω]

theorem readRedirect_flag {path : String} :
    Preserves (Flag continuing) before (readRedirect path) := by
  refine .get ?_
  split
  · exact change_flag
  · exact .bind (.set id) fun _ _ _ => change_flag

theorem runNested_flag {name script : String} :
    Preserves (Flag continuing) before (runNested name script) := by
  unfold runNested
  split
  · exact change_flag
  · exact compiled_flag

theorem nestedShell_flag {name : String} {args : List String} :
    Preserves (Flag continuing) before (nestedShell name args) := by
  unfold nestedShell
  split
  · exact .pure
  · split
    · split
      · exact runNested_flag
      · exact change_flag
    · refine .get ?_
      dsimp only
      split
      · exact runNested_flag
      · exact change_flag

theorem enterSubstitution_flag {index word : Nat} {part : Span} :
    Preserves (Flag continuing) before (enterSubstitution index word part) := by
  refine .bind slot_flag fun _ _ _ => ?_
  dsimp only
  split
  · exact .throw
  · split
    · exact .throw
    · refine .bind compiling_flag fun _ _ _ => .bind (.get .lift) fun _ _ _ => ?_
      exact .bind change_flag fun _ _ _ => .modify id

theorem decideCondition_flag {condition : String} {node : Node} :
    Preserves (Flag continuing) before (decideCondition condition node) := by
  refine .get ?_
  split
  · refine .bind (.set id) fun _ _ _ => ?_
    split
    · exact change_flag
    · exact change_flag
    · exact compiled_flag
  · exact .pure

theorem chooseBody_flag {condition : Option String} {earlier : List String} {body : Node} :
    Preserves (Flag continuing) before (chooseBody condition earlier body) := by
  refine .get ?_
  split
  · exact compiled_flag
  · exact .pure

variable [Host η]

theorem leaveToOperator_flag {name : String} {parts : List Node} :
    Preserves (Flag continuing) before (leaveToOperator name parts) := by
  refine .get (.bind (.set id) fun _ _ _ => ?_)
  split
  · exact .pure
  · exact .modify id
  · exact .throw

theorem runParts_flag {parts : List Node} :
    Preserves (Flag continuing) before (runParts parts) := by
  refine .get ?_
  split
  · exact .pure
  · split
    · exact compiled_flag
    · split
      · exact nestedShell_flag
      · split
        · exact runKnown_flag
        · exact leaveToOperator_flag

theorem execute_flag {operation : Operation} (other : ∀ op, operation ≠ .separator op) :
    Preserves (Flag continuing) before (execute operation) := by
  cases operation with
  | separator op => exact absurd rfl (other op)
  | readRedirect => exact .bind redirectPath_flag fun _ _ _ => readRedirect_flag
  | writeRedirect => exact .bind redirectPath_flag fun _ _ _ => change_flag
  | run => exact .bind slot_flag fun _ _ _ => runParts_flag
  | assign => exact .bind slot_flag fun _ _ _ => assignParts_flag
  | enterSubstitution => exact enterSubstitution_flag
  | leaveSubstitution => exact leaveSubstitution_flag
  | decide => exact decideCondition_flag
  | choose => exact chooseBody_flag
  | lower | enterFunction | enterSubshell => exact .bind (.get .lift) fun _ _ _ => change_flag
  | nothing => exact .pure
  | _ => exact change_flag

end

variable [Operator ω] [Host η]

/-- The verdict of an action at its turn, if it is an operator between commands. -/
def verdicts (machine : Machine ω η) (action : Action) : List Verdict :=
  match action.operation with
  | .separator op => [⟨op, Text.natural64? machine.sandbox.io.input⟩]
  | _ => []

/-- A run of what is pending before `rest`, with the verdicts of all operators that it comes to. -/
inductive Judges (rest : List Action) : Machine ω η → List Verdict → Machine ω η → Prop where
  | done {machine : Machine ω η} (ended : machine.pending = rest) : Judges rest machine [] machine
  | inch {machine middle after : Machine ω η} {action : Action} {first : List Action}
      {later : List Verdict} (left : machine.pending = action :: first ++ rest)
      (inched : Machine.inch.run machine = (.ok true, middle))
      (onward : Judges rest middle later after) :
      Judges rest machine (machine.verdicts action ++ later) after

theorem Runs.judges {rest : List Action} {machine after : Machine ω η}
    (runs : Runs rest machine after) : ∃ verdicts, Judges rest machine verdicts after := by
  induction runs with
  | done ended => exact ⟨[], .done ended⟩
  | inch left inched _ ih =>
    obtain ⟨verdicts, judges⟩ := ih
    exact ⟨_, .inch left inched judges⟩

theorem Judges.runs {rest : List Action} {machine after : Machine ω η} {verdicts : List Verdict}
    (judges : Judges rest machine verdicts after) : Runs rest machine after := by
  induction judges with
  | done ended => exact .done ended
  | inch left inched _ ih => exact .inch left inched ih

omit [Operator ω] [Host η] in
theorem verdicts_of_other {machine : Machine ω η} {action : Action}
    (other : ∀ op, action.operation ≠ .separator op) : machine.verdicts action = [] := by
  unfold verdicts
  split
  · rename_i op same
    exact absurd same (other op)
  · rfl

/-- One action leaves the flag as its verdict says, and without one as it is. -/
theorem inch_continuing {machine after : Machine ω η} {action : Action} {rest : List Action}
    {more : Bool} (pending : machine.pending = action :: rest)
    (done : inch.run machine = (.ok more, after)) :
    after.continuing = Verdict.followed (machine.verdicts action) machine.continuing := by
  obtain ⟨_, _, executed, ran, rfl⟩ := inch_eq_ok pending done
  have settled : executed.settle.continuing = executed.continuing := by
    unfold settle
    split <;> rfl
  rw [settled]
  by_cases judges : ∃ op, action.operation = .separator op
  · obtain ⟨op, same⟩ := judges
    rw [same] at ran
    rw [separate_eq_ok ran, verdicts, same]
    rfl
  · have other : ∀ op, action.operation ≠ .separator op := fun op same => judges ⟨op, same⟩
    have kept : Flag machine.continuing ((execute action.operation).run
        { machine with pending := rest, ticks := machine.ticks + 1 }).2 := execute_flag other rfl
    rw [ran] at kept
    rw [verdicts_of_other other]
    exact kept

/-- After any run the flag is what the operators that it came to made of it, one after another. -/
theorem Judges.continuing {rest : List Action} {machine after : Machine ω η}
    {verdicts : List Verdict} (judges : Judges rest machine verdicts after) :
    after.continuing = Verdict.followed verdicts machine.continuing := by
  induction judges with
  | done => rfl
  | inch left inched _ ih =>
    rw [ih, inch_continuing left inched, Verdict.followed, Verdict.followed, Verdict.followed,
      List.foldl_append]

end Machine

end StepShell

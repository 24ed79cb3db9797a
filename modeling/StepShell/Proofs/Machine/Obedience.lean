import StepShell.Operator.Scripted
import StepShell.Proofs.Machine.Discipline
import StepShell.Proofs.Machine.Loop
import StepShell.Proofs.Machine.Outside

/-! The host runs only what the operator allows. Whatever a machine with the standard commands is
called to do, one call after the other, each run on the host stands right behind the answer that
allows it, and building runs nothing. -/

namespace StepShell.Machine

variable {ω η : Type} [Operator ω] [Host η] {start before : Machine ω η}

/-- The machine is built on and inched, and these events happen meanwhile. To build asks about the
items of loops, and an inch brings about what the sandbox of the moment permits. -/
inductive Proceeds (start : Machine ω η) : List Event → Machine ω η → Prop where
  | started : Proceeds start [] start
  /-- The actions are counted anew. -/
  | recounted {machine : Machine ω η} {events : List Event}
      (before : Proceeds start events machine) : Proceeds start events { machine with ticks := 0 }
  | built {machine : Machine ω η} {earlier events : List Event} (node : Node) (append : Bool)
      (before : Proceeds start earlier machine)
      (items : ∀ event ∈ events, event.isItems = true)
      (course : Course machine.outside events ((build node append).run machine).2.outside) :
      Proceeds start (earlier ++ events) ((build node append).run machine).2
  | inched {machine : Machine ω η} {earlier events : List Event}
      (before : Proceeds start earlier machine) (permits : machine.sandbox.Permits events)
      (course : Course machine.outside events (inch.run machine).2.outside) :
      Proceeds start (earlier ++ events) (inch.run machine).2

namespace Proceeds

variable {machine : Machine ω η} {events : List Event}

theorem course (proceeds : Proceeds start events machine) :
    Course start.outside events machine.outside := by
  induction proceeds with
  | started => exact .ended _
  | recounted _ ih => exact ih
  | built _ _ _ _ course ih => exact ih.append course
  | inched _ _ course ih => exact ih.append course

theorem obeys (proceeds : Proceeds start events machine) : Obeys events := by
  induction proceeds with
  | started => exact .ended
  | recounted _ ih => exact ih
  | built _ _ _ items _ ih =>
    exact ih.append (.ofPeaceful fun event member =>
      Event.isPeaceful_of_isItems (items event member))
  | inched _ permits _ ih => exact ih.append permits.obeys

end Proceeds

/-- The machine came from the start by proceeding, and has the standard commands. -/
def Heeds (start now : Machine ω η) : Prop :=
  now.commands = Command.standard ∧ ∃ events, Proceeds start events now

/-- What an inch does outside is what its action does there. -/
theorem inch_dealt {machine after : Machine ω η} {result : Except Failure Bool}
    (standard : machine.commands = Command.standard) (inched : inch.run machine = (result, after)) :
    Dealt machine after := by
  cases inched_of_eq inched with
  | idle | refused => exact ⟨rfl, [], .asked (by simp), .ended _⟩
  | @executed action rest after pending allowed ran
  | @failed action rest _ after pending allowed ran =>
    have dealt := execute_dealt { machine with pending := rest, ticks := machine.ticks + 1 }
      standard action.operation
    rw [ran] at dealt
    obtain ⟨commands, events, permits, course⟩ := dealt
    refine ⟨(settle_commands after).trans commands, events, permits, ?_⟩
    rw [settle_outside]
    exact course

theorem inch_heeds : Preserves (Heeds start) before inch := by
  rintro ⟨standard, earlier, proceeds⟩
  obtain ⟨commands, events, permits, course⟩ := inch_dealt standard (Prod.eta (inch.run before))
  exact ⟨commands.trans standard, _, .inched proceeds permits course⟩

omit [Host η] in
/-- Compiling is all that building does outside, whether it succeeds or not. -/
theorem build_outside (node : Node) (append : Bool) (machine : Machine ω η) :
    ((build node append).run machine).2.commands = machine.commands ∧
      ∃ asked, ((build node append).run machine).2.outside =
        (Operator.itemsAsked machine.operator asked, machine.host) := by
  rcases done : (build node append).run machine with ⟨failure | value, after⟩
  · obtain ⟨compiled, made, rfl⟩ := build_eq_error done
    obtain ⟨asked, same⟩ := compile_asksItems node machine.setting
      ⟨machine.sandbox.functions, if append then machine.slots else #[], machine.operator⟩
    rw [made] at same
    exact ⟨rfl, asked, congrArg (·, machine.host) same⟩
  · obtain ⟨actions, compiled, made, rfl⟩ := build_eq_ok done
    obtain ⟨asked, same⟩ := compile_asksItems node machine.setting
      ⟨machine.sandbox.functions, if append then machine.slots else #[], machine.operator⟩
    rw [made] at same
    exact ⟨rfl, asked, congrArg (·, machine.host) same⟩

omit [Host η] in
theorem build_host (node : Node) (append : Bool) (machine : Machine ω η) :
    ((build node append).run machine).2.host = machine.host := by
  obtain ⟨_, asked, same⟩ := build_outside node append machine
  exact congrArg Prod.snd same

theorem build_heeds {node : Node} {append : Bool} :
    Preserves (Heeds start) before (build node append) := by
  rintro ⟨standard, earlier, proceeds⟩
  obtain ⟨commands, asked, same⟩ := build_outside node append before
  obtain ⟨events, items, course⟩ := Course.ofItems asked before.operator before.host
  rw [← same] at course
  exact ⟨commands.trans standard, _, .built node append proceeds items course⟩

theorem inches_heeds {count : Nat} : Preserves (Heeds start) before (inches count) := by
  induction count generalizing before with
  | zero => exact .pure
  | succ count ih =>
    refine .bind inch_heeds fun more _ _ => ?_
    split
    · exact ih
    · exact .pure

theorem drain_heeds : Preserves (Heeds start) before drain := by
  refine .bind (.modify ?_) fun _ _ _ => .get inches_heeds
  rintro ⟨standard, events, proceeds⟩
  exact ⟨standard, events, proceeds.recounted⟩

theorem run_heeds {node : Node} : Preserves (Heeds start) before (run node) :=
  .bind build_heeds fun _ _ _ => drain_heeds

theorem runAll_heeds {nodes : List Node} : Preserves (Heeds start) before (runAll nodes) := by
  induction nodes generalizing before with
  | nil => exact .pure
  | cons node rest ih => exact .bind run_heeds fun _ _ _ => ih

theorem runText_heeds {script : String} : Preserves (Heeds start) before (runText script) := by
  unfold runText
  split
  · exact runAll_heeds
  · exact .throw

/-- What a machine can be called to do. -/
inductive Call where
  | build (node : Node) (append : Bool)
  | inch
  | drain
  | run (node : Node)
  | runText (script : String)

/-- The machine after a call, whether it succeeds or fails. -/
def called (machine : Machine ω η) : Call → Machine ω η
  | .build node append => ((build node append).run machine).2
  | .inch => (inch.run machine).2
  | .drain => (drain.run machine).2
  | .run node => ((run node).run machine).2
  | .runText script => ((runText script).run machine).2

theorem called_heeds (call : Call) (heeds : Heeds start before) :
    Heeds start (before.called call) := by
  cases call with
  | build => exact build_heeds heeds
  | inch => exact inch_heeds heeds
  | drain => exact drain_heeds heeds
  | run => exact run_heeds heeds
  | runText => exact runText_heeds heeds

theorem calls_heed (calls : List Call) (heeds : Heeds start before) :
    Heeds start (calls.foldl called before) := by
  induction calls generalizing before with
  | nil => exact heeds
  | cons call rest ih => exact ih (called_heeds call heeds)

/-- Whatever a machine with the standard commands is called to do, its host runs exactly what the
operator lets it run, right after each answer that does, and nothing if there is no such answer.
Building runs nothing. -/
theorem host_obeys (start : Machine ω η) (standard : start.commands = Command.standard)
    (calls : List Call) :
    ∃ events, Proceeds start events (calls.foldl called start) ∧
      Course start.outside events (calls.foldl called start).outside ∧ Obeys events ∧
      ((∀ event ∈ events, event.allows = false) →
        (calls.foldl called start).host = start.host) ∧
      ∀ node append, ((calls.foldl called start).called (.build node append)).host =
        (calls.foldl called start).host := by
  obtain ⟨-, events, proceeds⟩ := calls_heed calls ⟨standard, [], .started⟩
  refine ⟨events, proceeds, proceeds.course, proceeds.obeys, fun never => ?_, fun node append => ?_⟩
  · exact proceeds.course.host_eq (proceeds.obeys.peaceful never)
  · exact build_host node append _

def scouting : String :=
  "scan() { nmap $1; }\nif check; then scan 10.0.0.1; fi\nbash -c 'who; echo \"$(uname -a)\"'"

/-- A machine with an operator who has two of three unknown commands run. -/
def watched : Machine Scripted HostRecord :=
  create (Sandbox.startingIn "/root") Command.standard {}
    ⟨[.holds], [.execute, .skip, .execute], [], [], [], #[]⟩ ⟨["open", "Linux"], #[]⟩

theorem host_obeys_scouting :
    watched.commands = Command.standard ∧
      (watched.called (.runText scouting)).host.calls =
        #[("nmap 10.0.0.1", some ""), ("uname -a", some "")] ∧
      ∃ events, Proceeds watched events (watched.called (.runText scouting)) ∧ Obeys events := by
  obtain ⟨events, proceeds, -, obeys, -⟩ := host_obeys watched rfl [.runText scouting]
  exact ⟨rfl, by decide +kernel, events, proceeds, obeys⟩

end StepShell.Machine

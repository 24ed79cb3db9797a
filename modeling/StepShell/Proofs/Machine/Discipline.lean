import StepShell.Proofs.Machine.Runs
import StepShell.Proofs.Script.Defines

/-! A command that runs through leaves the lowered scopes and the screens put aside as it found
them, and the screen only grows. -/

namespace StepShell.Machine

variable {ω η : Type} [Operator ω] [Host η]

theorem wrapped_block {actions : List Action} (block : Block actions) : Block (wrapped actions) :=
  (block.cons rfl (by trivial)).append (Block.single rfl (by trivial))

omit [Host η] in
theorem build_eq_ok {node : Node} {append : Bool} {machine after : Machine ω η} {value : Unit}
    (done : (build node append).run machine = (.ok value, after)) :
    ∃ actions compiled, (node.compile machine.setting).run
        ⟨machine.sandbox.functions, if append then machine.slots else #[], machine.operator⟩ =
          (.ok actions, compiled) ∧
      after = { machine.withCompilation compiled with
        pending := (if append then machine.pending else []) ++ wrapped actions
        ticks := if append then machine.ticks else 0 } := by
  unfold build at done
  rw [ExceptT.run_mk] at done
  dsimp only at done
  split at done
  rename_i result middle made
  split at done
  · cases done
  · cases done
    obtain ⟨compiled, compiles, rfl⟩ := compiling_eq.mp made
    cases append with
    | false => exact ⟨_, compiled, compiles, rfl⟩
    | true => exact ⟨_, compiled, compiles, rfl⟩

omit [Host η] in
/-- A build that fails leaves what compiling left, but for what is taken back. -/
theorem build_eq_error {node : Node} {append : Bool} {machine after : Machine ω η}
    {failure : Failure} (failed : (build node append).run machine = (.error failure, after)) :
    ∃ compiled, (node.compile machine.setting).run
        ⟨machine.sandbox.functions, if append then machine.slots else #[], machine.operator⟩ =
          (.error failure, compiled) ∧
      after = { machine with
        slots := if append then compiled.slots.take machine.slots.size else machine.slots
        operator := compiled.operator } := by
  unfold build at failed
  rw [ExceptT.run_mk] at failed
  dsimp only at failed
  split at failed
  rename_i result middle made
  split at failed
  · cases failed
    obtain ⟨compiled, compiles, rfl⟩ := compiling_eq.mp made
    cases append with
    | false => exact ⟨compiled, compiles, rfl⟩
    | true => exact ⟨compiled, compiles, rfl⟩
  · cases failed

omit [Host η] in
/-- What is built of a parsed command is a block, in place of what was pending or after it. -/
theorem build_sound {node : Node} {append : Bool} {machine after : Machine ω η} {value : Unit}
    (formed : Formed .command node) (functions : machine.sandbox.functions.Sound)
    (commands : machine.commands = Command.standard) (slots : append → SoundSlots machine.slots)
    (done : (build node append).run machine = (.ok value, after)) :
    after.Sound ∧ machine.sandbox.Keeps after.sandbox ∧ ∃ block, Block block ∧
      after.pending = (if append then machine.pending else []) ++ block := by
  obtain ⟨actions, compiled, made, rfl⟩ := build_eq_ok done
  have started : SoundSlots (if append then machine.slots else #[]) := by
    split
    · exact slots ‹_›
    · exact .empty
  obtain ⟨block, sound⟩ := Compilation.compile_makes formed _ _ _ _ ⟨functions, started⟩ made
  refine ⟨⟨commands, sound.functions, sound.slots⟩, ?_, _, wrapped_block block, rfl⟩
  exact ⟨rfl, rfl, ⟨"", (String.append_empty).symm⟩, fun _ => sound.functions⟩

/-- A command of a script, built and drained, leaves the scopes and captures as it found them and
only adds to the screen. -/
theorem run_disciplined {text : String} {nodes : List Node} {node : Node}
    {machine after : Machine ω η} (parsed : Script.parse text = .ok nodes) (member : node ∈ nodes)
    (functions : ∀ name body, machine.sandbox.functions.get? name = some body → Script.Defines body)
    (commands : machine.commands = Command.standard)
    (done : (run node).run machine = (.ok (), after)) :
    after.sandbox.scopes = machine.sandbox.scopes ∧
      after.sandbox.captures = machine.sandbox.captures ∧
      ∃ printed, after.sandbox.screen = machine.sandbox.screen ++ printed := by
  have formed := Script.parse_formed parsed node member
  have known : machine.sandbox.functions.Sound :=
    fun name body found => (functions name body found).formed
  obtain ⟨_, built, made, drained⟩ := run_bind_eq_ok.mp done
  obtain ⟨sound, early, actions, block, pending⟩ :=
    build_sound formed known commands (by nofun) made
  have inside : Inside built.sandbox [] built :=
    ⟨sound, [], actions, by rw [pending, List.append_nil]; rfl, block.closes, .here (.refl _)⟩
  have ran := drain_runs drained
  obtain ⟨later, _⟩ := ran.keeps sound.functions (inside.withTicks 0)
  obtain ⟨scopes, captures, screen, _⟩ := early.trans later
  exact ⟨scopes, captures, screen⟩

/-- A script that defines a function, and its body. -/
def defining : String := "f() { echo a; }"

def definedBody : Node :=
  ((Script.nodes defining).flatMap Node.children).headD default

/-- A scope is lowered, a screen is put aside, and a script has defined a function. -/
def midway : Machine Absent Disabled :=
  create { (Sandbox.startingIn "/root").lower.beginCapture with
    functions := Table.empty.insert "f" definedBody } Command.standard {} {} {}

theorem definedBody_defines : Script.Defines definedBody := by
  have whole : Script.nodes defining = [.function "f" definedBody ⟨0, 15⟩] := by decide +kernel
  refine ⟨defining, Script.nodes defining, Script.parse_eq_nodes (by decide +kernel), _, ?_,
    "f", ⟨0, 15⟩, .self⟩
  rw [whole]
  exact List.mem_singleton_self _

/-- Inside a group, functions and substitutions, with a redirect and a nested shell. -/
theorem run_disciplined_midway :
    let text := "( g() { f; }; g $(f) ) > out && bash -c f"
    let node := (Script.nodes text).headD default
    ∃ after, Script.parse text = .ok (Script.nodes text) ∧ node ∈ Script.nodes text ∧
      (∀ name body, midway.sandbox.functions.get? name = some body → Script.Defines body) ∧
      midway.commands = Command.standard ∧ (run node).run midway = (.ok (), after) ∧
      after.sandbox.scopes = midway.sandbox.scopes ∧
      after.sandbox.captures = midway.sandbox.captures ∧
      ∃ printed, after.sandbox.screen = midway.sandbox.screen ++ printed := by
  intro text node
  have parsed : Script.parse text = .ok (Script.nodes text) :=
    Script.parse_eq_nodes (by decide +kernel)
  have single : Script.nodes text = [node] := by decide +kernel
  have member : node ∈ Script.nodes text := by
    rw [single]
    exact List.mem_singleton_self node
  have functions : ∀ name body, midway.sandbox.functions.get? name = some body →
      Script.Defines body := by
    intro name body found
    change (Table.empty.insert "f" definedBody).get? name = some body at found
    rw [Table.get?_insert] at found
    split at found
    · cases found
      exact definedBody_defines
    · rw [Table.get?_empty] at found
      cases found
  have done : (run node).run midway = (.ok (), ((run node).run midway).2) :=
    run_eq_of_isOk (by decide +kernel)
  exact ⟨_, parsed, member, functions, rfl, done,
    run_disciplined parsed member functions rfl done⟩

end StepShell.Machine

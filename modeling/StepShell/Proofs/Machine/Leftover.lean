import StepShell.Proofs.Machine.Integrity

/-! How many scopes and captures stay open when all that is pending is executed. Executing does not
change that number, and neither does building behind what is pending; what is taken away without
being executed may. -/

namespace StepShell

/-- How many brackets of a kind are open after a move. Nothing happens where none is open to
close. -/
def Move.count : Bracket → Move → Nat → Nat
  | .scope, .opens .scope, count | .capture, .opens .capture, count => count + 1
  | .scope, .closes .scope, count | .capture, .closes .capture, count => count - 1
  | _, _, count => count

/-- How many brackets are open after actions that nothing else is put before. -/
def leftOpen (bracket : Bracket) (actions : List Action) (count : Nat) : Nat :=
  actions.foldl (fun count action => action.operation.move.count bracket count) count

/-- The brackets of a kind among those listed. -/
def Bracket.among : Bracket → List Bracket → Nat
  | _, [] => 0
  | .scope, .scope :: rest => Bracket.among .scope rest + 1
  | .capture, .capture :: rest => Bracket.among .capture rest + 1
  | bracket, _ :: rest => bracket.among rest

theorem Move.count_opens (bracket kind : Bracket) (opened : List Bracket) (count : Nat) :
    Move.count bracket (.opens kind) (bracket.among opened + count) =
      bracket.among (kind :: opened) + count := by
  cases bracket <;> cases kind
  case scope.scope | capture.capture => exact Nat.add_right_comm _ _ 1
  all_goals rfl

theorem Move.count_closes (bracket kind : Bracket) (opened : List Bracket) (count : Nat) :
    Move.count bracket (.closes kind) (bracket.among (kind :: opened) + count) =
      bracket.among opened + count := by
  cases bracket <;> cases kind
  case scope.scope | capture.capture =>
    show _ + 1 + count - 1 = _
    omega
  all_goals rfl

/-- Actions that close these brackets leave just the others. -/
theorem Closes.leftOpen_among {opened : List Bracket} {actions : List Action}
    (closes : Closes opened actions) (bracket : Bracket) (count : Nat) :
    leftOpen bracket actions (bracket.among opened + count) = count := by
  induction closes with
  | done => exact Nat.zero_add count
  | stay move _ _ ih =>
    rw [leftOpen, List.foldl_cons, move]
    cases bracket <;> exact ih
  | opens move _ ih =>
    rw [leftOpen, List.foldl_cons, move, Move.count_opens]
    exact ih
  | closes move _ ih =>
    rw [leftOpen, List.foldl_cons, move, Move.count_closes]
    exact ih

theorem Block.leftOpen_eq {actions : List Action} (block : Block actions) (bracket : Bracket)
    (count : Nat) : leftOpen bracket actions count = count := by
  have closed := block.closes.leftOpen_among bracket count
  rwa [Bracket.among, Nat.zero_add] at closed

theorem leftOpen_append (bracket : Bracket) (first second : List Action) (count : Nat) :
    leftOpen bracket (first ++ second) count =
      leftOpen bracket second (leftOpen bracket first count) :=
  List.foldl_append

namespace Sandbox

/-- How many brackets of a kind are open. -/
def opened (sandbox : Sandbox) : Bracket → Nat
  | .scope => sandbox.scopes.length
  | .capture => sandbox.captures.length

theorem opened_eq {before after : Sandbox} (scopes : after.scopes = before.scopes)
    (captures : after.captures = before.captures) (bracket : Bracket) :
    after.opened bracket = before.opened bracket := by
  cases bracket
  · exact congrArg List.length scopes
  · exact congrArg List.length captures

theorem opened_raise (sandbox : Sandbox) (bracket : Bracket) :
    sandbox.raise.opened bracket = Move.count bracket (.closes .scope) (sandbox.opened bracket) := by
  unfold raise
  split
  · rename_i top
    cases bracket
    · show sandbox.scopes.length = sandbox.scopes.length - 1
      rw [top]
      rfl
    · rfl
  · rename_i lowered
    cases bracket
    · exact (congrArg (List.length · - 1) lowered).symm
    · rfl

theorem opened_endCapture (sandbox : Sandbox) (bracket : Bracket) :
    sandbox.endCapture.opened bracket =
      Move.count bracket (.closes .capture) (sandbox.opened bracket) := by
  unfold endCapture
  split
  · rename_i top
    cases bracket
    · rfl
    · show sandbox.captures.length = sandbox.captures.length - 1
      rw [top]
      rfl
  · rename_i begun
    cases bracket
    · rfl
    · exact (congrArg (List.length · - 1) begun).symm

/-- A move that closes nothing opens what it says. -/
theorem Moves.opened_eq {move : Move} {before after : Sandbox} (moves : Moves move before after)
    (opening : ∀ bracket, move ≠ .closes bracket) (bracket : Bracket) :
    after.opened bracket = move.count bracket (before.opened bracket) := by
  cases move with
  | stay => cases bracket <;> exact Sandbox.opened_eq moves.scopes moves.captures _
  | opens kind =>
    cases kind with
    | scope =>
      obtain ⟨below, keeps, _, _, scopes, captures, _⟩ := moves
      cases bracket
      · show after.scopes.length = before.scopes.length + 1
        rw [scopes, List.length_cons, keeps.scopes]
      · exact congrArg List.length (captures.trans keeps.captures)
    | capture =>
      obtain ⟨below, keeps, scopes, captures, _⟩ := moves
      cases bracket
      · exact congrArg List.length (scopes.trans keeps.scopes)
      · show after.captures.length = before.captures.length + 1
        rw [captures, List.length_cons, keeps.captures]
  | closes kind => exact absurd rfl (opening kind)

end Sandbox

namespace Operation

/-- What an operation will look for includes all that it will compile. -/
theorem Supplied.sound {operation : Operation} {slots : Array (List Node)}
    (supplied : operation.Supplied slots) : operation.Sound := by
  cases operation with
  | decide | choose => exact supplied
  | _ => trivial

end Operation

namespace Machine

variable {ω η : Type}

/-- How many brackets of a kind will be left open by what is pending. -/
def leftOpen (machine : Machine ω η) (bracket : Bracket) : Nat :=
  StepShell.leftOpen bracket machine.pending (machine.sandbox.opened bracket)

variable [Operator ω]

/-- The machine is sound, and its actions will find what they look for. -/
structure Hale (origin : Sandbox) (machine : Machine ω η) : Prop where
  sound : machine.Sound
  intact : machine.Intact origin

theorem execute_opened [Host η] {operation : Operation} {before after : Machine ω η} {value : Unit}
    (sound : before.Sound) (formed : operation.Sound)
    (done : (execute operation : Step ω η Unit).run before = (.ok value, after))
    (bracket : Bracket) :
    after.sandbox.opened bracket = operation.move.count bracket (before.sandbox.opened bracket) := by
  have raising : ∀ below : Sandbox, below.scopes = before.sandbox.scopes →
      below.captures = before.sandbox.captures →
      below.raise.opened bracket =
        Move.count bracket (.closes .scope) (before.sandbox.opened bracket) := by
    intro below scopes captures
    rw [Sandbox.opened_raise, Sandbox.opened_eq scopes captures]
  have flushed := Sandbox.flush_keeps before.sandbox
  have moved := (execute_moves sound formed done).sandbox
  cases operation with
  | raise | leaveFunction =>
    rw [run_modify_eq_ok.mp done]
    exact raising _ flushed.scopes flushed.captures
  | leaveSubstitution index word part =>
    rw [leaveSubstitution_sandbox done]
    exact raising _ rfl rfl
  | endCapture =>
    rw [run_modify_eq_ok.mp done]
    exact Sandbox.opened_endCapture _ bracket
  | _ => exact moved.opened_eq (fun _ => nofun) bracket

/-- What an executed action puts first closes what it opens. -/
theorem execute_leftOpen [Host η] {operation : Operation} {before after : Machine ω η}
    {value : Unit} (sound : before.Sound) (formed : operation.Sound)
    (done : (execute operation : Step ω η Unit).run before = (.ok value, after))
    (bracket : Bracket) : after.leftOpen bracket = StepShell.leftOpen bracket before.pending
      (operation.move.count bracket (before.sandbox.opened bracket)) := by
  obtain ⟨first, pending, block⟩ := (execute_moves sound formed done).pending
  rw [leftOpen, pending, leftOpen_append, block.leftOpen_eq, execute_opened sound formed done]

namespace Hale

variable {origin : Sandbox} {machine after : Machine ω η}

theorem clear (hale : machine.Hale origin) : machine.clear.Hale origin :=
  ⟨⟨hale.sound.commands, hale.sound.functions, .empty⟩, hale.intact.clear⟩

/-- The sandbox is replaced, but what was put aside in it is known. -/
theorem withSandbox (hale : machine.Hale origin) {sandbox : Sandbox} (known : sandbox.Known) :
    Hale origin { machine with sandbox } :=
  ⟨⟨hale.sound.commands, known.functions, hale.sound.slots⟩,
    ⟨hale.intact.commands, known, hale.intact.initial, hale.intact.pending⟩⟩

theorem withTicks (hale : machine.Hale origin) (ticks : Nat) : Hale origin { machine with ticks } :=
  ⟨⟨hale.sound.commands, hale.sound.functions, hale.sound.slots⟩,
    ⟨hale.intact.commands, hale.intact.sandbox, hale.intact.initial, hale.intact.pending⟩⟩

theorem rest {action : Action} {rest : List Action} (hale : machine.Hale origin)
    (pending : machine.pending = action :: rest) (ticks : Nat) :
    Hale origin { machine with pending := rest, ticks } :=
  ⟨withPending_sound hale.sound rest ticks, hale.intact.rest pending ticks⟩

theorem pop (hale : machine.Hale origin) : machine.pop.2.Hale origin :=
  ⟨settle_sound (withPending_sound hale.sound machine.pending.tail machine.ticks),
    hale.intact.pop⟩

/-- A reset brings back the first sandbox and leaves nothing pending. -/
theorem reset (hale : machine.Hale origin) : machine.reset.Hale origin :=
  ⟨⟨hale.sound.commands, hale.intact.reset.sandbox.functions, .empty⟩, hale.intact.reset⟩

/-- An inch changes nothing of what will be left open. -/
theorem inch [Host η] {more : Bool} (hale : machine.Hale origin)
    (done : inch.run machine = (.ok more, after)) :
    after.Hale origin ∧ ∀ bracket, after.leftOpen bracket = machine.leftOpen bracket := by
  have intact := (inch_sustains hale.intact _ _ done).1
  cases pending : machine.pending with
  | nil =>
    obtain ⟨_, rfl⟩ := inch_nil_eq_ok pending done
    exact ⟨hale, fun _ => rfl⟩
  | cons action later =>
    obtain ⟨_, _, executed, ran, rfl⟩ := inch_eq_ok pending done
    have started := (hale.rest pending (machine.ticks + 1)).sound
    have formed : action.operation.Sound :=
      (hale.intact.pending.each action (pending ▸ .head _)).sound
    have step := execute_moves started formed ran
    obtain ⟨samePending, sameSandbox, _⟩ := settle_frame executed
    have functions := intact.sandbox.functions
    rw [sameSandbox] at functions
    have sound : executed.Sound :=
      ⟨step.commands.trans hale.sound.commands, functions, step.slots⟩
    refine ⟨⟨settle_sound sound, intact⟩, fun bracket => ?_⟩
    have left := execute_leftOpen started formed ran bracket
    rw [leftOpen, samePending, sameSandbox]
    rw [leftOpen] at left
    rw [left, leftOpen, pending]
    rfl

theorem runs [Host η] {rest : List Action} (hale : machine.Hale origin)
    (ran : Runs rest machine after) :
    after.Hale origin ∧ ∀ bracket, after.leftOpen bracket = machine.leftOpen bracket := by
  induction ran with
  | done => exact ⟨hale, fun _ => rfl⟩
  | inch _ inched _ ih =>
    obtain ⟨onward, left⟩ := hale.inch inched
    obtain ⟨ended, same⟩ := ih onward
    exact ⟨ended, fun bracket => (same bracket).trans (left bracket)⟩

/-- When all that is pending was executed, what was to be left open is open. -/
theorem drain [Host η] {value : Unit} (hale : machine.Hale origin)
    (done : drain.run machine = (.ok value, after)) :
    after.Hale origin ∧ after.pending = [] ∧
      ∀ bracket, after.leftOpen bracket = machine.leftOpen bracket := by
  have ran := drain_runs done
  obtain ⟨ended, same⟩ := (hale.withTicks 0).runs ran
  exact ⟨ended, ran.pending, same⟩

/-- A build behind what is pending changes nothing of what will be left open. In place of it, all
that is open stays. -/
theorem build {node : Node} {append : Bool} {value : Unit} (hale : machine.Hale origin)
    (formed : Formed .command node) (done : (build node append).run machine = (.ok value, after)) :
    after.Hale origin ∧ ∀ bracket, after.leftOpen bracket =
      if append then machine.leftOpen bracket else machine.sandbox.opened bracket := by
  obtain ⟨sound, keeps, block, balanced, pending⟩ := build_sound formed hale.sound.functions
    hale.sound.commands (fun _ => hale.sound.slots) done
  refine ⟨⟨sound, (build_intact formed hale.intact done).1⟩, fun bracket => ?_⟩
  rw [leftOpen, pending, leftOpen_append, balanced.leftOpen_eq,
    Sandbox.opened_eq keeps.scopes keeps.captures]
  cases append <;> rfl

/-- What no scope, no capture and no function depends on may change. -/
theorem edit (hale : machine.Hale origin) {sandbox : Sandbox}
    (scopes : sandbox.scopes = machine.sandbox.scopes)
    (functions : machine.sandbox.functions.Sound → sandbox.functions.Sound) :
    Hale origin { machine with sandbox } := by
  refine hale.withSandbox ⟨functions hale.intact.sandbox.functions, ?_⟩
  rw [scopes]
  exact hale.intact.sandbox.scopes

theorem shell [Host η] (hale : machine.Hale origin) (text : String) (forward : Bool) :
    (machine.shell text forward).Hale origin :=
  ⟨⟨hale.sound.commands, hale.sound.functions, hale.sound.slots⟩,
    ⟨hale.intact.commands, ⟨hale.intact.sandbox.functions, hale.intact.sandbox.scopes⟩,
      hale.intact.initial, hale.intact.pending⟩⟩

/-- To run commands in place of what is pending leaves open what was open before. -/
theorem runAll [Host η] {nodes : List Node} {value : Unit} (hale : machine.Hale origin)
    (each : ∀ node ∈ nodes, Formed .command node)
    (done : (runAll nodes).run machine = (.ok value, after)) :
    after.Hale origin ∧ ∀ bracket, after.leftOpen bracket =
      if nodes.isEmpty then machine.leftOpen bracket else machine.sandbox.opened bracket := by
  induction nodes generalizing machine with
  | nil =>
    obtain ⟨_, rfl⟩ := run_pure_eq_ok.mp done
    exact ⟨hale, fun _ => rfl⟩
  | cons node rest ih =>
    obtain ⟨first, later⟩ := List.forall_mem_cons.mp each
    obtain ⟨_, ran, once, onward⟩ := run_bind_eq_ok.mp done
    obtain ⟨_, built, start, drained⟩ := run_bind_eq_ok.mp once
    obtain ⟨made, open_⟩ := hale.build first start
    obtain ⟨idle, ended, same⟩ := made.drain drained
    obtain ⟨kept, left⟩ := ih idle later onward
    have opened : ∀ bracket, ran.leftOpen bracket = ran.sandbox.opened bracket := by
      intro bracket
      rw [leftOpen, ended]
      rfl
    refine ⟨kept, fun bracket => ?_⟩
    rw [left, ← opened, ite_self, same, open_]
    rfl

end Hale

end Machine

end StepShell

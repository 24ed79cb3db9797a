import StepShell.Proofs.Machine.Driven
import StepShell.Proofs.Machine.Shadow
import StepShell.Proofs.Sandbox.Reading

/-! Going on from what is read back of a machine between two actions. All that its sandbox holds is
read back but the scopes that are lowered and the captures under way, so nothing may be open then.
What is kept of a sandbox that is written as JSON does not depend on how the sandbox came about. -/

namespace StepShell

/-- All of the sandbox is in its JSON text, and the text can be read. -/
structure Sandbox.Closed (sandbox : Sandbox) : Prop where
  scopes : sandbox.scopes = []
  captures : sandbox.captures = []
  shallow : sandbox.toJson.nesting ≤ Json.maxNesting

/-- What is on the screens started with different texts, and is the same behind them. Nothing is put
aside. -/
structure View.Started (first second : String) (view twin : View) : Prop where
  screens : ∃ printed, view.screen = first ++ printed ∧ twin.screen = second ++ printed
  scopes : view.scopes = [] ∧ twin.scopes = []
  captures : view.captures = [] ∧ twin.captures = []

theorem View.started_additive (first second : String) :
    Sandbox.Additive (Started first second) := by
  rintro view other text ⟨⟨printed, screen, twin⟩, scopes, captures⟩
  refine ⟨⟨printed ++ text, ?_, ?_⟩, scopes, captures⟩
  · rw [print, screen, String.append_assoc]
  · rw [print, twin, String.append_assoc]

namespace Machine

variable {ω η : Type}

/-- The machine with the sandbox that is read back from its text. -/
def reread? (machine : Machine ω η) : Option (Machine ω η) :=
  machine.sandbox.reread?.map fun sandbox => { machine with sandbox }

/-- The machine with this on its screen. -/
def onScreen (machine : Machine ω η) (screen : String) : Machine ω η :=
  { machine with sandbox := { machine.sandbox with screen } }

variable [Operator ω] [Host η]

/-- Draining the second machine comes to what draining the first one comes to, and asks and runs the
same. -/
structure Ends (machine other : Machine ω η) : Prop where
  result : (drain.run other).1 = (drain.run machine).1
  sandbox : (drain.run other).2.sandbox = (drain.run machine).2.sandbox
  operator : (drain.run other).2.operator = (drain.run machine).2.operator
  host : (drain.run other).2.host = (drain.run machine).2.host

/-- What is read back is enough to go on. -/
def Restores (machine : Machine ω η) : Prop :=
  ∃ other, machine.reread? = some other ∧ Ends machine other

/-- The machine stands where so many inches after building the node lead from the start. -/
def Pauses (start : Machine ω η) (node : Node) (count : Nat) (paused : Machine ω η) : Prop :=
  ∃ built, (build node false).run start = (.ok (), built) ∧ Paces count built paused

omit [Operator ω] [Host η] in
theorem reread?_eq {machine : Machine ω η} (words : machine.sandbox.Words) :
    machine.reread? = if machine.sandbox.toJson.nesting ≤ Json.maxNesting then
      some { machine with sandbox := { machine.sandbox with scopes := [], captures := [] } }
    else none := by
  rw [reread?, Sandbox.reread?_eq words]
  split <;> rfl

omit [Operator ω] [Host η] in
theorem reread?_pending {machine other : Machine ω η} (read : machine.reread? = some other) :
    other.pending = machine.pending := by
  obtain ⟨sandbox, _, rfl⟩ := Option.map_eq_some_iff.mp read
  rfl

omit [Operator ω] [Host η] in
/-- What is read back is the same machine exactly when all of its sandbox is in the text. -/
theorem reread?_eq_some_self {machine : Machine ω η} (words : machine.sandbox.Words) :
    machine.reread? = some machine ↔ machine.sandbox.Closed := by
  rw [reread?_eq words]
  split
  · rename_i shallow
    rw [Option.some_inj]
    constructor
    · intro same
      have kept := congrArg sandbox same
      exact ⟨(congrArg Sandbox.scopes kept).symm, (congrArg Sandbox.captures kept).symm, shallow⟩
    · intro closed
      rw [← closed.scopes, ← closed.captures]
  · rename_i deep
    exact ⟨nofun, fun closed => absurd closed.shallow deep⟩

omit [Operator ω] [Host η] in
theorem twins_settles :
    Settles fun _ (machine twin : Machine ω η) => Twins .none Eq machine twin :=
  fun _ _ _ twins => ⟨twins.sandbox, Link.none_joins _, twins.commands, twins.limits,
    twins.operator, twins.host⟩

omit [Host η] in
theorem shadows_settles (base : View → View → Prop) (outer : Sandbox) :
    Settles fun first (machine twin : Machine ω η) =>
      ∃ opened, Shadows .none base outer first opened machine twin := by
  rintro first machine twin ⟨opened, closes, within, sound, twins⟩
  exact ⟨opened, closes, within, ⟨sound.commands, sound.functions, .empty⟩, twins.sandbox,
    Link.none_joins _, twins.commands, twins.limits, twins.operator, twins.host⟩

omit [Host η] in
/-- What is built on either of two screens is the same, and so is what was printed since. -/
theorem build_shadows {start built other : Machine ω η} {node : Node} {screen : String}
    (given : start.sandbox.Given) (scopes : start.sandbox.scopes = [])
    (captures : start.sandbox.captures = []) (commands : start.commands = Command.standard)
    (gives : Script.Gives node) (done : (build node false).run start = (.ok (), built))
    (doing : (build node false).run (start.onScreen screen) = (.ok (), other)) :
    Follows Link.none.place built.pending other.pending ∧ ∃ opened,
      Shadows .none (View.Started start.sandbox.screen screen) built.sandbox built.pending opened
        built other := by
  obtain ⟨sound, _, block, balanced, pending⟩ := build_sound gives.formed given.known.functions
    commands (by nofun) done
  obtain ⟨actions, compiled, made, rfl⟩ := build_eq_ok done
  obtain ⟨others, compiling, making, rfl⟩ := build_eq_ok doing
  cases made.symm.trans making
  have follows : Follows Link.none.place actions actions :=
    Compilation.compile_stands made fun _ _ => rfl
  have started : View.Started start.sandbox.screen screen start.sandbox.view
      (start.onScreen screen).sandbox.view :=
    ⟨⟨"", by rw [String.append_empty]; rfl, by rw [String.append_empty]; rfl⟩, ⟨scopes, scopes⟩,
      captures, captures⟩
  refine ⟨(Follows.single rfl rfl).append (follows.append (Follows.single rfl rfl)), [], ?_,
    .here (.refl _), sound, ⟨rfl, .here started⟩, Link.none_joins _, rfl, rfl, rfl, rfl⟩
  rw [pending]
  exact balanced.closes

omit [Host η] in
/-- Where something is open both screens are the same, so what is read back of both machines comes
to the same. -/
theorem Shadows.reread {base : View → View → Prop} {outer : Sandbox} {first : List Action}
    {bracket : Bracket} {opened : List Bracket} {machine other reread again : Machine ω η}
    (shadows : Shadows .none base outer first (bracket :: opened) machine other)
    (words : machine.sandbox.Words) (read : machine.reread? = some reread)
    (reading : other.reread? = some again) : Twins .none Eq reread again := by
  obtain ⟨_, _, _, twins⟩ := shadows
  have same := twins.sandbox.same
  have screens : other.sandbox.screen = machine.sandbox.screen := twins.sandbox.view.inside
  have wording : other.sandbox.Words := by
    rw [← same]
    exact words
  have alike : ({ other.sandbox with scopes := [], captures := [] } : Sandbox) =
      { machine.sandbox with scopes := [], captures := [] } := by
    rw [← same]
    change machine.sandbox.seen ⟨other.sandbox.screen, [], []⟩ = _
    rw [screens]
    rfl
  rw [reread?_eq words] at read
  rw [reread?_eq wording, alike] at reading
  split at read
  · split at reading
    · cases read
      cases reading
      exact ⟨Sandbox.alike_eq _, twins.slots, twins.commands, twins.limits, twins.operator,
        twins.host⟩
    · cases reading
  · cases read

/-- Both machines are drained to the same as what is read back of them. If something is open, they
were started on the same screen. -/
theorem Shadows.same_start {first second : String} {outer : Sandbox} {bracket : Bracket}
    {opened : List Bracket} {machine other reread again : Machine ω η}
    (shadows : Shadows .none (View.Started first second) outer machine.pending (bracket :: opened)
      machine other)
    (follows : Follows Link.none.place machine.pending other.pending)
    (known : outer.functions.Sound) (words : machine.sandbox.Words)
    (done : (drain.run machine).1 = .ok ()) (doing : (drain.run other).1 = .ok ())
    (read : machine.reread? = some reread) (reading : other.reread? = some again)
    (ends : Ends machine reread) (ending : Ends other again) : second = first := by
  have beside : Follows Link.none.place reread.pending again.pending := by
    rw [reread?_pending read, reread?_pending reading]
    exact follows
  -- what is read back of both goes the same way, but both themselves end behind their own start
  have last := (twins_coupling .none).drain twins_settles (shadows.reread words read reading) beside
    (Prod.ext (ends.result.trans done) rfl) (Prod.ext (ending.result.trans doing) rfl)
  obtain ⟨closing, closes, _, _, twins⟩ :=
    (shadow_coupling .none (View.started_additive first second) known).drain
      (shadows_settles _ outer) ⟨_, shadows⟩ follows (Prod.ext done rfl) (Prod.ext doing rfl)
  cases closes
  cases twins.sandbox.view with
  | here started =>
    obtain ⟨printed, shown, showing⟩ := started.screens
    have same : second ++ printed = first ++ printed :=
      calc second ++ printed
        _ = (drain.run other).2.sandbox.screen := showing.symm
        _ = (drain.run again).2.sandbox.screen := by rw [ending.sandbox]
        _ = (drain.run reread).2.sandbox.screen := by rw [last.sandbox.eq]
        _ = (drain.run machine).2.sandbox.screen := by rw [ends.sandbox]
        _ = first ++ printed := shown
    exact (String.append_left_inj printed).mp same

/-- What is read back is the same machine exactly when all of its sandbox is in the text, and then
it is enough to go on. It is not on either of two screens where the same command has left something
open. -/
theorem restores_closed {paused : Machine ω η} (words : paused.sandbox.Words) :
    (paused.reread? = some paused ↔ paused.sandbox.Closed) ∧
    (paused.sandbox.Closed → paused.Restores) ∧
    ∀ (start other : Machine ω η) (node : Node) (count : Nat) (screen : String),
      start.sandbox.Given → start.sandbox.scopes = [] → start.sandbox.captures = [] →
      start.commands = Command.standard → Script.Gives node → screen ≠ start.sandbox.screen →
      Pauses start node count paused → Pauses (start.onScreen screen) node count other →
      (drain.run paused).1 = .ok () → (drain.run other).1 = .ok () →
      paused.Restores → other.Restores → paused.sandbox.Closed := by
  refine ⟨reread?_eq_some_self words, fun closed => ?_, ?_⟩
  · exact ⟨paused, (reread?_eq_some_self words).mpr closed, rfl, rfl, rfl, rfl⟩
  intro start other node count screen given scopes captures commands gives differ pauses again
    done doing restores restored
  obtain ⟨built, building, paces⟩ := pauses
  obtain ⟨rebuilt, rebuilding, onward⟩ := again
  obtain ⟨follows, opened, shadows⟩ := build_shadows given scopes captures commands gives building
    rebuilding
  have known : built.sandbox.functions.Sound := shadows.sound.functions
  have additive := View.started_additive start.sandbox.screen screen
  obtain ⟨⟨within, held⟩, ahead⟩ := (shadow_coupling .none additive known).paces
    (shadows_settles _ built.sandbox) ⟨opened, shadows⟩ follows paces onward
  obtain ⟨reread, read, ends⟩ := restores
  obtain ⟨another, reading, ending⟩ := restored
  cases within with
  | nil =>
    obtain ⟨_, _, _, twins⟩ := held
    cases twins.sandbox.view with
    | here started =>
      refine ⟨started.scopes.1, started.captures.1, ?_⟩
      rw [reread?_eq words] at read
      split at read
      · assumption
      · cases read
  | cons bracket outside =>
    exact absurd (held.same_start ahead known words done doing read reading ends ending) differ

/-- A machine that knows a function. -/
def knowing : Machine Absent Disabled :=
  create refusing.sandbox Command.standard {} {} {}

/-- The next action lowers a scope, in which the function is called. -/
def entering (screen : String) : Machine Absent Disabled :=
  let node := (Script.nodes "( f )").headD default
  (inch.run ((build node false).run (knowing.onScreen screen)).2).2

def calling (screen : String) : Machine Absent Disabled :=
  (inch.run (entering screen)).2

theorem knowing_words {sandbox : Sandbox}
    (known : sandbox.functions = Table.empty.insert "f" definedBody) : sandbox.Words := by
  have body : definedBody = .compound [.reserved "\x7b" ⟨4, 5⟩,
      .command [.word "echo" [] false ⟨6, 10⟩, .word "a" [] false ⟨11, 12⟩] ⟨6, 12⟩,
      .reserved "\x7d" ⟨14, 15⟩] [] ⟨4, 15⟩ := by decide +kernel
  intro entry among
  rw [known] at among
  obtain rfl := List.mem_singleton.mp among
  dsimp only
  rw [body]
  simp [Node.toJson, Node.toJsonAll, Span.toJson]

/-- Before the subshell is entered all can be read back. Inside of it, where the function is about
to be called, it cannot on both of two screens. -/
theorem restores_closed_calling :
    (entering "").Restores ∧ ¬ (calling "").sandbox.Closed ∧
      ¬ ((calling "").Restores ∧ (calling "$ ").Restores) := by
  have outside : (entering "").sandbox.Words := knowing_words (by decide +kernel)
  have inside : (calling "").sandbox.Words := knowing_words (by decide +kernel)
  have closed : (entering "").sandbox.Closed :=
    ⟨by decide +kernel, by decide +kernel, by decide +kernel⟩
  have opened : ¬ (calling "").sandbox.Closed := by
    intro closed
    have lowered : (calling "").sandbox.scopes ≠ [] := by decide +kernel
    exact lowered closed.scopes
  have gives : Script.Gives ((Script.nodes "( f )").headD default) := by
    refine .inl ⟨"( f )", _, Script.parse_eq_nodes (by decide +kernel), ?_⟩
    rw [show Script.nodes "( f )" = [(Script.nodes "( f )").headD default] by decide +kernel]
    exact .head _
  have begun : Pauses (knowing.onScreen "") ((Script.nodes "( f )").headD default) 2 (calling "") :=
    ⟨_, run_eq_of_isOk (by decide +kernel),
      .through (by decide +kernel) (.through (by decide +kernel) .start)⟩
  have again : Pauses (knowing.onScreen "$ ") ((Script.nodes "( f )").headD default) 2
      (calling "$ ") :=
    ⟨_, run_eq_of_isOk (by decide +kernel),
      .through (by decide +kernel) (.through (by decide +kernel) .start)⟩
  have done := congrArg Prod.fst (run_eq_of_isOk
    (show (drain.run (calling "")).1.isOk = true by decide +kernel))
  have doing := congrArg Prod.fst (run_eq_of_isOk
    (show (drain.run (calling "$ ")).1.isOk = true by decide +kernel))
  refine ⟨(restores_closed outside).2.1 closed, opened, fun ⟨restores, restored⟩ => opened ?_⟩
  exact (restores_closed inside).2.2 knowing _ _ _ "$ " refusing_given rfl rfl rfl gives
    (by decide) begun again done doing restores restored

/-- In a subshell, a variable is about to be assigned. -/
def assigning : Machine Absent Disabled :=
  let node := (Script.nodes "( a=b )").headD default
  (inch.run (inch.run ((build node false).run fresh).2).2).2

/-- The variable is gone after the subshell, but it stays if the sandbox is read back inside of
it. -/
theorem assigning_stays :
    Pauses fresh ((Script.nodes "( a=b )").headD default) 2 assigning ∧ assigning.sandbox.Words ∧
      (drain.run assigning).1 = .ok () ∧
      (drain.run assigning).2.sandbox.vars.contains "a" = false ∧
      (∃ other, assigning.reread? = some other ∧ (drain.run other).1 = .ok () ∧
        (drain.run other).2.sandbox.vars.contains "a" = true) ∧ ¬ assigning.Restores := by
  have begun : Pauses fresh ((Script.nodes "( a=b )").headD default) 2 assigning :=
    ⟨_, run_eq_of_isOk (by decide +kernel),
      .through (by decide +kernel) (.through (by decide +kernel) .start)⟩
  have words : assigning.sandbox.Words := by
    intro entry among
    rw [show assigning.sandbox.functions.entries = [] by decide +kernel] at among
    cases among
  have done := congrArg Prod.fst (run_eq_of_isOk
    (show (drain.run assigning).1.isOk = true by decide +kernel))
  have gone : (drain.run assigning).2.sandbox.vars.contains "a" = false := by decide +kernel
  obtain ⟨other, read, through, stays⟩ : ∃ other, assigning.reread? = some other ∧
      (drain.run other).1 = .ok () ∧ (drain.run other).2.sandbox.vars.contains "a" = true := by
    have read := reread?_eq words
    rw [if_pos (by decide +kernel)] at read
    exact ⟨_, read, congrArg Prod.fst (run_eq_of_isOk (by decide +kernel)), by decide +kernel⟩
  refine ⟨begun, words, done, gone, ⟨other, read, through, stays⟩, fun ⟨again, reread, ends⟩ => ?_⟩
  cases read.symm.trans reread
  rw [← ends.sandbox, stays] at gone
  cases gone

end Machine

namespace Sandbox

/-- Every file is stored under its own name. The JSON value of a sandbox is read back without the
lowered scopes and the captures. So is its text unless it nests too deep; then nothing is read. -/
theorem snapshot_kept {sandbox : Sandbox} (words : sandbox.Words) :
    (∀ path file, sandbox.files.get? path = some file → file.name = path) ∧
      ofJson? sandbox.toJson = some { sandbox with scopes := [], captures := [] } ∧
      (ofJson? sandbox.toJson = some sandbox ↔ sandbox.scopes = [] ∧ sandbox.captures = []) ∧
      (sandbox.reread? = some { sandbox with scopes := [], captures := [] } ↔
        sandbox.toJson.nesting ≤ Json.maxNesting) ∧
      (sandbox.reread? = none ↔ ¬ sandbox.toJson.nesting ≤ Json.maxNesting) ∧
      (sandbox.reread? = some sandbox ↔ sandbox.Closed) := by
  have itself : { sandbox with scopes := [], captures := [] } = sandbox ↔
      sandbox.scopes = [] ∧ sandbox.captures = [] := by
    constructor
    · intro same
      exact ⟨(congrArg scopes same).symm, (congrArg captures same).symm⟩
    · rintro ⟨scopes, captures⟩
      rw [← scopes, ← captures]
  refine ⟨fun _ _ => sandbox.files.named, ofJson?_toJson words, ?_, ?_⟩
  · rw [ofJson?_toJson words, Option.some_inj, itself]
  · rw [reread?_eq words]
    split
    · rename_i shallow
      simp only [shallow, not_true_eq_false, reduceCtorEq, Option.some_inj, itself, true_and]
      exact ⟨fun ⟨scopes, captures⟩ => ⟨scopes, captures, shallow⟩,
        fun closed => ⟨closed.scopes, closed.captures⟩⟩
    · rename_i deep
      simp only [deep, not_false_eq_true, reduceCtorEq, true_and, false_iff]
      exact fun closed => deep closed.shallow

end Sandbox

namespace Machine

/-- Inside of the subshell the function is kept, but the scope is not. -/
theorem snapshot_kept_calling :
    (calling "").sandbox.Words ∧ (calling "").sandbox.scopes ≠ [] ∧
      ((calling "").sandbox.reread?.map Sandbox.functions =
        some (Table.empty.insert "f" definedBody)) ∧
      (calling "").sandbox.reread? ≠ some (calling "").sandbox := by
  have words : (calling "").sandbox.Words := knowing_words (by decide +kernel)
  have lowered : (calling "").sandbox.scopes ≠ [] := by decide +kernel
  have shallow : (calling "").sandbox.toJson.nesting ≤ Json.maxNesting := by decide +kernel
  obtain ⟨_, _, _, kept, _, whole⟩ := Sandbox.snapshot_kept words
  refine ⟨words, lowered, ?_, fun same => lowered (whole.mp same).scopes⟩
  rw [kept.mpr shallow]
  exact congrArg some (by decide +kernel)

/-- So many substitutions in each other. -/
def substitutions : Nat → String
  | 0 => "a"
  | count + 1 => "$(" ++ substitutions count ++ ")"

/-- What a script leaves is not read back if a function in it nests too deep. -/
theorem unread_of_nesting {text : String}
    (left : let node := (Script.nodes text).headD default
      let after := (run node).run fresh
      (Script.parse text).isOk ∧ Script.nodes text = [node] ∧ after.1.isOk ∧
        after.2.sandbox.Words ∧ after.2.sandbox.scopes = [] ∧ after.2.sandbox.captures = [] ∧
        Json.maxNesting < after.2.sandbox.toJson.nesting) :
    ∃ node machine, Script.parse text = .ok [node] ∧ (run node).run fresh = (.ok (), machine) ∧
      machine.sandbox.Words ∧ machine.sandbox.scopes = [] ∧ machine.sandbox.captures = [] ∧
      machine.sandbox.reread? = none := by
  obtain ⟨parses, single, ended, words, scopes, captures, deep⟩ := left
  refine ⟨_, _, ?_, run_eq_of_isOk ended, words, scopes, captures, ?_⟩
  · rw [Script.parse_eq_nodes parses]
    exact congrArg _ single
  · exact (Sandbox.reread?_eq words).trans (if_neg (Nat.not_le.mpr deep))

/-- A function with twenty-four substitutions in each other is too deep to be read back. -/
theorem nested_unread :
    ∃ node machine, Script.parse ("f() \x7b " ++ substitutions 24 ++ "; \x7d") = .ok [node] ∧
      (run node).run fresh = (.ok (), machine) ∧ machine.sandbox.Words ∧
      machine.sandbox.scopes = [] ∧ machine.sandbox.captures = [] ∧
      machine.sandbox.reread? = none :=
  unread_of_nesting (by decide +kernel)

end Machine

end StepShell

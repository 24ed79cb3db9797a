import StepShell.Proofs.Compilation.Unrolling
import StepShell.Proofs.Machine.Parameters

/-! The arguments of a call. From where its scope is entered to where it is left, the positional
parameters are those that the call was given, until the body changes them itself, and outside of the
calls that it makes. The body is compiled before that, with the parameters of the caller. -/

namespace StepShell

namespace Operation

/-- Whether a scope is lowered for a call. -/
def isCall : Operation → Bool
  | .enterFunction .. => true
  | _ => false

/-- The scopes that were lowered inside a call and not raised yet, the innermost first, once this is
executed: of each whether another call lowered it. There are none once the call itself is left. -/
def lowers (operation : Operation) (lowered : List Bool) : Option (List Bool) :=
  match operation.move with
  | .opens .scope => some (operation.isCall :: lowered)
  | .closes .scope => lowered.tail?
  | _ => some lowered

end Operation

/-- The variables pass these arguments in every scope that was lowered inside a call, up to the
first that another call lowered. -/
def PassesIn (given : List String) : List Bool → Variables → List Scope → Prop
  | [], vars, _ => vars.Passes given
  | called :: outer, vars, scope :: scopes =>
    (true ∉ called :: outer → vars.Passes given) ∧ PassesIn given outer scope.vars scopes
  | _ :: _, _, [] => False

namespace PassesIn

variable {given : List String} {lowered : List Bool} {vars : Variables} {scopes : List Scope}

theorem passes (passesIn : PassesIn given lowered vars scopes) (own : true ∉ lowered) :
    vars.Passes given := by
  cases lowered with
  | nil => exact passesIn
  | cons called outer =>
    cases scopes with
    | nil => cases passesIn
    | cons scope scopes => exact passesIn.1 own

theorem replace {other : Variables} (passesIn : PassesIn given lowered vars scopes)
    (passes : true ∉ lowered → other.Passes given) : PassesIn given lowered other scopes := by
  cases lowered with
  | nil => exact passes (List.not_mem_nil)
  | cons called outer =>
    cases scopes with
    | nil => cases passesIn
    | cons scope scopes => exact ⟨passes, passesIn.2⟩

end PassesIn

namespace Compilation

/-- An item of a loop that stands for all positional parameters. -/
def isList : Node → Bool
  | .word text parts _ _ => (text == "$@" || text == "$*") && !parts.any isSubstitution
  | _ => false

theorem itemValues_list {ω : Type} [Operator ω] {setting : Setting} {item : Node}
    (list : isList item = true) :
    (itemValues setting item : Compile ω (List String)) = pure setting.vars.positionals := by
  cases item with
  | word text parts quoted span =>
    obtain ⟨all, closed⟩ : (text = "$@" ∨ text = "$*") ∧ parts.any isSubstitution = false := by
      simpa [isList] using list
    simp only [itemValues, closed, if_pos all, Bool.false_eq_true, if_false]
  | _ => cases list

theorem pure_eq_pure {ω α : Type} {value other : α} (start : Compilation ω) :
    (pure value : Compile ω α) = pure other ↔ value = other := by
  constructor
  · intro same
    exact Except.ok.inj (congrArg (fun step : Compile ω α => (step.run start).1) same)
  · rintro rfl
    rfl

end Compilation

namespace Machine

variable {ω η : Type} [Operator ω] [Host η] {given : List String}

/-- Executed after a call was entered, with these scopes lowered inside it and not raised yet. While
none of them is another call's, nothing resets positional parameters. -/
inductive InCall (entered : Machine ω η) : List Bool → Machine ω η → Prop where
  | entered : InCall entered [] entered
  | inched {lowered next : List Bool} {before after : Machine ω η} {action : Action}
      {rest : List Action} (earlier : InCall entered lowered before)
      (pending : before.pending = action :: rest)
      (lowers : action.operation.lowers lowered = some next)
      (own : true ∉ lowered → ¬before.Resets action.operation)
      (inched : Machine.inch.run before = (.ok true, after)) : InCall entered next after

/-- Only a call has other variables in the scope that it lowers. -/
theorem lower_vars {machine after : Machine ω η} {operation : Operation}
    (opens : operation.move = .opens .scope) (plain : operation.isCall = false)
    (done : (execute operation).run machine = (.ok (), after)) :
    after.sandbox.vars = machine.sandbox.vars := by
  cases operation with
  | lower | enterSubshell =>
    rw [lowering_eq_ok done]
    rfl
  | enterSubstitution =>
    obtain ⟨_, _, _, _, _, rfl⟩ := enterSubstitution_eq_ok done
    rfl
  | enterFunction => cases plain
  | _ => cases opens

/-- What one action keeps of the arguments of a call. -/
theorem inch_passesIn {machine after : Machine ω η} {action : Action} {rest : List Action}
    {lowered next : List Bool} (reached : Reached machine)
    (pending : machine.pending = action :: rest)
    (lowers : action.operation.lowers lowered = some next)
    (own : true ∉ lowered → ¬machine.Resets action.operation)
    (inched : inch.run machine = (.ok true, after))
    (passesIn : PassesIn given lowered machine.sandbox.vars machine.sandbox.scopes) :
    PassesIn given next after.sandbox.vars after.sandbox.scopes := by
  obtain ⟨executed, done, step, same⟩ := reached.executes pending inched
  rw [same]
  have moves := step.sandbox
  by_cases opens : action.operation.move = .opens .scope
  · rw [Operation.lowers, opens] at lowers
    obtain rfl := Option.some.inj lowers
    rw [opens] at moves
    obtain ⟨below, keeps, vars, _, scopes, _⟩ := moves
    rw [scopes, keeps.scopes]
    refine ⟨fun outside => ?_, ?_⟩
    · obtain ⟨plain, others⟩ := not_or.mp (mt List.mem_cons.mpr outside)
      rw [lower_vars opens (Bool.eq_false_iff.mpr (Ne.symm plain)) done]
      exact passesIn.passes others
    · change PassesIn given lowered below.vars _
      rw [vars]
      exact passesIn
  · by_cases closes : action.operation.move = .closes .scope
    · rw [Operation.lowers, closes] at lowers
      rw [closes] at moves
      cases lowered with
      | nil => cases lowers
      | cons called outer =>
        obtain rfl := Option.some.inj lowers
        cases shelved : machine.sandbox.scopes with
        | nil =>
          rw [shelved] at passesIn
          cases passesIn
        | cons scope scopes =>
          rw [shelved] at passesIn
          obtain ⟨left, _, _, vars, _⟩ := moves scope scopes shelved
          rw [left, vars]
          exact passesIn.2
    · have within := And.intro opens closes
      have still : next = lowered := by
        unfold Operation.lowers at lowers
        split at lowers
        · exact absurd ‹_› opens
        · exact absurd ‹_› closes
        · exact (Option.some.inj lowers).symm
      rw [still, step.scopes done within]
      refine passesIn.replace fun outside => ?_
      let counted : Machine ω η := { machine with pending := rest, ticks := machine.ticks + 1 }
      have keeps : Preserves (PassesOn given) counted (execute action.operation) :=
        execute_passes reached.sound.commands (own outside) within
      have kept := keeps (passesIn.passes outside)
      rw [done] at kept
      exact kept

/-- Whatever is executed inside a call, its own variables pass the arguments. -/
theorem InCall.passesIn {entered now : Machine ω η} {lowered : List Bool}
    (inCall : InCall entered lowered now) (reached : Reached entered)
    (passes : entered.sandbox.vars.Passes given) :
    Reached now ∧ PassesIn given lowered now.sandbox.vars now.sandbox.scopes := by
  induction inCall with
  | entered => exact ⟨reached, passes⟩
  | inched _ pending lowers own inched ih =>
    obtain ⟨before, passesIn⟩ := ih
    exact ⟨before.inched inched, inch_passesIn before pending lowers own inched passesIn⟩

/-- A call compiles the body with the variables of the caller, and then enters the scope that has
its arguments. -/
theorem inch_calls {machine called : Machine ω η} {action : Action} {rest : List Action}
    {index : Nat} {parts : List Node} {name : String} {args : List String} {body : Node}
    (pending : machine.pending = action :: rest) (runs : action.operation = .run index)
    (held : machine.slots[index]? = some parts)
    (named : words machine.sandbox.vars parts = name :: args)
    (defined : machine.sandbox.functions.get? name = some body)
    (done : inch.run machine = (.ok true, called)) :
    ∃ actions compiled, (body.compile machine.setting).run
        ⟨machine.sandbox.functions, machine.slots, machine.operator⟩ = (.ok actions, compiled) ∧
      called.pending = .plain (.enterFunction name args) "Enter the function scope" :: actions ++
        .plain .leaveFunction "Exit the function scope" :: rest ∧
      called.sandbox.vars = machine.sandbox.vars := by
  obtain ⟨_, _, executed, ran, rfl⟩ := inch_eq_ok pending done
  let counted : Machine ω η := { machine with pending := rest, ticks := machine.ticks + 1 }
  have same : (runParts parts).run counted = (call name args body).run counted :=
    runParts_call named defined
  rw [runs] at ran
  have calls : (call name args body).run counted = (.ok (), executed) :=
    same.symm.trans (run_eq_ok held ran)
  obtain ⟨actions, _, made, put⟩ := run_bind_eq_ok.mp calls
  obtain ⟨compiled, compiles, rfl⟩ := compiling_eq.mp made
  obtain rfl := run_modify_eq_ok.mp put
  refine ⟨actions, compiled, compiles, ?_, ?_⟩
  · rw [(settle_frame _).1]
    change _ ++ rest = _
    rw [List.append_assoc]
    rfl
  · rw [(settle_frame _).2.1]
    rfl

/-- The arguments of a call are what its body sees, whatever parameters the caller has: in all
words, and in the loops that are unrolled once the scope of the call is entered. The loops that are
unrolled with the body come before that, and what they see are the parameters of the caller. Those
come back after the call. -/
theorem call_sees_arguments {machine called : Machine ω η} {action : Action} {rest : List Action}
    {index : Nat} {parts : List Node} {name : String} {args : List String} {body : Node}
    (reached : Reached machine) (pending : machine.pending = action :: rest)
    (runs : action.operation = .run index) (held : machine.slots[index]? = some parts)
    (named : words machine.sandbox.vars parts = name :: args)
    (defined : machine.sandbox.functions.get? name = some body)
    (done : inch.run machine = (.ok true, called)) :
    let bound : Compilation.Setting := ⟨machine.sandbox.vars.call args, machine.limits⟩
    (∃ actions compiled, (body.compile machine.setting).run
        ⟨machine.sandbox.functions, machine.slots, machine.operator⟩ = (.ok actions, compiled) ∧
      called.pending = .plain (.enterFunction name args) "Enter the function scope" :: actions ++
        .plain .leaveFunction "Exit the function scope" :: rest ∧
      ((∀ item, body.Unrolls item →
          (Compilation.itemValues machine.setting item : Compile ω (List String)) =
            Compilation.itemValues bound item) →
        (body.compile bound).run
          ⟨machine.sandbox.functions, machine.slots, machine.operator⟩ =
            (.ok actions, compiled))) ∧
    (∀ item, Compilation.isList item = true →
      (Compilation.itemValues bound item : Compile ω (List String)) = pure args ∧
      ((Compilation.itemValues machine.setting item : Compile ω (List String)) = pure args ↔
        machine.sandbox.vars.positionals = args)) ∧
    (∀ entered lowered now, inch.run called = (.ok true, entered) →
      InCall entered lowered now → true ∉ lowered → now.sandbox.vars.Reads args ∧
        ∀ item, Compilation.isList item = true →
          (Compilation.itemValues now.setting item : Compile ω (List String)) = pure args) ∧
    ∀ after, Runs rest called after → after.sandbox.vars = machine.sandbox.vars := by
  intro bound
  obtain ⟨actions, compiled, made, put, vars⟩ := inch_calls pending runs held named defined done
  have passed := machine.sandbox.vars.call_passes args
  refine ⟨⟨actions, compiled, made, put, fun same => ?_⟩, fun item list => ⟨?_, ?_⟩, ?_, ?_⟩
  · have agrees : (body.compile machine.setting : Compile ω (List Action)) = body.compile bound :=
      Compilation.compile_congr body rfl same
    rw [← agrees]
    exact made
  · rw [Compilation.itemValues_list list]
    exact congrArg pure passed.positionals
  · rw [Compilation.itemValues_list list]
    exact Compilation.pure_eq_pure ⟨machine.sandbox.functions, machine.slots, machine.operator⟩
  · intro entered lowered now inched inCall outside
    have began := reached.inched done
    have first : called.pending = _ :: (actions ++ _) := put
    obtain ⟨executed, ran, _, same⟩ := began.executes first inched
    have opened : entered.sandbox.vars = machine.sandbox.vars.call args := by
      rw [same, lowering_eq_ok ran, ← vars]
      rfl
    obtain ⟨_, passesIn⟩ := inCall.passesIn (began.inched inched) (opened ▸ passed)
    have passes := passesIn.passes outside
    refine ⟨passes.reads, fun item list => ?_⟩
    rw [Compilation.itemValues_list list]
    exact congrArg pure passes.positionals
  · intro after later
    have left : machine.pending = action :: [] ++ rest := pending
    exact (construct_symmetric reached (.call pending runs held named defined)
      (.inch left done later)).1

/-- A script that defines a function, and its body. -/
def greeting : String :=
  "f() \x7b echo $2 $#; if x; then :; else for a in \"$@\"; do echo $a; done; fi; \x7d"

def greetingBody : Node :=
  ((Script.nodes greeting).flatMap Node.children).headD default

theorem greetingBody_defines : Script.Defines greetingBody := by
  have whole : Script.nodes greeting = [.function "f" greetingBody ⟨0, 75⟩] := by decide +kernel
  refine ⟨greeting, Script.nodes greeting, Script.parse_eq_nodes (by decide +kernel), _, ?_,
    "f", ⟨0, 75⟩, .self⟩
  rw [whole]
  exact List.mem_singleton_self _

/-- A function is defined and a positional parameter is given. -/
def greeter : Machine Absent Disabled :=
  create { Sandbox.startingIn "/root" with
    functions := Table.empty.insert "f" greetingBody
    vars := Table.empty.insert "1" ["caller"] } Command.standard {} {} {}

theorem greeter_reached : Reached greeter := by
  refine .start ⟨rfl, rfl⟩ ?_ rfl
  intro name body found
  change (Table.empty.insert "f" greetingBody).get? name = some body at found
  rw [Table.get?_insert] at found
  split at found
  · cases found
    exact greetingBody_defines
  · rw [Table.get?_empty] at found
    cases found

deriving instance DecidableEq for Operation

/-- A caller with one parameter gives a function two arguments. -/
theorem call_sees_arguments_greeting :
    let greets := (inch.run ((build ((Script.nodes "f a b").headD default) false).run greeter).2).2
    let called := (inch.run greets).2
    let entered := (inch.run called).2
    Reached greets ∧ greets.sandbox.functions.get? "f" = some greetingBody ∧
      inch.run greets = (.ok true, called) ∧ inch.run called = (.ok true, entered) ∧
      greets.sandbox.vars.positionals = ["caller"] ∧ entered.sandbox.vars.Reads ["a", "b"] := by
  intro greets called entered
  have single : Script.nodes "f a b" = [(Script.nodes "f a b").headD default] := by decide +kernel
  have parsed : Script.parse "f a b" = .ok (Script.nodes "f a b") :=
    Script.parse_eq_nodes (by decide +kernel)
  have member : (Script.nodes "f a b").headD default ∈ Script.nodes "f a b" := by
    rw [single]
    exact List.mem_singleton_self _
  have built : (build ((Script.nodes "f a b").headD default) false).run greeter =
      (.ok (), ((build ((Script.nodes "f a b").headD default) false).run greeter).2) :=
    run_eq_of_isOk (by decide +kernel)
  have goes : ∀ machine : Machine Absent Disabled, (inch.run machine).1.toOption = some true →
      inch.run machine = (.ok true, (inch.run machine).2) :=
    fun machine went => Prod.ext (eq_ok_of_toOption went) rfl
  have reached : Reached greets :=
    (greeter_reached.built parsed member built).inched (goes _ (by decide +kernel))
  have calls : inch.run greets = (.ok true, called) := goes _ (by decide +kernel)
  have enters : inch.run called = (.ok true, entered) := goes _ (by decide +kernel)
  have defined : greets.sandbox.functions.get? "f" = some greetingBody := by decide +kernel
  have runs : greets.pending.head?.map Action.operation = some (.run 0) := by decide +kernel
  obtain ⟨action, first, runs⟩ := Option.map_eq_some_iff.mp runs
  obtain ⟨rest, pending⟩ := List.head?_eq_some_iff.mp first
  obtain ⟨-, -, inside, -⟩ := call_sees_arguments reached pending runs
    (show greets.slots[0]? = some (greets.slots[0]?.getD []) by decide +kernel)
    (show words greets.sandbox.vars (greets.slots[0]?.getD []) = ["f", "a", "b"] by decide +kernel)
    defined calls
  exact ⟨reached, defined, calls, enters, by decide +kernel,
    (inside entered [] entered enters .entered List.not_mem_nil).1⟩

/-- The list that a loop goes over is that of the caller if the loop is unrolled with the body, and
that of the call if it is unrolled later. -/
theorem call_unrolls_caller :
    let direct := "f() \x7b for a in \"$@\"; do echo $a; done; \x7d; f 1 2"
    let later := "f() \x7b if x; then :; else for a in \"$@\"; do echo $a; done; fi; \x7d; f 1 2"
    (((runText direct).run greeter).1.isOk = true ∧
      ((runText direct).run greeter).2.sandbox.screen = "caller\n") ∧
    ((runText later).run greeter).1.isOk = true ∧
      ((runText later).run greeter).2.sandbox.screen = "1\n2\n" := by
  intro direct later
  decide +kernel

end Machine

end StepShell

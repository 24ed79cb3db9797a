import StepShell.Operator.Scripted
import StepShell.Proofs.Machine.Integrity

/-! Machines that were created and driven on in any way, through successes and failures. Building a
command of a script on one fails only at a loop with too many values, and executing never fails from
within. -/

namespace StepShell

/-- A script gives this command, or defines a function with this body. -/
def Script.Gives (node : Node) : Prop :=
  (∃ text nodes, parse text = .ok nodes ∧ node ∈ nodes) ∨ Script.Defines node

theorem Script.Gives.formed {node : Node} (gives : Script.Gives node) : Formed .command node := by
  rcases gives with ⟨text, nodes, parsed, member⟩ | defines
  · exact parse_formed parsed node member
  · exact defines.formed

/-- The functions of a sandbox, and those put aside in it, have bodies that scripts give. -/
def Sandbox.Given (sandbox : Sandbox) : Prop :=
  ∀ functions, functions = sandbox.functions ∨ functions ∈ sandbox.scopes.map Scope.functions →
    ∀ name body, functions.get? name = some body → Script.Gives body

theorem Sandbox.Given.known {sandbox : Sandbox} (given : sandbox.Given) : sandbox.Known where
  functions name body found := (given _ (.inl rfl) name body found).formed
  scopes _ member name body found :=
    (given _ (.inr (List.mem_map_of_mem member)) name body found).formed

namespace Machine

variable {ω η : Type} [Operator ω] [Host η]

/-- The machine was created with the standard commands, and then did these things one after the
other, whatever came of them. -/
inductive Driven : Machine ω η → Prop where
  | created {sandbox : Sandbox} {limits : Limits} {operator : ω} {host : η}
      (given : sandbox.Given) : Driven (create sandbox Command.standard limits operator host)
  | built {machine : Machine ω η} {node : Node} (append : Bool) (before : Driven machine)
      (given : Script.Gives node) : Driven ((build node append).run machine).2
  | inched {machine : Machine ω η} (before : Driven machine) : Driven (inch.run machine).2
  | drained {machine : Machine ω η} (before : Driven machine) : Driven (drain.run machine).2
  | ran {machine : Machine ω η} {node : Node} (before : Driven machine)
      (given : Script.Gives node) : Driven ((run node).run machine).2
  | ranText {machine : Machine ω η} (script : String) (before : Driven machine) :
      Driven ((runText script).run machine).2
  | popped {machine : Machine ω η} (before : Driven machine) : Driven machine.pop.2
  | cleared {machine : Machine ω η} (before : Driven machine) : Driven machine.clear
  | reset {machine : Machine ω η} (before : Driven machine) : Driven machine.reset

theorem Driven.intact {machine : Machine ω η} (driven : Driven machine) :
    ∃ origin, machine.Intact origin := by
  induction driven with
  | created given => exact ⟨_, rfl, given.known, ⟨rfl, given.known⟩, .nil⟩
  | built append _ given ih =>
    obtain ⟨origin, intact⟩ := ih
    exact ⟨origin, (build_intact given.formed intact rfl).1⟩
  | inched _ ih =>
    obtain ⟨origin, intact⟩ := ih
    exact ⟨origin, (inch_sustains intact _ _ rfl).1⟩
  | drained _ ih =>
    obtain ⟨origin, intact⟩ := ih
    exact ⟨origin, (drain_sustains intact _ _ rfl).1⟩
  | ran _ given ih =>
    obtain ⟨origin, intact⟩ := ih
    exact ⟨origin, (run_sustains given.formed intact _ _ rfl).1⟩
  | ranText script _ ih =>
    obtain ⟨origin, intact⟩ := ih
    exact ⟨origin, (runText_sustains intact _ _ rfl).1⟩
  | popped _ ih =>
    obtain ⟨origin, intact⟩ := ih
    exact ⟨origin, intact.pop⟩
  | cleared _ ih =>
    obtain ⟨origin, intact⟩ := ih
    exact ⟨origin, intact.clear⟩
  | reset _ ih =>
    obtain ⟨origin, intact⟩ := ih
    exact ⟨origin, intact.reset⟩

/-- However a machine was driven, only a loop with too many values keeps a command of a script from
being built, and neither an action nor a run of many fails from within. -/
theorem driven_never_internal {machine : Machine ω η} (driven : Driven machine) :
    (∀ node append failure, Script.Gives node →
      ((build node append).run machine).1 = .error failure →
        ∃ limit, failure = .limit (.loop limit)) ∧
    (∀ failure, (inch.run machine).1 = .error failure → ¬ failure.Internal) ∧
    (∀ failure, (drain.run machine).1 = .error failure → ¬ failure.Internal) ∧
    (∀ node failure, Script.Gives node → ((run node).run machine).1 = .error failure →
      ¬ failure.Internal) ∧
    ∀ script failure, ((runText script).run machine).1 = .error failure → ¬ failure.Internal := by
  obtain ⟨origin, intact⟩ := driven.intact
  refine ⟨fun node append failure given failed => ?_, fun failure failed => ?_,
    fun failure failed => ?_, fun node failure given failed => ?_, fun script failure failed => ?_⟩
  · exact (build_intact given.formed intact (Prod.ext failed rfl)).2 failure rfl
  · exact (inch_sustains intact _ _ (Prod.ext failed rfl)).2 failure rfl
  · exact (drain_sustains intact _ _ (Prod.ext failed rfl)).2 failure rfl
  · exact (run_sustains given.formed intact _ _ (Prod.ext failed rfl)).2 failure rfl
  · exact (runText_sustains intact _ _ (Prod.ext failed rfl)).2 failure rfl

/-- A machine with a function, whose operator refuses a command and which allows no loops of two
values. -/
def refusing : Machine Scripted Disabled :=
  create { Sandbox.startingIn "/root" with
    functions := Table.empty.insert "f" definedBody } Command.standard { loop := 1 }
    { (default : Scripted) with commands := [.abort] } {}

theorem refusing_given : refusing.sandbox.Given := by
  intro functions among name body found
  obtain rfl : functions = Table.empty.insert "f" definedBody := among.resolve_right nofun
  rw [Table.get?_insert] at found
  split at found
  · cases found
    exact .inr definedBody_defines
  · rw [Table.get?_empty] at found
    cases found

/-- Inside the first of two substitutions, a loop cannot be built behind the command, and draining
ends where the operator refuses it. -/
theorem driven_never_internal_midway :
    let command := (Script.nodes "g $(f) > \"$(f)\"").headD default
    let loop := (Script.nodes "for i in a b; do :; done").headD default
    let started := (inch.run (inch.run ((build command false).run refusing).2).2).2
    let machine := ((build loop true).run started).2
    Driven machine ∧ Script.Gives loop ∧
      (∃ failure, ((build loop true).run machine).1 = .error failure ∧
        ∃ limit, failure = .limit (.loop limit)) ∧
      ∃ failure, (drain.run machine).1 = .error failure ∧ ¬ failure.Internal := by
  intro command loop started machine
  have given : ∀ text, (Script.parse text).isOk = true → (Script.nodes text).length = 1 →
      Script.Gives ((Script.nodes text).headD default) := by
    intro text ok single
    obtain ⟨node, same⟩ := List.length_eq_one_iff.mp single
    refine .inl ⟨text, _, Script.parse_eq_nodes ok, ?_⟩
    rw [same]
    exact .head _
  have commands : Script.Gives command := given _ (by decide +kernel) (by decide +kernel)
  have loops : Script.Gives loop := given _ (by decide +kernel) (by decide +kernel)
  have driven : Driven machine :=
    .built true (.inched (.inched (.built false (.created refusing_given) commands))) loops
  obtain ⟨refused, unbuilt⟩ := run_eq_of_not_isOk
    (show ((build loop true).run machine).1.isOk = false by decide +kernel)
  obtain ⟨stopped, undrained⟩ := run_eq_of_not_isOk
    (show (drain.run machine).1.isOk = false by decide +kernel)
  have failed := congrArg Prod.fst unbuilt
  have ended := congrArg Prod.fst undrained
  exact ⟨driven, loops, ⟨refused, failed, (driven_never_internal driven).1 loop true _ loops failed⟩,
    stopped, ended, (driven_never_internal driven).2.2.1 _ ended⟩

end Machine

end StepShell

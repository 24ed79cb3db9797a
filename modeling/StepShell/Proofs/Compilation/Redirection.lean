import StepShell.Proofs.Compilation.Relocation

/-! Compiling a command or group with one more redirect, which its output goes to. What it is
compiled to is the same, but stands inside a capture. -/

namespace StepShell

namespace Node

/-- The parts of a command or group among which its redirects stand. -/
def redirectParts? : Node → Option (List Node)
  | .command parts _ => some parts
  | .compound _ redirects _ => some redirects
  | _ => none

/-- The command or group, ending in one more redirect. -/
def redirected (node redirect : Node) (whole : Span) : Node :=
  match node with
  | .command parts _ => .command (parts ++ [redirect]) whole
  | .compound parts redirects _ => .compound parts (redirects ++ [redirect]) whole
  | node => node

end Node

/-- A formed node that redirects stand in is a command. -/
theorem Formed.redirecting {place : Place} {node : Node} (formed : Formed place node)
    {parts : List Node} (own : node.redirectParts? = some parts) : Formed .command node := by
  induction formed with
  | command each => exact .command each
  | group pair inside each => exact .group pair inside each
  | argument _ ih | redirection _ ih | stage _ ih | entry _ ih => exact ih own
  | _ => cases own

namespace Redirects

/-- Among the parts is no redirect that is written to. -/
def Quiet (parts : List Node) : Prop :=
  ∀ kind target span, .redirect kind target span ∈ parts → kind = .input

end Redirects

namespace Compilation

/-- What a command does between the actions of its redirects. -/
def innerActions (slot : Nat) (source : String) (parts : List Node) : List Action :=
  (if parts.any isAssignment then [.plain .flush ("Entering Assignment Node: " ++ source)]
    else []) ++
    (substitutions slot parts .words ++
      ((if parts.any isAssignment then [⟨.assign slot, "Variable Assignment", some source⟩]
          else []) ++
        if parts.any isWord || !parts.any isAssignment then
          [⟨.run slot, "Command node: " ++ commandName parts, some source⟩]
        else []))

theorem commandActions_eq (slot : Nat) (redirects : Redirects) (source : String)
    (parts : List Node) :
    commandActions slot redirects source parts = substitutions slot parts .targets ++
      (redirects.opening slot "command" ++ (innerActions slot source parts ++
        redirects.closing slot "command")) := by
  simp only [commandActions, innerActions, List.append_assoc]

section
variable {ω : Type} [Operator ω] {setting : Setting} {before after : Compilation ω}
  {actions : List Action}

theorem compile_command_eq_ok {parts : List Node} {span : Span}
    (made : (Node.compile setting (.command parts span)).run before = (.ok actions, after)) :
    ∃ redirects, Redirects.collect parts = .ok redirects ∧
      after = { before with slots := before.slots.push parts } ∧
      actions = commandActions before.slots.size redirects (Node.command parts span).shell
        parts := by
  rw [Node.compile] at made
  obtain ⟨redirects, _, lifted, slotted⟩ := run_bind_eq_ok.mp made
  obtain ⟨collected, rfl⟩ := run_lift_eq_ok.mp lifted
  obtain ⟨slot, _, put, given⟩ := run_bind_eq_ok.mp slotted
  obtain ⟨rfl, rfl⟩ := run_pure_eq_ok.mp given
  cases put
  exact ⟨redirects, collected, rfl, rfl⟩

theorem compile_compound_eq_ok {parts redirected : List Node} {span : Span}
    (some : redirected ≠ [])
    (made : (Node.compile setting (.compound parts redirected span)).run before =
      (.ok actions, after)) :
    ∃ redirects body, Redirects.collect redirected = .ok redirects ∧
      (Node.compileAll setting parts).run
        { before with slots := before.slots.push redirected } = (.ok body, after) ∧
      actions = substitutions before.slots.size redirected .targets ++
        redirects.opening before.slots.size "compound" ++ body ++
        redirects.closing before.slots.size "compound" := by
  rw [Node.compile] at made
  obtain ⟨redirects, _, lifted, slotted⟩ := run_bind_eq_ok.mp made
  obtain ⟨collected, rfl⟩ := run_lift_eq_ok.mp lifted
  dsimp only at slotted
  rw [if_neg (by simpa using some)] at slotted
  obtain ⟨slot, _, put, compiled⟩ := run_bind_eq_ok.mp slotted
  obtain ⟨body, _, inside, given⟩ := run_bind_eq_ok.mp compiled
  obtain ⟨rfl, rfl⟩ := run_pure_eq_ok.mp given
  cases put
  exact ⟨redirects, body, collected, inside, rfl⟩

end

end Compilation

end StepShell

/-! The operator, who decides what the sandbox cannot know: whether a condition holds, what becomes
of an unknown command, what a missing file or a download contains. -/

namespace StepShell

/-- Whether a condition holds. -/
inductive ConditionAnswer where
  | holds
  | fails
  /-- Run the condition in the sandbox and see whether it writes anything. -/
  | execute
  deriving DecidableEq, Repr, Inhabited

/-- What becomes of a command that is neither a function nor known to the sandbox. -/
inductive CommandAnswer where
  | skip
  /-- Run it on the host. -/
  | execute
  /-- Fail. -/
  | abort
  deriving DecidableEq, Repr, Inhabited

/-- Each question comes with the operator as it stands before, and gives it as it stands after. -/
class Operator (ω : Type) where
  condition : String → ω → ConditionAnswer × ω
  command : String → ω → CommandAnswer × ω
  /-- The contents of a missing file that is redirected from. -/
  input : String → ω → Option String × ω
  /-- The contents at an address. -/
  fetch : String → ω → Option String × ω
  /-- The output of the substitution in an item of a loop, which is fixed before the loop runs. -/
  items : String → ω → Option String × ω

/-- The operator who is never there: conditions fail, unknown commands are skipped, and nothing is
supplied. -/
structure Absent where
  deriving DecidableEq, Repr, Inhabited

instance : Operator Absent where
  condition _ operator := (.fails, operator)
  command _ operator := (.skip, operator)
  input _ operator := (none, operator)
  fetch _ operator := (none, operator)
  items _ operator := (none, operator)

/-- One of two operators, whichever there is. -/
instance {α β : Type} [Operator α] [Operator β] : Operator (α ⊕ β) where
  condition text operator := operator.elim
    (fun operator => (Operator.condition text operator).map id .inl)
    (fun operator => (Operator.condition text operator).map id .inr)
  command text operator := operator.elim
    (fun operator => (Operator.command text operator).map id .inl)
    (fun operator => (Operator.command text operator).map id .inr)
  input path operator := operator.elim
    (fun operator => (Operator.input path operator).map id .inl)
    (fun operator => (Operator.input path operator).map id .inr)
  fetch address operator := operator.elim
    (fun operator => (Operator.fetch address operator).map id .inl)
    (fun operator => (Operator.fetch address operator).map id .inr)
  items item operator := operator.elim
    (fun operator => (Operator.items item operator).map id .inl)
    (fun operator => (Operator.items item operator).map id .inr)

end StepShell

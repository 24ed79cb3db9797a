/-! Limits that keep every run finite, and the counter of executed actions. -/

namespace StepShell

structure Limits where
  /-- Actions that one drain may execute. -/
  actions : Nat := 100000
  /-- Scopes that may be lowered at one time. -/
  depth : Nat := 100
  /-- Values that one loop may go through. -/
  loop : Nat := 10000
  deriving DecidableEq, Repr, Inhabited

/-- Which limit was exceeded, with its value. -/
inductive ExceededLimit where
  | actions (limit : Nat)
  | depth (limit : Nat)
  | loop (limit : Nat)
  deriving DecidableEq, Repr

def ExceededLimit.message : ExceededLimit → String
  | .actions limit => s!"maximum action count exceeded ({limit})"
  | .depth limit => s!"maximum scope depth exceeded ({limit})"
  | .loop limit => s!"maximum loop iterations exceeded ({limit})"

namespace Limits

/-- Count one more action; it counts also when it is refused. -/
def tick (limits : Limits) (ticks : Nat) : Except ExceededLimit Unit × Nat :=
  if limits.actions < ticks + 1 then (.error (.actions limits.actions), ticks + 1)
  else (.ok (), ticks + 1)

/-- Whether a scope may be lowered when `depth` are lowered already. -/
def checkDepth (limits : Limits) (depth : Nat) : Except ExceededLimit Unit :=
  if limits.depth ≤ depth then .error (.depth limits.depth) else .ok ()

/-- Whether a loop may go through so many values. -/
def checkValues (limits : Limits) (values : Nat) : Except ExceededLimit Unit :=
  if limits.loop < values then .error (.loop limits.loop) else .ok ()

end Limits

end StepShell

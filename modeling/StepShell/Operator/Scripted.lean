import StepShell.Operator

/-! An operator whose answers are written down beforehand, for replays. -/

namespace StepShell

/-- Answers by kind of question, and the questions asked so far in their order. When the answers of
a kind are used up, those of an absent operator follow. -/
structure Scripted where
  conditions : List ConditionAnswer
  commands : List CommandAnswer
  inputs : List (Option String)
  fetches : List (Option String)
  items : List (Option String)
  asked : Array String
  deriving DecidableEq, Repr, Inhabited

namespace Scripted

def ask (operator : Scripted) (question : String) : Scripted :=
  { operator with asked := operator.asked.push question }

end Scripted

instance : Operator Scripted where
  condition text operator :=
    let operator := operator.ask ("truth: " ++ text)
    match operator.conditions with
    | [] => (.fails, operator)
    | answer :: conditions => (answer, { operator with conditions })
  command text operator :=
    let operator := operator.ask ("command: " ++ text)
    match operator.commands with
    | [] => (.skip, operator)
    | answer :: commands => (answer, { operator with commands })
  input path operator :=
    let operator := operator.ask ("input: " ++ path)
    match operator.inputs with
    | [] => (none, operator)
    | answer :: inputs => (answer, { operator with inputs })
  fetch address operator :=
    let operator := operator.ask ("fetch: " ++ address)
    match operator.fetches with
    | [] => (none, operator)
    | answer :: fetches => (answer, { operator with fetches })
  items item operator :=
    let operator := operator.ask ("loop: " ++ item)
    match operator.items with
    | [] => (none, operator)
    | answer :: items => (answer, { operator with items })

end StepShell

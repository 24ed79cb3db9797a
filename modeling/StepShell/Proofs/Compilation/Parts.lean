import StepShell.Compilation

/-! Lists, pipelines and groups are compiled in one way: part by part, with a sign between the parts
or an action before each of them. -/

namespace StepShell.Node

open Compilation

variable {ω : Type} [Operator ω] {setting : Setting}

/-- The actions of parts in their order: this one for a sign, and for any other part its own behind
those that lead to it. -/
def compileEach (sign : Node → Option Action) (lead : List Action) (setting : Setting) :
    List Node → Compile ω (List Action)
  | [] => return []
  | part :: rest => do
    match sign part with
    | some action => return action :: (← compileEach sign lead setting rest)
    | none =>
      let actions ← part.compile setting
      return lead ++ actions ++ (← compileEach sign lead setting rest)

/-- The sign between the commands of a list. -/
def operatorSign : Node → Option Action
  | .operator op _ => some (.plain (.separator op)
      ("list node transfer character: " ++ Text.escaped op))
  | _ => none

/-- The sign between the commands of a pipeline. -/
def pipeSign : Node → Option Action
  | .pipe .. => some (.plain .pipe "pipeline transfer")
  | _ => none

/-- A list is flushed before each of its commands. -/
theorem compileSequence_eq (parts : List Node) :
    (compileSequence setting parts : Compile ω (List Action)) =
      compileEach operatorSign [.plain .flush "Resetting for new command"] setting parts := by
  induction parts with
  | nil => rw [compileSequence, compileEach]
  | cons part rest ih =>
    cases part with
    | operator =>
      rw [compileSequence, compileEach, ih]
      rfl
    | _ =>
      rw [compileSequence, compileEach, ih]
      · rfl
      · simp

theorem compilePipeline_eq (parts : List Node) :
    (compilePipeline setting parts : Compile ω (List Action)) =
      compileEach pipeSign [] setting parts := by
  induction parts with
  | nil => rw [compilePipeline, compileEach]
  | cons part rest ih =>
    cases part with
    | pipe =>
      rw [compilePipeline, compileEach, ih]
      rfl
    | _ =>
      rw [compilePipeline, compileEach, ih]
      · rfl
      · simp

/-- A group has no signs. -/
theorem compileAll_eq (parts : List Node) :
    (compileAll setting parts : Compile ω (List Action)) =
      compileEach (fun _ => none) [] setting parts := by
  induction parts with
  | nil => rw [compileAll, compileEach]
  | cons part rest ih =>
    rw [compileAll, compileEach, ih]
    rfl

end StepShell.Node

import StepShell.Proofs.Compilation.Balance
import StepShell.Sandbox

/-! What stays of a sandbox while actions run: the lowered scopes, the screens put aside, and all
that was printed. -/

namespace StepShell

namespace Sandbox

/-- Nothing is put aside or brought back, and the screen only grows. -/
structure Keeps (before after : Sandbox) : Prop where
  scopes : after.scopes = before.scopes
  captures : after.captures = before.captures
  screen : ∃ printed, after.screen = before.screen ++ printed
  functions : before.functions.Sound → after.functions.Sound

theorem Keeps.refl (sandbox : Sandbox) : sandbox.Keeps sandbox :=
  ⟨rfl, rfl, ⟨"", by simp⟩, id⟩

theorem Keeps.trans {first second third : Sandbox} (before : first.Keeps second)
    (after : second.Keeps third) : first.Keeps third := by
  obtain ⟨early, printed⟩ := before.screen
  obtain ⟨late, shown⟩ := after.screen
  refine ⟨after.scopes.trans before.scopes, after.captures.trans before.captures,
    ⟨early ++ late, ?_⟩, after.functions ∘ before.functions⟩
  rw [shown, printed, String.append_assoc]

/-- A change of what no scope or capture holds and nobody has read. -/
theorem Keeps.of_eq {before after : Sandbox} (scopes : after.scopes = before.scopes)
    (captures : after.captures = before.captures) (screen : after.screen = before.screen)
    (functions : after.functions = before.functions) : before.Keeps after :=
  ⟨scopes, captures, ⟨"", by rw [screen, String.append_empty]⟩, fun sound => functions ▸ sound⟩

theorem keeps_foldl {α : Type} {change : Sandbox → α → Sandbox}
    (each : ∀ sandbox item, Keeps sandbox (change sandbox item)) (items : List α)
    (sandbox : Sandbox) : sandbox.Keeps (items.foldl change sandbox) := by
  induction items generalizing sandbox with
  | nil => exact .refl sandbox
  | cons first rest ih => exact (each sandbox first).trans (ih _)

/-- Nothing changes but the files, the working directory, and what is read and written. -/
def Works (before after : Sandbox) : Prop :=
  ∃ io workingDir files, after = { before with io, workingDir, files }

theorem Works.refl (sandbox : Sandbox) : sandbox.Works sandbox :=
  ⟨_, _, _, rfl⟩

theorem Works.trans {first second third : Sandbox} (before : first.Works second)
    (after : second.Works third) : first.Works third := by
  obtain ⟨_, _, _, rfl⟩ := before
  obtain ⟨_, _, _, rfl⟩ := after
  exact ⟨_, _, _, rfl⟩

theorem Works.keeps {before after : Sandbox} (works : before.Works after) : before.Keeps after := by
  obtain ⟨_, _, _, rfl⟩ := works
  exact .of_eq rfl rfl rfl rfl

theorem Works.vars {before after : Sandbox} (works : before.Works after) :
    after.vars = before.vars := by
  obtain ⟨_, _, _, rfl⟩ := works
  rfl

theorem works_foldl {α : Type} {change : Sandbox → α → Sandbox}
    (each : ∀ sandbox item, Works sandbox (change sandbox item)) (items : List α)
    (sandbox : Sandbox) : sandbox.Works (items.foldl change sandbox) := by
  induction items generalizing sandbox with
  | nil => exact .refl sandbox
  | cons first rest ih => exact (each sandbox first).trans (ih _)

theorem write_keeps (sandbox : Sandbox) (text : String) : sandbox.Keeps (sandbox.write text) :=
  .of_eq rfl rfl rfl rfl

theorem clearOutput_keeps (sandbox : Sandbox) : sandbox.Keeps sandbox.clearOutput :=
  .of_eq rfl rfl rfl rfl

theorem clearInput_keeps (sandbox : Sandbox) : sandbox.Keeps sandbox.clearInput :=
  .of_eq rfl rfl rfl rfl

theorem flush_keeps (sandbox : Sandbox) : sandbox.Keeps sandbox.flush := by
  unfold flush
  split
  · exact .refl sandbox
  · exact ⟨rfl, rfl, ⟨_, by rw [String.append_assoc]⟩, id⟩

/-- Nothing is printed where nothing is written. -/
theorem flush_of_unwritten (sandbox : Sandbox) (unwritten : sandbox.io.output = "") :
    sandbox.flush = sandbox :=
  if_pos (String.isEmpty_iff.mpr unwritten)

theorem clearOutput_flush (sandbox : Sandbox) : sandbox.flush.clearOutput = sandbox.flush := by
  unfold flush
  split
  · rename_i unwritten
    simp only [clearOutput, ← String.isEmpty_iff.mp unwritten]
  · rfl

theorem flush_input (sandbox : Sandbox) : sandbox.flush.io.input = sandbox.io.input := by
  unfold flush
  split <;> rfl

theorem clearInput_of_dry (sandbox : Sandbox) (dry : sandbox.io.input = "") :
    sandbox.clearInput = sandbox := by
  rw [clearInput, ← dry]

theorem unset_keeps (sandbox : Sandbox) (name : String) : sandbox.Keeps (sandbox.unset name) :=
  .of_eq rfl rfl rfl rfl

theorem undefine_keeps (sandbox : Sandbox) (name : String) :
    sandbox.Keeps (sandbox.undefine name) := by
  refine ⟨rfl, rfl, ⟨"", by simp [undefine]⟩, fun sound other body look => ?_⟩
  rw [undefine, Table.get?_erase] at look
  split at look
  · cases look
  · exact sound other body look

/-- What a move does to what is put aside. -/
def Moves : Move → Sandbox → Sandbox → Prop
  | .stay, before, after => before.Keeps after
  | .opens .scope, before, after => ∃ below, before.Keeps below ∧
      below.vars = before.vars ∧ below.workingDir = before.workingDir ∧
      after.scopes = below.saved :: below.scopes ∧ after.captures = below.captures ∧
      after.functions = below.functions
  | .opens .capture, before, after => ∃ below, before.Keeps below ∧
      after.scopes = below.scopes ∧ after.captures = below.screen :: below.captures ∧
      after.functions = below.functions
  | .closes .scope, before, after => ∀ scope scopes, before.scopes = scope :: scopes →
      after.scopes = scopes ∧ after.captures = before.captures ∧
      (∃ printed, after.screen = scope.screen ++ printed) ∧ after.vars = scope.vars ∧
      after.workingDir = scope.workingDir ∧ after.functions = scope.functions
  | .closes .capture, before, after => ∀ screen captures, before.captures = screen :: captures →
      after.scopes = before.scopes ∧ after.captures = captures ∧ after.screen = screen ∧
      after.functions = before.functions

theorem moves_lower {sandbox after : Sandbox} (scopes : after.scopes = sandbox.lower.scopes)
    (captures : after.captures = sandbox.captures)
    (functions : after.functions = sandbox.functions) :
    Moves (.opens .scope) sandbox after :=
  ⟨sandbox, .refl sandbox, rfl, rfl, scopes, captures, functions⟩

theorem moves_raise {before below : Sandbox} (scopes : below.scopes = before.scopes)
    (captures : below.captures = before.captures) : Moves (.closes .scope) before below.raise := by
  intro scope rest lowered
  have lowered : below.scopes = scope :: rest := scopes.trans lowered
  simp only [raise, lowered]
  exact ⟨trivial, captures, ⟨_, rfl⟩, trivial, trivial, trivial⟩

theorem moves_endCapture (sandbox : Sandbox) :
    Moves (.closes .capture) sandbox sandbox.endCapture := by
  intro screen captures put
  simp [endCapture, put]

/-- The sandbox stands inside these brackets, the innermost first, of which the outermost was opened
in `outer`. -/
inductive Within (outer : Sandbox) : List Bracket → Sandbox → Prop where
  | here {sandbox : Sandbox} (keeps : outer.Keeps sandbox) : Within outer [] sandbox
  | scope {opened : List Bracket} {below sandbox : Sandbox} (around : Within outer opened below)
      (scopes : sandbox.scopes = below.saved :: below.scopes)
      (captures : sandbox.captures = below.captures) (functions : sandbox.functions.Sound) :
      Within outer (.scope :: opened) sandbox
  | capture {opened : List Bracket} {below sandbox : Sandbox} (around : Within outer opened below)
      (scopes : sandbox.scopes = below.scopes)
      (captures : sandbox.captures = below.screen :: below.captures)
      (functions : sandbox.functions.Sound) : Within outer (.capture :: opened) sandbox

namespace Within

variable {outer before after : Sandbox} {opened : List Bracket}

theorem functions (sound : outer.functions.Sound) (within : Within outer opened before) :
    before.functions.Sound := by
  cases within with
  | here keeps => exact keeps.functions sound
  | scope _ _ _ functions => exact functions
  | capture _ _ _ functions => exact functions

theorem keeps (within : Within outer opened before) (step : before.Keeps after) :
    Within outer opened after := by
  cases within with
  | here keeps => exact .here (keeps.trans step)
  | scope around scopes captures functions =>
    exact .scope around (step.scopes.trans scopes) (step.captures.trans captures)
      (step.functions functions)
  | capture around scopes captures functions =>
    exact .capture around (step.scopes.trans scopes) (step.captures.trans captures)
      (step.functions functions)

/-- A move that the first action makes leaves the later ones to close what is still open. -/
theorem moves {action : Action} {rest : List Action} (sound : outer.functions.Sound)
    (within : Within outer opened before) (closes : Closes opened (action :: rest))
    (step : Moves action.operation.move before after) :
    ∃ opened, Closes opened rest ∧ Within outer opened after := by
  cases closes with
  | stay move _ later =>
    rw [move] at step
    exact ⟨_, later, within.keeps step⟩
  | @opens bracket _ _ _ move later =>
    rw [move] at step
    cases bracket with
    | scope =>
      obtain ⟨below, keeps, _, _, scopes, captures, functions⟩ := step
      have around := within.keeps keeps
      exact ⟨_, later, .scope around scopes captures (functions ▸ around.functions sound)⟩
    | capture =>
      obtain ⟨below, keeps, scopes, captures, functions⟩ := step
      have around := within.keeps keeps
      exact ⟨_, later, .capture around scopes captures (functions ▸ around.functions sound)⟩
  | closes move later =>
    rw [move] at step
    cases within with
    | scope around scopes captures functions =>
      obtain ⟨raised, kept, ⟨printed, shown⟩, _, _, restored⟩ := step _ _ scopes
      refine ⟨_, later, around.keeps ⟨raised, kept.trans captures, ⟨printed, shown⟩, ?_⟩⟩
      intro known
      rw [restored]
      exact known
    | capture around scopes captures functions =>
      obtain ⟨kept, ended, shown, same⟩ := step _ _ captures
      refine ⟨_, later, around.keeps ⟨kept.trans scopes, ended, ⟨"", ?_⟩, ?_⟩⟩
      · rw [shown, String.append_empty]
      · intro _
        rw [same]
        exact functions

end Within

end Sandbox

end StepShell

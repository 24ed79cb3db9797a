import StepShell.Proofs.Compilation.Relocation
import StepShell.Sandbox

/-! Sandboxes that differ only in their views: what was printed, and what is put aside with it. Most
changes do not look at that, so they keep two such sandboxes alike. -/

namespace StepShell

/-- What was printed, and what lowered scopes and captures put aside. -/
structure View where
  screen : String
  scopes : List Scope
  captures : List String

def View.print (view : View) (text : String) : View :=
  { view with screen := view.screen ++ text }

namespace Sandbox

def view (sandbox : Sandbox) : View :=
  ⟨sandbox.screen, sandbox.scopes, sandbox.captures⟩

/-- The sandbox with another view. -/
def seen (sandbox : Sandbox) (view : View) : Sandbox :=
  { sandbox with screen := view.screen, scopes := view.scopes, captures := view.captures }

/-- The change neither looks at the view nor touches it. -/
def Blind (change : Sandbox → Sandbox) : Prop :=
  ∀ sandbox view, change (sandbox.seen view) = (change sandbox).seen view

/-- The sandboxes differ only in their views, which stand in this relation. -/
structure Alike (rel : View → View → Prop) (sandbox twin : Sandbox) : Prop where
  same : sandbox.seen twin.view = twin
  view : rel sandbox.view twin.view

/-- The relation stays when the same is printed. -/
def Additive (rel : View → View → Prop) : Prop :=
  ∀ view other text, rel view other → rel (view.print text) (other.print text)

section
variable {rel : View → View → Prop} {sandbox twin : Sandbox}

theorem Blind.view {change : Sandbox → Sandbox} (blind : Blind change) (sandbox : Sandbox) :
    (change sandbox).view = sandbox.view := by
  have same : change sandbox = (change sandbox).seen sandbox.view := blind sandbox sandbox.view
  rw [same]
  rfl

theorem Alike.change {change : Sandbox → Sandbox} (alike : Alike rel sandbox twin)
    (blind : Blind change) : Alike rel (change sandbox) (change twin) := by
  refine ⟨?_, ?_⟩
  · rw [blind.view, ← blind, alike.same]
  · rw [blind.view, blind.view]
    exact alike.view

/-- Whatever does not depend on the view is the same of both. -/
theorem Alike.read {α : Type} (alike : Alike rel sandbox twin) (field : Sandbox → α)
    (blind : ∀ view, field (sandbox.seen view) = field sandbox) : field twin = field sandbox := by
  rw [← alike.same, blind]

theorem Alike.flush (alike : Alike rel sandbox twin) (additive : Additive rel) :
    Alike rel sandbox.flush twin.flush := by
  have output := alike.read (·.io.output) fun _ => rfl
  unfold Sandbox.flush
  rw [output]
  split
  · exact alike
  · refine ⟨?_, ?_⟩
    · rw [← alike.same]
      rfl
    · have printed := additive _ _ (sandbox.io.output ++ "\n") alike.view
      simpa [View.print, Sandbox.view, String.append_assoc] using printed

theorem Alike.eq (alike : Alike Eq sandbox twin) : twin = sandbox := by
  rw [← alike.same, ← alike.view]
  rfl

theorem alike_eq (sandbox : Sandbox) : Alike Eq sandbox sandbox :=
  ⟨rfl, rfl⟩

theorem additive_eq : Additive Eq := by
  rintro view _ text rfl
  rfl

end

theorem write_blind (text : String) : Blind (write · text) :=
  fun _ _ => rfl

theorem assign_blind (name value : String) : Blind (assign · name value) :=
  fun _ _ => rfl

theorem withTruth_blind (condition : String) (value : Bool) :
    Blind (withTruth · condition value) :=
  fun _ _ => rfl

theorem clearOutput_blind : Blind clearOutput :=
  fun _ _ => rfl

/-- What an operation does to the views carries the one relation into the other. -/
def Carries (rel next : View → View → Prop) : Operation → Prop
  | .beginCapture => ∀ sandbox twin, Alike rel sandbox twin →
      Alike next sandbox.beginCapture twin.beginCapture
  | .endCapture => ∀ sandbox twin, Alike rel sandbox twin →
      Alike next sandbox.endCapture twin.endCapture
  | .lower | .enterFunction .. | .enterSubshell | .enterSubstitution .. => ∀ sandbox twin,
      Alike rel sandbox twin → Alike next sandbox.lower twin.lower
  | .raise | .leaveFunction => ∀ sandbox twin, Alike rel sandbox twin →
      Alike next sandbox.raise twin.raise
  | .leaveSubstitution .. => ∀ sandbox twin, Alike rel sandbox twin →
      twin.screen = sandbox.screen ∧
        Alike next { sandbox with screen := "" }.raise { twin with screen := "" }.raise
  | .judge _ | .writeRedirect .. => next = rel ∧ ∀ view other, rel view other →
      other.screen = view.screen
  | _ => next = rel

theorem carries_eq (operation : Operation) : Carries Eq Eq operation := by
  have same : ∀ change : Sandbox → Sandbox, ∀ sandbox twin, Alike Eq sandbox twin →
      Alike Eq (change sandbox) (change twin) := by
    intro change sandbox twin alike
    rw [alike.eq]
    exact alike_eq _
  cases operation with
  | beginCapture | endCapture | lower | raise | enterFunction | leaveFunction | enterSubshell
  | enterSubstitution => exact same _
  | leaveSubstitution =>
    exact fun sandbox twin alike => ⟨by rw [alike.eq],
      same (fun sandbox => { sandbox with screen := "" }.raise) _ _ alike⟩
  | judge | writeRedirect => exact ⟨rfl, fun _ _ same => by rw [same]⟩
  | _ => rfl

end Sandbox

end StepShell

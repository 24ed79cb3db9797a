import StepShell.Proofs.Command.Frame
import StepShell.Proofs.Sandbox.Paths

/-! The paths that a sandbox holds, and what commands make of them: a path that was not held before
is home, or what a name resolves to. -/

namespace StepShell

namespace Sandbox

/-- The path is where the sandbox is, where it started, where one of its scopes goes back to, or
where a file is. -/
def Holds (sandbox : Sandbox) (path : String) : Prop :=
  path = sandbox.workingDir ∨ path = sandbox.startingDir ∨
    (∃ scope ∈ sandbox.scopes, path = scope.workingDir) ∨ sandbox.files.get? path ≠ none

/-- All paths of the sandbox are written in the one way. -/
def Canonical (sandbox : Sandbox) : Prop :=
  ∀ path, sandbox.Holds path → Path.Canonical path

instance (sandbox : Sandbox) : Decidable sandbox.Canonical :=
  decidable_of_iff (Path.Canonical sandbox.workingDir ∧ Path.Canonical sandbox.startingDir ∧
      (∀ scope ∈ sandbox.scopes, Path.Canonical scope.workingDir) ∧
      ∀ entry ∈ sandbox.files.table.entries, Path.Canonical entry.1) (by
    constructor
    · rintro ⟨here, start, scopes, files⟩ path (rfl | rfl | ⟨scope, among, rfl⟩ | file)
      · exact here
      · exact start
      · exact scopes scope among
      · obtain ⟨found, stored⟩ := Option.ne_none_iff_exists'.mp file
        exact files _ (Table.get?_eq_some.mp stored)
    · intro canonical
      refine ⟨canonical _ (.inl rfl), canonical _ (.inr (.inl rfl)), fun scope among => ?_,
        fun entry among => ?_⟩
      · exact canonical _ (.inr (.inr (.inl ⟨scope, among, rfl⟩)))
      · refine canonical _ (.inr (.inr (.inr (Option.ne_none_iff_exists'.mpr ⟨entry.2, ?_⟩))))
        exact Table.get?_eq_some.mpr among)

/-- A path that is new is home or where a name leads from the working directory. -/
def Leads (before after : Sandbox) : Prop :=
  ∀ path, after.Holds path →
    before.Holds path ∨ path = home ∨ ∃ name, path = before.resolve name

section
variable {before middle after : Sandbox}

theorem Leads.refl (sandbox : Sandbox) : sandbox.Leads sandbox :=
  fun _ => .inl

theorem Leads.of_holds (held : ∀ path, after.Holds path → before.Holds path) : before.Leads after :=
  fun path holds => .inl (held path holds)

/-- What follows may forget paths or go back to one. -/
theorem Leads.within (leads : Leads before middle)
    (held : ∀ path, after.Holds path → middle.Holds path) : Leads before after :=
  fun path holds => leads path (held path holds)

/-- The files may be others, at paths where names lead from the working directory; all else that
holds a path is the same. -/
structure Roams (before after : Sandbox) : Prop where
  here : after.workingDir = before.workingDir
  start : after.startingDir = before.startingDir
  scopes : after.scopes = before.scopes
  files : ∀ path, after.files.get? path ≠ none →
    before.files.get? path ≠ none ∨ ∃ name, path = before.resolve name

theorem Roams.of_still (here : after.workingDir = before.workingDir)
    (start : after.startingDir = before.startingDir) (scopes : after.scopes = before.scopes)
    (files : after.files = before.files) : Roams before after :=
  ⟨here, start, scopes, fun path there => .inl (by rwa [files] at there)⟩

theorem Roams.refl (sandbox : Sandbox) : sandbox.Roams sandbox :=
  .of_still rfl rfl rfl rfl

theorem Roams.trans (first : Roams before middle) (second : Roams middle after) :
    Roams before after := by
  refine ⟨second.here.trans first.here, second.start.trans first.start,
    second.scopes.trans first.scopes, fun path there => ?_⟩
  rcases second.files path there with earlier | ⟨name, rfl⟩
  · exact first.files path earlier
  · refine .inr ⟨name, ?_⟩
    rw [resolve, resolve, first.here]

theorem Roams.leads (roams : Roams before after) : Leads before after := by
  rintro path (here | start | scope | file)
  · exact .inl (.inl (here.trans roams.here))
  · exact .inl (.inr (.inl (start.trans roams.start)))
  · rw [roams.scopes] at scope
    exact .inl (.inr (.inr (.inl scope)))
  · rcases roams.files path file with earlier | resolved
    · exact .inl (.inr (.inr (.inr earlier)))
    · exact .inr (.inr resolved)

/-- A file is put where a name leads, and those at other paths are as they were. -/
theorem Roams.putFile {files : FileTable} (name : String)
    (others : ∀ path, path ≠ before.resolve name → files.get? path = before.files.get? path) :
    Roams before { before with files } := by
  refine ⟨rfl, rfl, rfl, fun path there => ?_⟩
  by_cases resolved : path = before.resolve name
  · exact .inr ⟨name, resolved⟩
  · rw [others path resolved] at there
    exact .inl there

theorem roams_foldl {α : Type} {change : Sandbox → α → Sandbox}
    (each : ∀ sandbox item, Roams sandbox (change sandbox item)) (items : List α)
    (sandbox : Sandbox) : sandbox.Roams (items.foldl change sandbox) := by
  induction items generalizing sandbox with
  | nil => exact .refl sandbox
  | cons first rest ih => exact (each sandbox first).trans (ih _)

end

end Sandbox

namespace Command

open Sandbox

variable {ω : Type}

theorem catFiles_roams (files : List String) (sandbox : Sandbox) :
    Roams sandbox (catFiles files sandbox).2 := by
  induction files generalizing sandbox with
  | nil => exact .refl sandbox
  | cons file rest ih =>
    unfold catFiles
    dsimp only
    split
    · refine .trans ?_ (ih _)
      exact .of_still rfl rfl rfl rfl
    · split
      · exact ih sandbox
      · exact ih sandbox

theorem changeModes_roams (mode : String) (files : List String) (sandbox : Sandbox) :
    Roams sandbox (changeModes mode files sandbox).2 := by
  induction files generalizing sandbox with
  | nil => exact .refl sandbox
  | cons file rest ih =>
    have stored : ∀ changed, Roams sandbox
        { sandbox with files := sandbox.files.insert (sandbox.resolve file) changed } :=
      fun changed => .putFile file fun path other => by
        rw [FileTable.get?_insert, if_neg other]
    unfold changeModes
    dsimp only
    split
    · exact (stored _).trans (ih _)
    · exact stored _

theorem changeMode_roams (args : List String) (sandbox : Sandbox) :
    Roams sandbox (changeMode args sandbox).2 := by
  unfold changeMode
  split
  · exact .refl sandbox
  · exact .refl sandbox
  · rename_i mode files _
    have roams := changeModes_roams mode files sandbox
    split
    · rename_i changed
      rw [changed] at roams
      exact roams
    · rename_i changed
      rw [changed] at roams
      exact roams

theorem removeFiles_roams (files : List String) (sandbox : Sandbox) :
    Roams sandbox (removeFiles files sandbox).2 := by
  induction files generalizing sandbox with
  | nil => exact .refl sandbox
  | cons file rest ih =>
    unfold removeFiles
    split
    · refine .trans ?_ (ih _)
      exact ⟨rfl, rfl, rfl, fun _ there => absurd rfl there⟩
    · dsimp only
      split
      · refine .trans ?_ (ih _)
        refine .putFile file fun path other => ?_
        rw [FileTable.get?_erase, if_neg other]
      · exact ih sandbox

theorem remove_roams (args : List String) (sandbox : Sandbox) :
    Roams sandbox (remove args sandbox).2 := by
  unfold remove
  split
  · exact .refl sandbox
  · exact removeFiles_roams _ sandbox

theorem move_roams (args : List String) (sandbox : Sandbox) :
    Roams sandbox (move args sandbox).2 := by
  unfold move
  split
  · refine ⟨rfl, rfl, rfl, fun path there => ?_⟩
    dsimp only at there
    rw [FileTable.get?_rename] at there
    split at there
    · rename_i target same
      exact .inr ⟨_, same⟩
    · split at there
      · exact absurd rfl there
      · exact .inl there
  · exact .refl sandbox

theorem copy_roams (args : List String) (sandbox : Sandbox) :
    Roams sandbox (copy args sandbox).2 := by
  unfold copy
  split
  · rename_i target _
    refine .putFile target fun path other => ?_
    rw [FileTable.get?_copy, if_neg other]
  · exact .refl sandbox

theorem touchFile_roams (sandbox : Sandbox) (file : String) :
    Roams sandbox (touchFile sandbox file) := by
  unfold touchFile
  dsimp only
  split
  · exact .refl sandbox
  · refine .putFile file fun path other => ?_
    rw [FileTable.get?_write, if_neg other]

theorem touch_roams (args : List String) (sandbox : Sandbox) :
    Roams sandbox (touch args sandbox).2 := by
  unfold touch
  split
  · exact .refl sandbox
  · exact roams_foldl touchFile_roams _ sandbox

theorem unsetEither_roams (sandbox : Sandbox) (name : String) :
    Roams sandbox (unsetEither sandbox name) := by
  unfold unsetEither
  split <;> exact .of_still rfl rfl rfl rfl

theorem unset_roams (args : List String) (sandbox : Sandbox) :
    Roams sandbox (unset args sandbox).2 := by
  have undefines : ∀ sandbox name, Roams sandbox (sandbox.undefine name) :=
    fun _ _ => .of_still rfl rfl rfl rfl
  have unsets : ∀ sandbox name, Roams sandbox (sandbox.unset name) :=
    fun _ _ => .of_still rfl rfl rfl rfl
  unfold unset
  split
  · exact .refl sandbox
  · split
    · exact roams_foldl undefines _ sandbox
    · split
      · exact roams_foldl unsets _ sandbox
      · split
        · exact .refl sandbox
        · exact roams_foldl unsetEither_roams _ sandbox

/-- The one command that goes elsewhere. -/
theorem changeDirectory_leads (args : List String) (sandbox : Sandbox) :
    Sandbox.Leads sandbox (changeDirectory args sandbox).2 := by
  unfold changeDirectory
  split
  · rintro path (here | elsewhere)
    · exact .inr (.inl here)
    · exact .inl (.inr elsewhere)
  · rintro path (here | elsewhere)
    · exact .inr (.inr ⟨_, here⟩)
    · exact .inl (.inr elsewhere)
  · exact .refl sandbox

section
variable [Operator ω]

theorem wget_roams (args : List String) (sandbox : Sandbox) (operator : ω) :
    Roams sandbox (wget args sandbox operator).2.1 := by
  unfold wget
  split
  · exact .refl sandbox
  · split
    · exact .refl sandbox
    · split
      · rename_i url _ _ _ _ _
        refine .putFile (url.fileName?.getD "index.html") fun path other => ?_
        rw [FileTable.get?_store, if_neg other]
      · exact .refl sandbox

theorem curl_roams (args : List String) (sandbox : Sandbox) (operator : ω) :
    Roams sandbox (curl args sandbox operator).2.1 := by
  unfold curl
  split
  · exact .refl sandbox
  · split
    · exact .refl sandbox
    · split <;> exact .refl sandbox

/-- Whatever a command that the sandbox knows makes of its paths, each new one is home or where a
name leads. -/
theorem standard_leads {name : String} {command : Command ω}
    (found : (standard : Table (Command ω)).get? name = some command) (args : List String)
    (sandbox : Sandbox) (operator : ω) :
    Sandbox.Leads sandbox (command args sandbox operator).2.1 := by
  have member := Table.mem_of_get?_ofList found
  simp only [standardList, List.mem_cons, Prod.mk.injEq, List.not_mem_nil, or_false] at member
  rcases member with ⟨_, rfl⟩ | ⟨_, rfl⟩ | ⟨_, rfl⟩ | ⟨_, rfl⟩ | ⟨_, rfl⟩ | ⟨_, rfl⟩ | ⟨_, rfl⟩ |
    ⟨_, rfl⟩ | ⟨_, rfl⟩ | ⟨_, rfl⟩ | ⟨_, rfl⟩ | ⟨_, rfl⟩ | ⟨_, rfl⟩ | ⟨_, rfl⟩ | ⟨_, rfl⟩ | ⟨_, rfl⟩
  · exact .refl sandbox
  · exact (catFiles_roams _ sandbox).leads
  · exact changeDirectory_leads args sandbox
  · exact .refl sandbox
  · exact (changeMode_roams args sandbox).leads
  · exact (remove_roams args sandbox).leads
  · exact (move_roams args sandbox).leads
  · exact (copy_roams args sandbox).leads
  · exact (touch_roams args sandbox).leads
  · exact (unset_roams args sandbox).leads
  · exact .of_holds fun _ holds => holds
  · exact .refl sandbox
  · exact .refl sandbox
  · exact .refl sandbox
  · exact (wget_roams args sandbox operator).leads
  · exact (curl_roams args sandbox operator).leads

end

end Command

end StepShell

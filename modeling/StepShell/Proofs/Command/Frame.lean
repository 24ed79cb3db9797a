import StepShell.Command.Standard
import StepShell.Proofs.Sandbox.Frame

/-! The commands that every sandbox knows lower and raise no scope and print nothing by
themselves. -/

namespace StepShell

namespace Table

variable {α : Type}

theorem mem_of_get?_ofList {entries : List (String × α)} {key : String} {value : α}
    (found : (ofList entries).get? key = some value) : (key, value) ∈ entries := by
  have general : ∀ (entries : List (String × α)) (table : Table α),
      (entries.foldl (fun table entry => table.insert entry.1 entry.2) table).get? key =
          some value →
        (key, value) ∈ entries ∨ table.get? key = some value := by
    intro entries
    induction entries with
    | nil => exact fun _ => .inr
    | cons first rest ih =>
      intro table look
      rcases ih _ look with later | before
      · exact .inl (List.mem_cons_of_mem _ later)
      · rw [get?_insert] at before
        split at before
        · rename_i same
          cases before
          exact .inl (by simp [same])
        · exact .inr before
  exact (general entries empty found).resolve_right (by simp [get?_empty])

end Table

namespace Command

open Sandbox

variable {ω : Type}

/-- The command leaves scopes, captures and screen as they are. -/
def Keeps (command : Command ω) : Prop :=
  ∀ args sandbox operator, Sandbox.Keeps sandbox (command args sandbox operator).2.1

/-- The command works on the files and goes to other directories, and does nothing else. -/
def Works (command : Command ω) : Prop :=
  ∀ args sandbox operator, Sandbox.Works sandbox (command args sandbox operator).2.1

theorem Works.keeps {command : Command ω} (works : Works command) : Keeps command :=
  fun args sandbox operator => (works args sandbox operator).keeps

theorem ofPrinted_works (run : List String → Printed) : Works (ofPrinted run : Command ω) :=
  fun _ sandbox _ => .refl sandbox

theorem ofSandbox_works {run : List String → Sandbox → Printed × Sandbox}
    (each : ∀ args sandbox, Sandbox.Works sandbox (run args sandbox).2) :
    Works (ofSandbox run : Command ω) :=
  fun args sandbox _ => each args sandbox

theorem catFiles_works (files : List String) (sandbox : Sandbox) :
    Sandbox.Works sandbox (catFiles files sandbox).2 := by
  induction files generalizing sandbox with
  | nil => exact .refl sandbox
  | cons file rest ih =>
    unfold catFiles
    dsimp only
    split
    · refine .trans ?_ (ih _)
      exact ⟨_, _, _, rfl⟩
    · split
      · exact ih sandbox
      · exact ih sandbox

theorem cat_works (args : List String) (sandbox : Sandbox) :
    Sandbox.Works sandbox (cat args sandbox).2 :=
  catFiles_works _ sandbox

theorem changeDirectory_works (args : List String) (sandbox : Sandbox) :
    Sandbox.Works sandbox (changeDirectory args sandbox).2 := by
  unfold changeDirectory
  split
  · exact ⟨_, _, _, rfl⟩
  · exact ⟨_, _, _, rfl⟩
  · exact .refl sandbox

theorem changeModes_works (mode : String) (files : List String) (sandbox : Sandbox) :
    Sandbox.Works sandbox (changeModes mode files sandbox).2 := by
  induction files generalizing sandbox with
  | nil => exact .refl sandbox
  | cons file rest ih =>
    unfold changeModes
    dsimp only
    split
    · refine .trans ?_ (ih _)
      exact ⟨_, _, _, rfl⟩
    · exact ⟨_, _, _, rfl⟩

theorem changeMode_works (args : List String) (sandbox : Sandbox) :
    Sandbox.Works sandbox (changeMode args sandbox).2 := by
  unfold changeMode
  split
  · exact .refl sandbox
  · exact .refl sandbox
  · rename_i mode files _
    have worked := changeModes_works mode files sandbox
    split
    · rename_i changed
      rw [changed] at worked
      exact worked
    · rename_i changed
      rw [changed] at worked
      exact worked

theorem removeFiles_works (files : List String) (sandbox : Sandbox) :
    Sandbox.Works sandbox (removeFiles files sandbox).2 := by
  induction files generalizing sandbox with
  | nil => exact .refl sandbox
  | cons file rest ih =>
    unfold removeFiles
    split
    · refine .trans ?_ (ih _)
      exact ⟨_, _, _, rfl⟩
    · dsimp only
      split
      · refine .trans ?_ (ih _)
        exact ⟨_, _, _, rfl⟩
      · exact ih sandbox

theorem remove_works (args : List String) (sandbox : Sandbox) :
    Sandbox.Works sandbox (remove args sandbox).2 := by
  unfold remove
  split
  · exact .refl sandbox
  · exact removeFiles_works _ sandbox

theorem move_works (args : List String) (sandbox : Sandbox) :
    Sandbox.Works sandbox (move args sandbox).2 := by
  unfold move
  split
  · exact ⟨_, _, _, rfl⟩
  · exact .refl sandbox

theorem copy_works (args : List String) (sandbox : Sandbox) :
    Sandbox.Works sandbox (copy args sandbox).2 := by
  unfold copy
  split
  · exact ⟨_, _, _, rfl⟩
  · exact .refl sandbox

theorem touchFile_works (sandbox : Sandbox) (file : String) :
    Sandbox.Works sandbox (touchFile sandbox file) := by
  unfold touchFile
  dsimp only
  split
  · exact .refl sandbox
  · exact ⟨_, _, _, rfl⟩

theorem touch_works (args : List String) (sandbox : Sandbox) :
    Sandbox.Works sandbox (touch args sandbox).2 := by
  unfold touch
  split
  · exact .refl sandbox
  · exact works_foldl touchFile_works _ sandbox

theorem unsetEither_keeps (sandbox : Sandbox) (name : String) :
    Sandbox.Keeps sandbox (unsetEither sandbox name) := by
  unfold unsetEither
  split
  · exact unset_keeps sandbox name
  · exact undefine_keeps sandbox name

theorem unset_keeps (args : List String) (sandbox : Sandbox) :
    Sandbox.Keeps sandbox (unset args sandbox).2 := by
  unfold unset
  split
  · exact .refl sandbox
  · split
    · exact keeps_foldl undefine_keeps _ sandbox
    · split
      · exact keeps_foldl Sandbox.unset_keeps _ sandbox
      · split
        · exact .refl sandbox
        · exact keeps_foldl unsetEither_keeps _ sandbox

section
variable [Operator ω]

theorem wget_works : Works (wget : Command ω) := by
  intro args sandbox operator
  unfold wget
  split
  · exact .refl sandbox
  · split
    · exact .refl sandbox
    · split
      · exact ⟨_, _, _, rfl⟩
      · exact .refl sandbox

theorem curl_works : Works (curl : Command ω) := by
  intro args sandbox operator
  unfold curl
  split
  · exact .refl sandbox
  · split
    · exact .refl sandbox
    · split <;> exact .refl sandbox

/-- Of the commands that a sandbox knows, only two touch the variables. -/
theorem standard_cases {name : String} {command : Command ω}
    (found : (standard : Table (Command ω)).get? name = some command) :
    Works command ∨ name = "unset" ∧ command = ofSandbox unset ∨
      name = "shift" ∧ command = ofSandbox shift := by
  have member := Table.mem_of_get?_ofList found
  simp only [standardList, List.mem_cons, Prod.mk.injEq, List.not_mem_nil, or_false] at member
  rcases member with ⟨_, rfl⟩ | ⟨_, rfl⟩ | ⟨_, rfl⟩ | ⟨_, rfl⟩ | ⟨_, rfl⟩ | ⟨_, rfl⟩ | ⟨_, rfl⟩ |
    ⟨_, rfl⟩ | ⟨_, rfl⟩ | unset | shift | ⟨_, rfl⟩ | ⟨_, rfl⟩ | ⟨_, rfl⟩ | ⟨_, rfl⟩ | ⟨_, rfl⟩
  · exact .inl (ofPrinted_works echo)
  · exact .inl (ofSandbox_works cat_works)
  · exact .inl (ofSandbox_works changeDirectory_works)
  · exact .inl (ofSandbox_works fun _ => Sandbox.Works.refl)
  · exact .inl (ofSandbox_works changeMode_works)
  · exact .inl (ofSandbox_works remove_works)
  · exact .inl (ofSandbox_works move_works)
  · exact .inl (ofSandbox_works copy_works)
  · exact .inl (ofSandbox_works touch_works)
  · exact .inr (.inl unset)
  · exact .inr (.inr shift)
  · exact .inl (ofPrinted_works _)
  · exact .inl (ofPrinted_works _)
  · exact .inl (ofPrinted_works _)
  · exact .inl wget_works
  · exact .inl curl_works

/-- No command that a sandbox knows touches scopes, captures or the screen. -/
theorem standard_keeps {name : String} {command : Command ω}
    (found : (standard : Table (Command ω)).get? name = some command) : Keeps command := by
  rcases standard_cases found with works | ⟨-, rfl⟩ | ⟨-, rfl⟩
  · exact works.keeps
  · exact fun args sandbox _ => unset_keeps args sandbox
  · exact fun _ _ _ => .of_eq rfl rfl rfl rfl

end

end Command

end StepShell

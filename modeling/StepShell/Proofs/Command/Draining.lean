import StepShell.Proofs.Command.Frame

/-! What the commands that every sandbox knows do with the two buffers. What they print is written
for them; by themselves they write nothing, and read all that there is or nothing. -/

namespace StepShell

/-- Nothing was printed or written meanwhile, and all that there was to read was read, or nothing of
it. -/
structure Sandbox.Drains (before after : Sandbox) : Prop where
  screen : after.screen = before.screen
  io : after.io = before.io ∨ after.io = before.io.read.2

namespace Sandbox.Drains

variable {first second third : Sandbox}

theorem of_eq (screen : second.screen = first.screen) (io : second.io = first.io) :
    first.Drains second :=
  ⟨screen, .inl io⟩

theorem refl (sandbox : Sandbox) : sandbox.Drains sandbox :=
  .of_eq rfl rfl

theorem trans (before : first.Drains second) (after : second.Drains third) :
    first.Drains third := by
  refine ⟨after.screen.trans before.screen, ?_⟩
  rcases after.io with same | read <;> rcases before.io with kept | drained
  · exact .inl (same.trans kept)
  · exact .inr (same.trans drained)
  · exact .inr (by rw [read, kept])
  · exact .inr (by rw [read, drained]; rfl)

theorem output (drains : first.Drains second) : second.io.output = first.io.output := by
  rcases drains.io with same | read
  · rw [same]
  · rw [read]
    rfl

theorem input (drains : first.Drains second) :
    second.io.input = first.io.input ∨ second.io.input = "" := by
  rcases drains.io with same | read
  · exact .inl (congrArg Socket.input same)
  · exact .inr (congrArg Socket.input read)

theorem foldl {α : Type} {change : Sandbox → α → Sandbox}
    (each : ∀ sandbox item, Drains sandbox (change sandbox item)) (items : List α)
    (sandbox : Sandbox) : sandbox.Drains (items.foldl change sandbox) := by
  induction items generalizing sandbox with
  | nil => exact .refl sandbox
  | cons first rest ih => exact (each sandbox first).trans (ih _)

end Sandbox.Drains

namespace Sandbox

theorem unset_drains (sandbox : Sandbox) (name : String) : sandbox.Drains (sandbox.unset name) :=
  .of_eq rfl rfl

theorem undefine_drains (sandbox : Sandbox) (name : String) :
    sandbox.Drains (sandbox.undefine name) :=
  .of_eq rfl rfl

end Sandbox

namespace Command

variable {ω : Type}

/-- The command prints nothing by itself, and reads all that there is or nothing. -/
def Drains (command : Command ω) : Prop :=
  ∀ args sandbox operator, Sandbox.Drains sandbox (command args sandbox operator).2.1

theorem ofPrinted_drains (run : List String → Printed) : Drains (ofPrinted run : Command ω) :=
  fun _ sandbox _ => .refl sandbox

theorem ofSandbox_drains {run : List String → Sandbox → Printed × Sandbox}
    (each : ∀ args sandbox, Sandbox.Drains sandbox (run args sandbox).2) :
    Drains (ofSandbox run : Command ω) :=
  fun args sandbox _ => each args sandbox

theorem catFiles_drains (files : List String) (sandbox : Sandbox) :
    Sandbox.Drains sandbox (catFiles files sandbox).2 := by
  induction files generalizing sandbox with
  | nil => exact .refl sandbox
  | cons file rest ih =>
    unfold catFiles
    dsimp only
    split
    · refine .trans ?_ (ih _)
      exact ⟨rfl, .inr rfl⟩
    · split
      · exact ih sandbox
      · exact ih sandbox

theorem changeDirectory_drains (args : List String) (sandbox : Sandbox) :
    Sandbox.Drains sandbox (changeDirectory args sandbox).2 := by
  unfold changeDirectory
  split <;> exact .of_eq rfl rfl

theorem changeModes_drains (mode : String) (files : List String) (sandbox : Sandbox) :
    Sandbox.Drains sandbox (changeModes mode files sandbox).2 := by
  induction files generalizing sandbox with
  | nil => exact .refl sandbox
  | cons file rest ih =>
    unfold changeModes
    dsimp only
    split
    · refine .trans ?_ (ih _)
      exact .of_eq rfl rfl
    · exact .of_eq rfl rfl

theorem changeMode_drains (args : List String) (sandbox : Sandbox) :
    Sandbox.Drains sandbox (changeMode args sandbox).2 := by
  unfold changeMode
  split
  · exact .refl sandbox
  · exact .refl sandbox
  · rename_i mode files _
    have drained := changeModes_drains mode files sandbox
    split
    · rename_i changed
      rw [changed] at drained
      exact drained
    · rename_i changed
      rw [changed] at drained
      exact drained

theorem removeFiles_drains (files : List String) (sandbox : Sandbox) :
    Sandbox.Drains sandbox (removeFiles files sandbox).2 := by
  induction files generalizing sandbox with
  | nil => exact .refl sandbox
  | cons file rest ih =>
    unfold removeFiles
    split
    · refine .trans ?_ (ih _)
      exact .of_eq rfl rfl
    · dsimp only
      split
      · refine .trans ?_ (ih _)
        exact .of_eq rfl rfl
      · exact ih sandbox

theorem remove_drains (args : List String) (sandbox : Sandbox) :
    Sandbox.Drains sandbox (remove args sandbox).2 := by
  unfold remove
  split
  · exact .refl sandbox
  · exact removeFiles_drains _ sandbox

theorem move_drains (args : List String) (sandbox : Sandbox) :
    Sandbox.Drains sandbox (move args sandbox).2 := by
  unfold move
  split <;> exact .of_eq rfl rfl

theorem copy_drains (args : List String) (sandbox : Sandbox) :
    Sandbox.Drains sandbox (copy args sandbox).2 := by
  unfold copy
  split <;> exact .of_eq rfl rfl

theorem touchFile_drains (sandbox : Sandbox) (file : String) :
    Sandbox.Drains sandbox (touchFile sandbox file) := by
  unfold touchFile
  dsimp only
  split <;> exact .of_eq rfl rfl

theorem touch_drains (args : List String) (sandbox : Sandbox) :
    Sandbox.Drains sandbox (touch args sandbox).2 := by
  unfold touch
  split
  · exact .refl sandbox
  · exact .foldl touchFile_drains _ sandbox

theorem unsetEither_drains (sandbox : Sandbox) (name : String) :
    Sandbox.Drains sandbox (unsetEither sandbox name) := by
  unfold unsetEither
  split
  · exact Sandbox.unset_drains sandbox name
  · exact Sandbox.undefine_drains sandbox name

theorem unset_drains (args : List String) (sandbox : Sandbox) :
    Sandbox.Drains sandbox (unset args sandbox).2 := by
  unfold unset
  split
  · exact .refl sandbox
  · split
    · exact .foldl Sandbox.undefine_drains _ sandbox
    · split
      · exact .foldl Sandbox.unset_drains _ sandbox
      · split
        · exact .refl sandbox
        · exact .foldl unsetEither_drains _ sandbox

section
variable [Operator ω]

theorem wget_drains : Drains (wget : Command ω) := by
  intro args sandbox operator
  unfold wget
  split
  · exact .refl sandbox
  · split
    · exact .refl sandbox
    · split <;> exact .of_eq rfl rfl

theorem curl_drains : Drains (curl : Command ω) := by
  intro args sandbox operator
  unfold curl
  split
  · exact .refl sandbox
  · split
    · exact .refl sandbox
    · split <;> exact .refl sandbox

/-- No command that a sandbox knows prints by itself. -/
theorem standard_drains {name : String} {command : Command ω}
    (found : (standard : Table (Command ω)).get? name = some command) : Drains command := by
  have member := Table.mem_of_get?_ofList found
  simp only [standardList, List.mem_cons, Prod.mk.injEq, List.not_mem_nil, or_false] at member
  rcases member with ⟨_, rfl⟩ | ⟨_, rfl⟩ | ⟨_, rfl⟩ | ⟨_, rfl⟩ | ⟨_, rfl⟩ | ⟨_, rfl⟩ | ⟨_, rfl⟩ |
    ⟨_, rfl⟩ | ⟨_, rfl⟩ | ⟨_, rfl⟩ | ⟨_, rfl⟩ | ⟨_, rfl⟩ | ⟨_, rfl⟩ | ⟨_, rfl⟩ | ⟨_, rfl⟩ | ⟨_, rfl⟩
  · exact ofPrinted_drains echo
  · exact ofSandbox_drains fun _ => catFiles_drains _
  · exact ofSandbox_drains changeDirectory_drains
  · exact ofSandbox_drains fun _ => Sandbox.Drains.refl
  · exact ofSandbox_drains changeMode_drains
  · exact ofSandbox_drains remove_drains
  · exact ofSandbox_drains move_drains
  · exact ofSandbox_drains copy_drains
  · exact ofSandbox_drains touch_drains
  · exact ofSandbox_drains unset_drains
  · exact ofSandbox_drains fun _ _ => .of_eq rfl rfl
  · exact ofPrinted_drains _
  · exact ofPrinted_drains _
  · exact ofPrinted_drains _
  · exact wget_drains
  · exact curl_drains

end

end Command

end StepShell

import StepShell.Proofs.Command.Frame
import StepShell.Proofs.Sandbox.View

/-! The commands that every sandbox knows do not look at what was printed or put aside. -/

namespace StepShell.Command

variable {ω : Type}

/-- With another view of the sandbox the command does the same. -/
def Blind (command : Command ω) : Prop :=
  ∀ args sandbox view operator, command args (Sandbox.seen sandbox view) operator =
    ((command args sandbox operator).1, (command args sandbox operator).2.1.seen view,
      (command args sandbox operator).2.2)

theorem ofPrinted_blind (run : List String → Printed) : Blind (ofPrinted run : Command ω) :=
  fun _ _ _ _ => rfl

/-- What runs on the sandbox alone gives the same, and leaves the view as it was. -/
def Sees {α : Type} (run : Sandbox → α × Sandbox) : Prop :=
  ∀ sandbox view, run (sandbox.seen view) = ((run sandbox).1, (run sandbox).2.seen view)

theorem ofSandbox_blind {run : List String → Sandbox → Printed × Sandbox}
    (each : ∀ args, Sees (run args)) : Blind (ofSandbox run : Command ω) := by
  intro args sandbox view operator
  unfold ofSandbox
  rw [each]

theorem foldl_seen {α : Type} {change : Sandbox → α → Sandbox}
    (each : ∀ item, Sandbox.Blind (change · item)) (items : List α) (sandbox : Sandbox)
    (view : View) :
    items.foldl change (sandbox.seen view) = (items.foldl change sandbox).seen view := by
  induction items generalizing sandbox with
  | nil => rfl
  | cons first rest ih =>
    have step := ih (change sandbox first)
    rwa [← each first] at step

theorem catFiles_sees (files : List String) : Sees (catFiles files) := by
  induction files with
  | nil => exact fun _ _ => rfl
  | cons file rest ih =>
    intro sandbox view
    have added : ∀ (output errors : String) (left : Sandbox),
        (((output ++ (catFiles rest (left.seen view)).1.1,
          errors ++ (catFiles rest (left.seen view)).1.2),
            (catFiles rest (left.seen view)).2) : (String × String) × Sandbox) =
          ((output ++ (catFiles rest left).1.1, errors ++ (catFiles rest left).1.2),
            (catFiles rest left).2.seen view) := by
      intro output errors left
      rw [ih]
    unfold catFiles
    by_cases hyphen : file = "-"
    · simp only [if_pos hyphen]
      exact added _ _ { sandbox with io := sandbox.io.read.2 }
    · have found : (sandbox.seen view).files.get? ((sandbox.seen view).resolve file) =
          sandbox.files.get? (sandbox.resolve file) := rfl
      simp only [if_neg hyphen, found]
      split <;> exact added _ _ sandbox

theorem cat_sees (args : List String) : Sees (cat args) := by
  intro sandbox view
  unfold cat
  simp only [catFiles_sees _ sandbox view]

theorem changeDirectory_sees (args : List String) : Sees (changeDirectory args) := by
  intro sandbox view
  unfold changeDirectory
  split <;> rfl

theorem changeModes_sees (mode : String) (files : List String) :
    Sees (changeModes mode files) := by
  induction files with
  | nil => exact fun _ _ => rfl
  | cons file rest ih =>
    intro sandbox view
    unfold changeModes
    have path : (sandbox.seen view).resolve file = sandbox.resolve file := rfl
    have found : (sandbox.seen view).files.get? (sandbox.resolve file) =
        sandbox.files.get? (sandbox.resolve file) := rfl
    dsimp only
    rw [path, found]
    split
    · rename_i changed _
      exact ih { sandbox with files := sandbox.files.insert (sandbox.resolve file) changed } view
    · rfl

theorem changeMode_sees (args : List String) : Sees (changeMode args) := by
  intro sandbox view
  unfold changeMode
  split
  · rfl
  · rfl
  · rename_i mode files _
    rw [changeModes_sees]
    cases changeModes mode files sandbox with
    | mk changed left => cases changed <;> rfl

theorem removeFiles_sees (files : List String) : Sees (removeFiles files) := by
  induction files with
  | nil => exact fun _ _ => rfl
  | cons file rest ih =>
    intro sandbox view
    unfold removeFiles
    have known : (sandbox.seen view).files.contains ((sandbox.seen view).resolve file) =
        sandbox.files.contains (sandbox.resolve file) := rfl
    dsimp only
    rw [known]
    split
    · exact ih { sandbox with files := FileTable.empty } view
    · split
      · exact ih { sandbox with files := sandbox.files.erase (sandbox.resolve file) } view
      · rw [ih]

theorem remove_sees (args : List String) : Sees (remove args) := by
  intro sandbox view
  unfold remove
  split
  · rfl
  · rw [removeFiles_sees]

theorem move_sees (args : List String) : Sees (move args) := by
  intro sandbox view
  unfold move
  split <;> rfl

theorem copy_sees (args : List String) : Sees (copy args) := by
  intro sandbox view
  unfold copy
  split <;> rfl

theorem touchFile_blind (file : String) : Sandbox.Blind (touchFile · file) := by
  intro sandbox view
  unfold touchFile
  dsimp only
  have known : (sandbox.seen view).files.contains ((sandbox.seen view).resolve file) =
      sandbox.files.contains (sandbox.resolve file) := rfl
  rw [known]
  split <;> rfl

theorem touch_sees (args : List String) : Sees (touch args) := by
  intro sandbox view
  unfold touch
  split
  · rfl
  · exact congrArg _ (foldl_seen touchFile_blind _ sandbox view)

theorem unsetEither_blind (name : String) : Sandbox.Blind (unsetEither · name) := by
  intro sandbox view
  unfold unsetEither
  have known : (sandbox.seen view).vars.contains name = sandbox.vars.contains name := rfl
  dsimp only
  rw [known]
  split <;> rfl

theorem unset_sees (args : List String) : Sees (unset args) := by
  intro sandbox view
  unfold unset
  split
  · rfl
  · split
    · exact congrArg _ (foldl_seen (fun _ _ _ => rfl) _ sandbox view)
    · split
      · exact congrArg _ (foldl_seen (fun _ _ _ => rfl) _ sandbox view)
      · split
        · rfl
        · exact congrArg _ (foldl_seen unsetEither_blind _ sandbox view)

section
variable [Operator ω]

theorem wget_blind : Blind (wget : Command ω) := by
  intro args sandbox view operator
  unfold wget
  split
  · rfl
  · split
    · rfl
    · split <;> rfl

theorem curl_blind : Blind (curl : Command ω) := by
  intro args sandbox view operator
  unfold curl
  split
  · rfl
  · split
    · rfl
    · split <;> rfl

/-- No command that a sandbox knows looks at its view. -/
theorem standard_blind {name : String} {command : Command ω}
    (found : (standard : Table (Command ω)).get? name = some command) : command.Blind := by
  have member := Table.mem_of_get?_ofList found
  simp only [standardList, List.mem_cons, Prod.mk.injEq, List.not_mem_nil, or_false] at member
  rcases member with ⟨_, rfl⟩ | ⟨_, rfl⟩ | ⟨_, rfl⟩ | ⟨_, rfl⟩ | ⟨_, rfl⟩ | ⟨_, rfl⟩ | ⟨_, rfl⟩ |
    ⟨_, rfl⟩ | ⟨_, rfl⟩ | ⟨_, rfl⟩ | ⟨_, rfl⟩ | ⟨_, rfl⟩ | ⟨_, rfl⟩ | ⟨_, rfl⟩ | ⟨_, rfl⟩ | ⟨_, rfl⟩
  · exact ofPrinted_blind echo
  · exact ofSandbox_blind cat_sees
  · exact ofSandbox_blind changeDirectory_sees
  · exact ofSandbox_blind fun _ _ _ => rfl
  · exact ofSandbox_blind changeMode_sees
  · exact ofSandbox_blind remove_sees
  · exact ofSandbox_blind move_sees
  · exact ofSandbox_blind copy_sees
  · exact ofSandbox_blind touch_sees
  · exact ofSandbox_blind unset_sees
  · exact ofSandbox_blind fun _ _ _ => rfl
  · exact ofPrinted_blind _
  · exact ofPrinted_blind _
  · exact ofPrinted_blind _
  · exact wget_blind
  · exact curl_blind

end

end StepShell.Command

import StepShell.Command.Files
import StepShell.Proofs.Json.Records

/-! Giving files a mode. A good mode gives every named file its permissions, whatever the order of
the names and however often a file is named. A bad one is noticed only when the first file has been
looked up, and created if it was missing. -/

namespace StepShell

/-- `+x`, or three octal digits. -/
def IsMode (mode : String) : Prop :=
  mode = "+x" ∨ mode.toList.length = 3 ∧ ∀ c ∈ mode.toList, '0' ≤ c ∧ c ≤ '7'

instance : DecidablePred IsMode :=
  fun mode => inferInstanceAs (Decidable (mode = "+x" ∨ _))

/-- The character at one of the nine places of permissions in a mode. Three places each say whether
the user, the group and others may read, write and execute; `+x` lets all of them execute and
leaves the other places as they are, and an octal digit has a bit for each of its three places. -/
def prescribed (mode : String) (permissions : List Char) (place : Nat) : Char :=
  if mode = "+x" then if place % 3 = 2 then 'x' else permissions.getD place '-'
  else
    let digit := (mode.toList.getD (place / 3) '0').toNat - '0'.toNat
    if digit.testBit (2 - place % 3) then ['r', 'w', 'x'].getD (place % 3) '-' else '-'

namespace File

/-- The file with the permissions that a mode prescribes. -/
def inMode (mode : String) (file : File) : File :=
  { file with
    permissions := String.ofList ((List.range 9).map (prescribed mode file.permissions.toList)) }

theorem padded_getElem? (permissions : List Char) {place : Nat} (within : place < 9) :
    (permissions.take 9 ++ List.replicate (9 - permissions.length) '-')[place]? =
      some (permissions.getD place '-') := by
  by_cases there : place < permissions.length
  · rw [List.getElem?_append_left (by rw [List.length_take]; omega),
      List.getElem?_take_of_lt within,
      List.getD_eq_getElem?_getD, List.getElem?_eq_getElem there, Option.getD_some]
  · rw [List.getElem?_append_right (by rw [List.length_take]; omega), List.getElem?_replicate,
      if_pos (by rw [List.length_take]; omega), List.getD_eq_getElem?_getD,
      List.getElem?_eq_none (by omega), Option.getD_none]

theorem executable_eq (permissions : List Char) :
    executable permissions = (List.range 9).map (prescribed "+x" permissions) := by
  refine List.ext_getElem? fun place => ?_
  by_cases within : place < 9
  · have length : (permissions.take 9 ++
        List.replicate (9 - permissions.length) '-').length = 9 := by
      rw [List.length_append, List.length_take, List.length_replicate]
      omega
    rw [List.getElem?_map, List.getElem?_range within, Option.map_some, prescribed, if_pos rfl]
    simp only [executable, List.getElem?_set, List.length_set, length, padded_getElem? _ within]
    grind
  · rw [List.getElem?_eq_none, List.getElem?_eq_none]
    · simpa using within
    · simp only [executable, List.length_set, List.length_append, List.length_take,
        List.length_replicate]
      omega

theorem octalDigit?_eq (c : Char) :
    octalDigit? c = if '0' ≤ c ∧ c ≤ '7' then some (c.toNat - '0'.toNat) else none := by
  simp only [octalDigit?, Bool.and_eq_true, decide_eq_true_eq]

theorem octalPermissions?_eq {mode : String} (other : mode ≠ "+x") (permissions : List Char)
    (three : mode.toList.length = 3) (each : ∀ c ∈ mode.toList, '0' ≤ c ∧ c ≤ '7') :
    octalPermissions? mode =
      some (String.ofList ((List.range 9).map (prescribed mode permissions))) := by
  have read := mapM_eq_some_map fun c among => (octalDigit?_eq c).trans (if_pos (each c among))
  obtain ⟨user, group, others, digits⟩ :
      ∃ user group others, mode.toList = [user, group, others] := by
    match mode.toList, three with
    | [user, group, others], _ => exact ⟨user, group, others, rfl⟩
  have places : List.range 9 = [0, 1, 2, 3, 4, 5, 6, 7, 8] := rfl
  rw [octalPermissions?, read, digits]
  simp [places, prescribed, other, digits, triad, Nat.testBit_eq_decide_div_mod_eq]

theorem octalPermissions?_eq_none {mode : String} (bad : ¬IsMode mode) :
    octalPermissions? mode = none := by
  unfold octalPermissions?
  by_cases each : ∀ c ∈ mode.toList, '0' ≤ c ∧ c ≤ '7'
  · have long : mode.toList.length ≠ 3 := fun three => bad (.inr ⟨three, each⟩)
    rw [mapM_eq_some_map fun c among => (octalDigit?_eq c).trans (if_pos (each c among))]
    simp [long]
  · obtain ⟨c, refused⟩ := Classical.not_forall.mp each
    obtain ⟨among, beyond⟩ := Classical.not_imp.mp refused
    rw [mapM_eq_none among ((octalDigit?_eq c).trans (if_neg beyond))]
    rfl

theorem inMode?_eq_some {mode : String} (good : IsMode mode) (file : File) :
    Command.inMode? mode file = some (file.inMode mode) := by
  unfold Command.inMode? inMode
  by_cases execute : mode = "+x"
  · rw [if_pos execute, makeExecutable, executable_eq, execute]
  · obtain ⟨three, each⟩ := good.resolve_left execute
    rw [if_neg execute, octalPermissions?_eq execute file.permissions.toList three each]
    rfl

theorem inMode?_eq_none {mode : String} (bad : ¬IsMode mode) (file : File) :
    Command.inMode? mode file = none := by
  have other : mode ≠ "+x" := fun execute => bad (.inl execute)
  rw [Command.inMode?, if_neg other, octalPermissions?_eq_none bad]
  rfl

/-- Giving a mode once more changes nothing. -/
theorem inMode_inMode (mode : String) (file : File) :
    (file.inMode mode).inMode mode = file.inMode mode := by
  have again : (List.range 9).map (prescribed mode
      ((List.range 9).map (prescribed mode file.permissions.toList))) =
      (List.range 9).map (prescribed mode file.permissions.toList) := by
    refine List.map_congr_left fun place member => ?_
    have within : place < 9 := List.mem_range.mp member
    unfold prescribed
    simp [List.getElem?_range within]
    grind
  simp only [inMode, String.toList_ofList, again]

end File

namespace FileTable

/-- The file at a path, or the placeholder for it if there is none. -/
def announced (files : FileTable) (path : String) : File :=
  (files.get? path).getD (File.placeholder path)

/-- The file at a path, or the placeholder for it, in a mode. -/
def inMode (files : FileTable) (mode path : String) : File :=
  (files.announced path).inMode mode

theorem announced_name (files : FileTable) (path : String) :
    (files.announced path).name = path := by
  unfold announced
  cases found : files.get? path with
  | none => rfl
  | some file => exact files.named found

/-- To put a file where it is leaves the table as it is. -/
theorem store_found {files : FileTable} {path : String} {file : File}
    (found : files.get? path = some file) : files.store file = files := by
  refine ext (Table.ext_get? fun other => ?_)
  refine (files.get?_store file other).trans ?_
  split
  · rename_i here
    rw [here, files.named found]
    exact found.symm
  · rfl

theorem contains_iff {files : FileTable} {path : String} :
    files.contains path = true ↔ ∃ file, files.get? path = some file :=
  Option.isSome_iff_exists

theorem inMode_name (files : FileTable) (mode path : String) :
    (files.inMode mode path).name = path :=
  files.announced_name path

theorem get?_store_inMode (files : FileTable) (mode place path : String) :
    (files.store (files.inMode mode place)).get? path =
      if path = place then some (files.inMode mode place) else files.get? path := by
  refine (files.get?_store ..).trans ?_
  rw [inMode_name]

/-- Whether a file was given the mode before makes no difference. -/
theorem inMode_store_inMode (files : FileTable) (mode place path : String) :
    (files.store (files.inMode mode place)).inMode mode path = files.inMode mode path := by
  rw [inMode, announced, get?_store_inMode]
  split
  · rename_i here
    rw [here]
    exact File.inMode_inMode mode (files.announced place)
  · rfl

end FileTable

namespace Command

variable {mode : String} {files : List String} {before : Sandbox}

/-- Every named file, and no other, is given a good mode. -/
theorem changeModes_given (good : IsMode mode) (files : List String) (before : Sandbox) :
    ∃ given, changeModes mode files before = (true, { before with files := given }) ∧
      ∀ path, given.get? path = if path ∈ files.map before.resolve
        then some (before.files.inMode mode path) else before.files.get? path := by
  induction files generalizing before with
  | nil => exact ⟨before.files, rfl, fun path => by simp⟩
  | cons file files ih =>
    let place := before.resolve file
    have put : before.files.insert place (before.files.inMode mode place) =
        before.files.store (before.files.inMode mode place) :=
      FileTable.insert_eq_store (before.files.inMode_name mode place) _
    obtain ⟨given, done, found⟩ :=
      ih { before with files := before.files.store (before.files.inMode mode place) }
    refine ⟨given, ?_, fun path => (found path).trans ?_⟩
    · rw [← put] at done
      rw [changeModes, File.inMode?_eq_some good]
      exact done
    · rw [FileTable.inMode_store_inMode, FileTable.get?_store_inMode]
      by_cases here : path = place
      · rw [if_pos here, ← here, ite_self, if_pos]
        rw [here]
        exact List.mem_cons_self
      · have apart : path ∈ (file :: files).map before.resolve ↔ path ∈ files.map before.resolve :=
          List.mem_cons.trans (or_iff_right here)
        rw [if_neg here]
        simp only [apart]
        rfl

/-- A bad mode is refused at the first file, which is put there if it was missing. -/
theorem changeModes_refused (bad : ¬IsMode mode) (file : String) (files : List String)
    (before : Sandbox) : changeModes mode (file :: files) before =
      (false, { before with
        files := before.files.store (before.files.announced (before.resolve file)) }) := by
  have named := before.files.announced_name (before.resolve file)
  rw [changeModes, File.inMode?_eq_none bad, ← FileTable.insert_eq_store named]
  rfl

/-- What becomes of the files that are given a mode: nothing if it is refused, and else each of them
has the mode, with the contents that it had, and no other file is touched. It is one to say the same
files in another order or with other names, and more than once. -/
structure GivesMode (mode : String) (files : List String) (before : Sandbox)
    (given : Printed × Sandbox) : Prop where
  rest : given.2 = { before with files := given.2.files }
  refused : given.1.status ≠ 0 → given.2.files = before.files
  named : given.1.status = 0 → ∀ file ∈ files, given.2.files.get? (before.resolve file) =
    some (before.files.inMode mode (before.resolve file))
  others : given.1.status = 0 → ∀ path ∉ files.map before.resolve,
    given.2.files.get? path = before.files.get? path
  order : given.1.status = 0 → ∀ names : List String,
    (∀ path, path ∈ names.map before.resolve ↔ path ∈ files.map before.resolve) →
    changeMode (mode :: names) before = given

theorem changeMode_given (good : IsMode mode) (needed : files ≠ []) (before : Sandbox) :
    ∃ given, changeMode (mode :: files) before = (.nothing, { before with files := given }) ∧
      ∀ path, given.get? path = if path ∈ files.map before.resolve
        then some (before.files.inMode mode path) else before.files.get? path := by
  obtain ⟨given, done, found⟩ := changeModes_given good files before
  refine ⟨given, ?_, found⟩
  cases files with
  | nil => exact absurd rfl needed
  | cons file files =>
    rw [changeMode, done]
    exact List.cons_ne_nil file files

theorem changeMode_refused (bad : ¬IsMode mode) (file : String) (files : List String)
    (before : Sandbox) : changeMode (mode :: file :: files) before =
      (.error ("chmod: invalid mode: '" ++ mode ++ "'") 1,
        { before with
          files := before.files.store (before.files.announced (before.resolve file)) }) := by
  rw [changeMode, changeModes_refused bad]
  exact List.cons_ne_nil file files

theorem GivesMode.of_good (good : IsMode mode) (needed : files ≠ []) (before : Sandbox) :
    GivesMode mode files before (changeMode (mode :: files) before) := by
  obtain ⟨given, done, found⟩ := changeMode_given good needed before
  rw [done]
  refine ⟨rfl, fun failed => absurd rfl failed, fun _ file among => ?_, fun _ path apart => ?_,
    fun _ names same => ?_⟩
  · rw [found, if_pos (List.mem_map_of_mem among)]
  · rw [found, if_neg apart]
  · have none : names ≠ [] := by
      rintro rfl
      obtain ⟨file, rest, rfl⟩ := List.exists_cons_of_ne_nil needed
      cases (same _).mpr List.mem_cons_self
    obtain ⟨other, again, likewise⟩ := changeMode_given good none before
    have tables : other = given := by
      refine FileTable.ext (Table.ext_get? fun path => ?_)
      refine (likewise path).trans ?_
      simp only [same]
      exact (found path).symm
    rw [again, tables]

/-- Refusing a mode leaves the files as they are just when the first one is there. -/
theorem GivesMode.of_bad_iff (bad : ¬IsMode mode) (file : String) (files : List String)
    (before : Sandbox) :
    GivesMode mode (file :: files) before (changeMode (mode :: file :: files) before) ↔
      before.files.contains (before.resolve file) = true := by
  rw [changeMode_refused bad]
  constructor
  · intro given
    have same : before.files.store (before.files.announced (before.resolve file)) = before.files :=
      given.refused Nat.one_ne_zero
    have stored := before.files.get?_store (before.files.announced (before.resolve file))
      (before.resolve file)
    rw [same, if_pos (before.files.announced_name _).symm] at stored
    exact FileTable.contains_iff.mpr ⟨_, stored⟩
  · intro there
    obtain ⟨found, here⟩ := FileTable.contains_iff.mp there
    have still : before.files.announced (before.resolve file) = found := by
      rw [FileTable.announced, here, Option.getD_some]
    rw [still, FileTable.store_found here]
    exact ⟨rfl, fun _ => rfl, nofun, nofun, nofun⟩

/-- Giving a mode succeeds just when it is one and there are files to be given it, and then, as when
it is refused, it does what it should. Only when it is refused and the first file was missing is
there a placeholder for that one afterwards. -/
theorem modes_given_iff (mode : String) (files : List String) (before : Sandbox) :
    let given := changeMode (mode :: files) before
    (given.1.status = 0 ↔ files ≠ [] ∧ IsMode mode) ∧
      (GivesMode mode files before given ↔
        IsMode mode ∨ ∀ file ∈ files.head?, before.files.contains (before.resolve file) = true) ∧
      ∀ file ∈ files.head?, ¬IsMode mode → given.2 = { before with
        files := before.files.store (before.files.announced (before.resolve file)) } := by
  intro given
  cases files with
  | nil =>
    refine ⟨⟨nofun, fun needed => absurd rfl needed.1⟩, ⟨fun _ => .inr nofun, fun _ => ?_⟩, nofun⟩
    exact ⟨rfl, fun _ => rfl, nofun, nofun, nofun⟩
  | cons file files =>
    have head : ∀ {holds : String → Prop},
        (∀ first ∈ (file :: files).head?, holds first) ↔ holds file := by
      simp
    rw [head, head]
    by_cases good : IsMode mode
    · have needed := List.cons_ne_nil file files
      obtain ⟨_, done, _⟩ := changeMode_given good needed before
      have success : given.1.status = 0 := congrArg (·.1.status) done
      exact ⟨⟨fun _ => ⟨needed, good⟩, fun _ => success⟩,
        ⟨fun _ => .inl good, fun _ => .of_good good needed before⟩, fun bad => absurd good bad⟩
    · have refused := changeMode_refused good file files before
      have failed : given.1.status ≠ 0 := by
        have status : given.1.status = 1 := congrArg (·.1.status) refused
        rw [status]
        exact Nat.one_ne_zero
      refine ⟨⟨fun success => absurd success failed, fun given => absurd given.2 good⟩, ?_,
        fun _ => congrArg (·.2) refused⟩
      exact (GivesMode.of_bad_iff good file files before).trans (or_iff_right good).symm

/-- A mode that no file can have leaves a file behind that was not there. -/
theorem placeholder_left_behind :
    let before := Sandbox.empty
    let given := changeMode ["999", "run.sh"] before
    given.1 = .error "chmod: invalid mode: '999'" 1 ∧ before.files.get? "~/run.sh" = none ∧
      given.2.files.get? "~/run.sh" = some ⟨"~/run.sh", none, standardPermissions⟩ ∧
      ¬GivesMode "999" ["run.sh"] before given := by
  intro before given
  have left : given.2.files.get? "~/run.sh" = some ⟨"~/run.sh", none, standardPermissions⟩ := by
    decide +kernel
  refine ⟨by decide +kernel, rfl, left, fun gives => ?_⟩
  rw [gives.refused (by decide +kernel)] at left
  cases left

end Command

end StepShell

import StepShell.Table

/-! Sandboxed files: a table from full paths to files, each of which has a name of its own besides.
The table is only ever changed file by file, so the name is the path that the file is stored
under. -/

namespace StepShell

/-- The permissions of a file that is created without any. -/
def standardPermissions : String := "rw-rw-rw-"

structure File where
  /-- The full path. -/
  name : String
  /-- Nothing for a file that was only announced, by giving it a mode. -/
  contents : Option String
  permissions : String
  deriving DecidableEq, Repr, Inhabited

namespace File

/-- A file that has a mode before it has contents. -/
def placeholder (name : String) : File := ⟨name, none, standardPermissions⟩

/-- The contents, empty if there are none. -/
def text (file : File) : String :=
  file.contents.getD ""

/-- Permissions of nine characters with the execute bit of user, group and others set. -/
def executable (permissions : List Char) : List Char :=
  let padded := permissions.take 9 ++ List.replicate (9 - permissions.length) '-'
  ((padded.set 2 'x').set 5 'x').set 8 'x'

def makeExecutable (file : File) : File :=
  { file with permissions := String.ofList (executable file.permissions.toList) }

def octalDigit? (c : Char) : Option Nat :=
  if '0' ≤ c && c ≤ '7' then some (c.toNat - '0'.toNat) else none

/-- Read, write and execute for one octal digit. -/
def triad (digit : Nat) : List Char :=
  [if digit / 4 % 2 = 1 then 'r' else '-', if digit / 2 % 2 = 1 then 'w' else '-',
    if digit % 2 = 1 then 'x' else '-']

/-- The permissions of a mode of exactly three octal digits. -/
def octalPermissions? (mode : String) : Option String := do
  let digits ← mode.toList.mapM octalDigit?
  if digits.length = 3 then some (String.ofList (digits.flatMap triad)) else none

end File

/-- What becomes of a table of files: files are stored under their names, changed where they are,
and removed. -/
inductive FileTable.Built : Table File → Prop where
  | empty : Built Table.empty
  | stored {table : Table File} (file : File) (before : Built table) :
      Built (table.insert file.name file)
  | changed {table : Table File} {change : File → File} (path : String) (before : Built table)
      (same : ∀ file, (change file).name = file.name) : Built (table.modify path change)
  | removed {table : Table File} (path : String) (before : Built table) : Built (table.erase path)

/-- Files by full path, in the order of their paths. -/
structure FileTable where
  table : Table File
  built : FileTable.Built table

namespace FileTable

instance : DecidableEq FileTable := fun left right =>
  decidable_of_iff (left.table = right.table) (by
    cases left; cases right; simp)

def empty : FileTable := ⟨Table.empty, .empty⟩

instance : EmptyCollection FileTable := ⟨empty⟩
instance : Inhabited FileTable := ⟨empty⟩

def get? (files : FileTable) (path : String) : Option File :=
  files.table.get? path

def contains (files : FileTable) (path : String) : Bool :=
  files.table.contains path

def isEmpty (files : FileTable) : Bool :=
  files.table.isEmpty

def size (files : FileTable) : Nat :=
  files.table.size

/-- The files in the order of their paths. -/
def list (files : FileTable) : List File :=
  files.table.values

/-- Put a file in the place of the one of its name. -/
def store (files : FileTable) (file : File) : FileTable :=
  ⟨files.table.insert file.name file, .stored file files.built⟩

/-- Change a file, if there is one, but for its name. -/
def modify (files : FileTable) (path : String) (change : File → File)
    (same : ∀ file, (change file).name = file.name) : FileTable :=
  ⟨files.table.modify path change, .changed path files.built same⟩

def erase (files : FileTable) (path : String) : FileTable :=
  ⟨files.table.erase path, .removed path files.built⟩

/-- Put a file at a path, after which it is named from then on. -/
def insert (files : FileTable) (path : String) (file : File) : FileTable :=
  files.store { file with name := path }

/-- Of two files with one name the later one is kept. -/
def ofList (files : List File) : FileTable :=
  files.foldl store empty

/-- The contents at a path; nothing if there is no file or it has none. -/
def text? (files : FileTable) (path : String) : Option String :=
  (files.get? path).bind File.contents

/-- Set the contents; an existing file keeps its permissions. -/
def write (files : FileTable) (path contents : String) : FileTable :=
  match files.get? path with
  | some _ => files.modify path (fun file => { file with contents := some contents }) fun _ => rfl
  | none => files.store ⟨path, some contents, standardPermissions⟩

/-- Add to the contents; an existing file keeps its permissions. -/
def append (files : FileTable) (path contents : String) : FileTable :=
  match files.get? path with
  | some _ =>
    files.modify path (fun file => { file with contents := some (file.text ++ contents) })
      fun _ => rfl
  | none => files.store ⟨path, some contents, standardPermissions⟩

/-- The file at a path, or an empty one. -/
def source (files : FileTable) (path : String) : File :=
  (files.get? path).getD ⟨path, some "", standardPermissions⟩

def copy (files : FileTable) (path target : String) : FileTable :=
  files.insert target (files.source path)

def rename (files : FileTable) (path target : String) : FileTable :=
  (files.erase path).insert target (files.source path)

theorem ext {files others : FileTable} (same : files.table = others.table) : files = others := by
  cases files
  cases others
  cases same
  rfl

@[simp] theorem store_table (files : FileTable) (file : File) :
    (files.store file).table = files.table.insert file.name file := rfl

theorem get?_store (files : FileTable) (file : File) (other : String) :
    (files.store file).get? other = if other = file.name then some file else files.get? other :=
  Table.get?_insert ..

theorem get?_insert (files : FileTable) (path : String) (file : File) (other : String) :
    (files.insert path file).get? other =
      if other = path then some { file with name := path } else files.get? other :=
  Table.get?_insert ..

theorem get?_erase (files : FileTable) (path other : String) :
    (files.erase path).get? other = if other = path then none else files.get? other :=
  Table.get?_erase ..

theorem Built.named {table : Table File} (built : Built table) {path : String} {file : File}
    (found : table.get? path = some file) : file.name = path := by
  induction built generalizing path file with
  | empty => cases found
  | stored newest _ ih =>
    rw [Table.get?_insert] at found
    split at found
    · rename_i same
      cases found
      exact same.symm
    · exact ih found
  | @changed table change place _ same ih =>
    rw [Table.get?_modify] at found
    split at found
    · rename_i here
      obtain ⟨before, there, rfl⟩ := Option.map_eq_some_iff.mp found
      rw [same, ih there]
    · exact ih found
  | removed place _ ih =>
    rw [Table.get?_erase] at found
    split at found
    · cases found
    · exact ih found

/-- Every file is stored under its own name. -/
theorem named (files : FileTable) {path : String} {file : File}
    (found : files.get? path = some file) : file.name = path :=
  files.built.named found

theorem source_name (files : FileTable) (path : String) : (files.source path).name = path := by
  unfold source
  cases found : files.get? path with
  | none => rfl
  | some file => exact files.named found

/-- The files of a table, put into one that has no others, make the table. -/
theorem foldl_store_list (files : FileTable) {others : FileTable}
    (there : ∀ path, others.contains path → files.contains path) :
    files.list.foldl store others = files := by
  have stored : ∀ (entries : List (String × File)) (others : FileTable),
      (∀ entry ∈ entries, entry.2.name = entry.1) →
      ((entries.map (·.2)).foldl store others).table =
        entries.foldl (fun table entry => table.insert entry.1 entry.2) others.table := by
    intro entries
    induction entries with
    | nil => exact fun _ _ => rfl
    | cons entry entries ih =>
      intro others named
      obtain ⟨first, later⟩ := List.forall_mem_cons.mp named
      rw [List.map_cons, List.foldl_cons, List.foldl_cons, ih _ later, store_table, first]
  exact ext ((stored _ _ fun entry among => files.named (Table.get?_eq_some.mpr among)).trans
    (files.table.foldl_insert_entries there))

/-- The files, in the order of their paths, make the table. -/
theorem ofList_list (files : FileTable) : ofList files.list = files :=
  files.foldl_store_list fun _ there => nomatch there

/-- A file that is put where it belongs keeps its name. -/
theorem insert_eq_store {path : String} {file : File} (named : file.name = path)
    (files : FileTable) : files.insert path file = files.store file := by
  rw [insert, ← named]

theorem modify_eq_store {files : FileTable} {path : String} {file : File} (change : File → File)
    (same : ∀ file, (change file).name = file.name) (found : files.get? path = some file) :
    files.modify path change same = files.store (change file) := by
  refine ext ?_
  have found : files.table.get? path = some file := found
  rw [store_table, same, files.built.named found]
  simp only [modify, Table.modify, found]

/-- Writing puts a file with new contents in the place of the one that was there, or of an empty
one. -/
theorem write_eq (files : FileTable) (path contents : String) :
    files.write path contents =
      files.insert path { files.source path with contents := some contents } := by
  have named : ({ files.source path with contents := some contents } : File).name = path :=
    files.source_name path
  rw [insert_eq_store named]
  unfold write source
  cases found : files.get? path with
  | none => rfl
  | some file =>
    exact modify_eq_store (fun file => { file with contents := some contents }) _ found

theorem append_eq (files : FileTable) (path contents : String) :
    files.append path contents = files.insert path
      { files.source path with contents := some ((files.source path).text ++ contents) } := by
  have named : ({ files.source path with
      contents := some ((files.source path).text ++ contents) } : File).name = path :=
    files.source_name path
  rw [insert_eq_store named]
  unfold append source
  cases found : files.get? path with
  | none =>
    simp only [Option.getD_none, File.text, Option.getD_some, String.empty_append]
  | some file =>
    exact modify_eq_store
      (fun file => { file with contents := some (file.text ++ contents) }) _ found

theorem get?_write (files : FileTable) (path contents other : String) :
    (files.write path contents).get? other =
      if other = path then some ⟨path, some contents, (files.source path).permissions⟩
      else files.get? other := by
  rw [write_eq, get?_insert]

theorem get?_append (files : FileTable) (path contents other : String) :
    (files.append path contents).get? other =
      if other = path then
        some ⟨path, some ((files.source path).text ++ contents), (files.source path).permissions⟩
      else files.get? other := by
  rw [append_eq, get?_insert]

theorem get?_copy (files : FileTable) (path target other : String) :
    (files.copy path target).get? other =
      if other = target then some { files.source path with name := target }
      else files.get? other :=
  get?_insert ..

theorem get?_rename (files : FileTable) (path target other : String) :
    (files.rename path target).get? other =
      if other = target then some { files.source path with name := target }
      else if other = path then none else files.get? other := by
  rw [rename, get?_insert, get?_erase]

end FileTable

end StepShell

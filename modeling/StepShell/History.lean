import StepShell.Sandbox.Report

/-! The history of a session: the sandbox as it was before each step, for undoing. -/

namespace StepShell

structure Record where
  name : String
  /-- The text of the step that followed. -/
  action : String
  sandbox : Sandbox
  /-- How much of the program was run. -/
  cursor : Nat
  deriving DecidableEq, Inhabited

namespace Record

def text (record : Record) : String :=
  s!"Name: {record.name}\nAction: {record.action}\n{record.sandbox.text false}\n"

end Record

/-- Records of which the first is never taken back. -/
structure History where
  first : Record
  /-- The others, the newest first. -/
  later : List Record
  deriving DecidableEq, Inhabited

namespace History

/-- The record that a history starts with. -/
def start (sandbox : Sandbox) : History :=
  ⟨⟨"init", "", sandbox, 0⟩, []⟩

/-- The records from the first to the newest. -/
def records (history : History) : List Record :=
  history.first :: history.later.reverse

/-- A history of these records; none of them make a history of an empty sandbox. -/
def ofRecords : List Record → History
  | [] => start Sandbox.empty
  | first :: later => ⟨first, later.reverse⟩

def size (history : History) : Nat :=
  history.later.length + 1

def newest (history : History) : Record :=
  history.later.headD history.first

/-- Add a record, which without a name is called by its number. -/
def save (history : History) (name : Option String) (action : String) (sandbox : Sandbox)
    (cursor : Nat) : History :=
  let name := name.getD (toString history.size)
  { history with later := ⟨name, action, sandbox, cursor⟩ :: history.later }

/-- Take back the newest record, unless it is the first. -/
def undo (history : History) : Option (Record × History) :=
  match history.later with
  | [] => none
  | record :: later => some (record, { history with later })

def text (history : History) : String :=
  "\nHistory\n" ++
    String.join (history.records.map fun record => record.text ++ "---------------------\n\n\n")

theorem records_ofRecords {records : List Record} (given : records ≠ []) :
    (ofRecords records).records = records := by
  cases records with
  | nil => exact absurd rfl given
  | cons first later => simp [ofRecords, History.records]

theorem ofRecords_records (history : History) : ofRecords history.records = history := by
  simp [ofRecords, records]

theorem length_records (history : History) : history.records.length = history.size := by
  simp [records, size]

theorem records_save (history : History) (name : Option String) (action : String)
    (sandbox : Sandbox) (cursor : Nat) :
    (history.save name action sandbox cursor).records =
      history.records ++ [⟨name.getD (toString history.size), action, sandbox, cursor⟩] := by
  simp [save, records]

theorem undo_save (history : History) (name : Option String) (action : String)
    (sandbox : Sandbox) (cursor : Nat) :
    (history.save name action sandbox cursor).undo =
      some (⟨name.getD (toString history.size), action, sandbox, cursor⟩, history) := rfl

end History

end StepShell

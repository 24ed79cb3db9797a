import StepShell.History
import StepShell.Sandbox.Json

/-! Histories as JSON: the list of their records, without the places in the program. -/

namespace StepShell

namespace Record

def toJson (record : Record) : Json :=
  .object [("name", .string record.name), ("action", .string record.action),
    ("env", record.sandbox.toJson)]

def ofJson? (json : Json) : Option Record := do
  let [some name, action, some sandbox] ← json.fields? ["name", "action", "env"] | none
  some ⟨← name.toString?, ← Json.optional? "" Json.toString? action,
    ← Sandbox.ofJson? sandbox, 0⟩

end Record

namespace History

def toJson (history : History) : Json :=
  .array (history.records.map Record.toJson)

def ofJson? (json : Json) : Option History :=
  (json.toList? Record.ofJson?).map ofRecords

end History

end StepShell

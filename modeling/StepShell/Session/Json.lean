import StepShell.History.Json
import StepShell.Json.Parser
import StepShell.Json.Printer
import StepShell.Session

/-! What of a session is written to a file and read back: its history, its aliases, and whether it
records. -/

namespace StepShell

structure Export where
  history : History
  aliases : Table String
  recording : Bool
  deriving DecidableEq, Inhabited

namespace Export

def flagJson (flag : Bool) : Json :=
  .string (if flag then "t" else "f")

def flag? : Json → Option Bool
  | .string "t" => some true
  | .string "f" => some false
  | _ => none

def toJson (file : Export) : Json :=
  .object [("history", file.history.toJson), ("aliases", file.aliases.toJson .string),
    ("maintain_history", flagJson file.recording)]

def ofJson? (json : Json) : Option Export := do
  let [some history, aliases, some recording] ←
    json.fields? ["history", "aliases", "maintain_history"] | none
  some ⟨← History.ofJson? history,
    ← Json.optional? Table.empty (Table.ofJson? Json.toString?) aliases, ← flag? recording⟩

end Export

namespace Session

variable {ω η : Type}

def exported (session : Session ω η) : Export :=
  ⟨session.history, session.aliases, session.recording⟩

def exportText (session : Session ω η) : String :=
  session.exported.toJson.pretty

/-- Take over what was written to a file. The newest record is the sandbox to go on with. -/
def restore (file : Export) (session : Session ω η) : Session ω η :=
  { session with
    machine := { session.machine.clear with sandbox := file.history.newest.sandbox }
    history := file.history
    aliases := file.aliases
    recording := file.recording }

def importText (text : String) : SessionStep ω η Outcome := do
  match (Json.parse? text).bind Export.ofJson? with
  | none => throw .snapshot
  | some file =>
    modify (restore file)
    return .ok "Session imported"

end Session

end StepShell

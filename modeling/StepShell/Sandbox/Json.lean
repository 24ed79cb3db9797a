import StepShell.Json.Parser
import StepShell.Json.Printer
import StepShell.Node.Json
import StepShell.Sandbox

/-! Sandboxes as JSON. Lowered scopes and captures are not written, so a sandbox read back has none.
Every field may be left out when a sandbox is read. -/

namespace StepShell

namespace Table

/-- The value of an object as a table; a name that is written again is bound anew. -/
def ofJson? {α : Type} (decode : Json → Option α) (json : Json) : Option (Table α) := do
  let members ← json.toMembers?
  let entries ← members.mapM fun (name, value) => do some (name, ← decode value)
  some (ofList entries)

def toJson {α : Type} (encode : α → Json) (table : Table α) : Json :=
  .object (table.entries.map fun (name, value) => (name, encode value))

end Table

namespace Socket

def toJson (socket : Socket) : Json :=
  .object [("id_num", .natural socket.id.toNat), ("IN", .string socket.input),
    ("OUT", .string socket.output)]

def ofJson? (json : Json) : Option Socket := do
  match ← json.fields? ["id_num", "IN", "OUT"] with
  | [id, input, output] =>
    some ⟨UInt32.ofNat (← Json.optional? 0 (Json.toNatural? 0x100000000) id),
      ← Json.optional? "" Json.toString? input, ← Json.optional? "" Json.toString? output⟩
  | _ => none

end Socket

namespace File

def toJson (file : File) : Json :=
  .object [("name", .string file.name), ("contents", Json.ofOption .string file.contents),
    ("permissions", .string file.permissions)]

def ofJson? (json : Json) : Option File := do
  match ← json.fields? ["name", "contents", "permissions"] with
  | [some name, contents, permissions] =>
    let contents ← Json.optional? none (Json.toOption? Json.toString?) contents
    let permissions ← Json.optional? standardPermissions Json.toString? permissions
    some ⟨← name.toString?, contents, permissions⟩
  | _ => none

end File

namespace FileTable

def toJson (files : FileTable) : Json :=
  .array (files.list.map File.toJson)

def ofJson? (json : Json) : Option FileTable :=
  (json.toList? File.ofJson?).map ofList

end FileTable

namespace Sandbox

def toJson (sandbox : Sandbox) : Json :=
  .object [("STDIO", sandbox.io.toJson), ("working_dir", .string sandbox.workingDir),
    ("variables", sandbox.vars.toJson Json.ofStrings), ("fs", FileTable.toJson sandbox.files),
    ("open_sockets", .array (sandbox.openSockets.map Socket.toJson)),
    ("truths", sandbox.truths.toJson .bool), ("functions", sandbox.functions.toJson Node.toJson),
    ("screen", .string sandbox.screen), ("starting_working_dir", .string sandbox.startingDir)]

def ofJson? (json : Json) : Option Sandbox := do
  match ← json.fields? ["STDIO", "working_dir", "variables", "fs", "open_sockets", "truths",
      "functions", "screen", "starting_working_dir"] with
  | [io, workingDir, vars, files, openSockets, truths, functions, screen, startingDir] =>
    some {
      io := ← Json.optional? (Socket.empty 0) Socket.ofJson? io
      workingDir := ← Json.optional? home Json.toString? workingDir
      vars := ← Json.optional? Table.empty
        (Table.ofJson? (Json.toList? Json.toString?)) vars
      files := ← Json.optional? FileTable.empty FileTable.ofJson? files
      openSockets := ← Json.optional? [] (Json.toList? Socket.ofJson?) openSockets
      truths := ← Json.optional? Table.empty (Table.ofJson? Json.toBool?) truths
      functions := ← Json.optional? Table.empty (Table.ofJson? Node.ofJson?) functions
      screen := ← Json.optional? "" Json.toString? screen
      startingDir := ← Json.optional? home Json.toString? startingDir
      scopes := []
      captures := [] }
  | _ => none

def ofText? (text : String) : Option Sandbox :=
  (Json.parse? text).bind ofJson?

/-- What is read back after a sandbox was written as a text. -/
def reread? (sandbox : Sandbox) : Option Sandbox :=
  ofText? sandbox.toJson.compact

end Sandbox

end StepShell

import StepShell.Node.Shell
import StepShell.Sandbox
import StepShell.Text.Escape

/-! Readable listings of a sandbox. -/

namespace StepShell.Sandbox

private def repr (text : String) : String :=
  "'" ++ Text.escaped text ++ "'"

/-- The variables that have an active value. -/
def variableListing (sandbox : Sandbox) : String :=
  "Variables: \n" ++
    String.join (sandbox.vars.entries.map fun (name, values) =>
      match values.getLast? with
      | some value => s!"  {name}: \"{value}\"\n"
      | none => "") ++
    if sandbox.vars.isEmpty then "  No variables in list\n" else ""

/-- The text with every newline followed by four spaces. -/
private def indented (text : String) : String :=
  String.ofList (text.toList.flatMap fun c => if c = '\n' then "\n    ".toList else [c])

def functionListing (sandbox : Sandbox) : String :=
  "Functions: \n" ++
    String.join (sandbox.functions.entries.map fun (name, body) =>
      s!"  {name}:\n" ++ indented ("     " ++ body.shell) ++ "\n") ++
    if sandbox.functions.isEmpty then "  No functions in list\n" else ""

/-- The files with their permissions and, if asked for, their contents. -/
def fileListing (sandbox : Sandbox) (showContents : Bool) : String :=
  "File System: \n" ++
    String.join (sandbox.files.list.map fun file =>
      s!"  {file.name} permissions: {file.permissions}\n" ++
        if showContents then file.text ++ "\n" else "") ++
    if sandbox.files.isEmpty then "No Files in the file system\n" else ""

def text (sandbox : Sandbox) (showContents : Bool) : String :=
  s!"Working directory: {repr sandbox.workingDir}\n" ++ sandbox.variableListing ++ "\n" ++
    s!"Number of open sockets: {sandbox.openSockets.length}\n" ++
    s!"Standard IN: {repr sandbox.io.input}\n" ++ s!"Standard OUT: {repr sandbox.io.output}\n" ++
    sandbox.functionListing ++ "\n" ++ sandbox.fileListing showContents

end StepShell.Sandbox

import StepShell.Session.Report

/-! The lines that set up a session like this one. -/

namespace StepShell

namespace Config

/-- Characters that a value cannot hold without quotes. -/
def needsQuotes (c : Char) : Bool :=
  Text.isBlank c || c == '\'' || c == '"' || c == '\\' || c == '#'

/-- A single quote inside single quotes: they are closed, it is guarded, and they are opened. -/
def quoteChar (c : Char) : List Char :=
  if c = '\'' then ['\'', '\\', '\'', '\''] else [c]

/-- A value as one word of a line. -/
def quoteChars (value : List Char) : List Char :=
  if value.isEmpty || value.any needsQuotes then '\'' :: value.flatMap quoteChar ++ ['\'']
  else value

def quote (value : String) : String :=
  String.ofList (quoteChars value.toList)

end Config

namespace Session

variable {ω η : Type}

/-- A line for every alias, text to read or written, variable, file and decided condition, for the
working directory and for whether the session records. -/
def configLines (session : Session ω η) : List String :=
  let sandbox := session.sandbox
  (session.aliases.entries.map fun (name, text) => "alias " ++ name ++ " " ++ text) ++
    (if sandbox.io.input.isEmpty then [] else ["stdin " ++ sandbox.io.input]) ++
    (if sandbox.io.output.isEmpty then [] else ["stdout " ++ sandbox.io.output]) ++
    ["dir " ++ sandbox.workingDir] ++
    (sandbox.vars.entries.map fun (name, values) =>
      "var " ++ name ++ ":" ++ Config.quote (" ".intercalate values)) ++
    (sandbox.files.list.map fun file =>
      "fs " ++ file.name ++ ":" ++ Config.quote file.text ++ ":" ++ file.permissions) ++
    (sandbox.truths.entries.map fun (condition, value) =>
      "truth " ++ condition ++ ":" ++ truthName value) ++
    ["history " ++ if session.recording then "on" else "off"]

def configText (session : Session ω η) : String :=
  "\n".intercalate session.configLines

end Session

end StepShell

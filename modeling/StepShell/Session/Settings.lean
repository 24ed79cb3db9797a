import StepShell.Session
import StepShell.Text.Split

/-! Requests that change the sandbox, the aliases or the history by hand. -/

namespace StepShell

/-- A file to create, written `name:contents` or `name:contents:permissions`. -/
structure NewFile where
  name : String
  contents : String
  permissions : Option String
  deriving DecidableEq, Repr, Inhabited

namespace NewFile

def parse? (spec : String) : Option NewFile := do
  let (name, rest) ← Text.splitOnce ':' spec
  match Text.splitOnce ':' rest with
  | some (contents, permissions) => some ⟨name, contents, some permissions⟩
  | none => some ⟨name, rest, none⟩

end NewFile

/-- Whether steps are recorded from now on. -/
inductive RecordingMode where
  | on
  | off
  | toggle
  deriving DecidableEq, Repr, Inhabited

namespace Session

variable {ω η : Type}

/-- Set the working directory, if one is given, and show it. -/
def dir (path : Option String) (session : Session ω η) : Outcome × Session ω η :=
  let session := session.withSandbox fun sandbox =>
    { sandbox with workingDir := path.getD sandbox.workingDir }
  (.ok ("Working dir: " ++ session.sandbox.workingDir), session)

/-- Set what there is to read, if a text is given, and show it. -/
def stdin (text : Option String) (session : Session ω η) : Outcome × Session ω η :=
  let session := session.withSandbox fun sandbox =>
    { sandbox with io := { sandbox.io with input := text.getD sandbox.io.input } }
  (.ok ("STD IN: " ++ session.sandbox.io.input), session)

/-- Set what was written, if a text is given, and show it. -/
def stdout (text : Option String) (session : Session ω η) : Outcome × Session ω η :=
  let session := session.withSandbox fun sandbox =>
    { sandbox with io := { sandbox.io with output := text.getD sandbox.io.output } }
  (.ok ("STD OUT: " ++ session.sandbox.io.output), session)

/-- Set variables, and show all of them if asked to. -/
def var (pairs : List (String × String)) (showAll : Bool) (session : Session ω η) :
    Outcome × Session ω η :=
  let session := session.withSandbox fun sandbox =>
    pairs.foldl (fun sandbox pair => sandbox.assign pair.1 pair.2) sandbox
  (if showAll then .ok session.sandbox.variableListing else .quiet, session)

def addFile (sandbox : Sandbox) (spec : NewFile) : Sandbox :=
  sandbox.createFile spec.name spec.contents (spec.permissions.getD standardPermissions)

/-- Create files, and show all of them if asked to. -/
def fs (specs : List NewFile) (showAll : Bool) (session : Session ω η) :
    Outcome × Session ω η :=
  let session := session.withSandbox fun sandbox => specs.foldl addFile sandbox
  (if showAll then .ok (session.sandbox.fileListing true) else .quiet, session)

/-- Decide a condition; `t` and `true` in any case say that it holds. -/
def decide (condition value : String) (session : Session ω η) : Outcome × Session ω η :=
  let lower := String.ofList (value.toList.map Char.toLower)
  (.quiet, session.withSandbox (·.withTruth condition (lower = "t" || lower = "true")))

def setAlias (name text : String) (session : Session ω η) : Outcome × Session ω η :=
  (.quiet, { session with aliases := session.aliases.insert name text })

/-- Show the screen, and empty it if asked to. -/
def screen (clear : Bool) (session : Session ω η) : Outcome × Session ω η :=
  (.ok session.sandbox.screen,
    if clear then session.withSandbox fun sandbox => { sandbox with screen := "" } else session)

def changeRecording (mode : RecordingMode) (session : Session ω η) : Outcome × Session ω η :=
  let recording := match mode with
    | .on => true
    | .off => false
    | .toggle => !session.recording
  (.ok ("History is " ++ if recording then "on" else "off"), { session with recording })

/-- Go back to the first sandbox with a new history. The program stays where it is. -/
def forgetHistory (session : Session ω η) : Outcome × Session ω η :=
  let machine := session.machine.reset
  (.ok "History reset", { session with machine, history := .start machine.sandbox })

/-- Forget the program, the aliases and the history, and go back to the first sandbox. -/
def reset (session : Session ω η) : Outcome × Session ω η :=
  let machine := session.machine.reset
  (.quiet, { session with
    machine
    history := .start machine.sandbox
    program := []
    cursor := 0
    aliases := Table.empty })

end Session

end StepShell

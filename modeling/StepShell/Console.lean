import StepShell.Console.Files
import StepShell.Console.Line
import StepShell.Session.Config
import StepShell.Session.Json
import StepShell.Session.Settings

/-! The console of a session. Each line is a request to it; settings are kept in files whose lines
are requests again. -/

namespace StepShell

structure Console (ω η : Type) where
  session : Session ω η
  /-- The file whose lines set the session up, now and after each time it is emptied. -/
  config : Option String
  /-- The directory that a tilde stands for. -/
  home : Option String
  running : Bool

/-- A request that failed, with what was being done, the outermost first. -/
inductive ConsoleError where
  | failed (context : List String) (failure : Failure)
  /-- Files of settings that import one another without end. -/
  | endless

namespace ConsoleError

/-- The same while something else was being done. -/
def during (doing : String) : ConsoleError → ConsoleError
  | .failed context failure => .failed (doing :: context) failure
  | .endless => .endless

/-- All that was being done and the failure. -/
def message : ConsoleError → String
  | .failed context failure => ": ".intercalate (context ++ [failure.message])
  | .endless => "the settings import themselves"

end ConsoleError

abbrev ConsoleStep (ω η : Type) (m : Type → Type) :=
  ExceptT ConsoleError (StateT (Console ω η) m)

namespace Console

/-- The file of settings that is read at the start. -/
def standardConfig : String := "~/.judo_config"

/-- The names of all requests. -/
def requests : List String :=
  ["alias", "build", "dir", "env", "exit", "fs", "help", "history", "inch", "json", "list", "load",
    "next", "parse", "quit", "reset", "run", "save", "screen", "shell", "skip", "stack", "state",
    "stdin", "stdout", "tokenize", "truth", "undo", "var", "void"]

/-- How many aliases one line may stand for. -/
def aliasLimit : Nat := 16

/-- What a line asks for. -/
inductive Reading where
  | blank
  | unknown (name : String)
  | aliasLoop (name : String)
  | request (line : Line)

/-- Read a line; a name that is none of the requests is replaced by the alias, at most so many
times. -/
def read (aliases : Table String) (limit : Nat) (text : String) : Reading :=
  match Line.parse? text with
  | none => .blank
  | some line =>
    if requests.contains line.name then .request line
    else
      match aliases.get? line.name, limit with
      | none, _ => .unknown line.name
      | some _, 0 => .aliasLoop line.name
      | some expansion, limit + 1 => read aliases limit (expansion ++ line.tail)

/-- A directory and a name in it. -/
def joinPath (directory name : String) : String :=
  if directory.isEmpty || directory.endsWith "/" then directory ++ name
  else directory ++ "/" ++ name

/-- A path with a tilde at its start replaced by the home directory. -/
def withHome (home : Option String) (path : String) : String :=
  match home, path.toList with
  | some home, ['~'] => joinPath home ""
  | some home, '~' :: '/' :: rest => joinPath home (String.ofList (rest.dropWhile (· == '/')))
  | _, _ => path

/-- How often a request is repeated; once if the first argument is no number. -/
def count (line : Line) : Nat :=
  (line.args.head?.bind Text.natural64?).getD 1

def given (text : String) : Option String :=
  if text.isEmpty then none else some text

/-- How much is listed before and after the next node, written `-X:+Y`; both are five if nothing is
written. -/
def listBounds? (text : String) : Option (Nat × Nat) :=
  if text.isEmpty then some (5, 5)
  else do
    let (before, after) ← Text.splitOnce ':' text
    let before ← Text.integer64? (Text.trim before)
    let after ← Text.integer64? (String.ofList
      ((Text.trimChars after.toList).dropWhile (· == '+')))
    some (before.natAbs, after.natAbs)

def lower (text : String) : String :=
  String.ofList (text.toList.map Char.toLower)

variable {ω η : Type} {m : Type → Type} [Monad m]

/-- A request that cannot fail. -/
def telling (request : Session ω η → Outcome × Session ω η) : ConsoleStep ω η m Outcome :=
  modifyGet fun console =>
    let (outcome, session) := request console.session
    (outcome, { console with session })

def showing (request : Session ω η → Outcome) : ConsoleStep ω η m Outcome :=
  return request (← get).session

def stepping (request : SessionStep ω η Outcome) : ConsoleStep ω η m Outcome := do
  let console ← get
  let (result, session) := request.run console.session
  set { console with session }
  match result with
  | .ok outcome => return outcome
  | .error failure => throw (.failed [] failure)

/-- A path as it is written in a request. -/
def pathOf (path : String) : ConsoleStep ω η m String :=
  return withHome (← get).home path

/-- Write a file, or fail while doing what the text says. -/
def writeOrFail [HostFiles m] (path text doing : String) : ConsoleStep ω η m Unit := do
  if !(← (HostFiles.write path text : m Bool)) then
    throw (.failed [doing ++ path] .io)

/-- Read a file, or fail while doing what the text says. -/
def readOrFail [HostFiles m] (path doing : String) : ConsoleStep ω η m String := do
  match ← (HostFiles.read path : m (Option String)) with
  | some text => return text
  | none => throw (.failed [doing ++ path] .io)

def load [HostFiles m] (line : Line) : ConsoleStep ω η m Outcome := do
  if line.joined.isEmpty then return .usage "Please specify a file to load"
  let mode := if line.has 'a' then Placement.append
    else if line.has 'b' then .prepend else .replace
  let path ← pathOf line.joined
  match ← (HostFiles.read path : m (Option String)) with
  | some text => telling (Session.load text mode)
  | none => return .usage ("Cannot load file " ++ path ++ " file not found")

def aliases (line : Line) : ConsoleStep ω η m Outcome := do
  if line.has 'p' then showing (Session.aliasesNamed line.args)
  else if line.has 'a' then showing Session.allAliases
  else
    let define (name text : String) : ConsoleStep ω η m Outcome :=
      if requests.contains name then
        return .usage ("Cannot alias the built-in command " ++ name)
      else telling (Session.setAlias name text)
    match line.args with
    | [] => showing Session.allAliases
    | [one] =>
      match Text.splitOnce ':' one with
      | some (name, text) => define name text
      | none => return .usage "Usage: alias <name> <text>"
    | name :: words => define name (" ".intercalate words)

def badTruth : Outcome :=
  .usage "Invalid format for truth command. please use format truth <statement>:<bool>"

def truth (line : Line) : ConsoleStep ω η m Outcome := do
  let shown ← showing Session.truths
  let outcome := if line.has 'p' then .ok shown.message else .quiet
  if line.rest.isEmpty then return outcome
  match Text.splitLast ':' line.rest with
  | none => return badTruth
  | some (condition, value) =>
    let value := Text.trim value
    if !(["t", "true", "f", "false"].contains (lower value)) then return badTruth
    let _ ← telling (Session.decide (Text.trim condition) value)
    return outcome

def list (line : Line) : ConsoleStep ω η m Outcome :=
  match listBounds? line.joined with
  | some (before, after) => showing (Session.list before after)
  | none => return .usage "Invalid arguments to list. Please use the format: list -X:+Y"

def var (line : Line) : ConsoleStep ω η m Outcome :=
  match line.args.mapM (Text.splitOnce ':') with
  | some pairs => telling (Session.var pairs (line.has 'p'))
  | none =>
    return .usage "Invalid format for var command. Please use format var <name>:<value>"

def fs (line : Line) : ConsoleStep ω η m Outcome :=
  match line.args.mapM NewFile.parse? with
  | some specs => telling (Session.fs specs (line.has 'p'))
  | none =>
    return .usage "Invalid file formation. Please follow pattern: name:contents:permissions"

def screen (line : Line) : ConsoleStep ω η m Outcome := do
  let outcome ← telling (Session.screen (line.has 'c'))
  return if line.has 'c' && !line.has 'p' then .quiet else outcome

/-- Carry out the modes one after another, up to one that there is none of. -/
def recordingModes : List String → List String → ConsoleStep ω η m Outcome
  | [], messages => return .ok ("\n".intercalate messages)
  | arg :: rest, messages => do
    let mode ← match arg with
      | "on" => pure RecordingMode.on
      | "off" => pure .off
      | "toggle" => pure .toggle
      | other => return .usage ("Unknown history option: " ++ other ++ ". Use on, off or toggle")
    let outcome ← telling (Session.changeRecording mode)
    recordingModes rest (messages ++ [outcome.message])

/-- Read the session from a file or write it to one. -/
def json [HostFiles m] (line : Line) : ConsoleStep ω η m Outcome := do
  match line.args with
  | action :: path :: _ =>
    let path ← pathOf path
    if action = "export" then
      writeOrFail path (← get).session.exportText "Failed to write session: "
      return .ok ("Session written to " ++ path)
    else if action = "import" then
      let text ← readOrFail path "Failed to read session: "
      stepping (Session.importText text)
    else return .usage ("Unknown json action: " ++ action ++ ". Use export or import")
  | _ => return .usage "Usage: json export|import <file>"

/-- Import the file of settings, if there is one; `importing` imports a file. -/
def importSettings (importing : String → ConsoleStep ω η m Unit) : ConsoleStep ω η m Unit := do
  match (← get).config with
  | some path => importing path
  | none => return

def history (importing : String → ConsoleStep ω η m Unit) (line : Line) :
    ConsoleStep ω η m Outcome := do
  let shown ← if line.has 'p' || (line.flags.isEmpty && line.args.isEmpty) then
      pure [(← showing Session.historyListing).message]
    else pure []
  let emptied ← if line.has 'r' then do
      let outcome ← telling Session.forgetHistory
      importSettings importing
      pure [outcome.message]
    else pure []
  recordingModes line.args (shown ++ emptied)

def undo (importing : String → ConsoleStep ω η m Unit) : ConsoleStep ω η m Outcome := do
  let exhausted := (← get).session.history.size ≤ 1
  let outcome ← telling Session.undo
  if exhausted then
    importSettings importing
  return outcome

def reset (importing : String → ConsoleStep ω η m Unit) : ConsoleStep ω η m Outcome := do
  let outcome ← telling Session.reset
  importSettings importing
  return outcome

/-- Write the settings to a file, import them on top of the session, or start anew from them. -/
def env [HostFiles m] (importing : String → ConsoleStep ω η m Unit) (line : Line) :
    ConsoleStep ω η m Outcome := do
  if line.has 'e' then
    let path ← pathOf ((given line.joined).getD standardConfig)
    writeOrFail path ((← get).session.configText ++ "\n") "Failed to write config: "
    return .ok ("Config written to " ++ path)
  else if line.joined.isEmpty then return .usage "Please specify a config file"
  else
    let path ← pathOf line.joined
    if line.has 'a' then
      importing path
    else
      let _ ← telling (Session.reset (ω := ω) (η := η))
      modify fun console => { console with config := some path }
      importing path
    return .quiet

def runOptions (line : Line) : RunOptions :=
  ⟨line.has 'i', line.has 'e', line.has 'h'⟩

/-- Carry out a request; `importing` imports a file of settings. -/
def request [Operator ω] [Host η] [HostFiles m] (importing : String → ConsoleStep ω η m Unit)
    (line : Line) : ConsoleStep ω η m Outcome :=
  match line.name with
  | "load" => load line
  | "next" => stepping (Session.next (count line) (runOptions line) (line.has 'p'))
  | "undo" => undo importing
  | "skip" => telling (Session.skip (count line))
  | "save" => telling (Session.save line.joined)
  | "inch" => stepping (Session.inch (count line) (line.has 'e'))
  | "run" => stepping (Session.run line.rest (runOptions line))
  | "build" =>
    stepping (if line.has 'f' then Session.buildNext (line.has 'a')
      else Session.build line.rest (line.has 'a'))
  | "stack" => showing Session.stack
  | "parse" =>
    showing fun session => if line.has 'f' then session.dumpNext else Session.dump line.rest
  | "shell" => telling (Session.shell line.rest (!line.has 'n'))
  | "dir" => telling (Session.dir (given line.joined))
  | "stdin" => telling (Session.stdin (given line.rest))
  | "stdout" => telling (Session.stdout (given line.rest))
  | "var" => var line
  | "fs" => fs line
  | "state" => showing (Session.state (line.has 'f'))
  | "void" => return .quiet
  | "history" => history importing line
  | "exit" | "quit" => do
    modify fun console => { console with running := false }
    return .quiet
  | "env" => env importing line
  | "json" => json line
  | "truth" => truth line
  | "list" => list line
  | "tokenize" => return .ok ("flags: " ++ Text.bracketed (line.flags.map Text.quotedChar) ++
      "\nargs: " ++ Text.bracketed (line.args.map Text.quoted))
  | "alias" => aliases line
  | "reset" => reset importing
  | "screen" => screen line
  | "help" => return .ok ("Commands: " ++ " ".intercalate requests)
  | name => return .usage ("Invalid command: " ++ name)

/-- Carry out a line; `importing` imports a file of settings. -/
def carryOut [Operator ω] [Host η] [HostFiles m] (importing : String → ConsoleStep ω η m Unit)
    (text : String) : ConsoleStep ω η m Outcome := do
  match read (← get).session.aliases aliasLimit text with
  | .blank => return .quiet
  | .unknown name => return .usage ("Invalid command: " ++ name)
  | .aliasLoop name => return .usage ("Alias loop: " ++ name)
  | .request line => request importing line

/-- Carry out the lines of a file of settings up to the first that fails. -/
def importLines [Operator ω] [Host η] [HostFiles m]
    (importing : String → ConsoleStep ω η m Unit) : List String → ConsoleStep ω η m Unit
  | [] => return
  | line :: rest => do
    let _ ← tryCatch (carryOut importing line) fun error =>
      throw (error.during ("config line failed: " ++ line))
    importLines importing rest

/-- Whether a line of settings says whether the session records. -/
def setsHistory (line : String) : Bool :=
  match Line.parse? line with
  | some line => line.name == "history" && !line.args.isEmpty
  | none => false

def setRecording (recording : Bool) : ConsoleStep ω η m Unit :=
  modify fun console => { console with session := { console.session with recording } }

/-- Import a file of settings, and those that it imports in turn up to `depth` inside one another.
Nothing is recorded meanwhile, unless a line of the file says so. A file that is missing is not
imported. -/
def importFile [Operator ω] [Host η] [HostFiles m] (depth : Nat) (path : String) :
    ConsoleStep ω η m Unit :=
  match depth with
  | 0 => throw .endless
  | depth + 1 => do
    if !(← (HostFiles.isFile path : m Bool)) then return
    let text ← readOrFail path "Failed to read config: "
    let lines := Text.lines text
    let recording := (← get).session.recording
    setRecording false
    let failed ← tryCatch (do importLines (importFile depth) lines; pure none) (pure ∘ some)
    if !lines.any setsHistory then
      setRecording recording
    match failed with
    | some error => throw error
    | none => return

/-- How deep files of settings may import one another, more than a stack has room for. -/
def importLimit : Nat := 100000

/-- Carry out a line, with imports inside one another up to a depth. -/
def executeWithin [Operator ω] [Host η] [HostFiles m] (depth : Nat) (text : String) :
    ConsoleStep ω η m Outcome :=
  carryOut (importFile depth) text

/-- Carry out a line. -/
def execute [Operator ω] [Host η] [HostFiles m] (text : String) : ConsoleStep ω η m Outcome :=
  executeWithin importLimit text

/-- Import the file of settings. -/
def start [Operator ω] [Host η] [HostFiles m] : ConsoleStep ω η m Unit :=
  importSettings (importFile importLimit)

def create (session : Session ω η) (config home : Option String) : Console ω η :=
  ⟨session, config, home, true⟩

end Console

end StepShell

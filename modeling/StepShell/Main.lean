import StepShell.Command.Standard
import StepShell.Console
import StepShell.Operator.Prompted

/-! The command line. Scripts run in the sandbox only, and the host runs nothing. -/

namespace StepShell.CommandLine

/-- What the arguments ask for. -/
structure Options where
  /-- Requests to carry out in place of reading them. -/
  command : Option String
  script : Option String
  config : String
  recording : Bool
  prompting : Bool

namespace Options

def standard : Options := ⟨none, none, Console.standardConfig, true, true⟩

def usage : String :=
  "Usage: stepshell [-c COMMAND] [--config CONFIG] [--no-history] [--no-prompt] [SCRIPT]"

def parse? : List String → Options → Option Options
  | [], options => some options
  | "-c" :: command :: rest, options => parse? rest { options with command := some command }
  | "--config" :: config :: rest, options => parse? rest { options with config }
  | "--no-history" :: rest, options => parse? rest { options with recording := false }
  | "--no-prompt" :: rest, options => parse? rest { options with prompting := false }
  | script :: rest, options =>
    if script.startsWith "-" || options.script.isSome then none
    else parse? rest { options with script := some script }

end Options

instance : HostFiles IO where
  isFile path := do
    match ← (IO.FS.readFile path).toBaseIO with
    | .ok _ => return true
    | .error (.noFileOrDirectory ..) | .error (.inappropriateType ..) => return false
    | .error _ => return true
  read path := do
    match ← (IO.FS.readFile path).toBaseIO with
    | .ok text => return some text
    | .error _ => return none
  write path text := do
    match ← (IO.FS.writeFile path text).toBaseIO with
    | .ok () => return true
    | .error _ => return false

/-- The operator at the keyboard, or none. -/
abbrev Attending := Absent ⊕ Prompted

abbrev Terminal := Console Attending Disabled

/-- What the operator was asked, up to the first question that found no answer if `waiting`. -/
def questions (waiting : Bool) (console : Terminal) : String :=
  match console.session.machine.operator with
  | .inl _ => ""
  | .inr operator =>
    if waiting then operator.unanswered.getD operator.written else operator.written

def isWaiting (console : Terminal) : Bool :=
  match console.session.machine.operator with
  | .inl _ => false
  | .inr operator => operator.unanswered.isSome

/-- The console with an operator who was asked nothing and has so much to say. -/
def answering (answers : String) (console : Terminal) : Terminal :=
  let machine := console.session.machine
  let operator := match machine.operator with
    | .inl operator => .inl operator
    | .inr _ => .inr (Prompted.answering answers)
  { console with session := { console.session with machine := { machine with operator } } }

/-- Carry out a step. A question that finds no answer is printed, a line is read, and the step is
carried out again from the start with that line added; `answers` are the lines read so far and
`shown` is how much was printed. -/
partial def attend {α : Type} (step : ConsoleStep Attending Disabled IO α)
    (console : Terminal) (answers : String) (shown : Nat) :
    IO (Except ConsoleError α × Terminal) := do
  let output ← IO.getStdout
  let (result, after) ← step.run (answering answers console)
  if isWaiting after then
    output.putStr ((questions true after).drop shown).toString
    output.flush
    let line ← (← IO.getStdin).getLine
    if line.isEmpty then
      output.putStr ((questions false after).drop (questions true after).length).toString
      return (result, after)
    else attend step console (answers ++ line) (questions true after).length
  else
    output.putStr ((questions false after).drop shown).toString
    return (result, after)

def report (outcome : Outcome) : IO Unit := do
  if outcome.shown && !outcome.message.isEmpty then
    if outcome.status = 0 then IO.println outcome.message
    else IO.eprintln outcome.message

def complain (error : ConsoleError) : IO Unit :=
  IO.eprintln ("Error: " ++ error.message)

/-- Read lines and carry them out until the session or the input ends. -/
partial def converse (console : Terminal) : IO Unit := do
  if console.running then
    IO.print "\n>> "
    (← IO.getStdout).flush
    let line ← (← IO.getStdin).getLine
    if !line.isEmpty then
      let (result, console) ← attend (Console.execute (Text.trim line)) console "" 0
      match result with
      | .ok outcome => report outcome
      | .error error => complain error
      converse console

/-- Carry out requests one after another; gives the status of the last. -/
def carryOutAll : List String → Nat → Terminal → IO Nat
  | [], status, _ => return status
  | line :: rest, status, console => do
    if !console.running then return status
    let (result, console) ← attend (Console.execute line) console "" 0
    match result with
    | .ok outcome =>
      report outcome
      carryOutAll rest outcome.status console
    | .error error =>
      complain (error.during ("Failed to execute: " ++ Text.trim line))
      return 1

/-- The requests of an argument, which end at line ends and double semicolons. -/
def requestsOf (command : String) : List String :=
  (Text.lines command).flatMap fun line => line.splitOn ";;"

def runWith (options : Options) : IO Nat := do
  let home ← IO.getEnv "HOME"
  let operator : Attending :=
    if options.prompting then .inr (Prompted.answering "") else .inl {}
  let machine := Machine.create Sandbox.empty Command.standard {} operator ({} : Disabled)
  let config := Console.withHome home options.config
  let (started, console) ←
    attend Console.start (Console.create (Session.create machine) (some config) home) "" 0
  if let .error error := started then
    complain (error.during "Failed to import config")
    return 1
  let session := if options.recording then console.session
    else { console.session with recording := false }
  let mut console := { console with session }
  if let some path := options.script then
    match ← (HostFiles.read path : IO (Option String)) with
    | some text =>
      let (outcome, session) := console.session.load text .replace
      report outcome
      if outcome.status ≠ 0 then return outcome.status
      console := { console with session }
    | none =>
      IO.eprintln ("Cannot load file " ++ path ++ " file not found")
      return 1
  match options.command with
  | some command => carryOutAll (requestsOf command) 0 console
  | none =>
    IO.println "Welcome to the Judo Shell!"
    converse console
    return 0

end StepShell.CommandLine

open StepShell.CommandLine in
def main (args : List String) : IO UInt32 := do
  match Options.parse? args Options.standard with
  | some options => return UInt32.ofNat (← runWith options)
  | none =>
    IO.eprintln Options.usage
    return 2

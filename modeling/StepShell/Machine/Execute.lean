import StepShell.Machine
import StepShell.Script
import StepShell.Word.Splice

/-! What executing an action does. -/

namespace StepShell.Machine

variable {ω η : Type} [Operator ω] [Host η]

/-- Change the sandbox. -/
def change (change : Sandbox → Sandbox) : Step ω η Unit :=
  modify fun machine => machine.withSandbox change

def putFirst (actions : List Action) : Step ω η Unit :=
  modify fun machine => machine.withFirst actions

/-- The parts in a slot. -/
def slot (index : Nat) : Step ω η (List Node) := do
  match (← get).slots[index]? with
  | some parts => return parts
  | none => throw (.execution (.staleSlot index))

/-- Refuse to lower a scope beyond the limit. -/
def checkDepth : Step ω η Unit := do
  let machine ← get
  Failure.ofLimit (machine.limits.checkDepth machine.sandbox.depth)

/-- Judge the result before an operator: a number that is not zero stops `&&`, a zero stops `||`. -/
def judgeResult (op : String) (status : Option Nat) (continuing : Bool) :
    Except Failure Bool :=
  if op = "||" then .ok (if status = some 0 then false else continuing)
  else if op = "&&" then .ok (if status.any (· != 0) then false else continuing)
  else if op = "&" then .ok continuing
  else if op = ";" ∨ op = "\n" then .ok true
  else .error (.execution (.unknownOperator op))

def separate (op : String) : Step ω η Unit := do
  let (result, io) := (← get).sandbox.io.read
  change fun sandbox => { sandbox with io }
  let continuing ← judgeResult op (Text.natural64? result) (← get).continuing
  modify fun machine => { machine with continuing }

/-- The path that a redirect leads to. -/
def redirectPath (index place : Nat) : Step ω η String := do
  match (← slot index)[place]? with
  | some (.redirect _ (.word text _ _ _) _) =>
    let sandbox := (← get).sandbox
    return sandbox.resolve (sandbox.vars.expand text)
  | some (.redirect _ target _) => throw (.structural (.redirectTarget target))
  | _ => throw (.execution (.redirectMissing index place))

/-- Read from a file, or what the operator says of a missing one. -/
def readRedirect (path : String) : Step ω η Unit := do
  let machine ← get
  match machine.sandbox.files.get? path with
  | some file => change fun sandbox => { sandbox with io := { sandbox.io with input := file.text } }
  | none =>
    let (answer, operator) := Operator.input path machine.operator
    set { machine with operator }
    change fun sandbox => { sandbox with io := { sandbox.io with input := answer.getD "" } }

/-- Write what was captured. -/
def writeRedirect (path : String) (append : Bool) : Step ω η Unit :=
  change fun sandbox => { sandbox with
    files := if append then sandbox.files.append path sandbox.captured
      else sandbox.files.write path sandbox.captured }

def call (name : String) (args : List String) (body : Node) : Step ω η Unit := do
  let actions ← compiling body.compile
  putFirst (.plain (.enterFunction name args) "Enter the function scope" :: actions ++
    [.plain .leaveFunction "Exit the function scope"])

/-- The actions of the commands of a nested shell. -/
def nestedActions (setting : Compilation.Setting) : List Node → Compile ω (List Action)
  | [] => return []
  | node :: rest => do
    let actions ← node.compile setting
    return .plain .flush "Resetting for new command" :: actions ++ (← nestedActions setting rest)

/-- Run a script in a nested shell. -/
def runNested (name script : String) : Step ω η Unit := do
  match Script.parse script with
  | .error error => change fun sandbox => sandbox.write (name ++ ": " ++ error.message)
  | .ok nodes =>
    let actions ← compiling fun setting => nestedActions setting nodes
    putFirst (.plain .enterSubshell "Entering sub-shell env" :: actions ++
      [.plain .raise "Exiting sub-shell env"])

/-- A shell that is given a text after `-c`, or a file. Without either it has nothing to do. -/
def nestedShell (name : String) (args : List String) : Step ω η Unit := do
  match args with
  | [] => return
  | first :: rest =>
    if first = "-c" then
      match rest with
      | script :: _ => runNested name script
      | [] => change fun sandbox => sandbox.write (name ++ ": -c: option requires an argument")
    else
      let sandbox := (← get).sandbox
      match sandbox.files.text? (sandbox.resolve first) with
      | some script => runNested name script
      | none =>
        change fun sandbox => sandbox.write (name ++ ": " ++ first ++ ": No such file or directory")

/-- Run a command of the sandbox; both its outputs are written. -/
def runKnown (command : Command ω) (args : List String) : Step ω η Unit := do
  let machine ← get
  let (result, sandbox, operator) := command args machine.sandbox machine.operator
  set { machine with sandbox, operator }
  let printed ← result
  change fun sandbox => (sandbox.write printed.output).write printed.errors

/-- The words and assignments of a command as shell text, without the redirects, which the sandbox
has carried out already. -/
def commandLine (parts : List Node) : String :=
  " ".intercalate ((parts.filter fun part => Compilation.isWord part ||
    Compilation.isAssignment part).map Node.shell)

/-- Leave a command to the operator. -/
def leaveToOperator (name : String) (parts : List Node) : Step ω η Unit := do
  let text := commandLine parts
  let machine ← get
  let (answer, operator) := Operator.command text machine.operator
  set { machine with operator }
  match answer with
  | .skip => return
  | .execute => modify (Machine.shell text true)
  | .abort => throw (.commandNotFound name)

/-- The expanded words of a command. -/
def words (vars : Variables) (parts : List Node) : List String :=
  parts.filterMap fun
    | .word text _ _ _ => some (vars.expand text)
    | _ => none

/-- Run a command: a function of that name, else a nested shell, else a command of the sandbox. -/
def runParts (parts : List Node) : Step ω η Unit := do
  let machine ← get
  match words machine.sandbox.vars parts with
  | [] => return
  | name :: args =>
    match machine.sandbox.functions.get? name with
    | some body => call name args body
    | none =>
      if name = "bash" ∨ name = "sh" then nestedShell name args
      else
        match machine.commands.get? name with
        | some command => runKnown command args
        | none => leaveToOperator name parts

/-- Carry out the assignments among the parts of a command, each with those before it in force. -/
def assignParts : List Node → Step ω η Unit
  | [] => return
  | .assignment text _ _ :: rest => do
    match Text.splitOnce '=' text with
    | some (name, value) =>
      change fun sandbox => sandbox.assign name (sandbox.vars.expand value)
      assignParts rest
    | none => throw (.execution (.malformedAssignment text))
  | _ :: rest => assignParts rest

/-- Lower a scope for the command of a substitution. -/
def enterSubstitution (index word : Nat) (part : Span) : Step ω η Unit := do
  let parts := ((← slot index)[word]?).bind fun node => node.owner.ownParts?
  match parts with
  | none => throw (.execution (.substitutionOwnerMissing index word))
  | some parts =>
    match Node.substitutedAt? part parts with
    | none => throw (.execution (.substitutionNotFound part))
    | some inner =>
      let actions ← compiling inner.compile
      checkDepth
      change fun sandbox => sandbox.lower.clearOutput
      putFirst actions

/-- The output of a substitution: newlines at its end are dropped, others become spaces. -/
def substitutedText (captured : String) : String :=
  String.ofList ((Text.dropEndWhile (· == '\n') captured.toList).map fun c =>
    if c = '\n' then ' ' else c)

/-- Raise the scope of a substitution and put its output in its place. -/
def leaveSubstitution (index word : Nat) (part : Span) : Step ω η Unit := do
  let output := substitutedText (← get).sandbox.captured
  change fun sandbox => { sandbox.clearOutput with screen := "" }.raise
  let machine ← get
  match machine.slots[index]?, (machine.slots[index]?).bind (·[word]?) with
  | some parts, some target =>
    let spliced ← (target.spliceTarget part output).mapError Failure.execution
    set { machine with slots := machine.slots.setIfInBounds index (parts.set word spliced) }
  | _, _ => throw (.execution (.staleSubstitutionTarget index word))

/-- Decide a condition that is not decided yet. -/
def decideCondition (condition : String) (node : Node) : Step ω η Unit := do
  let machine ← get
  if (machine.sandbox.truth? condition).isNone then
    let (answer, operator) := Operator.condition condition machine.operator
    set { machine with operator }
    match answer with
    | .holds => change fun sandbox => sandbox.withTruth condition true
    | .fails => change fun sandbox => sandbox.withTruth condition false
    | .execute =>
      let actions ← compiling node.compile
      putFirst (.plain .beginCapture "Capture boolean execution output" :: actions ++
        [.plain (.judge condition) "Determine if boolean execution is true",
          .plain .endCapture "Release boolean execution output"])

/-- A condition that was executed holds if anything was printed or written. -/
def judgeOutput (condition : String) (sandbox : Sandbox) : Sandbox :=
  (sandbox.withTruth condition
    !(sandbox.screen.isEmpty && sandbox.io.output.isEmpty)).clearOutput

/-- Whether the body of a clause is the one to run. -/
def isChosen (sandbox : Sandbox) (condition : Option String) (earlier : List String) : Bool :=
  let holds (condition : String) := sandbox.truth? condition == some true
  !earlier.any holds && condition.all holds

def chooseBody (condition : Option String) (earlier : List String) (body : Node) :
    Step ω η Unit := do
  if isChosen (← get).sandbox condition earlier then
    let actions ← compiling body.compile
    putFirst (.plain .flush "Enter If Statement Execution Block" :: actions ++
      [.plain .flush "Exit If Statement Execution Block"])

/-- Execute an operation. -/
def execute : Operation → Step ω η Unit
  | .resetIo => change fun sandbox => sandbox.clearOutput.clearInput
  | .cleanUp => change fun sandbox => sandbox.flush.clearInput
  | .flush => change Sandbox.flush
  | .pipe => change fun sandbox => { sandbox with io := sandbox.io.transfer }
  | .separator op => separate op
  | .beginCapture => change Sandbox.beginCapture
  | .endCapture => change Sandbox.endCapture
  | .readRedirect index place => do readRedirect (← redirectPath index place)
  | .writeRedirect index place append => do writeRedirect (← redirectPath index place) append
  | .bindLoop name value => change fun sandbox => sandbox.assign name value
  | .unbindLoop name => change fun sandbox => sandbox.unset name
  | .run index => do runParts (← slot index)
  | .assign index => do assignParts (← slot index)
  | .enterSubstitution index word part => enterSubstitution index word part
  | .leaveSubstitution index word part => leaveSubstitution index word part
  | .decide condition node => decideCondition condition node
  | .judge condition => change (judgeOutput condition)
  | .choose condition earlier body => chooseBody condition earlier body
  | .lower => do
    checkDepth
    change Sandbox.lower
  | .raise => change fun sandbox => sandbox.flush.raise
  | .enterFunction _ args => do
    checkDepth
    change fun sandbox => sandbox.enterFunction args
  | .leaveFunction => change fun sandbox => sandbox.flush.raise
  | .enterSubshell => do
    checkDepth
    change Sandbox.enterSubshell
  | .nothing => return

end StepShell.Machine

import StepShell.Compilation.Redirects
import StepShell.Expansion
import StepShell.Operator
import StepShell.Sandbox

/-! Taking a tree apart into actions. Functions are defined and loops are unrolled meanwhile, so
compiling looks at the variables and may ask the operator; it changes nothing else. -/

namespace StepShell

/-- What compiling changes: functions are defined, the parts of commands move into slots, and the
operator may be asked for the items of a loop. -/
structure Compilation (ω : Type) where
  functions : Functions
  slots : Array (List Node)
  operator : ω

/-- What compiling looks at. -/
structure Compilation.Setting where
  vars : Variables
  limits : Limits

abbrev Compile (ω : Type) := ExceptT Failure (StateM (Compilation ω))

namespace Compilation

/-- The two passes in which the substitutions of a command are resolved. -/
inductive Pass where
  /-- The words and assignments of a command. -/
  | words
  /-- The targets of redirects. -/
  | targets
  deriving DecidableEq, Repr

/-- The parts of a word, assignment or target that the pass goes over. -/
def Pass.parts : Pass → Node → List Node
  | .words, .word _ parts _ _ => parts
  | .words, .assignment _ parts _ => parts
  | .targets, .redirect _ (.word _ parts _ _) _ => parts
  | _, _ => []

/-- Entering and leaving one substitution in the word at `index`. -/
def substitutionPair (slot index : Nat) : Node → List Action
  | .substitution inner span =>
    [.plain (.enterSubstitution slot index span)
        ("Enter Command Substitution Env: " ++ inner.shell),
      .plain (.leaveSubstitution slot index span)
        ("Exiting Command Substitution Env: " ++ inner.shell)]
  | _ => []

/-- Every substitution of a pass in a slot. In each word the last one comes first, so that no
marker is shifted before its turn. -/
def substitutions (slot : Nat) (parts : List Node) (pass : Pass) : List Action :=
  parts.zipIdx.flatMap fun (part, index) =>
    (pass.parts part).reverse.flatMap (substitutionPair slot index)

def isWord : Node → Bool
  | .word .. => true
  | _ => false

def isAssignment : Node → Bool
  | .assignment .. => true
  | _ => false

def isSubstitution : Node → Bool
  | .substitution .. => true
  | _ => false

/-- The text of the first word of a command. -/
def commandName : List Node → String
  | [] => ""
  | .word text _ _ _ :: _ => text
  | _ :: rest => commandName rest

/-- The actions of a command whose parts stand in the slot; `source` is its shell text. -/
def commandActions (slot : Nat) (redirects : Redirects) (source : String) (parts : List Node) :
    List Action :=
  let assigns := parts.any isAssignment
  substitutions slot parts .targets ++ redirects.opening slot "command" ++
    (if assigns then [.plain .flush ("Entering Assignment Node: " ++ source)] else []) ++
    substitutions slot parts .words ++
    (if assigns then [⟨.assign slot, "Variable Assignment", some source⟩] else []) ++
    (if parts.any isWord || !assigns then
      [⟨.run slot, "Command node: " ++ commandName parts, some source⟩] else []) ++
    redirects.closing slot "command"

/-- The actions of the clauses of a conditional, given the conditions of those before them. A body
is compiled only when it is chosen. -/
def clauseActions (earlier : List String) : List Clause → List Action
  | [] => []
  | .mk _ (some condition) body :: rest =>
    let text := condition.shell
    [⟨.decide text condition, "Determine boolean statement truth", some text⟩,
      .plain (.choose (some text) earlier body) "Possibly append actions to stack"] ++
      clauseActions (earlier ++ [text]) rest
  | .mk _ none body :: rest =>
    [.plain .nothing "Determine if else should execute",
      .plain (.choose none earlier body) "Possibly append actions to stack"] ++
      clauseActions earlier rest

/-- The values that one item of a loop gives: all positional parameters, its expansion, or for an
item with a substitution what the operator says. Without quotes they are the words of that text. -/
def itemValues {ω : Type} [Operator ω] (setting : Setting) : Node → Compile ω (List String)
  | item@(.word text parts quoted _) => do
    if parts.any isSubstitution then
      let compilation ← get
      let (answer, operator) := Operator.items item.shell compilation.operator
      set { compilation with operator }
      match answer with
      | some answer => return if quoted then [answer] else Text.words answer
      | none => return []
    else if text = "$@" ∨ text = "$*" then return setting.vars.positionals
    else
      let expanded := setting.vars.expand text
      return if quoted then [expanded] else Text.words expanded
  | item => return [item.shell]

def valuesOfItems {ω : Type} [Operator ω] (setting : Setting) : List Node → Compile ω (List String)
  | [] => return []
  | item :: rest => do
    let values ← itemValues setting item
    return values ++ (← valuesOfItems setting rest)

/-- Move the parts of a command into a slot of their own. -/
def newSlot {ω : Type} (parts : List Node) : Compile ω Nat :=
  modifyGet fun compilation =>
    (compilation.slots.size, { compilation with slots := compilation.slots.push parts })

/-- Define a function. -/
def define {ω : Type} (name : String) (body : Node) : Compile ω Unit :=
  modify fun compilation => { compilation with functions := compilation.functions.insert name body }

/-- The actions of the parentheses and braces of a group. -/
def reservedActions (text : String) : Except Failure (List Action) :=
  if text = "(" then .ok [.plain .lower "Entering sub-shell env"]
  else if text = ")" then .ok [.plain .raise "Exiting sub-shell env"]
  else if text = "\x7b" ∨ text = "\x7d" then .ok []
  else .error (.structural (.reservedWord text))

end Compilation

open Compilation in
mutual

/-- The actions of a node. -/
def Node.compile {ω : Type} [Operator ω] (setting : Setting) : Node → Compile ω (List Action)
  | .list parts _ => do
    return .plain .flush "list node entry" :: (← Node.compileSequence setting parts)
  | .pipeline parts _ => Node.compilePipeline setting parts
  | node@(.command parts _) => do
    let redirects ← Redirects.collect parts
    let slot ← newSlot parts
    return commandActions slot redirects node.shell parts
  | .compound parts redirected _ => do
    let redirects ← Redirects.collect redirected
    let slot ← if redirected.isEmpty then pure 0 else newSlot redirected
    let body ← Node.compileAll setting parts
    return substitutions slot redirected .targets ++ redirects.opening slot "compound" ++ body ++
      redirects.closing slot "compound"
  | .forLoop name items body _ => do
    let values ← valuesOfItems setting items
    Failure.ofLimit (setting.limits.checkValues values.length)
    let rounds ← values.mapM fun value => do
      let actions ← body.compile setting
      return .plain (.bindLoop name value) "Set loop iterator value for next itr" :: actions ++
        [.plain .flush "iterate for loop"]
    return .plain .flush "for loop entry" :: rounds.flatten ++
      [.plain (.unbindLoop name) "Remove loop iterator", .plain .flush "Exit for loop"]
  | .conditional clauses _ => return clauseActions [] clauses
  | .reserved text _ => reservedActions text
  | .function name body _ => do
    define name body
    return []
  | node => throw (.structural (.misplaced node))

/-- The actions of commands with operators between them. -/
def Node.compileSequence {ω : Type} [Operator ω] (setting : Setting) :
    List Node → Compile ω (List Action)
  | [] => return []
  | .operator op _ :: rest => do
    let action := Action.plain (.separator op)
      ("list node transfer character: " ++ Text.escaped op)
    return action :: (← Node.compileSequence setting rest)
  | node :: rest => do
    let actions ← node.compile setting
    return .plain .flush "Resetting for new command" :: actions ++
      (← Node.compileSequence setting rest)

/-- The actions of commands with pipes between them. -/
def Node.compilePipeline {ω : Type} [Operator ω] (setting : Setting) :
    List Node → Compile ω (List Action)
  | [] => return []
  | .pipe .. :: rest => do
    return .plain .pipe "pipeline transfer" :: (← Node.compilePipeline setting rest)
  | node :: rest => do
    let actions ← node.compile setting
    return actions ++ (← Node.compilePipeline setting rest)

/-- The actions of the parts of a group. -/
def Node.compileAll {ω : Type} [Operator ω] (setting : Setting) :
    List Node → Compile ω (List Action)
  | [] => return []
  | node :: rest => do
    let actions ← node.compile setting
    return actions ++ (← Node.compileAll setting rest)

end

end StepShell

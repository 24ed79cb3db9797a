import StepShell.Action
import StepShell.Node.Json

/-! Actions as JSON. An operation is an object that names its type first. -/

namespace StepShell

namespace Operation

def toJson : Operation → Json
  | .resetIo => .object [("type", .string "reset_command_io")]
  | .cleanUp => .object [("type", .string "exit_cleanup")]
  | .flush => .object [("type", .string "flush_screen")]
  | .pipe => .object [("type", .string "pipe_transfer")]
  | .separator op => .object [("type", .string "list_separator"), ("op", .string op)]
  | .beginCapture => .object [("type", .string "begin_capture")]
  | .endCapture => .object [("type", .string "end_capture")]
  | .readRedirect slot index =>
    .object [("type", .string "load_redirect_input"), ("slot", .natural slot),
      ("index", .natural index)]
  | .writeRedirect slot index append =>
    .object [("type", .string "write_redirect_output"), ("slot", .natural slot),
      ("index", .natural index), ("append", .bool append)]
  | .bindLoop name value =>
    .object [("type", .string "bind_iterator"), ("name", .string name), ("value", .string value)]
  | .unbindLoop name => .object [("type", .string "unbind_iterator"), ("name", .string name)]
  | .run slot => .object [("type", .string "run_command"), ("slot", .natural slot)]
  | .assign slot => .object [("type", .string "assign_variables"), ("slot", .natural slot)]
  | .enterSubstitution slot word part =>
    .object [("type", .string "enter_substitution"), ("slot", .natural slot),
      ("word", .natural word), ("part", part.toJson)]
  | .leaveSubstitution slot word part =>
    .object [("type", .string "exit_substitution"), ("slot", .natural slot),
      ("word", .natural word), ("part", part.toJson)]
  | .decide condition node =>
    .object [("type", .string "determine_truth"), ("condition", .string condition),
      ("node", node.toJson)]
  | .judge condition =>
    .object [("type", .string "check_condition_output"), ("condition", .string condition)]
  | .choose condition earlier body =>
    .object [("type", .string "select_branch"), ("condition", Json.ofOption .string condition),
      ("earlier", Json.ofStrings earlier), ("body", body.toJson)]
  | .lower => .object [("type", .string "lower_scope")]
  | .raise => .object [("type", .string "raise_scope")]
  | .enterFunction name args =>
    .object [("type", .string "enter_function"), ("name", .string name),
      ("args", Json.ofStrings args)]
  | .leaveFunction => .object [("type", .string "exit_function")]
  | .enterSubshell => .object [("type", .string "enter_subshell")]
  | .nothing => .object [("type", .string "noop")]

/-- A slot or the place of a word in it. -/
def index? (json : Json) : Option Nat :=
  json.toNatural? wordBound

/-- An operation without fields; members that it does not have are ignored. -/
def bare? (operation : Operation) : Json → Option Operation
  | .object _ | .array [] => some operation
  | _ => none

def ofJson? (json : Json) : Option Operation := do
  let (name, record) ← json.variant? "type" []
  match name with
  | "reset_command_io" => bare? .resetIo record
  | "exit_cleanup" => bare? .cleanUp record
  | "flush_screen" => bare? .flush record
  | "pipe_transfer" => bare? .pipe record
  | "list_separator" =>
    let [some op] ← record.fields? ["op"] | none
    some (.separator (← op.toString?))
  | "begin_capture" => bare? .beginCapture record
  | "end_capture" => bare? .endCapture record
  | "load_redirect_input" =>
    let [some slot, some index] ← record.fields? ["slot", "index"] | none
    some (.readRedirect (← index? slot) (← index? index))
  | "write_redirect_output" =>
    let [some slot, some index, some append] ← record.fields? ["slot", "index", "append"] | none
    some (.writeRedirect (← index? slot) (← index? index) (← append.toBool?))
  | "bind_iterator" =>
    let [some name, some value] ← record.fields? ["name", "value"] | none
    some (.bindLoop (← name.toString?) (← value.toString?))
  | "unbind_iterator" =>
    let [some name] ← record.fields? ["name"] | none
    some (.unbindLoop (← name.toString?))
  | "run_command" =>
    let [some slot] ← record.fields? ["slot"] | none
    some (.run (← index? slot))
  | "assign_variables" =>
    let [some slot] ← record.fields? ["slot"] | none
    some (.assign (← index? slot))
  | "enter_substitution" =>
    let [some slot, some word, some part] ← record.fields? ["slot", "word", "part"] | none
    some (.enterSubstitution (← index? slot) (← index? word) (← Span.ofJson? part))
  | "exit_substitution" =>
    let [some slot, some word, some part] ← record.fields? ["slot", "word", "part"] | none
    some (.leaveSubstitution (← index? slot) (← index? word) (← Span.ofJson? part))
  | "determine_truth" =>
    let [some condition, some node] ← record.fields? ["condition", "node"] | none
    some (.decide (← condition.toString?) (← Node.ofPart? node))
  | "check_condition_output" =>
    let [some condition] ← record.fields? ["condition"] | none
    some (.judge (← condition.toString?))
  | "select_branch" =>
    let [condition, some earlier, some body] ← record.fields? ["condition", "earlier", "body"]
      | none
    some (.choose (← Json.optional? none (Json.toOption? Json.toString?) condition)
      (← Json.toList? Json.toString? earlier) (← Node.ofPart? body))
  | "lower_scope" => bare? .lower record
  | "raise_scope" => bare? .raise record
  | "enter_function" =>
    let [some name, some args] ← record.fields? ["name", "args"] | none
    some (.enterFunction (← name.toString?) (← Json.toList? Json.toString? args))
  | "exit_function" => bare? .leaveFunction record
  | "enter_subshell" => bare? .enterSubshell record
  | "noop" => bare? .nothing record
  | _ => none

end Operation

namespace Action

/-- The source is left out when there is none. -/
def toJson (action : Action) : Json :=
  .object ([("operation", action.operation.toJson), ("description", .string action.description)] ++
    match action.source with
    | some source => [("source", .string source)]
    | none => [])

def ofJson? (json : Json) : Option Action := do
  let [some operation, some description, source] ←
    json.fields? ["operation", "description", "source"] | none
  some ⟨← Operation.ofJson? operation, ← description.toString?,
    ← Json.optional? none (Json.toOption? Json.toString?) source⟩

end Action

end StepShell

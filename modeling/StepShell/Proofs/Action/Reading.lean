import StepShell.Action.Json
import StepShell.Proofs.Node.Reading

/-! Actions are read back from whatever may be written for them, as trees are. -/

namespace StepShell

/-- A count of sixty-four bits. -/
def Json.Counts (count : Nat) (json : Json) : Prop :=
  json = .natural count ∧ count < wordBound

theorem Json.Counts.read {count : Nat} {json : Json} (counts : Json.Counts count json) :
    Operation.index? json = some count := by
  obtain ⟨rfl, small⟩ := counts
  exact if_pos small

theorem Json.toOption?_ofOption (text : Option String) :
    Json.toOption? Json.toString? (Json.ofOption .string text) = some text := by
  cases text <;> rfl

namespace Operation

/-- The name of the type of operation, as JSON texts give it. -/
def type : Operation → String
  | .resetIo => "reset_command_io"
  | .cleanUp => "exit_cleanup"
  | .flush => "flush_screen"
  | .pipe => "pipe_transfer"
  | .separator .. => "list_separator"
  | .beginCapture => "begin_capture"
  | .endCapture => "end_capture"
  | .readRedirect .. => "load_redirect_input"
  | .writeRedirect .. => "write_redirect_output"
  | .bindLoop .. => "bind_iterator"
  | .unbindLoop .. => "unbind_iterator"
  | .run .. => "run_command"
  | .assign .. => "assign_variables"
  | .enterSubstitution .. => "enter_substitution"
  | .leaveSubstitution .. => "exit_substitution"
  | .decide .. => "determine_truth"
  | .judge .. => "check_condition_output"
  | .choose .. => "select_branch"
  | .lower => "lower_scope"
  | .raise => "raise_scope"
  | .enterFunction .. => "enter_function"
  | .leaveFunction => "exit_function"
  | .enterSubshell => "enter_subshell"
  | .nothing => "noop"

def fields : Operation → List Json.Field
  | .separator op => [.required "op" (· = .string op)]
  | .readRedirect slot index =>
    [.required "slot" (Json.Counts slot), .required "index" (Json.Counts index)]
  | .writeRedirect slot index append =>
    [.required "slot" (Json.Counts slot), .required "index" (Json.Counts index),
      .required "append" (· = .bool append)]
  | .bindLoop name value =>
    [.required "name" (· = .string name), .required "value" (· = .string value)]
  | .unbindLoop name => [.required "name" (· = .string name)]
  | .run slot | .assign slot => [.required "slot" (Json.Counts slot)]
  | .enterSubstitution slot word part | .leaveSubstitution slot word part =>
    [.required "slot" (Json.Counts slot), .required "word" (Json.Counts word),
      .required "part" part.Written]
  | .decide condition node =>
    [.required "condition" (· = .string condition), .required "node" node.Written]
  | .judge condition => [.required "condition" (· = .string condition)]
  | .choose condition earlier body =>
    [.omissible "condition" (· = Json.ofOption .string condition) (condition = none),
      .required "earlier" (· = Json.ofStrings earlier), .required "body" body.Written]
  | .enterFunction name args =>
    [.required "name" (· = .string name), .required "args" (· = Json.ofStrings args)]
  | _ => []

/-- The values that may be written for an operation. -/
def Written (operation : Operation) : Json → Prop :=
  Json.Variant "type" operation.type operation.fields

/-- All offsets and counts in an operation have sixty-four bits. -/
def Fits : Operation → Prop
  | .readRedirect slot index | .writeRedirect slot index _ =>
    slot < wordBound ∧ index < wordBound
  | .run slot | .assign slot => slot < wordBound
  | .enterSubstitution slot word part | .leaveSubstitution slot word part =>
    slot < wordBound ∧ word < wordBound ∧ part.Fits
  | .decide _ node | .choose _ _ node => node.Fits
  | _ => True

theorem toJson_written {operation : Operation} (fits : operation.Fits) :
    operation.Written operation.toJson := by
  cases operation with
  | decide | choose =>
    have node := Node.toJson_written _ (Node.Fits.plain fits)
    refine .of_ordered ?_ (by simp [fields])
    simpa [fields, type] using node
  | _ =>
    refine .of_ordered ?_ (by simp [fields])
    simp_all [fields, type, Json.Counts, Fits, Span.Written]

theorem Written.read {operation : Operation} {json : Json} (written : operation.Written json) :
    ofJson? json = some operation := by
  obtain ⟨members, values, tagged, read, given⟩ := Json.Variant.read written [] _ rfl
    (by cases operation <;> simp [fields])
  rw [ofJson?, tagged]
  simp only [Option.bind_eq_bind, Option.bind_some]
  cases operation with
  | resetIo | cleanUp | flush | pipe | beginCapture | endCapture | lower | raise | leaveFunction
  | enterSubshell | nothing => rfl
  | separator text | judge text | unbindLoop text =>
    obtain _ | ⟨⟨_, rfl, rfl⟩, _ | _⟩ := given
    simp only [fields, List.map_cons, List.map_nil, Json.Field.name] at read
    simp only [type, read]
    rfl
  | bindLoop name value =>
    obtain _ | ⟨⟨_, rfl, rfl⟩, _ | ⟨⟨_, rfl, rfl⟩, _ | _⟩⟩ := given
    simp only [fields, List.map_cons, List.map_nil, Json.Field.name] at read
    simp only [type, read]
    rfl
  | enterFunction name args =>
    obtain _ | ⟨⟨_, rfl, rfl⟩, _ | ⟨⟨_, rfl, rfl⟩, _ | _⟩⟩ := given
    simp only [fields, List.map_cons, List.map_nil, Json.Field.name] at read
    simp only [type, read, Option.bind_some, Json.toList?_ofStrings]
    rfl
  | run slot | assign slot =>
    obtain _ | ⟨⟨_, rfl, slots⟩, _ | _⟩ := given
    simp only [fields, List.map_cons, List.map_nil, Json.Field.name] at read
    simp only [type, read, Option.bind_some, slots.read]
  | readRedirect slot index =>
    obtain _ | ⟨⟨_, rfl, slots⟩, _ | ⟨⟨_, rfl, indices⟩, _ | _⟩⟩ := given
    simp only [fields, List.map_cons, List.map_nil, Json.Field.name] at read
    simp only [type, read, Option.bind_some, slots.read, indices.read]
  | writeRedirect slot index append =>
    obtain _ | ⟨⟨_, rfl, slots⟩, _ | ⟨⟨_, rfl, indices⟩, _ | ⟨⟨_, rfl, rfl⟩, _ | _⟩⟩⟩ := given
    simp only [fields, List.map_cons, List.map_nil, Json.Field.name] at read
    simp only [type, read, Option.bind_some, slots.read, indices.read]
    rfl
  | enterSubstitution slot word part | leaveSubstitution slot word part =>
    obtain _ | ⟨⟨_, rfl, slots⟩, _ | ⟨⟨_, rfl, words⟩, _ | ⟨⟨_, rfl, parts⟩, _ | _⟩⟩⟩ := given
    simp only [fields, List.map_cons, List.map_nil, Json.Field.name] at read
    simp only [type, read, Option.bind_some, slots.read, words.read, parts.read]
  | decide condition node =>
    obtain _ | ⟨⟨_, rfl, rfl⟩, _ | ⟨⟨_, rfl, inner⟩, _ | _⟩⟩ := given
    simp only [fields, List.map_cons, List.map_nil, Json.Field.name] at read
    simp only [type, read, Option.bind_some, inner.readPart]
    rfl
  | choose condition earlier body =>
    obtain _ | ⟨asked, _ | ⟨⟨_, rfl, rfl⟩, _ | ⟨⟨_, rfl, inner⟩, _ | _⟩⟩⟩ := given
    have chosen := asked.optional (Json.toOption? Json.toString?) fun _ same => by
      rw [same, Json.toOption?_ofOption]
    simp only [fields, List.map_cons, List.map_nil, Json.Field.name] at read
    simp only [type, read, chosen, Option.bind_some, Json.toList?_ofStrings, inner.readPart]

end Operation

namespace Action

def fields (action : Action) : List Json.Field :=
  [.required "operation" action.operation.Written,
    .required "description" (· = .string action.description),
    .omissible "source" (· = Json.ofOption .string action.source) (action.source = none)]

/-- The values that may be written for an action. -/
def Written (action : Action) : Json → Prop :=
  Json.Record action.fields

theorem toJson_written {action : Action} (fits : action.operation.Fits) :
    action.Written action.toJson := by
  have operation := Operation.toJson_written fits
  obtain ⟨doing, description, _ | source⟩ := action
  · have others : Json.Record [.required "operation" doing.Written,
          .required "description" (· = .string description)]
        (.object [("operation", doing.toJson), ("description", .string description)]) :=
      .of_ordered (by simpa using operation) (by simp)
    exact others.leave (by simp) rfl
  · refine .of_ordered ?_ (by simp [fields])
    simpa [fields, Json.ofOption] using operation

theorem Written.read {action : Action} {json : Json} (written : action.Written json) :
    ofJson? json = some action := by
  obtain ⟨values, read, given⟩ :=
    Json.Record.fields?_eq written ["operation", "description", "source"] rfl
  obtain _ | ⟨⟨_, rfl, operation⟩, _ | ⟨⟨_, rfl, rfl⟩, _ | ⟨asked, _ | _⟩⟩⟩ := given
  have source := asked.optional (Json.toOption? Json.toString?) fun _ same => by
    rw [same, Json.toOption?_ofOption]
  rw [ofJson?, read]
  simp only [Option.bind_eq_bind, Option.bind_some, operation.read, source]
  rfl

end Action

end StepShell

import StepShell.Json.Basic
import StepShell.Node

/-! Trees as JSON. Each node is an object that names its kind first; fields that have a standard
value may be left out when a tree is read, and are always written. -/

namespace StepShell

/-- Offsets and counts are below two to the sixty-fourth. -/
def wordBound : Nat := 0x10000000000000000

namespace Span

def toJson (span : Span) : Json :=
  .array [.natural span.start, .natural span.stop]

def ofJson? : Json → Option Span
  | .array [start, stop] => do
    some ⟨← start.toNatural? wordBound, ← stop.toNatural? wordBound⟩
  | _ => none

end Span

namespace RedirectKind

def ofSign? : String → Option RedirectKind
  | "<" => some .input
  | ">" => some .output
  | ">>" => some .append
  | _ => none

/-- The sign, alone or as the only member of an object, bound to nothing. -/
def ofJson? : Json → Option RedirectKind
  | .string sign => ofSign? sign
  | .object [(sign, .null)] | .object [(sign, .object [])] => ofSign? sign
  | _ => none

end RedirectKind

mutual

def Node.toJson : Node → Json
  | .command parts span =>
    .object [("kind", .string "command"), ("parts", .array (Node.toJsonAll parts)),
      ("pos", span.toJson)]
  | .word text parts quoted span =>
    .object [("kind", .string "word"), ("word", .string text),
      ("parts", .array (Node.toJsonAll parts)), ("quoted", .bool quoted), ("pos", span.toJson)]
  | .assignment text parts span =>
    .object [("kind", .string "assignment"), ("word", .string text),
      ("parts", .array (Node.toJsonAll parts)), ("pos", span.toJson)]
  | .substitution command span =>
    .object [("kind", .string "commandsubstitution"), ("command", command.toJson),
      ("pos", span.toJson)]
  | .parameter value span =>
    .object [("kind", .string "parameter"), ("value", .string value), ("pos", span.toJson)]
  | .pipeline parts span =>
    .object [("kind", .string "pipeline"), ("parts", .array (Node.toJsonAll parts)),
      ("pos", span.toJson)]
  | .pipe sign span =>
    .object [("kind", .string "pipe"), ("pipe", .string sign), ("pos", span.toJson)]
  | .list parts span =>
    .object [("kind", .string "list"), ("parts", .array (Node.toJsonAll parts)),
      ("pos", span.toJson)]
  | .operator op span =>
    .object [("kind", .string "operator"), ("op", .string op), ("pos", span.toJson)]
  | .compound parts redirects span =>
    .object [("kind", .string "compound"), ("list", .array (Node.toJsonAll parts)),
      ("redirects", .array (Node.toJsonAll redirects)), ("pos", span.toJson)]
  | .redirect kind target span =>
    .object [("kind", .string "redirect"), ("type", .string kind.sign),
      ("output", target.toJson), ("pos", span.toJson)]
  | .forLoop name items body span =>
    .object [("kind", .string "for"), ("name", .string name),
      ("items", .array (Node.toJsonAll items)), ("body", body.toJson), ("pos", span.toJson)]
  | .conditional clauses span =>
    .object [("kind", .string "if"), ("clauses", .array (Clause.toJsonAll clauses)),
      ("pos", span.toJson)]
  | .function name body span =>
    .object [("kind", .string "function"), ("name", .string name), ("body", body.toJson),
      ("pos", span.toJson)]
  | .reserved word span =>
    .object [("kind", .string "reservedword"), ("word", .string word), ("pos", span.toJson)]

def Node.toJsonAll : List Node → List Json
  | [] => []
  | node :: rest => node.toJson :: Node.toJsonAll rest

def Clause.toJson : Clause → Json
  | .mk keyword (some condition) body =>
    .object [("keyword", .string keyword), ("condition", condition.toJson), ("body", body.toJson)]
  | .mk keyword none body =>
    .object [("keyword", .string keyword), ("condition", .null), ("body", body.toJson)]

def Clause.toJsonAll : List Clause → List Json
  | [] => []
  | clause :: rest => clause.toJson :: Clause.toJsonAll rest

end

/-- The items of a list field that may be left out, and is then empty. -/
def Json.itemsField? : Option Json → Option (List Json)
  | none => some []
  | some (.array items) => some items
  | _ => none

private theorem sizeOf_itemsField {field : Option Json} {items : List Json}
    (found : Json.itemsField? field = some items) {item : Json} (member : item ∈ items) :
    ∃ json, field = some json ∧ sizeOf item < sizeOf json := by
  unfold Json.itemsField? at found
  split at found
  · obtain rfl : [] = items := by simpa using found
    simp at member
  · rename_i given
    obtain rfl : given = items := by simpa using found
    refine ⟨_, rfl, ?_⟩
    have := List.sizeOf_lt_of_mem member
    simp
    omega
  · simp at found

/-- All kinds of nodes; a node inside another may give the place of its kind here. -/
def Node.kinds : List String :=
  ["command", "word", "assignment", "commandsubstitution", "parameter", "pipeline", "pipe", "list",
    "operator", "compound", "redirect", "for", "if", "function", "reservedword"]

set_option linter.unusedVariables false in
mutual

/-- The node that a JSON value inside another is written for; `none` if a field is missing, repeated
or of another type. -/
def Node.ofPart? (json : Json) : Option Node :=
  match tagged : json.variant? "kind" Node.kinds with
  | some ("command", record) =>
    match read : record.fields? ["parts", "pos"] with
    | some [some (.array parts), some pos] => do
      some (.command (← parts.attach.mapM fun part => Node.ofPart? part.1) (← Span.ofJson? pos))
    | _ => none
  | some ("word", record) =>
    match read : record.fields? ["word", "parts", "quoted", "pos"] with
    | some [some text, parts, quoted, some pos] =>
      match items : Json.itemsField? parts with
      | some parts => do
        some (.word (← text.toString?) (← parts.attach.mapM fun part => Node.ofPart? part.1)
          (← Json.optional? false Json.toBool? quoted) (← Span.ofJson? pos))
      | none => none
    | _ => none
  | some ("assignment", record) =>
    match read : record.fields? ["word", "parts", "pos"] with
    | some [some text, parts, some pos] =>
      match items : Json.itemsField? parts with
      | some parts => do
        some (.assignment (← text.toString?)
          (← parts.attach.mapM fun part => Node.ofPart? part.1) (← Span.ofJson? pos))
      | none => none
    | _ => none
  | some ("commandsubstitution", record) =>
    match read : record.fields? ["command", "pos"] with
    | some [some command, some pos] => do
      some (.substitution (← Node.ofPart? command) (← Span.ofJson? pos))
    | _ => none
  | some ("parameter", record) =>
    match record.fields? ["value", "pos"] with
    | some [some value, some pos] => do some (.parameter (← value.toString?) (← Span.ofJson? pos))
    | _ => none
  | some ("pipeline", record) =>
    match read : record.fields? ["parts", "pos"] with
    | some [some (.array parts), some pos] => do
      some (.pipeline (← parts.attach.mapM fun part => Node.ofPart? part.1) (← Span.ofJson? pos))
    | _ => none
  | some ("pipe", record) =>
    match record.fields? ["pipe", "pos"] with
    | some [some sign, some pos] => do some (.pipe (← sign.toString?) (← Span.ofJson? pos))
    | _ => none
  | some ("list", record) =>
    match read : record.fields? ["parts", "pos"] with
    | some [some (.array parts), some pos] => do
      some (.list (← parts.attach.mapM fun part => Node.ofPart? part.1) (← Span.ofJson? pos))
    | _ => none
  | some ("operator", record) =>
    match record.fields? ["op", "pos"] with
    | some [some op, some pos] => do some (.operator (← op.toString?) (← Span.ofJson? pos))
    | _ => none
  | some ("compound", record) =>
    match read : record.fields? ["list", "redirects", "pos"] with
    | some [some (.array parts), redirects, some pos] =>
      match items : Json.itemsField? redirects with
      | some redirects => do
        some (.compound (← parts.attach.mapM fun part => Node.ofPart? part.1)
          (← redirects.attach.mapM fun part => Node.ofPart? part.1) (← Span.ofJson? pos))
      | none => none
    | _ => none
  | some ("redirect", record) =>
    match read : record.fields? ["type", "output", "pos"] with
    | some [some kind, some target, some pos] => do
      some (.redirect (← RedirectKind.ofJson? kind) (← Node.ofPart? target) (← Span.ofJson? pos))
    | _ => none
  | some ("for", record) =>
    match read : record.fields? ["name", "items", "body", "pos"] with
    | some [some name, some (.array items), some body, some pos] => do
      some (.forLoop (← name.toString?) (← items.attach.mapM fun item => Node.ofPart? item.1)
        (← Node.ofPart? body) (← Span.ofJson? pos))
    | _ => none
  | some ("if", record) =>
    match read : record.fields? ["clauses", "pos"] with
    | some [some (.array clauses), some pos] => do
      some (.conditional (← clauses.attach.mapM fun clause => Clause.ofPart? clause.1)
        (← Span.ofJson? pos))
    | _ => none
  | some ("function", record) =>
    match read : record.fields? ["name", "body", "pos"] with
    | some [some name, some body, some pos] => do
      some (.function (← name.toString?) (← Node.ofPart? body) (← Span.ofJson? pos))
    | _ => none
  | some ("reservedword", record) =>
    match record.fields? ["word", "pos"] with
    | some [some word, some pos] => do some (.reserved (← word.toString?) (← Span.ofJson? pos))
    | _ => none
  | _ => none
termination_by sizeOf json
decreasing_by
  all_goals have recordSmall := Json.sizeOf_variant tagged
  · have := Json.sizeOf_field read (.array parts) (by simp)
    have := List.sizeOf_lt_of_mem part.2
    simp at *
    omega
  · obtain ⟨field, rfl, small⟩ := sizeOf_itemsField items part.2
    have := Json.sizeOf_field read field (by simp)
    omega
  · obtain ⟨field, rfl, small⟩ := sizeOf_itemsField items part.2
    have := Json.sizeOf_field read field (by simp)
    omega
  · have := Json.sizeOf_field read command (by simp)
    omega
  · have := Json.sizeOf_field read (.array parts) (by simp)
    have := List.sizeOf_lt_of_mem part.2
    simp at *
    omega
  · have := Json.sizeOf_field read (.array parts) (by simp)
    have := List.sizeOf_lt_of_mem part.2
    simp at *
    omega
  · have := Json.sizeOf_field read (.array parts) (by simp)
    have := List.sizeOf_lt_of_mem part.2
    simp at *
    omega
  · obtain ⟨field, rfl, small⟩ := sizeOf_itemsField items part.2
    have := Json.sizeOf_field read field (by simp)
    omega
  · have := Json.sizeOf_field read target (by simp)
    omega
  · have := Json.sizeOf_field read (.array items) (by simp)
    have := List.sizeOf_lt_of_mem item.2
    simp at *
    omega
  · have := Json.sizeOf_field read body (by simp)
    omega
  · have := Json.sizeOf_field read (.array clauses) (by simp)
    have := List.sizeOf_lt_of_mem clause.2
    simp at *
    omega
  · have := Json.sizeOf_field read body (by simp)
    omega

def Clause.ofPart? (json : Json) : Option Clause :=
  match read : json.fields? ["keyword", "condition", "body"] with
  | some [some keyword, some (.null), some body]
  | some [some keyword, none, some body] => do
    some (.mk (← keyword.toString?) none (← Node.ofPart? body))
  | some [some keyword, some condition, some body] => do
    some (.mk (← keyword.toString?) (some (← Node.ofPart? condition)) (← Node.ofPart? body))
  | _ => none
termination_by sizeOf json
decreasing_by
  · exact Json.sizeOf_field read _ (by simp)
  · exact Json.sizeOf_field read _ (by simp)
  · exact Json.sizeOf_field read _ (by simp)
  · exact Json.sizeOf_field read _ (by simp)

end

/-- The tree that a JSON value is written for. The outermost node gives its kind by name, and
nothing in the value may have to be passed over. -/
def Node.ofJson? (json : Json) : Option Node :=
  if json.isReadable && (json.variant? "kind" []).isSome then Node.ofPart? json else none

end StepShell

import StepShell.Node.Json
import StepShell.Proofs.Json.Nesting
import StepShell.Proofs.Json.Records
import StepShell.Proofs.Script.Defines

/-! The values that may be written for a tree. At every depth the members of an object stand in any
order and others beside them, and a field that has its standard value may be left out. -/

namespace StepShell

namespace Span

/-- Both offsets have sixty-four bits. -/
def Fits (span : Span) : Prop :=
  span.start < wordBound ∧ span.stop < wordBound

def Written (span : Span) (json : Json) : Prop :=
  json = span.toJson ∧ span.Fits

end Span

/-- All offsets in a tree have sixty-four bits. -/
inductive Node.Fits : Node → Prop where
  | mk {node : Node} (own : node.span.Fits) (each : ∀ child ∈ node.children, Fits child) :
      Fits node

mutual

def Node.Written : Node → Json → Prop
  | .command parts span => Json.Variant "kind" "command"
    [.required "parts" (Node.WrittenAll parts), .required "pos" span.Written]
  | .word text parts quoted span => Json.Variant "kind" "word"
    [.required "word" (· = .string text), .omissible "parts" (Node.WrittenAll parts) (parts = []),
      .omissible "quoted" (· = .bool quoted) (quoted = false), .required "pos" span.Written]
  | .assignment text parts span => Json.Variant "kind" "assignment"
    [.required "word" (· = .string text), .omissible "parts" (Node.WrittenAll parts) (parts = []),
      .required "pos" span.Written]
  | .substitution command span => Json.Variant "kind" "commandsubstitution"
    [.required "command" command.Written, .required "pos" span.Written]
  | .parameter value span => Json.Variant "kind" "parameter"
    [.required "value" (· = .string value), .required "pos" span.Written]
  | .pipeline parts span => Json.Variant "kind" "pipeline"
    [.required "parts" (Node.WrittenAll parts), .required "pos" span.Written]
  | .pipe sign span => Json.Variant "kind" "pipe"
    [.required "pipe" (· = .string sign), .required "pos" span.Written]
  | .list parts span => Json.Variant "kind" "list"
    [.required "parts" (Node.WrittenAll parts), .required "pos" span.Written]
  | .operator op span => Json.Variant "kind" "operator"
    [.required "op" (· = .string op), .required "pos" span.Written]
  | .compound parts redirects span => Json.Variant "kind" "compound"
    [.required "list" (Node.WrittenAll parts),
      .omissible "redirects" (Node.WrittenAll redirects) (redirects = []),
      .required "pos" span.Written]
  | .redirect kind target span => Json.Variant "kind" "redirect"
    [.required "type" (· = .string kind.sign), .required "output" target.Written,
      .required "pos" span.Written]
  | .forLoop name items body span => Json.Variant "kind" "for"
    [.required "name" (· = .string name), .required "items" (Node.WrittenAll items),
      .required "body" body.Written, .required "pos" span.Written]
  | .conditional clauses span => Json.Variant "kind" "if"
    [.required "clauses" (Clause.WrittenAll clauses), .required "pos" span.Written]
  | .function name body span => Json.Variant "kind" "function"
    [.required "name" (· = .string name), .required "body" body.Written,
      .required "pos" span.Written]
  | .reserved word span => Json.Variant "kind" "reservedword"
    [.required "word" (· = .string word), .required "pos" span.Written]

def Node.WrittenAll : List Node → Json → Prop
  | [] => (· = .array [])
  | node :: rest => fun json => ∃ first later, json = .array (first :: later) ∧
    node.Written first ∧ Node.WrittenAll rest (.array later)

def Clause.Written : Clause → Json → Prop
  | .mk keyword none body => Json.Record
    [.required "keyword" (· = .string keyword), .omissible "condition" (· = .null) True,
      .required "body" body.Written]
  | .mk keyword (some condition) body => Json.Record
    [.required "keyword" (· = .string keyword), .required "condition" condition.Written,
      .required "body" body.Written]

def Clause.WrittenAll : List Clause → Json → Prop
  | [] => (· = .array [])
  | clause :: rest => fun json => ∃ first later, json = .array (first :: later) ∧
    clause.Written first ∧ Clause.WrittenAll rest (.array later)

end

theorem Node.toJsonAll_eq_map (nodes : List Node) :
    Node.toJsonAll nodes = nodes.map Node.toJson := by
  induction nodes with
  | nil => rfl
  | cons node rest ih => rw [Node.toJsonAll, ih, List.map_cons]

theorem Clause.toJsonAll_eq_map (clauses : List Clause) :
    Clause.toJsonAll clauses = clauses.map Clause.toJson := by
  induction clauses with
  | nil => rfl
  | cons clause rest ih => rw [Clause.toJsonAll, ih, List.map_cons]

theorem Span.toJson_plain {span : Span} : span.toJson.Plain ↔ span.Fits := by
  have word : wordBound = 1 <<< 64 := by decide
  simp [toJson, Fits, word]

theorem Span.toJson_written {span : Span} (plain : span.toJson.Plain) :
    span.Written span.toJson :=
  ⟨rfl, toJson_plain.mp plain⟩

/-- A tree with such offsets is written without a loss. -/
theorem Node.Fits.plain {node : Node} (fits : node.Fits) : node.toJson.Plain := by
  induction fits with
  | @mk node own each ih =>
    have span := Span.toJson_plain.mpr own
    cases node with
    | conditional clauses place =>
      have clause : ∀ clause ∈ clauses, clause.toJson.Plain := by
        rintro ⟨keyword, condition, body⟩ among
        have inner := fun child member => ih child (List.mem_flatMap.mpr ⟨_, among, member⟩)
        cases condition with
        | none => simpa [Clause.toJson, Clause.condition, Clause.body] using inner
        | some condition => simpa [Clause.toJson, Clause.condition, Clause.body] using inner
      simpa [Node.toJson, Clause.toJsonAll_eq_map, Node.span] using ⟨clause, span⟩
    | _ =>
      simp_all [Node.toJson, Node.toJsonAll_eq_map, Node.children, Node.span]

mutual

theorem Node.toJson_written : (node : Node) → node.toJson.Plain → node.Written node.toJson
  | .command parts span, plain => by
    simp only [Node.toJson, Json.plain_object_cons] at plain
    obtain ⟨_, inner, offsets, _⟩ := plain
    refine .of_ordered ?_ (by simp)
    simp [Node.toJsonAll_written parts inner, Span.toJson_written offsets]
  | .word text parts quoted span, plain => by
    simp only [Node.toJson, Json.plain_object_cons] at plain
    obtain ⟨_, _, inner, _, offsets, _⟩ := plain
    refine .of_ordered ?_ (by simp)
    simp [Node.toJsonAll_written parts inner, Span.toJson_written offsets]
  | .assignment text parts span, plain => by
    simp only [Node.toJson, Json.plain_object_cons] at plain
    obtain ⟨_, _, inner, offsets, _⟩ := plain
    refine .of_ordered ?_ (by simp)
    simp [Node.toJsonAll_written parts inner, Span.toJson_written offsets]
  | .substitution command span, plain => by
    simp only [Node.toJson, Json.plain_object_cons] at plain
    obtain ⟨_, inner, offsets, _⟩ := plain
    refine .of_ordered ?_ (by simp)
    simp [Node.toJson_written command inner, Span.toJson_written offsets]
  | .parameter value span, plain => by
    simp only [Node.toJson, Json.plain_object_cons] at plain
    obtain ⟨_, _, offsets, _⟩ := plain
    refine .of_ordered ?_ (by simp)
    simp [Span.toJson_written offsets]
  | .pipeline parts span, plain => by
    simp only [Node.toJson, Json.plain_object_cons] at plain
    obtain ⟨_, inner, offsets, _⟩ := plain
    refine .of_ordered ?_ (by simp)
    simp [Node.toJsonAll_written parts inner, Span.toJson_written offsets]
  | .pipe sign span, plain => by
    simp only [Node.toJson, Json.plain_object_cons] at plain
    obtain ⟨_, _, offsets, _⟩ := plain
    refine .of_ordered ?_ (by simp)
    simp [Span.toJson_written offsets]
  | .list parts span, plain => by
    simp only [Node.toJson, Json.plain_object_cons] at plain
    obtain ⟨_, inner, offsets, _⟩ := plain
    refine .of_ordered ?_ (by simp)
    simp [Node.toJsonAll_written parts inner, Span.toJson_written offsets]
  | .operator op span, plain => by
    simp only [Node.toJson, Json.plain_object_cons] at plain
    obtain ⟨_, _, offsets, _⟩ := plain
    refine .of_ordered ?_ (by simp)
    simp [Span.toJson_written offsets]
  | .compound parts redirects span, plain => by
    simp only [Node.toJson, Json.plain_object_cons] at plain
    obtain ⟨_, inner, others, offsets, _⟩ := plain
    refine .of_ordered ?_ (by simp)
    simp [Node.toJsonAll_written parts inner, Node.toJsonAll_written redirects others,
      Span.toJson_written offsets]
  | .redirect kind target span, plain => by
    simp only [Node.toJson, Json.plain_object_cons] at plain
    obtain ⟨_, _, inner, offsets, _⟩ := plain
    refine .of_ordered ?_ (by simp)
    simp [Node.toJson_written target inner, Span.toJson_written offsets]
  | .forLoop name items body span, plain => by
    simp only [Node.toJson, Json.plain_object_cons] at plain
    obtain ⟨_, _, inner, main, offsets, _⟩ := plain
    refine .of_ordered ?_ (by simp)
    simp [Node.toJsonAll_written items inner, Node.toJson_written body main,
      Span.toJson_written offsets]
  | .conditional clauses span, plain => by
    simp only [Node.toJson, Json.plain_object_cons] at plain
    obtain ⟨_, inner, offsets, _⟩ := plain
    refine .of_ordered ?_ (by simp)
    simp [Clause.toJsonAll_written clauses inner, Span.toJson_written offsets]
  | .function name body span, plain => by
    simp only [Node.toJson, Json.plain_object_cons] at plain
    obtain ⟨_, _, main, offsets, _⟩ := plain
    refine .of_ordered ?_ (by simp)
    simp [Node.toJson_written body main, Span.toJson_written offsets]
  | .reserved word span, plain => by
    simp only [Node.toJson, Json.plain_object_cons] at plain
    obtain ⟨_, _, offsets, _⟩ := plain
    refine .of_ordered ?_ (by simp)
    simp [Span.toJson_written offsets]

theorem Node.toJsonAll_written : (nodes : List Node) →
    (Json.array (Node.toJsonAll nodes)).Plain →
    Node.WrittenAll nodes (.array (Node.toJsonAll nodes))
  | [], _ => rfl
  | node :: rest, plain => by
    rw [Node.toJsonAll, Json.plain_array_cons] at plain
    exact ⟨_, _, rfl, Node.toJson_written node plain.1, Node.toJsonAll_written rest plain.2⟩

theorem Clause.toJson_written : (clause : Clause) → clause.toJson.Plain →
    clause.Written clause.toJson
  | .mk keyword none body, plain => by
    simp only [Clause.toJson, Json.plain_object_cons] at plain
    obtain ⟨_, _, main, _⟩ := plain
    refine .of_ordered ?_ (by simp)
    simp [Node.toJson_written body main]
  | .mk keyword (some condition) body, plain => by
    simp only [Clause.toJson, Json.plain_object_cons] at plain
    obtain ⟨_, inner, main, _⟩ := plain
    refine .of_ordered ?_ (by simp)
    simp [Node.toJson_written condition inner, Node.toJson_written body main]

theorem Clause.toJsonAll_written : (clauses : List Clause) →
    (Json.array (Clause.toJsonAll clauses)).Plain →
    Clause.WrittenAll clauses (.array (Clause.toJsonAll clauses))
  | [], _ => rfl
  | clause :: rest, plain => by
    rw [Clause.toJsonAll, Json.plain_array_cons] at plain
    exact ⟨_, _, rfl, Clause.toJson_written clause plain.1,
      Clause.toJsonAll_written rest plain.2⟩

end

end StepShell

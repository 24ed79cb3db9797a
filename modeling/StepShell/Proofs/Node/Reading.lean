import StepShell.Proofs.Node.Written

/-! Trees are read back from whatever may be written for them, and above all from what is. -/

namespace StepShell

theorem Span.Written.read {span : Span} {json : Json} (written : span.Written json) :
    Span.ofJson? json = some span := by
  obtain ⟨rfl, first, last⟩ := written
  rw [toJson, ofJson?, Json.toNatural?, if_pos first, Json.toNatural?, if_pos last]
  rfl

theorem RedirectKind.ofJson?_sign (kind : RedirectKind) :
    RedirectKind.ofJson? (.string kind.sign) = some kind := by
  cases kind <;> simp [ofJson?, sign, ofSign?]

theorem mapM_attach {α β : Type} (read : α → Option β) (items : List α) :
    items.attach.mapM (fun item => read item.1) = items.mapM read := by
  conv_rhs => rw [← List.attach_map_subtype_val items, List.mapM_map]
  rfl

/-- A node is an object that gives its kind by name. -/
theorem Node.Written.kind {node : Node} {json : Json} (written : node.Written json)
    (kinds : List String) :
    ∃ members record, json = .object members ∧
      json.variant? "kind" kinds = some (node.kind, record) := by
  have tagged : ∃ fields, Json.Variant "kind" node.kind fields json := by
    cases node <;> exact ⟨_, written⟩
  obtain ⟨_, variant⟩ := tagged
  obtain ⟨members, shape, read⟩ := variant.variant?_eq kinds
  exact ⟨members, _, shape, read⟩

/-- A list that may be left out is read as an empty one then. -/
theorem Node.WrittenAll.field {nodes : List Node} {name : String} {value : Option Json}
    (given : (Json.Field.omissible name (Node.WrittenAll nodes) (nodes = [])).Given value)
    (readAll : ∀ json, Node.WrittenAll nodes json →
      ∃ items, json = .array items ∧ items.mapM Node.ofPart? = some nodes) :
    ∃ items, Json.itemsField? value = some items ∧ items.mapM Node.ofPart? = some nodes := by
  obtain ⟨json, rfl, written⟩ | ⟨rfl, rfl⟩ := given
  · obtain ⟨items, rfl, each⟩ := readAll json written
    exact ⟨items, rfl, each⟩
  · exact ⟨[], rfl, rfl⟩

mutual

theorem Node.Written.readPart : {node : Node} → {json : Json} → node.Written json →
    Node.ofPart? json = some node
  | .command parts span, json, written => by
    obtain ⟨record, values, tagged, read, given⟩ :=
      Json.Variant.read written Node.kinds ["parts", "pos"] rfl (by simp)
    obtain _ | ⟨⟨_, rfl, inner⟩, _ | ⟨⟨_, rfl, offsets⟩, _ | _⟩⟩ := given
    obtain ⟨items, rfl, each⟩ := Node.WrittenAll.readAll inner
    rw [Node.ofPart?, tagged]
    simp only
    rw [read]
    simp only
    rw [mapM_attach, each, offsets.read]
    rfl
  | .word text parts quoted span, json, written => by
    obtain ⟨record, values, tagged, read, given⟩ :=
      Json.Variant.read written Node.kinds ["word", "parts", "quoted", "pos"] rfl (by simp)
    obtain _ | ⟨⟨_, rfl, rfl⟩, _ | ⟨inner, _ | ⟨guarded, _ | ⟨⟨_, rfl, offsets⟩, _ | _⟩⟩⟩⟩ := given
    obtain ⟨items, found, each⟩ :=
      Node.WrittenAll.field inner fun _ => Node.WrittenAll.readAll
    have quotes := guarded.optional Json.toBool? fun _ same => by rw [same]; rfl
    rw [Node.ofPart?, tagged]
    simp only
    rw [read]
    simp only
    rw [found]
    simp only
    rw [mapM_attach, each, quotes, offsets.read]
    rfl
  | .assignment text parts span, json, written => by
    obtain ⟨record, values, tagged, read, given⟩ :=
      Json.Variant.read written Node.kinds ["word", "parts", "pos"] rfl (by simp)
    obtain _ | ⟨⟨_, rfl, rfl⟩, _ | ⟨inner, _ | ⟨⟨_, rfl, offsets⟩, _ | _⟩⟩⟩ := given
    obtain ⟨items, found, each⟩ :=
      Node.WrittenAll.field inner fun _ => Node.WrittenAll.readAll
    rw [Node.ofPart?, tagged]
    simp only
    rw [read]
    simp only
    rw [found]
    simp only
    rw [mapM_attach, each, offsets.read]
    rfl
  | .substitution command span, json, written => by
    obtain ⟨record, values, tagged, read, given⟩ :=
      Json.Variant.read written Node.kinds ["command", "pos"] rfl (by simp)
    obtain _ | ⟨⟨_, rfl, inner⟩, _ | ⟨⟨_, rfl, offsets⟩, _ | _⟩⟩ := given
    rw [Node.ofPart?, tagged]
    simp only
    rw [read]
    simp only
    rw [inner.readPart, offsets.read]
    rfl
  | .parameter value span, json, written => by
    obtain ⟨record, values, tagged, read, given⟩ :=
      Json.Variant.read written Node.kinds ["value", "pos"] rfl (by simp)
    obtain _ | ⟨⟨_, rfl, rfl⟩, _ | ⟨⟨_, rfl, offsets⟩, _ | _⟩⟩ := given
    rw [Node.ofPart?, tagged]
    simp only
    rw [read]
    simp only
    rw [offsets.read]
    rfl
  | .pipeline parts span, json, written => by
    obtain ⟨record, values, tagged, read, given⟩ :=
      Json.Variant.read written Node.kinds ["parts", "pos"] rfl (by simp)
    obtain _ | ⟨⟨_, rfl, inner⟩, _ | ⟨⟨_, rfl, offsets⟩, _ | _⟩⟩ := given
    obtain ⟨items, rfl, each⟩ := Node.WrittenAll.readAll inner
    rw [Node.ofPart?, tagged]
    simp only
    rw [read]
    simp only
    rw [mapM_attach, each, offsets.read]
    rfl
  | .pipe sign span, json, written => by
    obtain ⟨record, values, tagged, read, given⟩ :=
      Json.Variant.read written Node.kinds ["pipe", "pos"] rfl (by simp)
    obtain _ | ⟨⟨_, rfl, rfl⟩, _ | ⟨⟨_, rfl, offsets⟩, _ | _⟩⟩ := given
    rw [Node.ofPart?, tagged]
    simp only
    rw [read]
    simp only
    rw [offsets.read]
    rfl
  | .list parts span, json, written => by
    obtain ⟨record, values, tagged, read, given⟩ :=
      Json.Variant.read written Node.kinds ["parts", "pos"] rfl (by simp)
    obtain _ | ⟨⟨_, rfl, inner⟩, _ | ⟨⟨_, rfl, offsets⟩, _ | _⟩⟩ := given
    obtain ⟨items, rfl, each⟩ := Node.WrittenAll.readAll inner
    rw [Node.ofPart?, tagged]
    simp only
    rw [read]
    simp only
    rw [mapM_attach, each, offsets.read]
    rfl
  | .operator op span, json, written => by
    obtain ⟨record, values, tagged, read, given⟩ :=
      Json.Variant.read written Node.kinds ["op", "pos"] rfl (by simp)
    obtain _ | ⟨⟨_, rfl, rfl⟩, _ | ⟨⟨_, rfl, offsets⟩, _ | _⟩⟩ := given
    rw [Node.ofPart?, tagged]
    simp only
    rw [read]
    simp only
    rw [offsets.read]
    rfl
  | .compound parts redirects span, json, written => by
    obtain ⟨record, values, tagged, read, given⟩ :=
      Json.Variant.read written Node.kinds ["list", "redirects", "pos"] rfl (by simp)
    obtain _ | ⟨⟨_, rfl, inner⟩, _ | ⟨others, _ | ⟨⟨_, rfl, offsets⟩, _ | _⟩⟩⟩ := given
    obtain ⟨items, rfl, each⟩ := Node.WrittenAll.readAll inner
    obtain ⟨targets, found, all⟩ :=
      Node.WrittenAll.field others fun _ => Node.WrittenAll.readAll
    rw [Node.ofPart?, tagged]
    simp only
    rw [read]
    simp only
    rw [found]
    simp only
    rw [mapM_attach, mapM_attach, each, all, offsets.read]
    rfl
  | .redirect kind target span, json, written => by
    obtain ⟨record, values, tagged, read, given⟩ :=
      Json.Variant.read written Node.kinds ["type", "output", "pos"] rfl (by simp)
    obtain _ | ⟨⟨_, rfl, rfl⟩, _ | ⟨⟨_, rfl, inner⟩, _ | ⟨⟨_, rfl, offsets⟩, _ | _⟩⟩⟩ := given
    rw [Node.ofPart?, tagged]
    simp only
    rw [read]
    simp only
    rw [RedirectKind.ofJson?_sign, inner.readPart, offsets.read]
    rfl
  | .forLoop name items body span, json, written => by
    obtain ⟨record, values, tagged, read, given⟩ :=
      Json.Variant.read written Node.kinds ["name", "items", "body", "pos"] rfl (by simp)
    obtain _ | ⟨⟨_, rfl, rfl⟩, _ | ⟨⟨_, rfl, inner⟩, _ | ⟨⟨_, rfl, main⟩, others⟩⟩⟩ := given
    obtain _ | ⟨⟨_, rfl, offsets⟩, _ | _⟩ := others
    obtain ⟨jsons, rfl, each⟩ := Node.WrittenAll.readAll inner
    rw [Node.ofPart?, tagged]
    simp only
    rw [read]
    simp only
    rw [mapM_attach, each, main.readPart, offsets.read]
    rfl
  | .conditional clauses span, json, written => by
    obtain ⟨record, values, tagged, read, given⟩ :=
      Json.Variant.read written Node.kinds ["clauses", "pos"] rfl (by simp)
    obtain _ | ⟨⟨_, rfl, inner⟩, _ | ⟨⟨_, rfl, offsets⟩, _ | _⟩⟩ := given
    obtain ⟨items, rfl, each⟩ := Clause.WrittenAll.readAll inner
    rw [Node.ofPart?, tagged]
    simp only
    rw [read]
    simp only
    rw [mapM_attach, each, offsets.read]
    rfl
  | .function name body span, json, written => by
    obtain ⟨record, values, tagged, read, given⟩ :=
      Json.Variant.read written Node.kinds ["name", "body", "pos"] rfl (by simp)
    obtain _ | ⟨⟨_, rfl, rfl⟩, _ | ⟨⟨_, rfl, main⟩, _ | ⟨⟨_, rfl, offsets⟩, _ | _⟩⟩⟩ := given
    rw [Node.ofPart?, tagged]
    simp only
    rw [read]
    simp only
    rw [main.readPart, offsets.read]
    rfl
  | .reserved word span, json, written => by
    obtain ⟨record, values, tagged, read, given⟩ :=
      Json.Variant.read written Node.kinds ["word", "pos"] rfl (by simp)
    obtain _ | ⟨⟨_, rfl, rfl⟩, _ | ⟨⟨_, rfl, offsets⟩, _ | _⟩⟩ := given
    rw [Node.ofPart?, tagged]
    simp only
    rw [read]
    simp only
    rw [offsets.read]
    rfl

theorem Node.WrittenAll.readAll : {nodes : List Node} → {json : Json} →
    Node.WrittenAll nodes json →
    ∃ items, json = .array items ∧ items.mapM Node.ofPart? = some nodes
  | [], _, rfl => ⟨[], rfl, rfl⟩
  | node :: rest, _, ⟨first, later, rfl, written, others⟩ => by
    obtain ⟨items, shape, each⟩ := Node.WrittenAll.readAll others
    cases shape
    refine ⟨_, rfl, ?_⟩
    rw [List.mapM_cons, written.readPart, each]
    rfl

theorem Clause.Written.read : {clause : Clause} → {json : Json} → clause.Written json →
    Clause.ofPart? json = some clause
  | .mk keyword none body, json, written => by
    obtain ⟨values, read, given⟩ :=
      Json.Record.fields?_eq written ["keyword", "condition", "body"] rfl
    obtain _ | ⟨⟨_, rfl, rfl⟩, _ | ⟨absent, _ | ⟨⟨_, rfl, main⟩, _ | _⟩⟩⟩ := given
    obtain ⟨_, rfl, rfl⟩ | ⟨rfl, _⟩ := absent
    all_goals
      rw [Clause.ofPart?, read]
      simp only
      rw [main.readPart]
      rfl
  | .mk keyword (some condition) body, json, written => by
    obtain ⟨values, read, given⟩ :=
      Json.Record.fields?_eq written ["keyword", "condition", "body"] rfl
    obtain _ | ⟨⟨_, rfl, rfl⟩, _ | ⟨⟨_, rfl, inner⟩, _ | ⟨⟨_, rfl, main⟩, _ | _⟩⟩⟩ := given
    obtain ⟨members, _, rfl, _⟩ := inner.kind []
    rw [Clause.ofPart?, read]
    simp only
    rw [inner.readPart, main.readPart]
    rfl

theorem Clause.WrittenAll.readAll : {clauses : List Clause} → {json : Json} →
    Clause.WrittenAll clauses json →
    ∃ items, json = .array items ∧ items.mapM Clause.ofPart? = some clauses
  | [], _, rfl => ⟨[], rfl, rfl⟩
  | clause :: rest, _, ⟨first, later, rfl, written, others⟩ => by
    obtain ⟨items, shape, each⟩ := Clause.WrittenAll.readAll others
    cases shape
    refine ⟨_, rfl, ?_⟩
    rw [List.mapM_cons, written.read, each]
    rfl

end

/-- A tree that is a value of its own is read if nothing in the value has to be passed over. -/
theorem Node.Written.read {node : Node} {json : Json} (written : node.Written json)
    (readable : json.isReadable) : Node.ofJson? json = some node := by
  obtain ⟨_, _, _, tagged⟩ := written.kind []
  rw [Node.ofJson?, readable, tagged]
  exact written.readPart

/-- A tree that was written as a value of its own is read back. -/
theorem Node.ofJson?_toJson {node : Node} (plain : node.toJson.Plain) :
    Node.ofJson? node.toJson = some node :=
  (Node.toJson_written node plain).read plain.isReadable

end StepShell

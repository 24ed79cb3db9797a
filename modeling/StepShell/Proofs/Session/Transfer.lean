import StepShell.Proofs.Machine.Restoring
import StepShell.Proofs.Session.Undoing
import StepShell.Session.Json

/-! Sessions that take over what another one exported. From then on undoing goes the same way in
both. -/

namespace StepShell

namespace Record

/-- What is written of a record: all but the place in the program. -/
def content (record : Record) : String × String × Sandbox :=
  (record.name, record.action, record.sandbox)

/-- The record was made where nothing was open. -/
def Settled (record : Record) : Prop :=
  record.sandbox.scopes = [] ∧ record.sandbox.captures = []

instance (record : Record) : Decidable record.Settled :=
  inferInstanceAs (Decidable (record.sandbox.scopes = [] ∧ record.sandbox.captures = []))

theorem toJson_plain {record : Record} (words : record.sandbox.Words) : record.toJson.Plain := by
  simp only [toJson, Json.plain_object_cons]
  exact ⟨.string, .string, Sandbox.toJson_plain words, Json.plain_object_nil⟩

theorem toJson_nesting (record : Record) :
    record.toJson.nesting = record.sandbox.toJson.nesting + 1 := by
  simp [toJson, Json.nesting, Json.nestingMembers]

/-- What is read of a record where arrays and objects may nest so deep. -/
theorem ofJson?_cut {record : Record} (words : record.sandbox.Words) (settled : record.Settled)
    {depth : Nat} (some : 3 ≤ depth) :
    ofJson? (record.toJson.cut (depth + 1)) = if record.toJson.nesting ≤ depth + 1 then
      .some { record with cursor := 0 } else none := by
  have sandbox : { record.sandbox with scopes := [], captures := [] } = record.sandbox := by
    rw [← settled.1, ← settled.2]
  simp only [toJson_nesting, Nat.add_le_add_iff_right]
  rw [toJson, Json.cut, if_neg (Nat.succ_ne_zero _), Nat.add_sub_cancel]
  simp only [Json.cutMembers]
  rw [ofJson?, Json.fields?_object (by rfl) (by decide)]
  simp only [List.map_cons, List.map_nil, Option.bind_eq_bind, Option.bind_some, Json.cut,
    Json.toString?, Json.optional?]
  rw [Sandbox.ofJson?_cut words some, sandbox]
  split <;> rfl

end Record

namespace History

variable {history : History}

/-- What is written of a history. -/
def contents (history : History) : List (String × String × Sandbox) :=
  history.records.map Record.content

/-- Every record can be written, and nothing of it is left out but its place in the program. -/
def Portable (history : History) : Prop :=
  ∀ record ∈ history.records, record.sandbox.Words ∧ record.Settled

instance (history : History) : Decidable history.Portable :=
  inferInstanceAs (Decidable (∀ record ∈ history.records, record.sandbox.Words ∧ record.Settled))

/-- The same records, as if all were made at the start of a program. -/
def placeless (history : History) : History where
  first := { history.first with cursor := 0 }
  later := history.later.map fun record => { record with cursor := 0 }

theorem records_placeless (history : History) :
    history.placeless.records = history.records.map fun record => { record with cursor := 0 } := by
  rw [records, placeless, records, List.map_cons, List.map_reverse]

theorem contents_eq_iff {other : History} : history.contents = other.contents ↔
    history.first.content = other.first.content ∧
      history.later.map Record.content = other.later.map Record.content := by
  simp [contents, records]

theorem contents_placeless (history : History) : history.placeless.contents = history.contents := by
  rw [contents, records_placeless, List.map_map]
  rfl

theorem toJson_eq_map_contents (history : History) :
    history.toJson = .array (history.contents.map fun content =>
      Record.toJson ⟨content.1, content.2.1, content.2.2, 0⟩) := by
  rw [toJson, contents, List.map_map]
  rfl

theorem toJson_placeless (history : History) : history.placeless.toJson = history.toJson := by
  rw [toJson_eq_map_contents, contents_placeless, ← toJson_eq_map_contents]

theorem newest_placeless (history : History) :
    history.placeless.newest.sandbox = history.newest.sandbox := by
  rw [newest, newest, placeless]
  cases history.later <;> rfl

/-- What is read of a history where arrays and objects may nest so deep. -/
theorem ofJson?_cut (portable : history.Portable) {depth : Nat} (some : 3 ≤ depth) :
    ofJson? (history.toJson.cut (depth + 2)) = if history.toJson.nesting ≤ depth + 2 then
      .some history.placeless else none := by
  have record := fun record among =>
    Record.ofJson?_cut (portable record among).1 (portable record among).2 some
  have nesting : history.toJson.nesting ≤ depth + 2 ↔
      ∀ record ∈ history.records, record.toJson.nesting ≤ depth + 1 := by
    rw [toJson, Json.nesting, Nat.add_le_add_iff_right, Json.nestingItems_le]
    exact List.forall_mem_map
  simp only [nesting]
  rw [toJson, Json.cut, if_neg (Nat.succ_ne_zero _), Json.cutItems_eq_map, List.map_map, ofJson?,
    Json.toList?, Json.toArray?]
  simp only [Option.bind_eq_bind, Option.bind_some, List.mapM_map]
  split
  · rename_i shallow
    have read := mapM_eq_some_map fun item among =>
      (record item among).trans (if_pos (shallow item among))
    rw [← records_placeless] at read
    exact (congrArg (Option.map ofRecords) read).trans
      (congrArg Option.some (ofRecords_records history.placeless))
  · rename_i deep
    simp only [not_forall] at deep
    obtain ⟨item, among, nested⟩ := deep
    rw [mapM_eq_none among ((record item among).trans (if_neg nested)), Option.map_none]

end History

namespace Export

theorem flag?_flagJson (depth : Nat) (flag : Bool) :
    flag? ((flagJson flag).cut depth) = some flag := by
  cases flag <;> rfl

theorem toJson_plain {file : Export} (portable : file.history.Portable) : file.toJson.Plain := by
  have history : file.history.toJson.Plain :=
    .array (List.forall_mem_map.mpr fun record among =>
      Record.toJson_plain (portable record among).1)
  simp only [toJson, flagJson, Json.plain_object_cons]
  exact ⟨history, Table.toJson_plain fun _ _ => .string, .string, Json.plain_object_nil⟩

/-- What is read of the text of a file. -/
theorem ofText_eq (file : Export) (portable : file.history.Portable) :
    (Json.parse? file.toJson.pretty).bind ofJson? =
      if file.toJson.nesting ≤ Json.maxNesting then
        some { file with history := file.history.placeless } else none := by
  have aliases : (file.aliases.toJson .string).Plain := Table.toJson_plain fun _ _ => .string
  have shallow : (file.aliases.toJson .string).nesting ≤ 1 :=
    Table.toJson_nesting_le.mpr fun _ _ => Nat.le_refl 0
  have nesting : file.toJson.nesting ≤ Json.maxNesting ↔
      file.history.toJson.nesting ≤ 124 + 2 := by
    rw [toJson, Json.nesting, Json.maxNesting, Nat.add_le_add_iff_right, Json.nestingMembers_le]
    simp only [List.forall_mem_cons, flagJson]
    exact ⟨fun within => within.1, fun history =>
      ⟨history, Nat.le_trans shallow (by decide), Nat.zero_le _, List.forall_mem_nil _⟩⟩
  rw [Json.parse?_pretty (toJson_plain portable), Option.bind_some]
  simp only [nesting]
  rw [toJson, Json.cut, if_neg (by decide)]
  simp only [Json.cutMembers]
  rw [ofJson?, Json.fields?_object (by rfl) (by decide)]
  simp only [List.map_cons, List.map_nil, Option.bind_eq_bind, Option.bind_some, Json.optional?,
    Json.maxNesting]
  rw [show 127 - 1 = 124 + 2 from rfl, History.ofJson?_cut portable (by decide),
    aliases.cut_eq (Nat.le_trans shallow (by decide)), Table.ofJson?_toJson fun _ _ => rfl]
  split
  · simp only [Option.bind_some, flag?_flagJson]
  · rfl

end Export

namespace Session

variable {ω η : Type}

/-- What an undo says when only the first record is left. -/
def exhausted : Outcome :=
  .ok "History exhausted, state reset"

theorem announceNode_eq (session : Session ω η) (message : String) :
    ∃ rest, session.announceNode message = .ok (message ++ rest) := by
  unfold announceNode
  split
  · exact ⟨_, congrArg Outcome.ok (String.append_assoc ..)⟩
  · exact ⟨_, rfl⟩

/-- An undo says so when the history is exhausted, and not before. -/
theorem undo_exhausted (session : Session ω η) :
    session.undo.1 = exhausted ↔ session.history.later = [] := by
  unfold undo History.undo
  cases later : session.history.later with
  | nil => exact iff_of_true rfl rfl
  | cons record older =>
    refine iff_of_false (fun same => ?_) nofun
    obtain ⟨rest, said⟩ := announceNode_eq { session with
      machine := { session.machine.clear with sandbox := record.sandbox }
      history := { session.history with later := older }
      cursor := record.cursor } ("Undid " ++ record.name ++ "\n")
    have messages := congrArg (String.toList ∘ Outcome.message) (said.symm.trans same)
    simp [exhausted, Outcome.ok] at messages

/-- Undoing goes the same way in both sessions: they have the same records, but for their places in
the program, and start over with the same sandbox. -/
structure Alike (session other : Session ω η) : Prop where
  contents : session.history.contents = other.history.contents
  initial : session.machine.initial = other.machine.initial

namespace Alike

variable {session other : Session ω η}

theorem size (alike : Alike session other) : session.history.size = other.history.size := by
  have lengths := congrArg List.length alike.contents
  simpa [History.contents, History.length_records] using lengths

theorem exhausted (alike : Alike session other) :
    session.undo.1 = Session.exhausted ↔ other.undo.1 = Session.exhausted := by
  have later := congrArg List.length (History.contents_eq_iff.mp alike.contents).2
  rw [List.length_map, List.length_map] at later
  rw [undo_exhausted, undo_exhausted, ← List.length_eq_zero_iff, ← List.length_eq_zero_iff, later]

/-- One undo leaves them alike, and with the same sandbox. -/
theorem undo (alike : Alike session other) :
    Alike session.undo.2 other.undo.2 ∧ session.undo.2.sandbox = other.undo.2.sandbox := by
  obtain ⟨contents, initial⟩ := alike
  obtain ⟨first, later⟩ := History.contents_eq_iff.mp contents
  unfold Session.undo History.undo
  cases left : session.history.later with
  | nil =>
    rw [left] at later
    rw [List.map_eq_nil_iff.mp later.symm]
    exact ⟨⟨congrArg (History.contents ∘ History.start) initial, initial⟩, initial⟩
  | cons record older =>
    cases right : other.history.later with
    | nil =>
      rw [left, right] at later
      cases later
    | cons twin behind =>
      rw [left, right, List.map_cons, List.map_cons] at later
      obtain ⟨same, rest⟩ := List.cons.inj later
      have sandbox : record.sandbox = twin.sandbox := congrArg (·.2.2) same
      exact ⟨⟨History.contents_eq_iff.mpr ⟨first, rest⟩, initial⟩, sandbox⟩

theorem undone (alike : Alike session other) (count : Nat) :
    Alike (undone count session) (undone count other) := by
  induction count generalizing session other with
  | zero => exact alike
  | succ count ih => exact ih alike.undo.1

/-- However often both are undone, they have the same sandbox then. -/
theorem undone_sandbox (alike : Alike session other) (count : Nat) :
    (Session.undone (count + 1) session).sandbox = (Session.undone (count + 1) other).sandbox := by
  induction count generalizing session other with
  | zero => exact alike.undo.2
  | succ count ih => exact ih alike.undo.1

end Alike

theorem importText_of_none {text : String} (session : Session ω η)
    (unread : (Json.parse? text).bind Export.ofJson? = none) :
    (importText text).run session = (.error .snapshot, session) := by
  rw [importText, unread]
  rfl

theorem importText_of_some {text : String} {file : Export} (session : Session ω η)
    (read : (Json.parse? text).bind Export.ofJson? = some file) :
    (importText text).run session = (.ok (.ok "Session imported"), session.restore file) := by
  rw [importText, read]
  rfl

/-- What nests too deep is refused. -/
theorem importText_of_deep {session : Session ω η} (portable : session.history.Portable)
    (deep : ¬ session.exported.toJson.nesting ≤ Json.maxNesting) (receiver : Session ω η) :
    (importText session.exportText).run receiver = (.error .snapshot, receiver) :=
  importText_of_none receiver ((session.exported.ofText_eq portable).trans (if_neg deep))

/-- A session that takes over what another one exported, which it does unless the text nests too
deep, has its records, its aliases and its mode, and stands where its newest record was made. From
then on both go back through the same sandboxes, and start over together. An import that fails
changes nothing. -/
theorem import_exact {session receiver : Session ω η} (portable : session.history.Portable)
    (initial : receiver.machine.initial = session.machine.initial) :
    let result := ((importText session.exportText).run receiver).1
    let imported := ((importText session.exportText).run receiver).2
    (session.exported.toJson.nesting ≤ Json.maxNesting →
      result = .ok (.ok "Session imported") ∧
      imported.history.contents = session.history.contents ∧
      imported.aliases = session.aliases ∧ imported.recording = session.recording ∧
      imported.sandbox = session.history.newest.sandbox ∧ imported.machine.pending = [] ∧
      imported.exportText = session.exportText ∧
      ∀ count,
        (undone (count + 1) imported).sandbox = (undone (count + 1) session).sandbox ∧
        (undone count imported).history.size = (undone count session).history.size ∧
        ((undone count imported).undo.1 = exhausted ↔
          (undone count session).undo.1 = exhausted)) ∧
    (¬ session.exported.toJson.nesting ≤ Json.maxNesting →
      result = .error .snapshot ∧ imported = receiver) ∧
    ∀ text failure after, (importText text).run receiver = (.error failure, after) →
      after = receiver := by
  have unchanged : ∀ text failure after,
      (importText text).run receiver = (.error failure, after) → after = receiver := by
    intro text failure after failed
    cases found : (Json.parse? text).bind Export.ofJson? with
    | none =>
      rw [importText_of_none receiver found] at failed
      exact (congrArg Prod.snd failed).symm
    | some file =>
      rw [importText_of_some receiver found] at failed
      cases congrArg Prod.fst failed
  by_cases shallow : session.exported.toJson.nesting ≤ Json.maxNesting
  · have read := (session.exported.ofText_eq portable).trans (if_pos shallow)
    rw [exportText, importText_of_some receiver read]
    have contents : session.exported.history.placeless.contents = session.history.contents :=
      History.contents_placeless _
    have alike : Alike (receiver.restore
        { session.exported with history := session.exported.history.placeless }) session :=
      ⟨contents, initial⟩
    refine ⟨fun _ => ⟨rfl, contents, rfl, rfl, History.newest_placeless _, rfl, ?_, fun count =>
      ⟨alike.undone_sandbox count, (alike.undone count).size, (alike.undone count).exhausted⟩⟩,
      fun deep => absurd shallow deep, unchanged⟩
    have written : { session.exported with
        history := session.exported.history.placeless }.toJson = session.exported.toJson := by
      rw [Export.toJson, Export.toJson, History.toJson_placeless]
    exact congrArg Json.pretty written
  · rw [importText_of_deep portable shallow receiver]
    exact ⟨fun within => absurd within shallow, fun _ => ⟨rfl, rfl⟩, unchanged⟩

/-- A function is defined, the sandbox is saved and the function is called. -/
def saving : Session Absent Disabled :=
  (create Machine.fresh).afterAll
    [.run "f() \x7b a=b; \x7d" ⟨false, false, false⟩, .save "defined",
      .run "f > /tmp/x" ⟨false, false, false⟩, .setAlias "again" "next -p"]

/-- A new session takes over, and undoing goes back through the function to the start. -/
theorem import_exact_saving :
    saving.history.Portable ∧ saving.history.size = 4 ∧
      let imported := ((importText saving.exportText).run (create Machine.fresh)).2
      ((importText saving.exportText).run (create Machine.fresh)).1 =
          .ok (.ok "Session imported") ∧
        (undone 2 imported).sandbox = (undone 2 saving).sandbox ∧
        (undone 2 saving).sandbox.functions.size = 1 ∧
        (undone 3 imported).undo.1 = exhausted := by
  have portable : saving.history.Portable := by decide +kernel
  have shallow : saving.exported.toJson.nesting ≤ Json.maxNesting := by decide +kernel
  have initial : (create Machine.fresh).machine.initial = saving.machine.initial := by
    decide +kernel
  obtain ⟨moves, _⟩ := import_exact portable initial
  obtain ⟨imported, _, _, _, _, _, _, back⟩ := moves shallow
  have first : (undone 3 saving).undo.1 = exhausted :=
    (undo_exhausted _).mpr (by decide +kernel)
  exact ⟨portable, by decide +kernel, imported, (back 1).1, by decide +kernel,
    (back 3).2.2.mpr first⟩

/-- A function with twenty-four substitutions in each other is defined, and recorded by the next
step. -/
def nesting : Session Absent Disabled :=
  (create Machine.fresh).afterAll
    [.run ("f() \x7b " ++ Machine.substitutions 24 ++ "; \x7d") ⟨false, false, false⟩,
      .run "pwd" ⟨false, false, false⟩]

/-- The session cannot take over what it exported itself. -/
theorem import_nested_refused :
    nesting.history.Portable ∧
      (importText nesting.exportText).run nesting = (.error .snapshot, nesting) := by
  have evaluated : nesting.history.Portable ∧
      Json.maxNesting < nesting.exported.toJson.nesting := by
    decide +kernel
  exact ⟨evaluated.1, importText_of_deep evaluated.1 (Nat.not_le.mpr evaluated.2) nesting⟩

end Session

end StepShell

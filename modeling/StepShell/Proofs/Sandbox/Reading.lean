import StepShell.Proofs.Json.Reading
import StepShell.Proofs.Node.Reading
import StepShell.Sandbox.Json

/-! Sandboxes that are written as JSON texts and read back. All is read back but the lowered scopes
and the captures, unless a function is nested too deep. -/

namespace StepShell

theorem Table.ofJson?_toJson {α : Type} {encode : α → Json} {decode : Json → Option α}
    {table : Table α} (each : ∀ entry ∈ table.entries, decode (encode entry.2) = some entry.2) :
    Table.ofJson? decode (table.toJson encode) = some table := by
  have read : (table.entries.map fun entry => (entry.1, encode entry.2)).mapM
      (fun member => (decode member.2).bind fun value => some (member.1, value)) =
        some table.entries := by
    refine mapM_map_eq_some fun entry among => ?_
    rw [each entry among]
    rfl
  rw [ofJson?, toJson, Json.toMembers?]
  simp only [Option.bind_eq_bind, Option.bind_some]
  rw [read, Option.bind_some, ofList_entries]

/-- A table is not read if one of its values is not. -/
theorem Table.ofJson?_eq_none {α : Type} {decode : Json → Option α}
    {members : List (String × Json)} {member : String × Json} (among : member ∈ members)
    (refused : decode member.2 = none) : Table.ofJson? decode (.object members) = none := by
  have none : members.mapM (fun member => (decode member.2).bind fun value =>
      some (member.1, value)) = none := mapM_eq_none among (by rw [refused]; rfl)
  rw [ofJson?, Json.toMembers?]
  simp only [Option.bind_eq_bind, Option.bind_some]
  rw [none, Option.bind_none]

theorem Table.toJson_plain {α : Type} {encode : α → Json} {table : Table α}
    (each : ∀ entry ∈ table.entries, (encode entry.2).Plain) : (table.toJson encode).Plain :=
  .object (List.forall_mem_map.mpr each)

theorem Table.toJson_nesting_le {α : Type} {encode : α → Json} {table : Table α} {depth : Nat} :
    (table.toJson encode).nesting ≤ depth + 1 ↔
      ∀ entry ∈ table.entries, (encode entry.2).nesting ≤ depth := by
  rw [toJson, Json.nesting, Nat.add_le_add_iff_right, Json.nestingMembers_le]
  exact List.forall_mem_map

theorem Socket.ofJson?_toJson (socket : Socket) : Socket.ofJson? socket.toJson = some socket := by
  have id : Json.toNatural? 0x100000000 (.natural socket.id.toNat) = some socket.id.toNat :=
    if_pos socket.id.toNat_lt
  rw [ofJson?, toJson, Json.fields?_object (by rfl) (by decide)]
  simp only [List.map_cons, List.map_nil, Option.bind_eq_bind, Option.bind_some, Json.optional?,
    id, Json.toString?]
  simp

theorem File.ofJson?_toJson (file : File) : File.ofJson? file.toJson = some file := by
  rw [ofJson?, toJson, Json.fields?_object (by rfl) (by decide)]
  cases file with
  | mk name contents permissions => cases contents <;> rfl

theorem FileTable.ofJson?_toJson (files : FileTable) :
    FileTable.ofJson? (FileTable.toJson files) = some files := by
  rw [ofJson?, toJson, Json.toList?_map fun file _ => File.ofJson?_toJson file]
  exact congrArg some files.ofList_list

namespace Sandbox

/-- Nothing that stands in the bodies of functions is lost when they are printed: every offset has
sixty-four bits. -/
def Words (sandbox : Sandbox) : Prop :=
  ∀ entry ∈ sandbox.functions.entries, entry.2.toJson.Plain

instance (sandbox : Sandbox) : Decidable sandbox.Words :=
  inferInstanceAs (Decidable (∀ entry ∈ sandbox.functions.entries, entry.2.toJson.Plain))

theorem ofJson?_toJson {sandbox : Sandbox} (words : sandbox.Words) :
    ofJson? sandbox.toJson = some { sandbox with scopes := [], captures := [] } := by
  rw [ofJson?, toJson, Json.fields?_object (by rfl) (by decide)]
  simp only [List.map_cons, List.map_nil, Option.bind_eq_bind, Option.bind_some, Json.optional?,
    Json.toString?]
  rw [Socket.ofJson?_toJson, Table.ofJson?_toJson fun _ _ => Json.toList?_ofStrings _,
    FileTable.ofJson?_toJson, Json.toList?_map fun socket _ => Socket.ofJson?_toJson socket,
    Table.ofJson?_toJson fun _ _ => rfl,
    Table.ofJson?_toJson fun entry among => Node.ofJson?_toJson (words entry among)]
  rfl

theorem toJson_plain {sandbox : Sandbox} (words : sandbox.Words) : sandbox.toJson.Plain := by
  have socket : ∀ socket : Socket, socket.toJson.Plain := by
    intro socket
    have id : (Json.natural socket.id.toNat).Plain :=
      .natural (by have := socket.id.toNat_lt; omega)
    simp only [Socket.toJson, Json.plain_object_cons]
    exact ⟨id, .string, .string, Json.plain_object_nil⟩
  have strings : ∀ texts, (Json.ofStrings texts).Plain := fun texts =>
    .array (List.forall_mem_map.mpr fun _ _ => .string)
  have file : ∀ file ∈ sandbox.files.list, file.toJson.Plain := by
    intro file _
    simp only [File.toJson, Json.plain_object_cons]
    refine ⟨.string, ?_, .string, Json.plain_object_nil⟩
    cases file.contents
    · exact .null
    · exact .string
  simp only [toJson, Json.plain_object_cons]
  exact ⟨socket _, .string, Table.toJson_plain fun _ _ => strings _,
    .array (List.forall_mem_map.mpr file), .array (List.forall_mem_map.mpr fun _ _ => socket _),
    Table.toJson_plain fun _ _ => .bool, Table.toJson_plain words, .string, .string,
    Json.plain_object_nil⟩

/-- Only functions can make a sandbox nest deep. -/
theorem toJson_nesting_le {sandbox : Sandbox} {depth : Nat} (some : 2 ≤ depth) :
    sandbox.toJson.nesting ≤ depth + 1 ↔
      (sandbox.functions.toJson Node.toJson).nesting ≤ depth := by
  have socket : ∀ socket : Socket, socket.toJson.nesting ≤ 1 := fun _ => Nat.le_refl 1
  have strings : ∀ texts, (Json.ofStrings texts).nesting ≤ 1 := fun texts =>
    Nat.succ_le_succ (Json.nestingItems_le.mpr (List.forall_mem_map.mpr fun _ _ => Nat.le_refl 0))
  have file : ∀ file : File, file.toJson.nesting ≤ 1 := by
    rintro ⟨_, _ | _, _⟩ <;> exact Nat.le_refl 1
  have vars : (sandbox.vars.toJson Json.ofStrings).nesting ≤ 2 :=
    Table.toJson_nesting_le.mpr fun _ _ => strings _
  have files : (FileTable.toJson sandbox.files).nesting ≤ 2 :=
    Nat.succ_le_succ (Json.nestingItems_le.mpr (List.forall_mem_map.mpr fun _ _ => file _))
  have sockets : (Json.array (sandbox.openSockets.map Socket.toJson)).nesting ≤ 2 :=
    Nat.succ_le_succ (Json.nestingItems_le.mpr (List.forall_mem_map.mpr fun _ _ => socket _))
  have truths : (sandbox.truths.toJson .bool).nesting ≤ 1 :=
    Table.toJson_nesting_le.mpr fun _ _ => Nat.le_refl 0
  rw [toJson, Json.nesting, Nat.add_le_add_iff_right, Json.nestingMembers_le]
  simp only [List.forall_mem_cons]
  constructor
  · rintro ⟨_, _, _, _, _, _, functions, _⟩
    exact functions
  · intro functions
    have io := socket sandbox.io
    exact ⟨by omega, Nat.zero_le _, by omega, by omega, by omega, by omega, functions,
      Nat.zero_le _, Nat.zero_le _, List.forall_mem_nil _⟩

/-- What is read where arrays and objects may nest so deep. -/
theorem ofJson?_cut {sandbox : Sandbox} (words : sandbox.Words) {depth : Nat} (some : 3 ≤ depth) :
    ofJson? (sandbox.toJson.cut depth) = if sandbox.toJson.nesting ≤ depth then
      .some { sandbox with scopes := [], captures := [] } else none := by
  split
  · rename_i shallow
    rw [(toJson_plain words).cut_eq shallow]
    exact ofJson?_toJson words
  · rename_i deep
    obtain ⟨depth, rfl⟩ := Nat.exists_eq_add_of_le' some
    have deeper : ¬ (sandbox.functions.toJson Node.toJson).nesting ≤ depth + 1 + 1 :=
      fun shallow => deep ((toJson_nesting_le (by omega)).mpr shallow)
    rw [Table.toJson_nesting_le] at deeper
    simp only [not_forall] at deeper
    obtain ⟨entry, among, nested⟩ := deeper
    have refused : Node.ofJson? (entry.2.toJson.cut (depth + 1)) = none := by
      rw [Node.ofJson?, if_neg]
      simp only [Bool.and_eq_true, not_and]
      exact fun readable => absurd ((words entry among).nesting_le readable) nested
    have functions : Table.ofJson? Node.ofJson?
        ((sandbox.functions.toJson Node.toJson).cut (depth + 2)) = none := by
      rw [Table.toJson, Json.cut, if_neg (Nat.succ_ne_zero _), Json.cutMembers_eq_map,
        List.map_map]
      exact Table.ofJson?_eq_none (List.mem_map_of_mem among) refused
    rw [toJson, Json.cut, if_neg (Nat.succ_ne_zero _)]
    simp only [Json.cutMembers]
    rw [ofJson?, Json.fields?_object (by rfl) (by decide)]
    simp only [List.map_cons, List.map_nil, Option.bind_eq_bind, Option.bind_some, Json.optional?,
      show depth + 3 - 1 = depth + 2 from rfl, functions, Option.bind_none, Option.bind_fun_none]

/-- What is read back after a sandbox was written. -/
theorem reread?_eq {sandbox : Sandbox} (words : sandbox.Words) :
    sandbox.reread? = if sandbox.toJson.nesting ≤ Json.maxNesting then
      some { sandbox with scopes := [], captures := [] } else none := by
  rw [reread?, ofText?, Json.parse?_compact (toJson_plain words), Option.bind_some]
  exact ofJson?_cut words (by decide)

end Sandbox

end StepShell

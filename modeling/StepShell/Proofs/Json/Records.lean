import Mathlib.Data.List.Forall2
import Mathlib.Data.List.Nodup
import StepShell.Json.Basic

/-! Records and lists that are written as JSON and read back. Records may be written in many ways:
their members in any order, others beside them, and those left out that may be. -/

namespace StepShell

/-- What is read of each item. -/
theorem mapM_eq_some_map {α β : Type} {read : α → Option β} {value : α → β} {items : List α}
    (each : ∀ item ∈ items, read item = some (value item)) :
    items.mapM read = some (items.map value) := by
  induction items with
  | nil => rfl
  | cons item rest ih =>
    obtain ⟨first, later⟩ := List.forall_mem_cons.mp each
    rw [List.mapM_cons, first, ih later]
    rfl

/-- Items that were written one by one are read one by one. -/
theorem mapM_map_eq_some {α β : Type} {write : α → β} {read : β → Option α} {items : List α}
    (each : ∀ item ∈ items, read (write item) = some item) :
    (items.map write).mapM read = some items := by
  rw [List.mapM_map]
  exact (mapM_eq_some_map each).trans (congrArg some (List.map_id _))

/-- What is read of items was read of one of them each. -/
theorem exists_of_mem_mapM {α β : Type} {read : α → Option β} {items : List α} {values : List β}
    (done : items.mapM read = some values) {value : β} (among : value ∈ values) :
    ∃ item ∈ items, read item = some value := by
  induction items generalizing values with
  | nil =>
    cases done
    cases among
  | cons item rest ih =>
    rw [List.mapM_cons] at done
    obtain ⟨first, here, done⟩ := Option.bind_eq_some_iff.mp done
    obtain ⟨others, later, done⟩ := Option.bind_eq_some_iff.mp done
    cases done
    rcases List.mem_cons.mp among with rfl | behind
    · exact ⟨item, .head _, here⟩
    · obtain ⟨source, member, same⟩ := ih later behind
      exact ⟨source, .tail _ member, same⟩

/-- Nothing is read of a list if one of the items is not read. -/
theorem mapM_eq_none {α β : Type} {read : α → Option β} {items : List α} {item : α}
    (among : item ∈ items) (refused : read item = none) : items.mapM read = none := by
  induction items with
  | nil => cases among
  | cons head rest ih =>
    rw [List.mapM_cons]
    rcases List.mem_cons.mp among with rfl | later
    · rw [refused]
      rfl
    · rw [ih later]
      cases read head <;> rfl

namespace Json

theorem member?_eq_some {members : List (String × Json)} (distinct : (members.map (·.1)).Nodup)
    {member : String × Json} (among : member ∈ members) :
    member? member.1 members = some (some member.2) := by
  suffices only : members.filter (·.1 == member.1) = [member] by rw [member?, only]
  induction members with
  | nil => cases among
  | cons head rest ih =>
    obtain ⟨new, distinct⟩ := List.nodup_cons.mp distinct
    rcases List.mem_cons.mp among with rfl | later
    · have others : rest.filter (·.1 == member.1) = [] := by
        rw [List.filter_eq_nil_iff]
        exact fun other inside same => new (List.mem_map.mpr ⟨other, inside, beq_iff_eq.mp same⟩)
      rw [List.filter_cons_of_pos (by simp), others]
    · have apart : head.1 ≠ member.1 := fun same =>
        new (List.mem_map.mpr ⟨member, later, same.symm⟩)
      rw [List.filter_cons_of_neg (by simp [apart])]
      exact ih distinct later

/-- A record that was written with its fields in order. -/
theorem fields?_object {members : List (String × Json)} {names : List String}
    (named : members.map (·.1) = names) (distinct : names.Nodup) :
    (object members).fields? names = some (members.map fun member => some member.2) := by
  subst named
  rw [fields?, List.mapM_map]
  exact mapM_eq_some_map fun member among => member?_eq_some distinct among

theorem toList?_map {α : Type} {encode : α → Json} {decode : Json → Option α} {items : List α}
    (each : ∀ item ∈ items, decode (encode item) = some item) :
    toList? decode (.array (items.map encode)) = some items :=
  mapM_map_eq_some each

theorem toList?_ofStrings (texts : List String) :
    toList? toString? (ofStrings texts) = some texts :=
  toList?_map fun _ _ => rfl

/-- A member of a record, by its name and by the values that it may have. -/
inductive Field where
  | required (name : String) (form : Json → Prop)
  /-- It may be left out as well, if `standard` is so. -/
  | omissible (name : String) (form : Json → Prop) (standard : Prop)

namespace Field

@[simp]
def name : Field → String
  | .required name _ | .omissible name _ _ => name

@[simp]
def form : Field → Json → Prop
  | .required _ form | .omissible _ form _ => form

/-- Whether this is given for the field, where nothing stands for a member that is left out. -/
def Given : Field → Option Json → Prop
  | .required _ form, value => ∃ json, value = some json ∧ form json
  | .omissible _ form standard, value => (∃ json, value = some json ∧ form json) ∨
    value = none ∧ standard

/-- What the members give for the field: the only one of its name, or nothing without any. -/
inductive Among (field : Field) (members : List (String × Json)) : Option Json → Prop where
  | only {before after : List (String × Json)} {json : Json}
      (shape : members = before ++ (field.name, json) :: after)
      (others : ∀ member ∈ before ++ after, member.1 ≠ field.name) : Among field members (some json)
  | none (others : ∀ member ∈ members, member.1 ≠ field.name) : Among field members none

/-- The field is well written among these members. -/
def Written (field : Field) (members : List (String × Json)) : Prop :=
  ∃ value, field.Among members value ∧ field.Given value

end Field

/-- An object in which these fields are well written. -/
def Record (fields : List Field) : Json → Prop
  | .object members => ∀ field ∈ fields, field.Written members
  | _ => False

/-- A record that says in the member `tag` of which variant it is. -/
def Variant (tag name : String) (fields : List Field) : Json → Prop :=
  Record (.required tag (· = .string name) :: fields)

namespace Field

variable {field : Field} {members : List (String × Json)} {value : Option Json}

theorem filter_eq_nil {name : String} (others : ∀ member ∈ members, member.1 ≠ name) :
    members.filter (·.1 == name) = [] := by
  rw [List.filter_eq_nil_iff]
  exact fun member among => by simp [others member among]

theorem Among.member?_eq (among : field.Among members value) :
    member? field.name members = some value := by
  cases among with
  | only shape others =>
    obtain ⟨before, after⟩ := List.forall_mem_append.mp others
    rw [member?, shape, List.filter_append, filter_eq_nil before,
      List.filter_cons_of_pos (by simp), filter_eq_nil after]
    rfl
  | none others => rw [member?, filter_eq_nil others]

/-- Members that another name is asked for may be dropped. -/
theorem Among.filter (among : field.Among members value) (keep : String → Bool)
    (kept : keep field.name) : field.Among (members.filter (keep ·.1)) value := by
  cases among with
  | only shape others =>
    obtain ⟨before, after⟩ := List.forall_mem_append.mp others
    rw [shape, List.filter_append, List.filter_cons_of_pos (by exact kept)]
    exact .only rfl (List.forall_mem_append.mpr
      ⟨fun member inside => before member (List.mem_filter.mp inside).1,
        fun member inside => after member (List.mem_filter.mp inside).1⟩)
  | none others => exact .none fun member inside => others member (List.mem_filter.mp inside).1

theorem Among.here {json : Json} {rest : List (String × Json)}
    (others : ∀ member ∈ rest, member.1 ≠ field.name) :
    field.Among ((field.name, json) :: rest) (some json) :=
  .only (List.nil_append _).symm others

/-- A member of another name does not matter. -/
theorem Among.skip {member : String × Json} (apart : member.1 ≠ field.name)
    (among : field.Among members value) : field.Among (member :: members) value := by
  cases among with
  | only shape others =>
    rw [shape, ← List.cons_append]
    exact .only rfl (List.forall_mem_cons.mpr ⟨apart, others⟩)
  | none others => exact .none (List.forall_mem_cons.mpr ⟨apart, others⟩)

theorem Given.of_form {json : Json} (form : field.form json) : field.Given (some json) := by
  cases field with
  | required => exact ⟨json, rfl, form⟩
  | omissible => exact .inl ⟨json, rfl, form⟩

end Field

namespace Record

variable {fields : List Field} {json : Json}

/-- Whatever is given for the fields is read. -/
theorem fields?_eq (written : Record fields json) (names : List String)
    (named : fields.map Field.name = names) :
    ∃ values, json.fields? names = some values ∧ List.Forall₂ Field.Given fields values := by
  subst named
  cases json with
  | object members =>
    rw [fields?]
    induction fields with
    | nil => exact ⟨[], rfl, .nil⟩
    | cons field fields ih =>
      obtain ⟨⟨value, among, given⟩, later⟩ := List.forall_mem_cons.mp written
      obtain ⟨values, read, others⟩ := ih later
      refine ⟨value :: values, ?_, .cons given others⟩
      rw [List.map_cons, List.mapM_cons, among.member?_eq, read]
      rfl
  | _ => exact written.elim

/-- A record that is written with its fields in order. -/
theorem of_ordered {members : List (String × Json)}
    (each : List.Forall₂ (fun field member => member.1 = field.name ∧ field.form member.2) fields
      members)
    (distinct : (fields.map Field.name).Nodup) : Record fields (.object members) := by
  have names : members.map (·.1) = fields.map Field.name := by
    clear distinct
    induction each with
    | nil => rfl
    | cons first _ ih => rw [List.map_cons, List.map_cons, first.1, ih]
  rw [← names] at distinct
  have placed : ∀ field ∈ fields, ∃ member ∈ members,
      member.1 = field.name ∧ field.form member.2 := by
    clear distinct names
    induction each with
    | nil => exact List.forall_mem_nil _
    | cons first _ ih =>
      refine List.forall_mem_cons.mpr ⟨⟨_, .head _, first⟩, fun field among => ?_⟩
      obtain ⟨member, inside, given⟩ := ih field among
      exact ⟨member, .tail _ inside, given⟩
  intro field among
  obtain ⟨member, inside, named, form⟩ := placed field among
  obtain ⟨before, after, shape⟩ := List.append_of_mem inside
  refine ⟨some member.2, .only (by rw [shape, ← named]) fun other beside same => ?_, .of_form form⟩
  rw [shape, List.map_append, List.map_cons, List.nodup_middle, List.nodup_cons,
    ← List.map_append] at distinct
  exact distinct.1 (List.mem_map.mpr ⟨other, beside, same.trans named.symm⟩)

/-- A field that has its standard value need not be written. -/
theorem leave {members : List (String × Json)} (written : Record fields (.object members))
    {name : String} {form : Json → Prop} {standard : Prop}
    (absent : ∀ member ∈ members, member.1 ≠ name) (holds : standard) :
    Record (fields ++ [.omissible name form standard]) (.object members) :=
  List.forall_mem_append.mpr
    ⟨written, List.forall_mem_singleton.mpr ⟨none, .none absent, .inr ⟨rfl, holds⟩⟩⟩

end Record

/-- A field that may be left out is read as its standard value then. -/
theorem Field.Given.optional {α : Type} {name : String} {form : Json → Prop} {value : Option Json}
    {standard item : α} (given : (Field.omissible name form (item = standard)).Given value)
    (decode : Json → Option α) (read : ∀ json, form json → decode json = some item) :
    optional? standard decode value = some item := by
  obtain ⟨json, rfl, written⟩ | ⟨rfl, rfl⟩ := given
  · exact read json written
  · rfl

namespace Variant

variable {tag name : String} {fields : List Field} {json : Json}

theorem variant?_eq (written : Variant tag name fields json) (variants : List String) :
    ∃ members, json = .object members ∧
      json.variant? tag variants = some (name, .object (members.filter (·.1 != tag))) := by
  cases json with
  | object members =>
    obtain ⟨⟨_, among, json, rfl, rfl⟩, _⟩ := List.forall_mem_cons.mp written
    have tagged : member? tag members = some (some (.string name)) := among.member?_eq
    refine ⟨members, rfl, ?_⟩
    rw [variant?, tagged]
    rfl
  | _ => exact written.elim

/-- The fields of a variant are read apart from its tag. -/
theorem read (written : Variant tag name fields json) (variants names : List String)
    (named : fields.map Field.name = names) (apart : tag ∉ names) :
    ∃ members values, json.variant? tag variants = some (name, .object members) ∧
      (object members).fields? names = some values ∧ List.Forall₂ Field.Given fields values := by
  obtain ⟨members, rfl, tagged⟩ := written.variant?_eq variants
  have record : Record fields (.object (members.filter (·.1 != tag))) := by
    intro field inside
    obtain ⟨value, placed, given⟩ := (List.forall_mem_cons.mp written).2 field inside
    refine ⟨value, placed.filter (· != tag) ?_, given⟩
    refine bne_iff_ne.mpr fun same => apart ?_
    rw [← named, ← same]
    exact List.mem_map_of_mem inside
  obtain ⟨values, read, given⟩ := record.fields?_eq names named
  exact ⟨_, values, tagged, read, given⟩

end Variant

end Json

end StepShell

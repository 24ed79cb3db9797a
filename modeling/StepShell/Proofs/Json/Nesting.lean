import StepShell.Proofs.Json.Reading

/-! How deep arrays and objects nest in a value. What was printed of a value is read back as a whole
if it nests no deeper than a text may. -/

namespace StepShell.Json

mutual

/-- How many arrays and objects of a value stand in each other. -/
def nesting : Json → Nat
  | .array items => nestingItems items + 1
  | .object members => nestingMembers members + 1
  | _ => 0

def nestingItems : List Json → Nat
  | [] => 0
  | item :: rest => max item.nesting (nestingItems rest)

def nestingMembers : List (String × Json) → Nat
  | [] => 0
  | (_, value) :: rest => max value.nesting (nestingMembers rest)

end

theorem nestingItems_le {depth : Nat} {items : List Json} :
    nestingItems items ≤ depth ↔ ∀ item ∈ items, item.nesting ≤ depth := by
  induction items with
  | nil => simp [nestingItems]
  | cons item rest ih => rw [nestingItems, Nat.max_le, ih, List.forall_mem_cons]

theorem nestingMembers_le {depth : Nat} {members : List (String × Json)} :
    nestingMembers members ≤ depth ↔ ∀ member ∈ members, member.2.nesting ≤ depth := by
  induction members with
  | nil => simp [nestingMembers]
  | cons member rest ih => rw [nestingMembers, Nat.max_le, ih, List.forall_mem_cons]

theorem areReadable_iff {items : List Json} :
    areReadable items ↔ ∀ item ∈ items, item.isReadable := by
  induction items with
  | nil => simp [areReadable]
  | cons item rest ih => rw [areReadable, Bool.and_eq_true, ih, List.forall_mem_cons]

theorem membersReadable_iff {members : List (String × Json)} :
    membersReadable members ↔ ∀ member ∈ members, member.2.isReadable := by
  induction members with
  | nil => simp [membersReadable]
  | cons member rest ih => rw [membersReadable, Bool.and_eq_true, ih, List.forall_mem_cons]

theorem cutItems_eq_map (depth : Nat) (items : List Json) :
    cutItems depth items = items.map (cut depth) := by
  induction items with
  | nil => rfl
  | cons item rest ih => rw [cutItems, ih, List.map_cons]

theorem cutMembers_eq_map (depth : Nat) (members : List (String × Json)) :
    cutMembers depth members = members.map fun member => (member.1, member.2.cut depth) := by
  induction members with
  | nil => rfl
  | cons member rest ih => rw [cutMembers, ih, List.map_cons]

namespace Plain

variable {json : Json} {depth : Nat}

/-- A value that nests no deeper is read as a whole. -/
theorem cut_eq (plain : Plain json) (shallow : json.nesting ≤ depth) : json.cut depth = json := by
  induction plain generalizing depth with
  | null | bool | natural | string => rfl
  | @array items _ ih =>
    rw [nesting] at shallow
    have inner := nestingItems_le.mp (Nat.le_sub_of_add_le shallow)
    rw [cut, if_neg (by omega), cutItems_eq_map,
      List.map_congr_left fun item member => ih item member (inner item member)]
    exact congrArg _ (List.map_id' _)
  | @object members _ ih =>
    rw [nesting] at shallow
    have inner := nestingMembers_le.mp (Nat.le_sub_of_add_le shallow)
    have same : ∀ member ∈ members, (member.1, member.2.cut (depth - 1)) = id member :=
      fun member among => congrArg _ (ih member among (inner member among))
    rw [cut, if_neg (by omega), cutMembers_eq_map, List.map_congr_left same, List.map_id]

/-- Of a value that nests deeper something is only passed over. -/
theorem nesting_le (plain : Plain json) (readable : (json.cut depth).isReadable) :
    json.nesting ≤ depth := by
  induction plain generalizing depth with
  | null | bool | natural | string => exact Nat.zero_le _
  | @array items _ ih =>
    rw [cut] at readable
    split at readable
    · cases readable
    · rw [isReadable, areReadable_iff, cutItems_eq_map, List.forall_mem_map] at readable
      have inner := nestingItems_le.mpr fun item member => ih item member (readable item member)
      rw [nesting]
      omega
  | @object members _ ih =>
    rw [cut] at readable
    split at readable
    · cases readable
    · rw [isReadable, membersReadable_iff, cutMembers_eq_map, List.forall_mem_map] at readable
      have inner := nestingMembers_le.mpr fun member among =>
        ih member among (readable member among)
      rw [nesting]
      omega

theorem isReadable (plain : Plain json) : json.isReadable := by
  induction plain with
  | null | bool | natural | string => rfl
  | array _ ih => exact areReadable_iff.mpr ih
  | object _ ih => exact membersReadable_iff.mpr ih

end Plain

mutual

/-- Whether nothing in the value is lost when it is printed. -/
def isPlain : Json → Bool
  | .null | .bool _ | .string _ => true
  | .natural value => value < 1 <<< 64
  | .array items => arePlain items
  | .object members => membersPlain members
  | .number _ | .unreadable => false

def arePlain : List Json → Bool
  | [] => true
  | item :: rest => item.isPlain && arePlain rest

def membersPlain : List (String × Json) → Bool
  | [] => true
  | (_, value) :: rest => value.isPlain && membersPlain rest

end

mutual

theorem plain_iff_isPlain : (json : Json) → (Plain json ↔ json.isPlain)
  | .null | .bool _ | .string _ => by simp [isPlain]
  | .natural value => by simp [isPlain]
  | .array items => by rw [isPlain, plain_iff_arePlain]
  | .object members => by rw [isPlain, plain_iff_membersPlain]
  | .number _ | .unreadable => ⟨nofun, nofun⟩

theorem plain_iff_arePlain : (items : List Json) → (Plain (.array items) ↔ arePlain items)
  | [] => by simp [arePlain]
  | item :: rest => by
    rw [plain_array_cons, plain_iff_isPlain item, plain_iff_arePlain rest, arePlain,
      Bool.and_eq_true]

theorem plain_iff_membersPlain : (members : List (String × Json)) →
    (Plain (.object members) ↔ membersPlain members)
  | [] => by simp [membersPlain]
  | (_, value) :: rest => by
    rw [plain_object_cons, plain_iff_isPlain value, plain_iff_membersPlain rest, membersPlain,
      Bool.and_eq_true]

end

instance (json : Json) : Decidable json.Plain :=
  decidable_of_iff json.isPlain (plain_iff_isPlain json).symm

end StepShell.Json

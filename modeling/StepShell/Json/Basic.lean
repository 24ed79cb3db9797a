/-! JSON values. An object keeps its members as they were written, repeated names included: a reader
of records refuses those, a reader of tables lets the last one win. -/

namespace StepShell

inductive Json where
  | null
  | bool (value : Bool)
  /-- An integer without a sign. -/
  | natural (value : Nat)
  /-- Any other number, kept as it was written. -/
  | number (literal : String)
  | string (text : String)
  | array (items : List Json)
  | object (members : List (String × Json))
  /-- A value that is written as it should be, but that can only be passed over: a string with half
  of a surrogate pair, a number out of range, or what is nested too deep. -/
  | unreadable

namespace Json

instance : Inhabited Json := ⟨.null⟩

def ofOption {α : Type} (encode : α → Json) : Option α → Json
  | none => .null
  | some value => encode value

def ofStrings (texts : List String) : Json :=
  .array (texts.map .string)

def toString? : Json → Option String
  | .string text => some text
  | _ => none

def toBool? : Json → Option Bool
  | .bool value => some value
  | _ => none

/-- An unsigned integer below `bound`. -/
def toNatural? (bound : Nat) : Json → Option Nat
  | .natural value => if value < bound then some value else none
  | _ => none

def toArray? : Json → Option (List Json)
  | .array items => some items
  | _ => none

def toMembers? : Json → Option (List (String × Json))
  | .object members => some members
  | _ => none

/-- `null` stands for nothing. -/
def toOption? {α : Type} (decode : Json → Option α) : Json → Option (Option α)
  | .null => some none
  | json => (decode json).map some

def toList? {α : Type} (decode : Json → Option α) (json : Json) : Option (List α) := do
  (← json.toArray?).mapM decode

/-- The value of a member that must not be written twice; the outer `none` refuses the object. -/
def member? (name : String) (members : List (String × Json)) : Option (Option Json) :=
  match members.filter (·.1 == name) with
  | [] => some none
  | [one] => some (some one.2)
  | _ => none

/-- The values of the named fields of a record. A record is an object, its members in any order and
others ignored, or the list of its field values in order, which may stop early. -/
def fields? (names : List String) : Json → Option (List (Option Json))
  | .object members => names.mapM fun name => member? name members
  | .array items =>
    if items.length ≤ names.length then
      some (items.map some ++ List.replicate (names.length - items.length) none)
    else none
  | _ => none

/-- The variant that a tag stands for: its name, or its place among the variants. -/
def tagged? (variants : List String) : Json → Option String
  | .string name => some name
  | .natural place => variants[place]?
  | _ => none

/-- A record that says in the member `tag` of which variant it is, and the rest of it. Of the
variants those that are listed may also be given by their places. -/
def variant? (tag : String) (variants : List String) : Json → Option (String × Json)
  | .object members =>
    match member? tag members with
    | some (some json) => do some (← tagged? variants json, .object (members.filter (·.1 != tag)))
    | _ => none
  | .array (json :: items) => do some (← tagged? variants json, .array items)
  | _ => none

/-- A field that must be there. -/
def required? {α : Type} (decode : Json → Option α) : Option Json → Option α
  | some json => decode json
  | none => none

/-- A field that may be left out. -/
def optional? {α : Type} (standard : α) (decode : Json → Option α) : Option Json → Option α
  | some json => decode json
  | none => some standard

mutual

/-- Whether nothing in a value can only be passed over. -/
def isReadable : Json → Bool
  | .array items => areReadable items
  | .object members => membersReadable members
  | .unreadable => false
  | _ => true

def areReadable : List Json → Bool
  | [] => true
  | item :: rest => item.isReadable && areReadable rest

def membersReadable : List (String × Json) → Bool
  | [] => true
  | (_, value) :: rest => value.isReadable && membersReadable rest

end

private theorem sizeOf_filter_le (keep : String × Json → Bool) (members : List (String × Json)) :
    sizeOf (members.filter keep) ≤ sizeOf members := by
  induction members with
  | nil => simp
  | cons head rest ih =>
    rw [List.filter_cons]
    split <;> simp <;> omega

theorem sizeOf_member {name : String} {members : List (String × Json)} {value : Json}
    (found : member? name members = some (some value)) : sizeOf value < sizeOf members := by
  unfold member? at found
  split at found
  · simp at found
  · rename_i one only
    have smaller := sizeOf_filter_le (·.1 == name) members
    obtain ⟨key, json⟩ := one
    obtain rfl : json = value := by simpa using found
    rw [only] at smaller
    simp at smaller
    omega
  · simp at found

theorem sizeOf_variant {tag name : String} {variants : List String} {json body : Json}
    (found : json.variant? tag variants = some (name, body)) : sizeOf body ≤ sizeOf json := by
  unfold variant? at found
  split at found
  · split at found
    · obtain ⟨_, -, -, rfl⟩ := by simpa [Option.bind_eq_some_iff] using found
      simp [sizeOf_filter_le]
    · simp at found
  · obtain ⟨_, -, -, rfl⟩ := by simpa [Option.bind_eq_some_iff] using found
    simp
  · simp at found

theorem sizeOf_field {names : List String} {json : Json} {values : List (Option Json)}
    (found : json.fields? names = some values) (value : Json) (member : some value ∈ values) :
    sizeOf value < sizeOf json := by
  unfold fields? at found
  split at found
  · rename_i members
    suffices ∀ (names : List String) (values : List (Option Json)),
        names.mapM (fun name => member? name members) = some values → some value ∈ values →
        sizeOf value < sizeOf members by
      have := this _ _ found member
      simp; omega
    intro names
    induction names with
    | nil =>
      intro values read present
      obtain rfl : [] = values := by simpa using read
      simp at present
    | cons name rest ih =>
      intro values read present
      simp only [List.mapM_cons, Option.bind_eq_bind, Option.bind_eq_some_iff,
        Option.pure_def] at read
      obtain ⟨first, firstRead, others, othersRead, made⟩ := read
      obtain rfl := (by simpa using made : first :: others = values)
      rcases List.mem_cons.mp present with rfl | later
      · exact sizeOf_member firstRead
      · exact ih _ othersRead later
  · rename_i items
    split at found
    · obtain rfl := (by simpa using found)
      have inside : value ∈ items := by
        rcases List.mem_append.mp member with given | missing
        · simpa using given
        · simp [List.mem_replicate] at missing
      have := List.sizeOf_lt_of_mem inside
      simp; omega
    · simp at found
  · simp at found

end Json

end StepShell

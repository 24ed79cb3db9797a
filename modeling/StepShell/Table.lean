/-! Tables keyed by text. The entries stay in strictly increasing order of their keys, so two tables
with the same look-ups are equal. -/

namespace StepShell

universe u v

/-- A finite map from text; keys compare code point by code point. -/
structure Table (α : Type u) where
  entries : List (String × α)
  sorted : entries.Pairwise fun earlier later => earlier.1 < later.1

namespace Table

variable {α : Type u} {β : Type v}

instance [DecidableEq α] : DecidableEq (Table α) := fun left right =>
  decidable_of_iff (left.entries = right.entries) (by
    cases left; cases right; simp)

instance [BEq α] : BEq (Table α) := ⟨fun left right => left.entries == right.entries⟩

def empty : Table α := ⟨[], .nil⟩

instance : EmptyCollection (Table α) := ⟨empty⟩
instance : Inhabited (Table α) := ⟨empty⟩

private def insertEntry (key : String) (value : α) : List (String × α) → List (String × α)
  | [] => [(key, value)]
  | entry :: rest =>
    if key < entry.1 then (key, value) :: entry :: rest
    else if key = entry.1 then (key, value) :: rest
    else entry :: insertEntry key value rest

private theorem insertEntry_keys {key : String} {value : α} {entries : List (String × α)}
    {entry : String × α} (member : entry ∈ insertEntry key value entries) :
    entry.1 = key ∨ entry ∈ entries := by
  induction entries with
  | nil => simp_all [insertEntry]
  | cons head rest ih =>
    unfold insertEntry at member
    split at member
    · rcases List.mem_cons.mp member with rfl | old
      · exact .inl rfl
      · exact .inr old
    · split at member
      · rcases List.mem_cons.mp member with rfl | old
        · exact .inl rfl
        · exact .inr (List.mem_cons_of_mem _ old)
      · rcases List.mem_cons.mp member with rfl | old
        · exact .inr List.mem_cons_self
        · exact (ih old).imp_right (List.mem_cons_of_mem _)

private theorem insertEntry_sorted {key : String} {value : α} {entries : List (String × α)}
    (sorted : entries.Pairwise fun earlier later => earlier.1 < later.1) :
    (insertEntry key value entries).Pairwise fun earlier later => earlier.1 < later.1 := by
  induction entries with
  | nil => simp [insertEntry]
  | cons head rest ih =>
    obtain ⟨least, ordered⟩ := List.pairwise_cons.mp sorted
    unfold insertEntry
    split
    · rename_i before
      refine List.pairwise_cons.mpr ⟨fun entry member => ?_, sorted⟩
      rcases List.mem_cons.mp member with rfl | old
      · exact before
      · exact String.lt_trans before (least entry old)
    · rename_i notBefore
      split
      · rename_i same
        exact List.pairwise_cons.mpr ⟨fun entry member => same ▸ least entry member, ordered⟩
      · rename_i different
        refine List.pairwise_cons.mpr ⟨fun entry member => ?_, ih ordered⟩
        rcases insertEntry_keys member with same | old
        · rw [same]
          rcases String.le_total key head.1 with below | above
          · exact absurd (String.le_antisymm below (String.not_lt.mp notBefore)) different
          · refine Classical.byContradiction fun stuck => ?_
            exact different (String.le_antisymm (String.not_lt.mp stuck) above)
        · exact least entry old

/-- Bind `key` to `value`, in place of what it was bound to. -/
def insert (table : Table α) (key : String) (value : α) : Table α :=
  ⟨insertEntry key value table.entries, insertEntry_sorted table.sorted⟩

/-- Keep the entries whose key satisfies `keep`. -/
def filterKeys (table : Table α) (keep : String → Bool) : Table α :=
  ⟨table.entries.filter fun entry => keep entry.1, table.sorted.filter _⟩

def erase (table : Table α) (key : String) : Table α :=
  table.filterKeys (· != key)

def get? (table : Table α) (key : String) : Option α :=
  table.entries.lookup key

def contains (table : Table α) (key : String) : Bool :=
  (table.get? key).isSome

/-- Change the value of a key that is present. -/
def modify (table : Table α) (key : String) (change : α → α) : Table α :=
  match table.get? key with
  | some value => table.insert key (change value)
  | none => table

def ofList (entries : List (String × α)) : Table α :=
  entries.foldl (fun table entry => table.insert entry.1 entry.2) empty

def isEmpty (table : Table α) : Bool :=
  table.entries.isEmpty

def size (table : Table α) : Nat :=
  table.entries.length

/-- The values in order of their keys. -/
def values (table : Table α) : List α :=
  table.entries.map (·.2)

theorem get?_empty (key : String) : (empty : Table α).get? key = none := rfl

private theorem lookup_cons_ite (key : String) (head : String × α) (rest : List (String × α)) :
    (head :: rest).lookup key = if key = head.1 then some head.2 else rest.lookup key := by
  rw [List.lookup_cons]
  by_cases same : key = head.1
  · simp [same]
  · rw [if_neg same, beq_eq_false_iff_ne.mpr same]

private theorem lookup_insertEntry (key other : String) (value : α) (entries : List (String × α)) :
    (insertEntry key value entries).lookup other =
      if other = key then some value else entries.lookup other := by
  induction entries with
  | nil => simp [insertEntry, lookup_cons_ite]
  | cons head rest ih =>
    unfold insertEntry
    split
    · rw [lookup_cons_ite]
    · split
      · rename_i same
        rw [lookup_cons_ite, lookup_cons_ite]
        by_cases wanted : other = key <;> simp [wanted, ← same]
      · rename_i different
        rw [lookup_cons_ite, lookup_cons_ite, ih]
        by_cases wanted : other = head.1
        · subst wanted
          simp [Ne.symm different]
        · simp [wanted]

private theorem lookup_eq_some {entries : List (String × α)}
    (sorted : entries.Pairwise fun earlier later => earlier.1 < later.1) {key : String}
    {value : α} :
    entries.lookup key = some value ↔ (key, value) ∈ entries := by
  induction entries with
  | nil => simp
  | cons head rest ih =>
    obtain ⟨least, ordered⟩ := List.pairwise_cons.mp sorted
    rw [lookup_cons_ite, List.mem_cons]
    split
    · rename_i same
      constructor
      · intro found
        exact .inl (Prod.ext same (Option.some.inj found).symm)
      · rintro (here | later)
        · exact congrArg (fun entry => some entry.2) here.symm
        · exact absurd (same ▸ least _ later) (String.lt_irrefl _)
    · rename_i different
      rw [ih ordered]
      exact ⟨.inr, fun member => member.resolve_left fun here => different (congrArg Prod.fst here)⟩

theorem get?_eq_some {table : Table α} {key : String} {value : α} :
    table.get? key = some value ↔ (key, value) ∈ table.entries :=
  lookup_eq_some table.sorted

/-- A table is all that is looked up in it. -/
theorem ext_get? {table other : Table α} (same : ∀ key, table.get? key = other.get? key) :
    table = other := by
  have members : ∀ entry, entry ∈ table.entries ↔ entry ∈ other.entries := fun entry => by
    rw [← get?_eq_some, ← get?_eq_some, same]
  have distinct : ∀ table : Table α, table.entries.Nodup := fun table =>
    table.sorted.imp fun {earlier later} before (same : earlier = later) =>
      absurd (same ▸ before) (String.lt_irrefl _)
  have entries : table.entries = other.entries :=
    ((List.perm_ext_iff_of_nodup (distinct table) (distinct other)).mpr members).eq_of_pairwise
      (fun _ _ _ _ before after => absurd (String.lt_trans before after) (String.lt_irrefl _))
      table.sorted other.sorted
  cases table
  cases other
  cases entries
  rfl

theorem get?_insert (table : Table α) (key other : String) (value : α) :
    (table.insert key value).get? other = if other = key then some value else table.get? other :=
  lookup_insertEntry key other value table.entries

private theorem get?_foldl_insert {entries : List (String × α)}
    (sorted : entries.Pairwise fun earlier later => earlier.1 < later.1) (table : Table α)
    (key : String) :
    (entries.foldl (fun table entry => table.insert entry.1 entry.2) table).get? key =
      (entries.lookup key).or (table.get? key) := by
  induction entries generalizing table with
  | nil => rfl
  | cons head rest ih =>
    obtain ⟨least, ordered⟩ := List.pairwise_cons.mp sorted
    rw [List.foldl_cons, ih ordered, get?_insert, lookup_cons_ite]
    split
    · rename_i same
      cases later : rest.lookup key with
      | none => rfl
      | some value =>
        have before := least _ ((lookup_eq_some ordered).mp later)
        exact absurd (same ▸ before) (String.lt_irrefl _)
    · rfl

/-- The entries of a table, put into one that binds nothing else, make the table. -/
theorem foldl_insert_entries (table : Table α) {other : Table α}
    (bound : ∀ key, other.contains key → table.contains key) :
    table.entries.foldl (fun table entry => table.insert entry.1 entry.2) other = table := by
  refine ext_get? fun key => ?_
  rw [get?_foldl_insert table.sorted]
  change (table.get? key).or (other.get? key) = table.get? key
  cases found : table.get? key with
  | some value => rfl
  | none =>
    cases there : other.get? key with
    | none => rfl
    | some value =>
      have kept : (table.get? key).isSome :=
        bound key (by rw [contains, there]; rfl)
      rw [found] at kept
      cases kept

/-- The entries of a table make the table. -/
theorem ofList_entries (table : Table α) : ofList table.entries = table :=
  table.foldl_insert_entries fun _ bound => nomatch bound

private theorem lookup_filter (keep : String → Bool) (key : String) (entries : List (String × α)) :
    (entries.filter fun entry => keep entry.1).lookup key =
      if keep key then entries.lookup key else none := by
  induction entries with
  | nil => simp
  | cons head rest ih =>
    rw [List.filter_cons]
    split
    · rename_i kept
      rw [lookup_cons_ite, lookup_cons_ite, ih]
      by_cases wanted : key = head.1 <;> simp [wanted, kept]
    · rename_i dropped
      rw [lookup_cons_ite, ih]
      by_cases wanted : key = head.1
      · subst wanted; simp [dropped]
      · simp [wanted]

theorem get?_filterKeys (table : Table α) (keep : String → Bool) (key : String) :
    (table.filterKeys keep).get? key = if keep key then table.get? key else none :=
  lookup_filter keep key table.entries

theorem get?_erase (table : Table α) (key other : String) :
    (table.erase key).get? other = if other = key then none else table.get? other := by
  rw [erase, get?_filterKeys]
  by_cases same : other = key <;> simp [same]

theorem get?_modify (table : Table α) (key other : String) (change : α → α) :
    (table.modify key change).get? other =
      if other = key then (table.get? other).map change else table.get? other := by
  rw [modify]
  cases found : table.get? key with
  | none =>
    by_cases same : other = key
    · rw [if_pos same, same, found]
      rfl
    · rw [if_neg same]
  | some value =>
    rw [get?_insert]
    by_cases same : other = key
    · rw [if_pos same, if_pos same, same, found]
      rfl
    · rw [if_neg same, if_neg same]

end Table

end StepShell

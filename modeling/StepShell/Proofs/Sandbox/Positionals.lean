import Mathlib.Data.List.Perm.Subperm
import StepShell.Expansion

/-! The positional parameters of variables. A call passes its arguments and nothing else, whatever
parameters the caller has; only positional names can change them. -/

namespace StepShell.Variables

variable {vars : Variables} {args : List String}

theorem toList_toString (number : Nat) : (toString number).toList = Nat.toDigits 10 number :=
  String.toList_ofList

theorem toString_inj {first second : Nat} (same : toString first = toString second) :
    first = second := by
  have digits := congrArg String.toList same
  rw [toList_toString, toList_toString] at digits
  calc
    first = Nat.ofDigitChars 10 (Nat.toDigits 10 first) 0 := Nat.ofDigitChars_ten_toDigits.symm
    _ = Nat.ofDigitChars 10 (Nat.toDigits 10 second) 0 := by rw [digits]
    _ = second := Nat.ofDigitChars_ten_toDigits

theorem isPositional_toString (number : Nat) : isPositional (toString number) = true := by
  rw [isPositional, toList_toString, List.all_eq_true]
  exact fun c member => Nat.isDigit_of_mem_toDigits (by decide) (by decide) member

/-- Positions that are all bound are not more than there are variables. -/
theorem le_size_of_bound {count : Nat}
    (bound : ∀ place < count, (vars.get? (toString (place + 1))).isSome) : count ≤ vars.size := by
  let names := (List.range count).map fun place => toString (place + 1)
  have distinct : names.Nodup := List.pairwise_map.mpr <|
    List.nodup_range.imp fun different same => different (Nat.succ.inj (toString_inj same))
  have among : names ⊆ vars.entries.map Prod.fst := by
    intro name member
    obtain ⟨place, within, rfl⟩ := List.mem_map.mp member
    obtain ⟨values, found⟩ := Option.isSome_iff_exists.mp (bound place (List.mem_range.mp within))
    exact List.mem_map_of_mem (Table.get?_eq_some.mp found)
  have counted := (List.subperm_of_subset distinct among).length_le
  rwa [List.length_map, List.length_range, List.length_map] at counted

theorem isSome_of_value? {name value : String} (found : vars.value? name = some value) :
    (vars.get? name).isSome := by
  obtain ⟨values, bound, _⟩ := Option.bind_eq_some_iff.mp found
  rw [bound]
  rfl

/-- The positional parameters begin with these arguments in their order, and the next position has
no value. -/
def Counts (vars : Variables) (args : List String) : Prop :=
  ∀ place ≤ args.length, vars.value? (toString (place + 1)) = args[place]?

theorem Counts.positionals (counts : vars.Counts args) : vars.positionals = args := by
  refine positionals_eq_of_value? (le_size_of_bound fun place within => ?_) counts
  have given := counts place (Nat.le_of_lt within)
  rw [List.getElem?_eq_getElem within] at given
  exact isSome_of_value? given

/-- The positional parameters are these arguments in their order, and no others. -/
def Passes (vars : Variables) (args : List String) : Prop :=
  ∀ place, vars.value? (toString (place + 1)) = args[place]?

theorem Passes.positionals (passes : vars.Passes args) : vars.positionals = args :=
  Counts.positionals fun place _ => passes place

theorem ne_of_not_positional {name : String} (plain : isPositional name = false) (number : Nat) :
    toString number ≠ name := by
  rintro rfl
  rw [isPositional_toString] at plain
  cases plain

theorem Passes.assign {name : String} (value : String) (passes : vars.Passes args)
    (plain : isPositional name = false) : (vars.assign name value).Passes args := by
  intro place
  rw [value?_assign, if_neg (ne_of_not_positional plain _)]
  exact passes place

theorem Passes.erase {name : String} (passes : vars.Passes args)
    (plain : isPositional name = false) : Variables.Passes (Table.erase vars name) args := by
  intro place
  rw [value?_erase, if_neg (ne_of_not_positional plain _)]
  exact passes place

/-- Arguments assigned one after the other, the first one at `start`. -/
theorem value?_assigned (start number : Nat) (vars : Variables) (args : List String) :
    ((args.zipIdx start).foldl (fun table arg => table.assign (toString arg.2) arg.1)
        vars).value? (toString number) =
      if start ≤ number ∧ number < start + args.length then args[number - start]?
      else vars.value? (toString number) := by
  induction args generalizing start vars with
  | nil =>
    have nowhere : ¬(start ≤ number ∧ number < start + ([] : List String).length) := by
      rw [List.length_nil]
      omega
    rw [if_neg nowhere]
    rfl
  | cons first rest ih =>
    rw [List.zipIdx_cons, List.foldl_cons, ih, value?_assign, List.length_cons]
    by_cases here : number = start
    · subst here
      rw [if_neg (by omega), if_pos rfl, if_pos (by omega), Nat.sub_self]
      rfl
    · rw [if_neg fun same => here (toString_inj same)]
      by_cases later : start + 1 ≤ number ∧ number < start + 1 + rest.length
      · have next : number - start = number - (start + 1) + 1 := by omega
        rw [if_pos later, if_pos (by omega), next, List.getElem?_cons_succ]
      · rw [if_neg later, if_neg (by omega)]

/-- A call passes its arguments, however many parameters the caller has. -/
theorem call_passes (vars : Variables) (args : List String) : (vars.call args).Passes args := by
  intro place
  rw [call, value?_assigned]
  split
  · rw [Nat.add_sub_cancel]
  · rename_i outside
    rw [List.getElem?_eq_none (by omega), value?, Table.get?_filterKeys, isPositional_toString]
    rfl

/-- What references to positional parameters stand for in a word, and a list of all of them in a
loop. -/
structure Reads (vars : Variables) (args : List String) : Prop where
  parameter : ∀ place,
    Expansion.lookup vars (Nat.toDigits 10 (place + 1)) = (args[place]?.getD "").toList
  all : ∀ sign ∈ ['@', '*'], Expansion.lookup vars [sign] = (" ".intercalate args).toList
  count : Expansion.lookup vars ['#'] = Nat.toDigits 10 args.length
  list : vars.positionals = args

theorem Passes.reads (passes : vars.Passes args) : vars.Reads args := by
  constructor
  · intro place
    have plain : ∀ sign, sign.isDigit = false → Nat.toDigits 10 (place + 1) ≠ [sign] := by
      intro sign other same
      have digit := Nat.isDigit_of_mem_toDigits (c := sign) (by decide) (by decide)
        (same ▸ List.mem_singleton_self sign)
      rw [digit] at other
      cases other
    have name : String.ofList (Nat.toDigits 10 (place + 1)) = toString (place + 1) := rfl
    rw [Expansion.lookup, if_neg (by simp [plain '@' rfl, plain '*' rfl]), if_neg (plain '#' rfl),
      name, passes place]
  · intro sign member
    have listed : [sign] = ['@'] ∨ [sign] = ['*'] := by simpa using member
    rw [Expansion.lookup, if_pos listed, passes.positionals]
  · rw [Expansion.lookup, if_neg (by decide), if_pos rfl, passes.positionals]
  · exact passes.positionals

end StepShell.Variables

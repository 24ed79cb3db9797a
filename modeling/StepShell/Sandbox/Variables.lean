import StepShell.Table

/-! Variables. A variable holds a list of values, of which the last is the active one; the
positional parameters are the variables named `1`, `2` and so on. -/

namespace StepShell

abbrev Variables := Table (List String)

namespace Variables

/-- The active value. -/
def value? (vars : Variables) (name : String) : Option String :=
  (vars.get? name).bind List.getLast?

def assign (vars : Variables) (name value : String) : Variables :=
  vars.insert name [value]

theorem value?_assign (vars : Variables) (name value other : String) :
    (vars.assign name value).value? other =
      if other = name then some value else vars.value? other := by
  rw [value?, assign, Table.get?_insert]
  split <;> rfl

theorem value?_erase (vars : Variables) (name other : String) :
    value? (vars.erase name) other =
      if other = name then none else vars.value? other := by
  rw [value?, Table.get?_erase]
  split <;> rfl

/-- The values from a position on, up to the first that is missing. -/
def positionalsFrom (vars : Variables) : Nat → Nat → List String
  | 0, _ => []
  | fuel + 1, position =>
    match vars.value? (toString position) with
    | some value => value :: positionalsFrom vars fuel (position + 1)
    | none => []

/-- The positional parameters up to the first that has no value. There are not more of them than
there are variables. -/
def positionals (vars : Variables) : List String :=
  positionalsFrom vars vars.size 1

/-- The positional parameters are found if they have values one after the other up to some place and
none has a value right behind it. -/
theorem positionals_eq_of_value? {vars : Variables} {args : List String}
    (bounded : args.length ≤ vars.size)
    (values : ∀ place ≤ args.length, vars.value? (toString (place + 1)) = args[place]?) :
    vars.positionals = args := by
  have left : ∀ fuel place, place ≤ args.length →
      positionalsFrom vars fuel (place + 1) = (args.drop place).take fuel := by
    intro fuel
    induction fuel with
    | zero => exact fun place _ => List.take_zero.symm
    | succ fuel ih =>
      intro place within
      rw [positionalsFrom, values place within]
      cases found : args[place]? with
      | none =>
        rw [List.drop_eq_nil_of_le (List.getElem?_eq_none_iff.mp found)]
        rfl
      | some value =>
        obtain ⟨before, rfl⟩ := List.getElem?_eq_some_iff.mp found
        rw [List.drop_eq_getElem_cons before, List.take_succ_cons, ← ih (place + 1) before]
  rw [positionals, left vars.size 0 (Nat.zero_le _), List.drop_zero, List.take_of_length_le bounded]

/-- Move the parameters after `position` down by one and drop the last of them. -/
def shiftFrom : Nat → Nat → Variables → Variables
  | 0, _, vars => vars
  | fuel + 1, position, vars =>
    match vars.get? (toString (position + 1)) with
    | some next => shiftFrom fuel (position + 1) (vars.insert (toString position) next)
    | none => vars.erase (toString position)

/-- Drop the first positional parameter; the others move down by one. -/
def shift (vars : Variables) : Variables :=
  if vars.contains "1" then shiftFrom vars.size 1 vars else vars

/-- Drop the first `count` positional parameters. -/
def shiftBy : Nat → Variables → Variables
  | 0, vars => vars
  | count + 1, vars =>
    if vars.contains "1" then shiftBy count vars.shift else vars

/-- Whether a name consists of ASCII digits only. -/
def isPositional (name : String) : Bool :=
  name.toList.all Char.isDigit

/-- The variables of a function call: its arguments take the place of the caller's. -/
def call (vars : Variables) (args : List String) : Variables :=
  (args.zipIdx 1).foldl (fun table arg => table.assign (toString arg.2) arg.1)
    (vars.filterKeys fun name => !isPositional name)

end Variables

end StepShell

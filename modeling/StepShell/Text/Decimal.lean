/-! Reading bounded decimal numbers: ASCII digits with an optional sign, refused when they do not
fit the width. -/

namespace StepShell.Text

/-- The value of a non-empty run of ASCII digits. -/
def digits? (chars : List Char) : Option Nat :=
  if !chars.isEmpty && chars.all Char.isDigit then
    some (chars.foldl (fun value c => value * 10 + (c.toNat - '0'.toNat)) 0)
  else none

/-- Digits behind a plus sign or none. -/
def unsigned? : List Char → Option Nat
  | '+' :: rest => digits? rest
  | chars => digits? chars

/-- A number below two to the sixty-fourth, with an optional plus sign. -/
def natural64? (text : String) : Option Nat :=
  (unsigned? text.toList).filter (· < 0x10000000000000000)

/-- Digits behind a sign or none. -/
def signed? : List Char → Option Int
  | '-' :: rest => (digits? rest).map fun value => -(value : Int)
  | '+' :: rest => (digits? rest).map Int.ofNat
  | chars => (digits? chars).map Int.ofNat

/-- A number of sixty-four bits in two's complement, with an optional sign. -/
def integer64? (text : String) : Option Int :=
  (signed? text.toList).filter fun value =>
    -0x8000000000000000 ≤ value && value < 0x8000000000000000

theorem natural64?_lt {text : String} {value : Nat} (read : natural64? text = some value) :
    value < 0x10000000000000000 := by
  obtain ⟨_, fits⟩ := Option.filter_eq_some_iff.mp read
  simpa using fits

theorem integer64?_bounds {text : String} {value : Int} (read : integer64? text = some value) :
    -0x8000000000000000 ≤ value ∧ value < 0x8000000000000000 := by
  obtain ⟨_, fits⟩ := Option.filter_eq_some_iff.mp read
  simpa using fits

end StepShell.Text

/-! Hexadecimal digits. -/

namespace StepShell.Text

/-- The lower-case hexadecimal digits of a number. -/
def hex (value : Nat) : List Char :=
  Nat.toDigits 16 value

/-- The value of a digit in either case. -/
def hexValue? (c : Char) : Option Nat :=
  if c.isDigit then some (c.toNat - '0'.toNat)
  else if 'a' ≤ c && c ≤ 'f' then some (c.toNat - 'a'.toNat + 10)
  else if 'A' ≤ c && c ≤ 'F' then some (c.toNat - 'A'.toNat + 10)
  else none

end StepShell.Text

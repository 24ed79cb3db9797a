/-! Which numbers are in range: those that a float of sixty-four bits comes near to. -/

namespace StepShell.Json

/-- A number rounded to its leading bits; of two neighbours equally near the even one is taken. -/
def roundToBits (bits value : Nat) : Nat :=
  let unit := 1 <<< (Nat.log2 value + 1 - bits)
  let low := value % unit
  if 2 * low < unit ∨ (2 * low = unit ∧ value / unit % 2 = 0) then value - low
  else value - low + unit

/-- The least number that is nearer to two to the 1024th than to the largest float. -/
def floatBound : Nat :=
  1 <<< 1024 - 1 <<< 970

/-- Append digits to a number as long as it has sixty-four bits, and count those left over. -/
def appendDigits (value : Nat) : List Char → Nat × Nat
  | [] => (value, 0)
  | digit :: rest =>
    let next := value * 10 + (digit.toNat - '0'.toNat)
    if next < 1 <<< 64 then appendDigits next rest else (value, rest.length + 1)

/-- Whether a significand times a power of ten is in range. Both are rounded to fifty-three bits
first; no power beyond the 308th is in range. -/
def isScaledInRange (significand : Nat) (exponent : Int) : Bool :=
  significand == 0 || exponent < 0 ||
    (exponent ≤ 308 &&
      roundToBits 53 significand * roundToBits 53 (Nat.pow 10 exponent.toNat) < floatBound)

/-- Whether a number is in range, given the digits before and after its point and its exponent. -/
def isInRange (whole fraction : List Char) (exponent : Int) : Bool :=
  let (significand, beyond) := appendDigits 0 whole
  let (significand, dropped) := appendDigits significand fraction
  isScaledInRange significand (beyond - (fraction.length - dropped : Nat) + exponent)

end StepShell.Json

/-! Labels of a domain name that are not ASCII, written with ASCII letters and digits: the characters
beyond ASCII follow in increasing order, each as the number of places passed over since the last. -/

namespace StepShell.Url.Punycode

def digit (value : Nat) : Char :=
  if value < 26 then Char.ofNat ('a'.toNat + value) else Char.ofNat ('0'.toNat + (value - 26))

/-- The least value of the digit at a place that says that more digits follow. -/
def threshold (place bias : Nat) : Nat :=
  max 1 (min 26 (place - bias))

/-- A number in digits whose thresholds depend on their places; the last digit is below its own. -/
def number (bias place value : Nat) : List Char :=
  let least := threshold place bias
  if value < least then [digit value]
  else
    digit (least + (value - least) % (36 - least)) ::
      number bias (place + 36) ((value - least) / (36 - least))
termination_by value
decreasing_by
  have : 1 ≤ threshold place bias := by unfold threshold; omega
  have := Nat.div_le_self (value - threshold place bias) (36 - threshold place bias)
  omega

private def spread (delta places : Nat) : Nat × Nat :=
  if 455 < delta then spread (delta / 35) (places + 36) else (delta, places)
termination_by delta
decreasing_by omega

/-- The bias after a number has been written; `count` characters are placed by then. -/
def adapt (delta count : Nat) (first : Bool) : Nat :=
  let damped := if first then delta / 700 else delta / 2
  let (delta, places) := spread (damped + damped / count) 0
  places + 36 * delta / (delta + 38)

structure Progress where
  output : List Char
  delta : Nat
  bias : Nat
  placed : Nat

/-- One character of the label, while `code` is being placed. -/
def visit (basic code : Nat) (progress : Progress) (c : Char) : Progress :=
  if c.toNat < code then { progress with delta := progress.delta + 1 }
  else if c.toNat = code then
    { output := progress.output ++ number progress.bias 36 progress.delta
      delta := 0
      bias := adapt progress.delta (progress.placed + 1) (progress.placed = basic)
      placed := progress.placed + 1 }
  else progress

/-- Place the codes, the least first; `next` is the least that was not passed over yet. -/
def place (label : List Char) (basic : Nat) : List Nat → Nat → Progress → Progress
  | [], _, progress => progress
  | code :: codes, next, progress =>
    let passed := { progress with delta := progress.delta + (code - next) * (progress.placed + 1) }
    let placed := label.foldl (visit basic code) passed
    place label basic codes (code + 1) { placed with delta := placed.delta + 1 }

/-- A label with its ASCII characters first, and the places of the others after a hyphen. -/
def encode (label : List Char) : List Char :=
  let basic := label.filter fun c => c.toNat < 128
  let codes := ((label.map Char.toNat).filter (128 ≤ ·)).eraseDups.mergeSort
  let start := if basic.isEmpty then [] else basic ++ ['-']
  (place label basic.length codes 128 ⟨start, 0, 72, basic.length⟩).output

/-- Numbers while a label is read are below this. -/
def bound : Nat := 0x100000000

def digitValue? (c : Char) : Option Nat :=
  if 'a' ≤ c && c ≤ 'z' then some (c.toNat - 'a'.toNat)
  else if '0' ≤ c && c ≤ '9' then some (c.toNat - '0'.toNat + 26)
  else none

/-- Read a number and give what follows its last digit; `weight` is what the digit at this place
counts. -/
def readNumber (bias place weight : Nat) : List Char → Option (Nat × List Char)
  | [] => none
  | c :: rest => do
    let digit ← digitValue? c
    let least := threshold place bias
    if digit < least then some (digit * weight, rest)
    else
      let heavier := weight * (36 - least)
      if bound ≤ heavier then none
      else
        let (value, rest) ← readNumber bias (place + 36) heavier rest
        some (digit * weight + value, rest)

theorem readNumber_shorter {bias place weight value : Nat} {digits rest : List Char}
    (read : readNumber bias place weight digits = some (value, rest)) :
    rest.length < digits.length := by
  induction digits generalizing place weight value rest with
  | nil => simp [readNumber] at read
  | cons c tail ih =>
    simp only [readNumber, Option.bind_eq_bind, Option.bind_eq_some_iff] at read
    obtain ⟨digit, -, read⟩ := read
    split at read
    · simp at read
      simp [read.2]
    · split at read
      · simp at read
      · simp only [Option.bind_eq_some_iff] at read
        obtain ⟨⟨_, _⟩, later, read⟩ := read
        simp at read
        have := ih later
        simp [← read.2]
        omega

def isCharacter (code : Nat) : Bool :=
  code < 0xD800 || (0xE000 ≤ code && code < 0x110000)

/-- Insert the characters that the digits are written for, each at its place in the label so far. -/
def insertAll (label : List Char) (place code bias : Nat) (digits : List Char) :
    Option (List Char) :=
  if digits.isEmpty then some label
  else
    match read : readNumber bias 36 1 digits with
    | none => none
    | some (delta, rest) =>
      let count := label.length + 1
      let reached := place + delta
      let next := code + reached / count
      let here := reached % count
      if reached < bound && isCharacter next then
        insertAll (label.take here ++ Char.ofNat next :: label.drop here) (here + 1) next
          (adapt delta count (place = 0)) rest
      else none
termination_by digits.length
decreasing_by exact readNumber_shorter read

/-- The label that a text in lower case is written for. -/
def decode? (text : List Char) : Option (List Char) :=
  let digits := (text.reverse.takeWhile (· != '-')).reverse
  let basic := text.take (text.length - digits.length - 1)
  if basic.any fun c => 128 ≤ c.toNat then none
  else if basic.isEmpty then insertAll [] 0 128 72 text
  else insertAll basic 0 128 72 digits

end StepShell.Url.Punycode

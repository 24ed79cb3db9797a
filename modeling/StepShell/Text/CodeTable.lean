import StepShell.Text.Hexadecimal

/-! Tables of code points, written as runs. The word `61-7A` is a run of characters, `100-12E/2`
takes every second one, and `41-5A=61` says what the first of the run stands for; the others stand
for what lies as far behind it. -/

namespace StepShell.Text

structure CodeRun where
  first : Nat
  last : Nat
  /-- From one code point to the next. -/
  step : Nat
  /-- What the first code point stands for. -/
  values : List Nat
  deriving DecidableEq, Repr, Inhabited

abbrev CodeTable := List CodeRun

namespace CodeRun

private def code (digits : String) : Nat :=
  digits.toList.foldl (fun value c => value * 16 + (hexValue? c).getD 0) 0

private def ofRange (values : List Nat) (range : String) : CodeRun :=
  match (range.splitOn "/").map (·.splitOn "-") with
  | [[first, last], [step]] => ⟨code first, code last, code step, values⟩
  | [[first, last]] => ⟨code first, code last, 1, values⟩
  | _ => ⟨code range, code range, 1, values⟩

/-- The run that a word is written for. -/
def ofWord (word : String) : CodeRun :=
  match word.splitOn "=" with
  | [range, values] => ofRange (((values.splitOn ",").filter (!·.isEmpty)).map code) range
  | _ => ofRange [] word

/-- How far behind the first code point of the run another one of it lies. -/
def offset? (run : CodeRun) (code : Nat) : Option Nat :=
  if run.first ≤ code ∧ code ≤ run.last ∧ (code - run.first) % run.step = 0 then
    some (code - run.first)
  else none

theorem first_add_offset {run : CodeRun} {code offset : Nat} (found : run.offset? code = some offset) :
    run.first + offset = code := by
  unfold offset? at found
  split at found
  · rename_i inside
    obtain rfl := Option.some.inj found
    omega
  · simp at found

end CodeRun

namespace CodeTable

/-- The table that rows of words with blanks between them are written for. -/
def ofRows (rows : List String) : CodeTable :=
  rows.flatMap fun row => (row.splitOn " ").map CodeRun.ofWord

/-- Whether a character is in one of the runs. -/
def contains (table : CodeTable) (c : Char) : Bool :=
  table.any fun run => (run.offset? c.toNat).isSome

/-- What a character stands for. -/
def values? (table : CodeTable) (c : Char) : Option (List Char) :=
  table.findSome? fun run =>
    (run.offset? c.toNat).map fun offset => run.values.map fun value => Char.ofNat (value + offset)

/-- The first character that stands for these two. -/
def pair? (table : CodeTable) (first second : Char) : Option Char :=
  (table.find? fun run => run.values == [first.toNat, second.toNat]).map fun run =>
    Char.ofNat run.first

end CodeTable

end StepShell.Text

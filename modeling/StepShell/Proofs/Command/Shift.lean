import Mathlib.Data.Nat.Find
import StepShell.Command.Settings
import StepShell.Proofs.Expansion.Reading
import StepShell.Proofs.Sandbox.Positionals
import StepShell.Proofs.Text.Numerals

/-! Shifting the positional parameters. The parameters are the variables at the positions from `1`
up to the first gap. Each round of a shift moves one variable down by one position, with all its
values, until the next position is free; so the first parameters are dropped and nothing behind the
gap is touched. -/

namespace StepShell

namespace Variables

variable {vars middle moved : Variables} {held count : Nat}

/-- Each variable holds a value. -/
def Valued (vars : Variables) : Prop :=
  ∀ name values, vars.get? name = some values → values ≠ []

/-- The positions up to `held` are bound and the next one is not. -/
structure Holds (vars : Variables) (held : Nat) : Prop where
  bound : ∀ place < held, (vars.get? (toString (place + 1))).isSome
  gap : vars.get? (toString (held + 1)) = none

/-- The rounds of one shift from a position on: the variable at the next position moves down to this
one, until there is none. -/
inductive Moves : Nat → Variables → Variables → Prop
  | last {position : Nat} {vars : Variables} :
    vars.get? (toString (position + 1)) = none →
      Moves position vars (vars.erase (toString position))
  | next {position : Nat} {vars moved : Variables} {values : List String} :
    vars.get? (toString (position + 1)) = some values →
      Moves (position + 1) (vars.insert (toString position) values) moved →
      Moves position vars moved

/-- So many shifts one after the other. Where there is no first parameter a shift does nothing. -/
inductive Shifts : Nat → Variables → Variables → Prop
  | done {vars : Variables} : Shifts 0 vars vars
  | idle {count : Nat} {vars moved : Variables} :
    vars.contains "1" = false → Shifts count vars moved → Shifts (count + 1) vars moved
  | round {count : Nat} {vars middle moved : Variables} :
    vars.contains "1" = true → Moves 1 vars middle → Shifts count middle moved →
      Shifts (count + 1) vars moved

/-- The first `count` of `held` parameters are gone, and the others have moved down with all their
values. No other variable has changed. -/
structure Dropped (held count : Nat) (vars moved : Variables) : Prop where
  kept : ∀ place, place + count < held →
    moved.get? (toString (place + 1)) = vars.get? (toString (place + count + 1))
  gone : ∀ place < held, held ≤ place + count → moved.get? (toString (place + 1)) = none
  others : ∀ name, (∀ place < held, name ≠ toString (place + 1)) →
    moved.get? name = vars.get? name

section Gap

/-- There is a first gap, since there are only so many variables. -/
theorem exists_holds (vars : Variables) : ∃ held ≤ vars.size, vars.Holds held := by
  have ends : ∃ place, vars.get? (toString (place + 1)) = none := by
    refine Classical.byContradiction fun none => ?_
    have bound : ∀ place < vars.size + 1, (vars.get? (toString (place + 1))).isSome :=
      fun place _ => Option.isSome_iff_ne_none.mpr fun free => none ⟨place, free⟩
    exact absurd (le_size_of_bound bound) (Nat.not_succ_le_self _)
  have bound : ∀ place < Nat.find ends, (vars.get? (toString (place + 1))).isSome :=
    fun place before => Option.isSome_iff_ne_none.mpr (Nat.find_min ends before)
  exact ⟨Nat.find ends, le_size_of_bound bound, bound, Nat.find_spec ends⟩

theorem valued_of_entries (each : ∀ entry ∈ vars.entries, entry.2 ≠ []) : vars.Valued :=
  fun _ _ found => each _ (Table.get?_eq_some.mp found)

theorem Valued.value?_eq_none_iff (valued : vars.Valued) {name : String} :
    vars.value? name = none ↔ vars.get? name = none := by
  rw [value?]
  cases found : vars.get? name with
  | none => simp
  | some values => simpa using valued name values found

/-- Where each variable holds a value, the parameters are the bound positions. -/
theorem Valued.counts (valued : vars.Valued) (holds : vars.Holds held) :
    ∃ args, args.length = held ∧ vars.Counts args := by
  refine ⟨(List.range held).map fun place => (vars.value? (toString (place + 1))).getD "",
    by simp, fun place within => ?_⟩
  rw [List.length_map, List.length_range] at within
  obtain before | rfl := Nat.lt_or_eq_of_le within
  · rw [List.getElem?_map, List.getElem?_range before, Option.map_some]
    cases found : vars.value? (toString (place + 1)) with
    | some value => rfl
    | none =>
      have bound := holds.bound place before
      rw [valued.value?_eq_none_iff.mp found] at bound
      cases bound
  · rw [valued.value?_eq_none_iff.mpr holds.gap, List.getElem?_eq_none (by simp)]

end Gap

section Rounds

/-- The rounds of a shift come to an end within the fuel if there is a gap within it. -/
theorem shiftFrom_moves {fuel position stop : Nat} (late : position ≤ stop)
    (within : stop < position + fuel) (gap : vars.get? (toString (stop + 1)) = none) :
    Moves position vars (shiftFrom fuel position vars) := by
  induction fuel generalizing position vars with
  | zero => omega
  | succ fuel ih =>
    rw [shiftFrom]
    cases found : vars.get? (toString (position + 1)) with
    | none => exact .last found
    | some values =>
      have before : position ≠ stop := by
        rintro rfl
        rw [found] at gap
        cases gap
      refine .next found (ih (by omega) (by omega) ?_)
      rw [Table.get?_insert, if_neg fun same => absurd (toString_inj same) (by omega)]
      exact gap

/-- What the rounds from a position on do, up to the first gap. -/
theorem Moves.effect {position stop : Nat} (moves : Moves position vars moved)
    (late : position ≤ stop)
    (bound : ∀ place, position ≤ place → place < stop → (vars.get? (toString (place + 1))).isSome)
    (gap : vars.get? (toString (stop + 1)) = none) :
    (∀ place, position ≤ place → place ≤ stop →
      moved.get? (toString place) = vars.get? (toString (place + 1))) ∧
    ∀ name, (∀ place, position ≤ place → place ≤ stop → name ≠ toString place) →
      moved.get? name = vars.get? name := by
  induction moves with
  | @last position vars free =>
    obtain before | rfl := Nat.lt_or_eq_of_le late
    · have taken := bound position (Nat.le_refl _) before
      rw [free] at taken
      cases taken
    · constructor
      · intro place after within
        rw [Nat.le_antisymm within after, Table.get?_erase, if_pos rfl, gap]
      · intro name other
        rw [Table.get?_erase, if_neg (other position (Nat.le_refl _) (Nat.le_refl _))]
  | @next position vars moved values found rounds ih =>
    have before : position < stop := by
      refine Nat.lt_of_le_of_ne late ?_
      rintro rfl
      rw [found] at gap
      cases gap
    have inserted : ∀ place, position < place →
        (Table.insert vars (toString position) values).get? (toString place) =
          vars.get? (toString place) := by
      intro place after
      rw [Table.get?_insert, if_neg fun same => absurd (toString_inj same) (by omega)]
    obtain ⟨shifted, unchanged⟩ := ih before
      (fun place after within => by
        rw [inserted (place + 1) (by omega)]
        exact bound place (by omega) within)
      (by rw [inserted (stop + 1) (by omega), gap])
    constructor
    · intro place after within
      obtain later | rfl := Nat.lt_or_eq_of_le after
      · rw [shifted place later within, inserted (place + 1) (by omega)]
      · rw [unchanged (toString position) fun place later _ same =>
          absurd (toString_inj same) (by omega), Table.get?_insert, if_pos rfl, found]
    · intro name other
      rw [unchanged name fun place later => other place (by omega), Table.get?_insert,
        if_neg (other position (Nat.le_refl _) late)]

/-- One shift drops the first parameter, if there is one. -/
theorem shift_dropped (holds : vars.Holds held) :
    Dropped held 1 vars vars.shift ∧
      (held = 0 ∧ vars.contains "1" = false ∨
        0 < held ∧ vars.contains "1" = true ∧ Moves 1 vars vars.shift) := by
  have first : vars.contains "1" = (vars.get? (toString (0 + 1))).isSome := rfl
  obtain rfl | some := Nat.eq_zero_or_pos held
  · have none : vars.contains "1" = false := by
      rw [first, holds.gap]
      rfl
    rw [shift, if_neg (by simp [none])]
    exact ⟨⟨by omega, by omega, fun _ _ => rfl⟩, .inl ⟨rfl, none⟩⟩
  · have given : vars.contains "1" = true := first.trans (holds.bound 0 some)
    rw [shift, if_pos given]
    have small : held ≤ vars.size := le_size_of_bound holds.bound
    have moves : Moves 1 vars (shiftFrom vars.size 1 vars) :=
      shiftFrom_moves (Nat.succ_le_of_lt some) (by omega) holds.gap
    obtain ⟨shifted, unchanged⟩ := moves.effect (Nat.succ_le_of_lt some)
      (fun place _ within => holds.bound place within) holds.gap
    refine ⟨⟨fun place within => ?_, fun place within last => ?_, fun name other => ?_⟩,
      .inr ⟨some, given, moves⟩⟩
    · exact shifted (place + 1) (by omega) (by omega)
    · have same : place + 1 = held := Nat.le_antisymm within last
      rw [shifted (place + 1) (by omega) (by omega), same, holds.gap]
    · refine unchanged name fun place after within => ?_
      obtain ⟨before, rfl⟩ := Nat.exists_eq_add_of_le' after
      exact other before within

end Rounds

namespace Dropped

/-- What is left holds the parameters that were not dropped. -/
theorem holds (dropped : Dropped held count vars moved) (before : vars.Holds held) :
    moved.Holds (held - count) := by
  constructor
  · intro place within
    rw [dropped.kept place (by omega)]
    exact before.bound (place + count) (by omega)
  · by_cases last : held - count < held
    · exact dropped.gone _ last (by omega)
    · have same : held - count = held := by omega
      rw [same, dropped.others _ fun place within same =>
        absurd (Nat.succ.inj (toString_inj same)) (by omega), before.gap]

/-- A parameter less and then some more are one more of them. -/
theorem trans (first : Dropped held 1 vars middle)
    (second : Dropped (held - 1) count middle moved) : Dropped held (count + 1) vars moved where
  kept place within := by
    rw [second.kept place (by omega), first.kept (place + count) (by omega), Nat.add_assoc place]
  gone place within late := by
    by_cases last : place < held - 1
    · exact second.gone place last (by omega)
    · rw [second.others _ fun other earlier same =>
        absurd (Nat.succ.inj (toString_inj same)) (by omega)]
      exact first.gone place within (by omega)
  others name other := by
    rw [second.others name fun place within => other place (by omega), first.others name other]

theorem value? (dropped : Dropped held count vars moved) {place : Nat}
    (within : place + count < held) :
    moved.value? (toString (place + 1)) = vars.value? (toString (place + count + 1)) := by
  rw [Variables.value?, dropped.kept place within]
  rfl

/-- The parameters are the old ones without the first. -/
theorem positionals {args : List String} (dropped : Dropped args.length count vars moved)
    (counts : vars.Counts args) : moved.positionals = args.drop count := by
  refine Counts.positionals fun place within => ?_
  rw [List.length_drop] at within
  rw [List.getElem?_drop, Nat.add_comm count]
  by_cases before : place + count < args.length
  · rw [dropped.value? before, counts _ (Nat.le_of_lt before)]
  · rw [List.getElem?_eq_none (by omega)]
    by_cases last : place < args.length
    · rw [Variables.value?, dropped.gone place last (by omega)]
      rfl
    · have same : place = args.length := by omega
      have free := counts _ (Nat.le_refl _)
      rw [List.getElem?_eq_none (Nat.le_refl _)] at free
      rw [same, Variables.value?, dropped.others _ fun other earlier same =>
        absurd (Nat.succ.inj (toString_inj same)) (by omega)]
      exact free

end Dropped

/-- With no parameter left all shifts are idle. -/
theorem Shifts.of_none (none : vars.contains "1" = false) (count : Nat) :
    Shifts count vars vars := by
  induction count with
  | zero => exact .done
  | succ count ih => exact .idle none ih

/-- A number of shifts comes to an end and drops as many parameters. -/
theorem shiftBy_dropped (count : Nat) (holds : vars.Holds held) :
    Shifts count vars (shiftBy count vars) ∧ Dropped held count vars (shiftBy count vars) := by
  induction count generalizing vars held with
  | zero =>
    exact ⟨.done, fun _ _ => rfl, fun place within late => absurd within (by omega),
      fun _ _ => rfl⟩
  | succ count ih =>
    obtain ⟨dropped, ⟨rfl, none⟩ | ⟨_, given, moves⟩⟩ := shift_dropped holds
    · rw [shiftBy, if_neg (by simp [none])]
      exact ⟨.of_none none (count + 1), by omega, by omega, fun _ _ => rfl⟩
    · obtain ⟨shifts, rest⟩ := ih (dropped.holds holds)
      rw [shiftBy, if_pos given]
      exact ⟨.round given moves shifts, dropped.trans rest⟩

theorem expand_single (vars : Variables) {c : Char} (single : Expansion.isSingle c = true) :
    vars.expand (String.ofList ['$', c]) = String.ofList (Expansion.lookup vars [c]) := by
  rw [expand, String.toList_ofList, Expansion.expandChars_dollar,
    Expansion.dollar_single vars [] single]
  change String.ofList (_ ++ Expansion.expandChars vars []) = _
  rw [Expansion.expandChars, List.append_nil]

end Variables

namespace Command

variable {ω : Type}

/-- How many parameters a shift by a number drops: a number that does not fit sixty-four bits is
not read, and one parameter is dropped. -/
def dropsFor (count : Nat) : Nat :=
  if count < 0x10000000000000000 then count else 1

theorem shift_eq (count : Nat) (more : List String) (sandbox : Sandbox) :
    shift (toString count :: more) sandbox =
      (.nothing, { sandbox with vars := sandbox.vars.shiftBy (dropsFor count) }) := by
  have read : ((toString count :: more).head?.bind Text.natural64?).getD 1 = dropsFor count := by
    rw [List.head?_cons, Option.bind_some, Text.natural64?_toString, dropsFor]
    split <;> rfl
  rw [shift, read]

/-- A shift by a number drops the first parameters, as many as the number says if it can be read,
and moves the others down with all their values. It comes to an end, and nothing else changes. -/
theorem shift_drops (sandbox : Sandbox) (operator : ω) (count : Nat) (more : List String)
    (valued : sandbox.vars.Valued) :
    let args := sandbox.vars.positionals
    let drops := dropsFor count
    ∃ moved : Variables,
      (ofSandbox shift : Command ω) (toString count :: more) sandbox operator =
        (.ok .nothing, { sandbox with vars := moved }, operator) ∧
      Variables.Shifts drops sandbox.vars moved ∧
      Variables.Dropped args.length drops sandbox.vars moved ∧
      moved.positionals = args.drop drops ∧
      moved.expand "$#" = toString (args.length - drops) ∧
      moved.expand "$@" = " ".intercalate (args.drop drops) := by
  intro args drops
  obtain ⟨held, _, holds⟩ := sandbox.vars.exists_holds
  obtain ⟨given, rfl, counts⟩ := valued.counts holds
  have same : args = given := counts.positionals
  obtain ⟨shifts, dropped⟩ := Variables.shiftBy_dropped drops holds
  rw [← same] at dropped counts
  have left := dropped.positionals counts
  refine ⟨_, ?_, shifts, dropped, left, ?_, ?_⟩
  · rw [ofSandbox, shift_eq]
  · rw [← List.length_drop, ← left]
    exact Variables.expand_single _ rfl
  · rw [← left]
    exact (Variables.expand_single _ rfl).trans String.ofList_toList

/-- Four parameters, one of them with two values, and a variable behind the gap. -/
def parameters : Sandbox :=
  { Sandbox.empty with
    vars := Table.ofList [("1", ["a"]), ("2", ["b"]), ("3", ["c", "d"]), ("4", ["e"]),
      ("6", ["f"])] }

theorem parameters_valued : parameters.vars.Valued :=
  Variables.valued_of_entries (by decide)

theorem shift_drops_two :
    parameters.vars.Valued ∧
      ∃ moved : Variables,
        (ofSandbox shift : Command Unit) ["2"] parameters () =
          (.ok .nothing, { parameters with vars := moved }, ()) ∧
        moved.positionals = ["d", "e"] ∧ moved.get? "1" = some ["c", "d"] ∧
        moved.get? "3" = none ∧ moved.get? "6" = some ["f"] := by
  have args : parameters.vars.positionals = ["a", "b", "d", "e"] := by decide
  obtain ⟨moved, run, -, dropped, left, -, -⟩ :=
    shift_drops parameters () 2 [] parameters_valued
  rw [args] at dropped left
  refine ⟨parameters_valued, moved, run, left, ?_, ?_, ?_⟩
  · exact (dropped.kept 0 (by decide)).trans (by decide)
  · exact dropped.gone 2 (by decide) (by decide)
  · exact (dropped.others "6" (by decide)).trans (by decide)

/-- A number that does not fit sixty-four bits drops only one parameter, not all. -/
theorem shift_unread :
    let sandbox := { Sandbox.empty with vars := Table.ofList [("1", ["a"]), ("2", ["b"])] }
    sandbox.vars.Valued ∧
      (shift [toString (0x10000000000000000)] sandbox).2.vars.positionals = ["b"] ∧
      sandbox.vars.positionals.drop (0x10000000000000000) = [] := by
  intro sandbox
  refine ⟨Variables.valued_of_entries (by decide), ?_, by decide⟩
  rw [shift_eq]
  decide

end Command

end StepShell

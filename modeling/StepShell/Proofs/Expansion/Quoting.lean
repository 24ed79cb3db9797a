import StepShell.Proofs.Expansion.Reading

/-! Which references of shell text are replaced. Those between single quotes and behind a backslash
are not, but to know what stands between single quotes one has to know the double quotes too: a
single quote between them is a character like others. -/

namespace StepShell

namespace Expansion

open Word (Quoting)

/-- What the text stands in behind a character; `double` says whether double quotes count. -/
def quotingAfter (double : Bool) (quoting : Quoting) (c : Char) : Quoting :=
  match quoting with
  | .single => if c = '\'' then .plain else .single
  | .double => if c = '"' then .plain else .double
  | .plain => if c = '\'' then .single else if double && c == '"' then .double else .plain

/-- What is replaced of what a dollar sign begins. A group in parentheses stays as it is. -/
def Part.settled : Part → List Part
  | .reference ('(' :: tail) => ('$' :: '(' :: tail).map .char
  | part => [part]

/-- The parts of shell text: its characters, and the references that are neither between single
quotes nor behind a backslash. -/
def shellParts (double : Bool) : Quoting → List Char → List Part
  | _, [] => []
  | .single, c :: rest => .char c :: shellParts double (quotingAfter double .single c) rest
  | quoting, '\\' :: c :: rest => .char '\\' :: .char c :: shellParts double quoting rest
  | quoting, '$' :: rest =>
    (begun rest).settled ++ shellParts double quoting (rest.drop (extent rest))
  | quoting, c :: rest => .char c :: shellParts double (quotingAfter double quoting c) rest
termination_by _ text => text.length
decreasing_by all_goals simp only [List.length_cons, List.length_drop]; omega

/-- No single quote stands between double quotes with a dollar sign somewhere behind it. -/
def isUndisturbed : Quoting → List Char → Bool
  | _, [] => true
  | .single, c :: rest => isUndisturbed (quotingAfter true .single c) rest
  | quoting, '\\' :: _ :: rest => isUndisturbed quoting rest
  | quoting, '$' :: rest => isUndisturbed quoting (rest.drop (extent rest))
  | quoting, c :: rest =>
    !(quoting == .double && c == '\'' && rest.contains '$') &&
      isUndisturbed (quotingAfter true quoting c) rest
termination_by _ text => text.length
decreasing_by all_goals simp only [List.length_cons, List.length_drop]; omega

/-- What a part is written as. -/
def Part.written : Part → List Char
  | .char c => [c]
  | .reference text => '$' :: text

section
variable {taken after text : List Char} {parts others : List Part}

theorem Takes.group_value {tail : List Char} (takes : Takes ('(' :: tail) after)
    (vars : Variables) : (dollar vars ('(' :: tail)).1 = '$' :: '(' :: tail := by
  have value := takes.value vars
  rw [List.cons_append, dollar] at value
  obtain ⟨same, length⟩ := Prod.mk.inj value
  rw [← same, length, ← List.cons_append, List.take_left]

/-- What a dollar sign begins is what is replaced of it, or stays. -/
theorem settled_cases (rest : List Char) :
    extent rest = 0 ∧ (begun rest).settled = [.char '$'] ∨
      ∃ taken after, rest = taken ++ after ∧ Takes taken after ∧ extent rest = taken.length ∧
        (taken.head? ≠ some '(' ∧ (begun rest).settled = [.reference taken] ∨
          (∀ vars, (dollar vars taken).1 = '$' :: taken) ∧
            (begun rest).settled = ('$' :: taken).map .char) := by
  rcases dollar_cases rest with lone | ⟨taken, after, rfl, takes⟩
  · have nothing : extent rest = 0 := by rw [extent, lone]
    refine .inl ⟨nothing, ?_⟩
    rw [begun, if_pos nothing]
    rfl
  · refine .inr ⟨taken, after, rfl, takes, takes.extent, ?_⟩
    rw [takes.begun]
    cases taken with
    | nil => exact absurd rfl takes.some
    | cons c tail =>
      by_cases group : c = '('
      · subst group
        exact .inr ⟨takes.group_value, rfl⟩
      · refine .inl ⟨fun same => group (Option.some.inj same), ?_⟩
        rw [Part.settled]
        rintro tail' same
        exact group (List.cons.inj (Part.reference.inj same)).1

theorem expand_chars (vars : Variables) (text : List Char) :
    (text.map Part.char).flatMap (Part.expand vars) = text := by
  rw [List.flatMap_map]
  exact List.flatMap_singleton' text

theorem settled_expand (vars : Variables) (rest : List Char) :
    (begun rest).settled.flatMap (Part.expand vars) = (dollar vars rest).1 := by
  rw [← begun_expand]
  rcases settled_cases rest with ⟨nothing, lone⟩ | ⟨taken, after, rfl, takes, -, here⟩
  · rw [lone, begun, if_pos nothing]
    rfl
  · rcases here with ⟨-, same⟩ | ⟨value, same⟩
    · rw [same, takes.begun]
      exact List.append_nil _
    · rw [same, takes.begun, expand_chars]
      exact (value vars).symm

theorem settled_written (rest : List Char) :
    (begun rest).settled.flatMap Part.written ++ rest.drop (extent rest) = '$' :: rest := by
  rcases settled_cases rest with ⟨nothing, lone⟩ | ⟨taken, after, rfl, takes, length, here⟩
  · rw [lone, nothing]
    rfl
  · rw [length, List.drop_left]
    rcases here with ⟨-, same⟩ | ⟨-, same⟩
    · rw [same]
      simp [Part.written]
    · rw [same, List.flatMap_map]
      simp [Part.written]

/-- The parts are the text, cut. -/
theorem shellParts_written (double : Bool) (quoting : Quoting) (text : List Char) :
    (shellParts double quoting text).flatMap Part.written = text := by
  fun_induction shellParts double quoting text with
  | case1 => rfl
  | case2 c rest ih => rw [List.flatMap_cons, ih]; rfl
  | case3 quoting c rest other ih => rw [List.flatMap_cons, List.flatMap_cons, ih]; rfl
  | case4 quoting rest other ih => rw [List.flatMap_append, ih, settled_written]
  | case5 quoting c rest _ _ _ ih => rw [List.flatMap_cons, ih]; rfl

theorem replaceChars_plain (vars : Variables) {c : Char} (rest : List Char)
    (guards : ∀ d after, c = '\\' → rest = d :: after → False) (reference : c = '$' → False) :
    replaceChars vars (c :: rest) =
      if c = '\'' then c :: replaceQuoted vars rest else c :: replaceChars vars rest := by
  rw [replaceChars]
  · exact guards
  · exact reference

theorem replaceChars_dollar (vars : Variables) (rest : List Char) :
    replaceChars vars ('$' :: rest) =
      (dollar vars rest).1 ++ replaceChars vars (rest.drop (dollar vars rest).2) := by
  rw [replaceChars]

/-- What is replaced is found as if there were no double quotes. -/
theorem shellParts_expand (vars : Variables) (quoting : Quoting) (text : List Char)
    (undoubled : quoting ≠ .double) :
    (shellParts false quoting text).flatMap (Part.expand vars) =
      if quoting = .single then replaceQuoted vars text else replaceChars vars text := by
  fun_induction shellParts false quoting text with
  | case1 quoting =>
    split
    · rw [replaceQuoted]
      rfl
    · rw [replaceChars]
      rfl
  | case2 c rest ih =>
    rw [List.flatMap_cons, if_pos rfl, replaceQuoted]
    by_cases quote : c = '\''
    · have closed : quotingAfter false .single c = .plain := if_pos quote
      rw [closed] at ih ⊢
      rw [ih (by decide), if_pos quote]
      rfl
    · have inside : quotingAfter false .single c = .single := if_neg quote
      rw [inside] at ih ⊢
      rw [ih (by decide), if_neg quote]
      rfl
  | case3 quoting c rest other ih =>
    rw [List.flatMap_cons, List.flatMap_cons, ih undoubled, if_neg other, if_neg other,
      replaceChars]
    rfl
  | case4 quoting rest other ih =>
    rw [List.flatMap_append, ih undoubled, if_neg other, if_neg other, replaceChars_dollar,
      settled_expand, dollar_snd]
  | case5 quoting c rest other guards reference ih =>
    obtain rfl : quoting = .plain := by
      cases quoting with
      | plain => rfl
      | single => exact absurd rfl other
      | double => exact absurd rfl undoubled
    rw [List.flatMap_cons, if_neg other, replaceChars_plain vars rest guards reference]
    by_cases quote : c = '\''
    · have opened : quotingAfter false .plain c = .single := if_pos quote
      rw [opened] at ih ⊢
      rw [ih (by decide), if_pos quote]
      rfl
    · have outside : quotingAfter false .plain c = .plain := if_neg quote
      rw [outside] at ih ⊢
      rw [ih (by decide), if_neg quote]
      rfl

/-- A text cut into characters and references, each of these all that belongs to a dollar sign. -/
inductive Parted : List Char → List Part → Prop where
  | nil : Parted [] []
  | char (c : Char) {rest : List Char} {parts : List Part} (later : Parted rest parts) :
      Parted (c :: rest) (.char c :: parts)
  | reference {taken after : List Char} {parts : List Part} (takes : Takes taken after)
      (other : taken.head? ≠ some '(') (later : Parted after parts) :
      Parted ('$' :: (taken ++ after)) (.reference taken :: parts)

theorem Parted.chars (text : List Char) (later : Parted after parts) :
    Parted (text ++ after) (text.map .char ++ parts) := by
  induction text with
  | nil => exact later
  | cons c text ih => exact .char c ih

theorem Parted.settled {rest : List Char} (later : Parted (rest.drop (extent rest)) parts) :
    Parted ('$' :: rest) ((begun rest).settled ++ parts) := by
  rcases settled_cases rest with ⟨nothing, lone⟩ | ⟨taken, after, rfl, takes, length, here⟩
  · rw [nothing, List.drop_zero] at later
    rw [lone]
    exact .char '$' later
  · rw [length, List.drop_left] at later
    rcases here with ⟨other, same⟩ | ⟨-, same⟩
    · rw [same]
      exact .reference takes other later
    · rw [same]
      exact .chars ('$' :: taken) later

theorem shellParts_parted (double : Bool) (quoting : Quoting) (text : List Char) :
    Parted text (shellParts double quoting text) := by
  fun_induction shellParts double quoting text with
  | case1 => exact .nil
  | case2 c rest ih => exact .char c ih
  | case3 quoting c rest other ih => exact .char '\\' (.char c ih)
  | case4 quoting rest other ih => exact .settled ih
  | case5 quoting c rest _ _ _ ih => exact .char c ih

/-- Behind the same parts, the first has a reference where the second has its dollar sign. -/
def SplitsAt (taken : List Char) (parts others : List Part) : Prop :=
  ∃ common later further, parts = common ++ .reference taken :: later ∧
    others = common ++ .char '$' :: further

theorem SplitsAt.cons (part : Part) (splits : SplitsAt taken parts others) :
    SplitsAt taken (part :: parts) (part :: others) := by
  obtain ⟨common, later, further, rfl, rfl⟩ := splits
  exact ⟨part :: common, later, further, rfl, rfl⟩

/-- Two cuts of a text first differ at a reference that one of them has and the other copies. -/
theorem Parted.splits (first : Parted text parts) (second : Parted text others) :
    parts = others ∨ ∃ taken after, Takes taken after ∧ taken.head? ≠ some '(' ∧
      (SplitsAt taken parts others ∨ SplitsAt taken others parts) := by
  induction first generalizing others with
  | nil =>
    cases second
    exact .inl rfl
  | @char c rest parts later ih =>
    cases second with
    | char _ also =>
      rcases ih also with rfl | ⟨taken, after, takes, other, splits | splits⟩
      · exact .inl rfl
      · exact .inr ⟨taken, after, takes, other, .inl (splits.cons _)⟩
      · exact .inr ⟨taken, after, takes, other, .inr (splits.cons _)⟩
    | reference takes other also =>
      exact .inr ⟨_, _, takes, other, .inr ⟨[], _, _, rfl, rfl⟩⟩
  | @reference taken after parts takes other later ih =>
    generalize whole : '$' :: (taken ++ after) = text at second
    cases second with
    | nil => cases whole
    | char c also =>
      obtain ⟨rfl, rfl⟩ := List.cons.inj whole
      exact .inr ⟨taken, after, takes, other, .inl ⟨[], _, _, rfl, rfl⟩⟩
    | @reference taken' after' others' takes' other' also =>
      have same := (List.cons.inj whole).2
      have length : taken.length = taken'.length := by
        rw [← takes.extent, ← takes'.extent, same]
      obtain ⟨rfl, rfl⟩ := List.append_inj same length
      rcases ih also with rfl | ⟨taken', after', takes', other', splits | splits⟩
      · exact .inl rfl
      · exact .inr ⟨taken', after', takes', other', .inl (splits.cons _)⟩
      · exact .inr ⟨taken', after', takes', other', .inr (splits.cons _)⟩

/-- The two give different texts if the reference where they split has a value that is seen. -/
theorem SplitsAt.expand_ne (splits : SplitsAt taken parts others) {vars : Variables} {c : Char}
    (shown : (dollar vars taken).1.head? = some c) (seen : c ≠ '$') :
    parts.flatMap (Part.expand vars) ≠ others.flatMap (Part.expand vars) := by
  obtain ⟨common, later, further, rfl, rfl⟩ := splits
  rw [List.flatMap_append, List.flatMap_append, List.flatMap_cons, List.flatMap_cons]
  intro same
  obtain ⟨tail, value⟩ := List.head?_eq_some_iff.mp shown
  have first := List.append_cancel_left same
  change (dollar vars taken).1 ++ _ = '$' :: _ at first
  rw [value] at first
  exact seen (List.cons.inj first).1

theorem toDigits_seen (number : Nat) :
    ∃ c, (Nat.toDigits 10 number).head? = some c ∧ c ≠ '$' := by
  cases digits : Nat.toDigits 10 number with
  | nil => exact absurd digits Nat.toDigits_ne_nil
  | cons c rest =>
    have digit := Nat.isDigit_of_mem_toDigits (by decide) (by decide)
      (digits ▸ List.mem_cons_self : c ∈ Nat.toDigits 10 number)
    refine ⟨c, rfl, ?_⟩
    rintro rfl
    cases digit

/-- Every parameter has a value in some state. -/
theorem lookup_seen (name : List Char) :
    ∃ vars c, (lookup vars name).head? = some c ∧ c ≠ '$' := by
  by_cases all : name = ['@'] ∨ name = ['*']
  · refine ⟨Variables.assign Table.empty "1" "a", 'a', ?_, by decide⟩
    rw [lookup, if_pos all]
    decide +kernel
  · by_cases count : name = ['#']
    · obtain ⟨c, shown, seen⟩ := toDigits_seen (Variables.positionals Table.empty).length
      refine ⟨Table.empty, c, ?_, seen⟩
      rw [lookup, if_neg all, if_pos count]
      exact shown
    · refine ⟨Variables.assign Table.empty (String.ofList name) "a", 'a', ?_, by decide⟩
      rw [lookup, if_neg all, if_neg count, Variables.value?_assign, if_pos rfl]
      rfl

theorem braced_seen {inside : List Char} (whole : ':' ∉ inside) :
    ∃ vars c, (braced vars inside).head? = some c ∧ c ≠ '$' := by
  by_cases size : ∃ first rest, inside = '#' :: first :: rest
  · obtain ⟨first, rest, rfl⟩ := size
    obtain ⟨c, shown, seen⟩ := toDigits_seen (lookup Table.empty (first :: rest)).length
    exact ⟨Table.empty, c, shown, seen⟩
  · obtain ⟨vars, c, shown, seen⟩ := lookup_seen inside
    refine ⟨vars, c, ?_, seen⟩
    rw [braced]
    · rw [Text.cutOnce_eq_none whole]
      exact shown
    · exact fun first rest same => size ⟨first, rest, same⟩

/-- A reference without a range has a value in some state. -/
theorem value_seen (takes : Takes taken after) (other : taken.head? ≠ some '(')
    (whole : ':' ∉ taken) : ∃ vars c, (dollar vars taken).1.head? = some c ∧ c ≠ '$' := by
  have positive : taken.length ≠ 0 := by simpa using takes.some
  cases taken with
  | nil => exact absurd rfl takes.some
  | cons c tail =>
    have bare : c ≠ '(' := fun same => other (congrArg some same)
    have value := takes.value Table.empty
    rw [List.cons_append] at value
    by_cases brace : c = '\x7b'
    · subst brace
      rw [dollar] at value
      cases cut : Text.cutOnce '\x7d' (tail ++ after) with
      | none =>
        rw [cut] at value
        exact absurd (Prod.mk.inj value).2.symm positive
      | some halves =>
        obtain ⟨inside, more⟩ := halves
        rw [cut] at value
        obtain ⟨split, absent⟩ := Text.eq_append_of_cutOnce cut
        have length := (Prod.mk.inj value).2
        rw [List.append_cons] at split
        obtain ⟨rfl, -⟩ := List.append_inj split (by simp at length ⊢; omega)
        have ranged : ':' ∉ inside := fun among =>
          whole (List.mem_cons_of_mem _ (List.mem_append_left _ among))
        obtain ⟨vars, c, shown, seen⟩ := braced_seen ranged
        refine ⟨vars, c, ?_, seen⟩
        rw [dollar_braced vars [] absent]
        exact shown
    · by_cases single : isSingle c = true
      · obtain ⟨vars, first, shown, seen⟩ := lookup_seen [c]
        refine ⟨vars, first, ?_, seen⟩
        rw [dollar_single vars tail single]
        exact shown
      · have here : ∀ vars rest, dollar vars (c :: rest) = _ := fun vars rest =>
          (dollar_cons vars rest bare brace).trans (if_neg single)
        by_cases start : Lexer.isNameStart c = true
        · obtain ⟨vars, first, shown, seen⟩ := lookup_seen ((c :: tail).takeWhile Lexer.isNameChar)
          refine ⟨vars, first, ?_, seen⟩
          rw [here, if_pos start]
          exact shown
        · rw [here, if_neg start] at value
          exact absurd (Prod.mk.inj value).2.symm positive

theorem shellParts_of_dollarless (double : Bool) (quoting : Quoting) (text : List Char)
    (dollarless : '$' ∉ text) : shellParts double quoting text = text.map .char := by
  fun_induction shellParts double quoting text with
  | case1 => rfl
  | case2 c rest ih => rw [ih (List.not_mem_of_not_mem_cons dollarless)]; rfl
  | case3 quoting c rest other ih =>
    rw [ih fun among => dollarless (List.mem_cons_of_mem _ (List.mem_cons_of_mem _ among))]
    rfl
  | case4 quoting rest other ih => exact absurd List.mem_cons_self dollarless
  | case5 quoting c rest _ _ _ ih => rw [ih (List.not_mem_of_not_mem_cons dollarless)]; rfl

/-- What stands in double quotes is taken for plain text where these do not count. -/
def undoubled : Quoting → Quoting
  | .single => .single
  | _ => .plain

theorem undoubled_plain {quoting : Quoting} (other : quoting = .single → False) :
    undoubled quoting = .plain := by
  cases quoting with
  | single => exact absurd rfl other
  | plain | double => rfl

theorem shellParts_char (double : Bool) {quoting : Quoting} {c : Char} {rest : List Char}
    (other : quoting = .single → False)
    (guards : ∀ d after, c = '\\' → rest = d :: after → False) (reference : c = '$' → False) :
    shellParts double quoting (c :: rest) =
      .char c :: shellParts double (quotingAfter double quoting c) rest := by
  rw [shellParts]
  · exact guards
  · exact reference
  · exact other

/-- Where no single quote between double quotes bears on a reference, it does not matter whether the
double quotes count. -/
theorem shellParts_undisturbed {quoting : Quoting} {text : List Char}
    (undisturbed : isUndisturbed quoting text = true) :
    shellParts false (undoubled quoting) text = shellParts true quoting text := by
  have plain : Quoting.plain = .single → False := by decide
  fun_induction isUndisturbed quoting text with
  | case1 => rw [shellParts, shellParts]
  | case2 c rest ih =>
    have same : undoubled (quotingAfter true .single c) = quotingAfter false .single c := by
      unfold quotingAfter
      dsimp only
      split <;> rfl
    rw [undoubled, shellParts, shellParts, ← same, ih undisturbed]
  | case3 quoting c rest other ih =>
    rw [undoubled_plain other] at ih ⊢
    rw [shellParts, shellParts, ih undisturbed]
    · exact other
    · exact plain
  | case4 quoting rest other ih =>
    rw [undoubled_plain other] at ih ⊢
    rw [shellParts, shellParts, ih undisturbed]
    · exact other
    · exact plain
  | case5 quoting c rest other guards reference ih =>
    obtain ⟨inner, later⟩ := Bool.and_eq_true_iff.mp undisturbed
    rw [undoubled_plain other, shellParts_char false plain guards reference,
      shellParts_char true other guards reference]
    by_cases quoted : quoting = .double ∧ c = '\''
    · have dollarless : '$' ∉ rest := by simpa [quoted.1, quoted.2] using inner
      rw [shellParts_of_dollarless _ _ _ dollarless, shellParts_of_dollarless _ _ _ dollarless]
    · have same : undoubled (quotingAfter true quoting c) = quotingAfter false .plain c := by
        cases quoting with
        | single => exact absurd rfl other
        | plain =>
          unfold quotingAfter
          dsimp only
          split
          · rfl
          · split <;> rfl
        | double =>
          have ordinary : c ≠ '\'' := fun quote => quoted ⟨rfl, quote⟩
          have outside : quotingAfter false .plain c = .plain := if_neg ordinary
          rw [outside]
          unfold quotingAfter
          dsimp only
          split <;> rfl
      rw [← same, ih later]

end

end Expansion

namespace Variables

open Expansion

/-- Shell text with its references replaced as the quoting of the shell has it. -/
def replaceInShell (vars : Variables) (text : String) : String :=
  String.ofList ((shellParts true .plain text.toList).flatMap (Part.expand vars))

/-- The same references are to be replaced whether or not double quotes count. -/
def SameReferences (text : String) : Prop :=
  shellParts false .plain text.toList = shellParts true .plain text.toList

instance (text : String) : Decidable (SameReferences text) :=
  inferInstanceAs (Decidable (_ = _))

/-- References are replaced as if there were no double quotes. That is what the shell's quoting asks
for where these make no difference to the references, and they make none where no single quote stands
between them in front of a reference. Where they do, there is a first reference that is replaced or
left alone against the quoting, and the text is wrong whenever its value is seen. -/
theorem replaceReferences_agrees (text : String) :
    (shellParts true .plain text.toList).flatMap Part.written = text.toList ∧
      (∀ vars : Variables, vars.replaceReferences text =
        String.ofList ((shellParts false .plain text.toList).flatMap (Part.expand vars))) ∧
      (isUndisturbed .plain text.toList = true → SameReferences text) ∧
      (SameReferences text → ∀ vars : Variables,
        vars.replaceReferences text = vars.replaceInShell text) ∧
      (¬ SameReferences text → ∃ taken,
        (SplitsAt taken (shellParts false .plain text.toList) (shellParts true .plain text.toList) ∨
          SplitsAt taken (shellParts true .plain text.toList)
            (shellParts false .plain text.toList)) ∧
        (∀ vars : Variables, (dollar vars taken).1.head? ∉ [none, some '$'] →
          vars.replaceReferences text ≠ vars.replaceInShell text) ∧
        (':' ∉ taken → ∃ vars : Variables,
          vars.replaceReferences text ≠ vars.replaceInShell text)) := by
  have replaced : ∀ vars : Variables, vars.replaceReferences text =
      String.ofList ((shellParts false .plain text.toList).flatMap (Part.expand vars)) := by
    intro vars
    rw [shellParts_expand vars .plain text.toList (by decide), if_neg (by decide)]
    rfl
  refine ⟨shellParts_written true .plain _, replaced, fun undisturbed => ?_, fun same vars => ?_,
    fun different => ?_⟩
  · exact shellParts_undisturbed undisturbed
  · rw [replaced, same]
    rfl
  · have first := shellParts_parted false .plain text.toList
    have second := shellParts_parted true .plain text.toList
    obtain ⟨taken, after, takes, other, splits⟩ := (first.splits second).resolve_left different
    have fails : ∀ (vars : Variables) (c : Char), (dollar vars taken).1.head? = some c → c ≠ '$' →
        vars.replaceReferences text ≠ vars.replaceInShell text := by
      intro vars c shown seen same
      rw [replaced, replaceInShell, String.ofList_inj] at same
      rcases splits with splits | splits
      · exact splits.expand_ne shown seen same
      · exact splits.expand_ne shown seen same.symm
    refine ⟨taken, splits, fun vars shown => ?_, fun whole => ?_⟩
    · cases value : (dollar vars taken).1.head? with
      | none => simp [value] at shown
      | some c => exact fails vars c value fun same => by simp [value, same] at shown
    · obtain ⟨vars, c, shown, seen⟩ := value_seen takes other whole
      exact ⟨vars, fails vars c shown seen⟩

/-- An apostrophe between double quotes hides the references behind it, and one that follows shows
those that single quotes protect. -/
theorem replaceReferences_misses :
    let vars := Variables.assign Table.empty "x" "v"
    vars.replaceReferences "\"it's $x\"" = "\"it's $x\"" ∧
      vars.replaceInShell "\"it's $x\"" = "\"it's v\"" ∧
      vars.replaceReferences "\"'\" '$x'" = "\"'\" 'v'" ∧
      vars.replaceInShell "\"'\" '$x'" = "\"'\" '$x'" := by
  decide +kernel

/-- Quotes of both kinds and a backslash around a reference, and an apostrophe in front of one. -/
theorem replaceReferences_agrees_quoted :
    let text := "echo \"$x\" '$x\"' \\$x \"it's\""
    let other := "echo \"it's $x\""
    isUndisturbed .plain text.toList = true ∧
      (∀ vars : Variables, vars.replaceReferences text = vars.replaceInShell text) ∧
      ¬ SameReferences other ∧
      ∃ vars : Variables, vars.replaceReferences other ≠ vars.replaceInShell other := by
  intro text other
  obtain ⟨-, -, settles, same, -⟩ := replaceReferences_agrees text
  obtain ⟨-, -, -, -, differs⟩ := replaceReferences_agrees other
  have undisturbed : isUndisturbed .plain text.toList = true := by decide +kernel
  have different : ¬ SameReferences other := by decide +kernel
  refine ⟨undisturbed, same (settles undisturbed), different, ?_⟩
  obtain ⟨taken, splits, -, fails⟩ := differs different
  have whole : ∀ double, ∀ part ∈ shellParts double .plain other.toList, ':' ∉ part.written := by
    decide +kernel
  refine fails fun ranged => ?_
  rcases splits with ⟨common, later, -, same, -⟩ | ⟨common, later, -, same, -⟩
  · exact whole false (.reference taken) (by simp [same]) (List.mem_cons_of_mem _ ranged)
  · exact whole true (.reference taken) (by simp [same]) (List.mem_cons_of_mem _ ranged)

end Variables

end StepShell

import StepShell.Expansion
import StepShell.Proofs.Script.Formed
import StepShell.Proofs.Word.Region

/-! Where a text may be cut so that both sides expand as they do together. Protected text is always
given back as it is, but a reference, a group or a backslash that stands unfinished before it takes
it up. -/

namespace StepShell

namespace Expansion

/-- How much of the text after a dollar sign its reference takes up, if that does not depend on what
follows the text. -/
def extent? : List Char → Option Nat
  | [] => none
  | '(' :: rest => (Word.groupEnd? ('(' :: rest)).map (· + 1)
  | '\x7b' :: rest => (Text.cutOnce '\x7d' rest).map fun halves => halves.1.length + 2
  | c :: rest =>
    if c.isDigit || c == '@' || c == '*' || c == '#' then some 1
    else if Lexer.isNameStart c then
      let name := (c :: rest).takeWhile Lexer.isNameChar
      if name.length = (c :: rest).length then none else some name.length
    else some 0

/-- Nothing stands unfinished at the end of the text: no dollar sign, no name, no brace, no
parenthesis and no backslash. -/
def isClosed : List Char → Bool
  | [] => true
  | '\\' :: _ :: rest => isClosed rest
  | '$' :: rest =>
    match extent? rest with
    | some length => isClosed (rest.drop length)
    | none => false
  | c :: rest => c != '\\' && isClosed rest
termination_by text => text.length
decreasing_by all_goals simp only [List.length_cons, List.length_drop]; omega

theorem takeWhile_append_of_lt {keep : Char → Bool} {text : List Char} (more : List Char)
    (short : (text.takeWhile keep).length ≠ text.length) :
    (text ++ more).takeWhile keep = text.takeWhile keep := by
  induction text with
  | nil => simp at short
  | cons c rest ih =>
    rw [List.cons_append, List.takeWhile_cons, List.takeWhile_cons]
    split
    · rename_i kept
      rw [ih]
      rw [List.takeWhile_cons, if_pos kept] at short
      simpa using short
    · rfl

theorem dollar_cons (vars : Variables) {c : Char} (rest : List Char) (group : c ≠ '(')
    (brace : c ≠ '\x7b') :
    dollar vars (c :: rest) =
      if c.isDigit || c == '@' || c == '*' || c == '#' then (lookup vars [c], 1)
      else if Lexer.isNameStart c then
        let name := (c :: rest).takeWhile Lexer.isNameChar
        (lookup vars name, name.length)
      else (['$'], 0) := by
  rw [dollar]
  · exact fun same => group same
  · exact fun same => brace same

/-- A reference that is finished is the same whatever follows. -/
theorem dollar_append (vars : Variables) {text : List Char} {length : Nat} (more : List Char)
    (finished : extent? text = some length) :
    dollar vars (text ++ more) = dollar vars text ∧ (dollar vars text).2 = length ∧
      length ≤ text.length := by
  unfold extent? at finished
  split at finished
  · cases finished
  · rename_i rest
    obtain ⟨index, found, rfl⟩ := Option.map_eq_some_iff.mp finished
    have bound := Word.groupEnd?_lt found
    have here : Word.groupLength ('(' :: rest) = index + 1 := by
      rw [Word.groupLength, found]
    have there : Word.groupLength ('(' :: (rest ++ more)) = index + 1 := by
      have same := (Word.groupEnd?_append more bound).mpr found
      rw [List.cons_append] at same
      rw [Word.groupLength, same]
    refine ⟨?_, here, bound⟩
    rw [List.cons_append, dollar, dollar, here, there, ← List.cons_append,
      List.take_append_of_le_length bound]
  · rename_i rest
    obtain ⟨⟨inside, after⟩, cut, rfl⟩ := Option.map_eq_some_iff.mp finished
    have same := Text.cutOnce_append more cut
    have whole := (Text.eq_append_of_cutOnce cut).1
    rw [List.cons_append, dollar, dollar, same, cut]
    refine ⟨rfl, rfl, ?_⟩
    rw [whole]
    simp
  · rename_i c rest group brace
    have shown := fun rest => dollar_cons vars rest group brace
    rw [List.cons_append, shown, shown]
    split at finished
    · rename_i special
      cases finished
      rw [if_pos special, if_pos special]
      exact ⟨rfl, rfl, by simp⟩
    · rename_i ordinary
      rw [if_neg ordinary, if_neg ordinary]
      split at finished
      · rename_i named
        rw [if_pos named, if_pos named]
        dsimp only at finished
        split at finished
        · cases finished
        · rename_i short
          cases finished
          have same := takeWhile_append_of_lt more short
          rw [List.cons_append] at same
          rw [same]
          exact ⟨rfl, rfl, (List.takeWhile_sublist _).length_le⟩
      · rename_i unnamed
        cases finished
        rw [if_neg unnamed, if_neg unnamed]
        exact ⟨rfl, rfl, Nat.zero_le _⟩

theorem expandChars_plain (vars : Variables) {c : Char} (rest : List Char) (plain : c ≠ '\\')
    (ordinary : c ≠ '$') : expandChars vars (c :: rest) = c :: expandChars vars rest := by
  rw [expandChars]
  · exact fun _ _ same _ => plain same
  · exact fun same => ordinary same

theorem expandChars_dollar (vars : Variables) (rest : List Char) :
    expandChars vars ('$' :: rest) =
      (dollar vars rest).1 ++ expandChars vars (rest.drop (dollar vars rest).2) := by
  rw [expandChars]

/-- A text in which nothing stands unfinished expands apart from what follows it. -/
theorem expandChars_append (vars : Variables) {first : List Char} (second : List Char)
    (closed : isClosed first = true) :
    expandChars vars (first ++ second) = expandChars vars first ++ expandChars vars second := by
  fun_induction isClosed first with
  | case1 => simp [expandChars]
  | case2 c rest ih =>
    rw [List.cons_append, List.cons_append, expandChars, expandChars, ih closed, List.cons_append]
  | case3 rest length finished ih =>
    obtain ⟨same, extent, bound⟩ := dollar_append vars second finished
    rw [List.cons_append, expandChars_dollar, expandChars_dollar, same, extent,
      List.drop_append_of_le_length bound, ih closed, List.append_assoc]
  | case4 => cases closed
  | case5 c rest guards reference ih =>
    obtain ⟨plain, later⟩ := by simpa using closed
    rw [List.cons_append, expandChars_plain vars _ plain reference,
      expandChars_plain vars _ plain reference, ih later, List.cons_append]

/-- Protected text expands to itself, whatever follows. -/
theorem expandChars_protect (vars : Variables) (output rest : List Char) :
    expandChars vars (protectChars output ++ rest) = output ++ expandChars vars rest := by
  induction output with
  | nil => rfl
  | cons c output ih =>
    rw [protectChars, List.flatMap_cons, List.append_assoc]
    change expandChars vars (_ ++ (protectChars output ++ rest)) = _
    split
    · rw [List.cons_append, List.cons_append, List.nil_append, expandChars, ih, List.cons_append]
    · rename_i ordinary
      have plain : c ≠ '$' ∧ c ≠ '\\' := by
        constructor <;> rintro rfl <;> exact ordinary rfl
      rw [List.cons_append, List.nil_append, expandChars_plain vars _ plain.2 plain.1, ih,
        List.cons_append]

/-- Without variables every parameter but the number of the positional ones is empty. -/
theorem lookup_empty {name : List Char} (counted : name ≠ ['#']) :
    lookup Table.empty name = [] := by
  have nothing : Variables.positionals Table.empty = [] := rfl
  unfold lookup
  rw [nothing, if_neg counted]
  split <;> rfl

theorem lookup_empty_length (name : List Char) : (lookup Table.empty name).length ≤ 1 := by
  by_cases counted : name = ['#']
  · subst counted
    decide
  · rw [lookup_empty counted]
    exact Nat.zero_le 1

theorem slice_length_le (value : List Char) (offset : Int64) (length : Option Int64) :
    (slice value offset length).length ≤ value.length := by
  unfold slice
  rw [List.length_drop, List.length_take]
  omega

theorem braced_empty_length (inside : List Char) : (braced Table.empty inside).length ≤ 1 := by
  unfold braced
  split
  · rename_i first rest
    have short := lookup_empty_length (first :: rest)
    rcases Nat.le_one_iff_eq_zero_or_eq_one.mp short with none | one
    · rw [none]
      decide
    · rw [one]
      decide
  · split
    · exact lookup_empty_length _
    · rename_i name range cut
      have short := lookup_empty_length name
      dsimp only
      split
      · split
        · exact Nat.le_trans (slice_length_le _ _ _) short
        · exact Nat.zero_le 1
      · split
        · exact Nat.le_trans (slice_length_le _ _ _) short
        · exact Nat.zero_le 1

/-- The characters of a name expand to themselves. -/
theorem expandChars_name (vars : Variables) (text : List Char) :
    expandChars vars text =
      text.takeWhile Lexer.isNameChar ++
        expandChars vars (text.drop (text.takeWhile Lexer.isNameChar).length) := by
  induction text with
  | nil => rfl
  | cons c rest ih =>
    rw [List.takeWhile_cons]
    split
    · rename_i named
      have plain : c ≠ '\\' ∧ c ≠ '$' := by
        constructor <;> rintro rfl <;> exact absurd named (by decide)
      rw [expandChars_plain vars rest plain.1 plain.2, ih]
      simp
    · rfl

theorem isNameChar_of_isNameStart {c : Char} (start : Lexer.isNameStart c = true) :
    Lexer.isNameChar c = true := by
  simp only [Lexer.isNameStart, Lexer.isNameChar, Char.isAlphanum, Bool.or_eq_true] at start ⊢
  exact start.imp .inl id

/-- A name starts with nothing that is a parameter by itself. -/
theorem isNameStart_not_special {c : Char} (start : Lexer.isNameStart c = true) :
    ¬(c.isDigit || c == '@' || c == '*' || c == '#') = true := by
  intro special
  simp only [Bool.or_eq_true, beq_iff_eq] at special
  rcases special with ((digit | rfl) | rfl) | rfl
  · simp only [Lexer.isNameStart, Bool.or_eq_true, beq_iff_eq] at start
    have below := (Bool.and_eq_true_iff.mp digit).2
    rcases start with letter | rfl
    · rcases Bool.or_eq_true_iff.mp letter with upper | lower
      · have above := (of_decide_eq_true upper).1
        exact absurd (UInt32.le_trans above (of_decide_eq_true below)) (by decide)
      · have above := (Bool.and_eq_true_iff.mp lower).1
        exact absurd (UInt32.le_trans (of_decide_eq_true above) (of_decide_eq_true below))
          (by decide)
    · exact absurd below (by decide)
  all_goals exact absurd start (by decide)

theorem isNameStart_not_parameter {c : Char} (start : Lexer.isNameStart c = true) :
    Lexer.isSpecialParameter c = false := by
  cases parameter : Lexer.isSpecialParameter c with
  | false => rfl
  | true =>
    have single := isNameStart_not_special start
    simp only [Lexer.isSpecialParameter] at parameter
    have kind : c = '?' ∨ c = '$' ∨ c = '!' := by grind
    rcases kind with rfl | rfl | rfl <;> exact absurd start (by decide)

/-- A letter that follows a name which no variable has is lost with the name. -/
theorem expandChars_joined {name : List Char} (second : List Char)
    (named : name.all Lexer.isNameChar = true)
    (start : ∀ c rest, name = c :: rest → Lexer.isNameStart c = true) :
    expandChars Table.empty ('$' :: (name ++ 'a' :: second)) =
      expandChars Table.empty (second.drop (second.takeWhile Lexer.isNameChar).length) := by
  obtain ⟨c, rest, shown, begins⟩ :
      ∃ c rest, name ++ 'a' :: second = c :: rest ∧ Lexer.isNameStart c = true := by
    cases name with
    | nil => exact ⟨'a', second, rfl, by decide⟩
    | cons c rest => exact ⟨c, rest ++ 'a' :: second, rfl, start c rest rfl⟩
  have whole : (c :: rest).takeWhile Lexer.isNameChar =
      name ++ 'a' :: second.takeWhile Lexer.isNameChar := by
    rw [← shown, List.takeWhile_append_of_pos (by simpa using named)]
    rfl
  have unset : lookup Table.empty (name ++ 'a' :: second.takeWhile Lexer.isNameChar) = [] := by
    refine lookup_empty fun same => ?_
    rw [← whole, List.takeWhile_cons, if_pos (isNameChar_of_isNameStart begins)] at same
    rw [(List.cons.inj same).1] at begins
    exact absurd begins (by decide)
  have value : dollar Table.empty (c :: rest) =
      ([], (name ++ 'a' :: second.takeWhile Lexer.isNameChar).length) := by
    rw [dollar_cons, if_neg (isNameStart_not_special begins), if_pos begins]
    · dsimp only
      rw [whole, unset]
    · rintro rfl
      exact absurd begins (by decide)
    · rintro rfl
      exact absurd begins (by decide)
  rw [shown, expandChars_dollar, value, ← shown]
  rw [List.length_append, List.drop_length_add_append]
  rfl

theorem expandChars_name_open {name : List Char} (second : List Char)
    (named : name.all Lexer.isNameChar = true)
    (start : ∀ c rest, name = c :: rest → Lexer.isNameStart c = true) :
    expandChars Table.empty ('$' :: (name ++ protectChars ['a'] ++ second)) ≠
      expandChars Table.empty ('$' :: name) ++ ['a'] ++ expandChars Table.empty second := by
  intro same
  have shown : protectChars ['a'] = ['a'] := by decide
  have longer := congrArg List.length same
  rw [shown, List.append_assoc, List.singleton_append, expandChars_joined second named start,
    expandChars_name Table.empty second] at longer
  simp only [List.length_append, List.length_singleton] at longer
  omega

/-- A brace that follows closes a reference which no variable gives more than one character. -/
theorem expandChars_brace_open {inside : List Char} (second : List Char)
    (unclosed : Text.cutOnce '\x7d' inside = none) :
    expandChars Table.empty ('$' :: ('\x7b' :: inside ++ protectChars ['\x7d'] ++ second)) ≠
      expandChars Table.empty ('$' :: '\x7b' :: inside) ++ ['\x7d'] ++
        expandChars Table.empty second := by
  intro same
  have whole : '\x7b' :: inside ++ protectChars ['\x7d'] ++ second =
      '\x7b' :: (inside ++ '\x7d' :: second) := by
    rw [List.append_assoc]
    rfl
  have closed : expandChars Table.empty ('$' :: '\x7b' :: (inside ++ '\x7d' :: second)) =
      braced Table.empty inside ++ expandChars Table.empty second := by
    rw [expandChars_dollar, dollar, Text.cutOnce_of_none second unclosed]
    dsimp only
    rw [List.drop_succ_cons, List.drop_length_add_append]
    rfl
  have alone : expandChars Table.empty ('$' :: '\x7b' :: inside) =
      '$' :: '\x7b' :: expandChars Table.empty inside := by
    rw [expandChars_dollar, dollar, unclosed, List.drop_zero,
      expandChars_plain Table.empty inside (by decide) (by decide)]
    rfl
  have longer := congrArg List.length same
  have short := braced_empty_length inside
  rw [whole, closed, alone] at longer
  simp only [List.length_append, List.length_cons, List.length_nil] at longer
  omega

/-- A dollar sign that follows is copied into the open group with the backslash before it. -/
theorem expandChars_group_open {inside : List Char} (second : List Char)
    (unclosed : Word.groupEnd? ('(' :: inside) = none) :
    expandChars Table.empty ('$' :: ('(' :: inside ++ protectChars ['$'] ++ second)) ≠
      expandChars Table.empty ('$' :: '(' :: inside) ++ ['$'] ++
        expandChars Table.empty second := by
  intro same
  have whole : '(' :: inside ++ protectChars ['$'] ++ second =
      '(' :: inside ++ '\\' :: '$' :: second := by
    rw [List.append_assoc]
    rfl
  have alone : expandChars Table.empty ('$' :: '(' :: inside) = '$' :: '(' :: inside := by
    rw [expandChars_dollar, dollar, Word.groupLength, unclosed]
    simp [expandChars]
  have longer : ('(' :: inside).length <
      Word.groupLength ('(' :: inside ++ '\\' :: '$' :: second) :=
    Word.groupLength_append unclosed (List.cons_ne_nil _ _)
  obtain ⟨extra, taken⟩ := Nat.exists_eq_add_of_lt longer
  have group : expandChars Table.empty ('$' :: ('(' :: inside ++ '\\' :: '$' :: second)) =
      '$' :: '(' :: inside ++ '\\' :: (('$' :: second).take extra ++
        expandChars Table.empty (('$' :: second).drop extra)) := by
    rw [expandChars_dollar, List.cons_append, dollar, ← List.cons_append, taken, Nat.add_assoc,
      List.take_length_add_append, List.drop_length_add_append, List.take_succ_cons,
      List.drop_succ_cons, List.cons_append, List.append_assoc]
    rfl
  rw [whole, group, alone, List.append_assoc] at same
  have wrong := List.append_cancel_left same
  exact absurd (List.cons.inj wrong).1 (by decide)

/-- An unfinished reference takes up some output that follows it. -/
theorem expandChars_dollar_open {rest : List Char} (second : List Char)
    (unfinished : extent? rest = none) :
    ∃ output, expandChars Table.empty ('$' :: (rest ++ protectChars output ++ second)) ≠
      expandChars Table.empty ('$' :: rest) ++ output ++ expandChars Table.empty second := by
  unfold extent? at unfinished
  split at unfinished
  · exact ⟨['a'], expandChars_name_open second rfl fun _ _ same => nomatch same⟩
  · rename_i inside
    exact ⟨['$'], expandChars_group_open second (Option.map_eq_none_iff.mp unfinished)⟩
  · rename_i inside
    exact ⟨['\x7d'], expandChars_brace_open second (Option.map_eq_none_iff.mp unfinished)⟩
  · rename_i c tail group brace
    split at unfinished
    · cases unfinished
    · split at unfinished
      · rename_i start
        dsimp only at unfinished
        split at unfinished
        · rename_i long
          have whole := (List.takeWhile_prefix Lexer.isNameChar).eq_of_length long
          have named : (c :: tail).all Lexer.isNameChar = true := by
            rw [← whole]
            exact List.all_takeWhile
          refine ⟨['a'], expandChars_name_open second named ?_⟩
          rintro first rest same
          rwa [← (List.cons.inj same).1]
        · cases unfinished
      · cases unfinished

/-- What stands unfinished takes up some output that follows it. -/
theorem expandChars_open {first : List Char} (second : List Char)
    (opened : isClosed first = false) :
    ∃ output, expandChars Table.empty (first ++ protectChars output ++ second) ≠
      expandChars Table.empty first ++ output ++ expandChars Table.empty second := by
  fun_induction isClosed first with
  | case1 => cases opened
  | case2 c rest ih =>
    obtain ⟨output, wrong⟩ := ih opened
    refine ⟨output, ?_⟩
    simpa only [List.cons_append, expandChars, ne_eq, List.cons.injEq, true_and] using wrong
  | case3 rest length finished ih =>
    obtain ⟨output, wrong⟩ := ih opened
    obtain ⟨same, extent, bound⟩ :=
      dollar_append Table.empty (protectChars output ++ second) finished
    refine ⟨output, ?_⟩
    rw [List.append_assoc, List.cons_append, expandChars_dollar, expandChars_dollar, same, extent,
      List.drop_append_of_le_length bound, List.append_assoc, List.append_assoc, ne_eq,
      List.append_cancel_left_eq]
    simpa only [List.append_assoc] using wrong
  | case4 rest unfinished => exact expandChars_dollar_open second unfinished
  | case5 c rest guards reference ih =>
    by_cases plain : c = '\\'
    · obtain rfl := Word.nil_of_backslash plain guards
      subst plain
      refine ⟨['a'], fun same => ?_⟩
      have longer := congrArg List.length same
      simp [protectChars, expandChars, Word.isSpecial] at longer
    · obtain ⟨output, wrong⟩ := ih (by simpa [plain] using opened)
      refine ⟨output, ?_⟩
      simpa only [List.cons_append, expandChars_plain _ _ plain reference, ne_eq,
        List.cons.injEq, true_and] using wrong

end Expansion

theorem Variables.expand_protect (vars : Variables) (text : String) :
    vars.expand (Word.protect text) = text := by
  have whole := Expansion.expandChars_protect vars text.toList []
  rw [Expansion.expandChars, List.append_nil, List.append_nil] at whole
  rw [Variables.expand, Word.protect, String.toList_ofList, whole, String.ofList_toList]

/-- Output stands in a word as it is, whatever it is and whatever the variables hold, exactly where
nothing stands unfinished before it. -/
theorem Variables.expand_resolved_iff (first second : String) :
    (∀ (vars : Variables) (output : String),
      vars.expand (first ++ Word.protect output ++ second) =
        vars.expand first ++ output ++ vars.expand second) ↔
      Expansion.isClosed first.toList = true := by
  have chars : ∀ (vars : Variables) (output : String),
      vars.expand (first ++ Word.protect output ++ second) =
          vars.expand first ++ output ++ vars.expand second ↔
        Expansion.expandChars vars
            (first.toList ++ Expansion.protectChars output.toList ++ second.toList) =
          Expansion.expandChars vars first.toList ++ output.toList ++
            Expansion.expandChars vars second.toList := by
    intro vars output
    rw [← String.toList_inj]
    simp only [Variables.expand, Word.protect, String.toList_append, String.toList_ofList]
  constructor
  · intro literal
    cases opened : Expansion.isClosed first.toList with
    | true => rfl
    | false =>
      obtain ⟨output, wrong⟩ := Expansion.expandChars_open second.toList opened
      have same := (chars Table.empty (String.ofList output)).mp (literal _ _)
      rw [String.toList_ofList] at same
      exact absurd same wrong
  · intro closed vars output
    rw [chars, List.append_assoc, Expansion.expandChars_append vars _ closed,
      Expansion.expandChars_protect, List.append_assoc]

/-- A name before a substitution takes up the output. -/
theorem Variables.expand_name_before_output :
    let read : Word :=
      ⟨[.reference "$a".toList ⟨5, 7⟩, .substitution "echo b".toList ⟨7, 16⟩ 9], false⟩
    let vars := Variables.assign Table.empty "a" "x"
    Lexed read ⟨5, 16⟩ ∧ read.text = "$a" ++ "$(echo b)" ++ "" ∧
      vars.expand ("$a" ++ Word.protect "b" ++ "") = "" ∧
      vars.expand "$a" ++ "b" ++ vars.expand "" = "xb" := by
  refine ⟨.of_lex "echo $a$(echo b)".toList 0 ?_, ?_, ?_, ?_⟩ <;> decide +kernel

end StepShell

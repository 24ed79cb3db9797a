import StepShell.Proofs.Word.Segments

/-! What expansion takes a text for, compared with what the word was written as. Expansion reads the
text of a word again, with the quotes gone: a name is as long as it can be there, and a dollar sign
begins what it can. It reads what was written exactly where no name goes on, and no dollar sign
begins anything, in the segments that follow. -/

namespace StepShell

namespace Expansion

open Lexer (isNameStart isNameChar)
open Word (Segment Begins Written)

/-- How much of the text after a dollar sign belongs to it, whatever the variables are. -/
def extent (rest : List Char) : Nat :=
  (dollar Table.empty rest).2

/-- Characters that are a parameter by themselves when a text is expanded. -/
def isSingle (c : Char) : Bool :=
  c.isDigit || c == '@' || c == '*' || c == '#'

/-- One thing that expansion finds in a text: a character, or what a dollar sign begins. -/
inductive Part where
  | char (c : Char)
  | reference (text : List Char)
  deriving DecidableEq, Repr

def Part.expand (vars : Variables) : Part → List Char
  | .char c => [c]
  | .reference text => (dollar vars text).1

/-- What a dollar sign is taken for, given the text after it. -/
def begun (rest : List Char) : Part :=
  if extent rest = 0 then .char '$' else .reference (rest.take (extent rest))

/-- The parts that expansion finds in a text. -/
def parts : List Char → List Part
  | [] => []
  | '\\' :: c :: rest => .char c :: parts rest
  | '$' :: rest => begun rest :: parts (rest.drop (extent rest))
  | c :: rest => .char c :: parts rest
termination_by text => text.length
decreasing_by all_goals simp only [List.length_cons, List.length_drop]; omega

section Dollar

variable (vars : Variables) {first : Char} {name inside : List Char} (after : List Char)

theorem dollar_braced (absent : '\x7d' ∉ inside) :
    dollar vars ('\x7b' :: (inside ++ '\x7d' :: after)) =
      (braced vars inside, inside.length + 2) := by
  rw [dollar, Text.cutOnce_of_none after (Text.cutOnce_eq_none absent)]

theorem dollar_single (single : isSingle first = true) :
    dollar vars (first :: after) = (lookup vars [first], 1) := by
  refine (dollar_cons vars after ?_ ?_).trans (if_pos single)
  · rintro rfl
    exact absurd single (by decide)
  · rintro rfl
    exact absurd single (by decide)

theorem dollar_named (start : isNameStart first = true) (named : name.all isNameChar = true) :
    dollar vars (first :: name ++ after) =
      (lookup vars (first :: name ++ after.takeWhile isNameChar),
        (first :: name ++ after.takeWhile isNameChar).length) := by
  have whole : (first :: (name ++ after)).takeWhile isNameChar =
      first :: name ++ after.takeWhile isNameChar := by
    rw [List.takeWhile_cons, if_pos (isNameChar_of_isNameStart start),
      List.takeWhile_append_of_pos (by simpa using named), List.cons_append]
  rw [List.cons_append, dollar_cons, if_neg (isNameStart_not_special start), if_pos start]
  · dsimp only
    rw [whole]
  · rintro rfl
    exact absurd start (by decide)
  · rintro rfl
    exact absurd start (by decide)

end Dollar

/-- The first text belongs to a dollar sign before it, alone or with the second behind it, and
decides its value. -/
structure Takes (taken after : List Char) : Prop where
  some : taken ≠ []
  value : ∀ vars, dollar vars (taken ++ after) = ((dollar vars taken).1, taken.length)

theorem Takes.group (tail : List Char) :
    ∃ taken after, '(' :: tail = taken ++ after ∧ Takes taken after := by
  obtain ⟨size, length⟩ := Nat.exists_eq_add_of_lt
    (Word.groupLength_pos ('(' :: tail) (List.cons_ne_nil _ _))
  have within := Word.groupLength_le ('(' :: tail)
  have alone := Word.groupLength_take ('(' :: tail)
  rw [Nat.zero_add] at length
  rw [length] at within alone
  rw [List.take_succ_cons] at alone
  have whole : '(' :: tail = '(' :: tail.take size ++ tail.drop size := by
    rw [List.cons_append, List.take_append_drop]
  refine ⟨_, _, whole, List.cons_ne_nil _ _, fun vars => ?_⟩
  rw [← whole, dollar, dollar, length, alone, List.take_succ_cons, List.take_succ_cons,
    List.take_take, Nat.min_self, ← List.take_succ_cons, List.length_take_of_le within]

theorem Takes.braced {inside : List Char} (after : List Char) (absent : '\x7d' ∉ inside) :
    Takes ('\x7b' :: (inside ++ ['\x7d'])) after := by
  refine ⟨List.cons_ne_nil _ _, fun vars => ?_⟩
  rw [List.cons_append, List.append_assoc, List.singleton_append,
    dollar_braced vars after absent, dollar_braced vars [] absent]
  simp

theorem Takes.single {c : Char} (after : List Char) (single : isSingle c = true) :
    Takes [c] after := by
  refine ⟨List.cons_ne_nil _ _, fun vars => ?_⟩
  rw [List.singleton_append, dollar_single vars after single, dollar_single vars [] single]
  rfl

/-- A name takes what more of a name follows it. -/
theorem Takes.named {first : Char} {name : List Char} (after : List Char)
    (start : isNameStart first = true) (named : name.all isNameChar = true) :
    Takes (first :: name ++ after.takeWhile isNameChar) (after.dropWhile isNameChar) := by
  have whole : (name ++ after.takeWhile isNameChar).all isNameChar = true := by
    rw [List.all_append, named, List.all_takeWhile, Bool.and_self]
  refine ⟨List.cons_ne_nil _ _, fun vars => ?_⟩
  have here := dollar_named vars (after.dropWhile isNameChar) start whole
  have alone := dollar_named vars [] start whole
  rw [Text.takeWhile_dropWhile, List.append_nil] at here
  rw [List.takeWhile_nil, List.append_nil] at alone
  rw [List.cons_append, here, alone]

/-- A dollar sign is itself, or something belongs to it. -/
theorem dollar_cases (rest : List Char) :
    (∀ vars, dollar vars rest = (['$'], 0)) ∨
      ∃ taken after, rest = taken ++ after ∧ Takes taken after := by
  cases rest with
  | nil => exact .inl fun _ => rfl
  | cons c tail =>
    by_cases group : c = '('
    · subst group
      exact .inr (Takes.group tail)
    by_cases brace : c = '\x7b'
    · subst brace
      cases cut : Text.cutOnce '\x7d' tail with
      | none =>
        refine .inl fun vars => ?_
        rw [dollar, cut]
      | some halves =>
        obtain ⟨inside, after⟩ := halves
        obtain ⟨rfl, absent⟩ := Text.eq_append_of_cutOnce cut
        exact .inr ⟨_, after, by simp, .braced after absent⟩
    by_cases single : isSingle c = true
    · exact .inr ⟨[c], tail, rfl, .single tail single⟩
    by_cases start : isNameStart c = true
    · refine .inr ⟨_, _, ?_, .named tail start List.all_nil⟩
      rw [List.append_assoc, List.takeWhile_append_dropWhile, List.singleton_append]
    · exact .inl fun vars =>
        (dollar_cons vars tail group brace).trans ((if_neg single).trans (if_neg start))

theorem dollar_snd (vars : Variables) (rest : List Char) : (dollar vars rest).2 = extent rest := by
  rcases dollar_cases rest with lone | ⟨taken, after, rfl, takes⟩
  · rw [extent, lone, lone]
  · rw [extent, takes.value, takes.value]

theorem Takes.extent {taken after : List Char} (takes : Takes taken after) :
    extent (taken ++ after) = taken.length := by
  rw [Expansion.extent, takes.value]

theorem Takes.begun {taken after : List Char} (takes : Takes taken after) :
    begun (taken ++ after) = .reference taken := by
  have positive : taken.length ≠ 0 := by simpa using takes.some
  rw [Expansion.begun, takes.extent, if_neg positive, List.take_left]

theorem begun_expand (vars : Variables) (rest : List Char) :
    (begun rest).expand vars = (dollar vars rest).1 := by
  rcases dollar_cases rest with lone | ⟨taken, after, rfl, takes⟩
  · rw [begun, extent, lone, lone, if_pos rfl]
    rfl
  · rw [takes.begun, takes.value]
    rfl

/-- Expansion replaces the parts of a text one by one. -/
theorem expandChars_eq_parts (vars : Variables) (text : List Char) :
    expandChars vars text = (parts text).flatMap (Part.expand vars) := by
  fun_induction parts text with
  | case1 => simp [expandChars]
  | case2 c rest ih => rw [expandChars, ih, List.flatMap_cons]; rfl
  | case3 rest ih =>
    rw [expandChars_dollar, dollar_snd, ih, List.flatMap_cons, begun_expand]
  | case4 c rest guards reference ih =>
    by_cases plain : c = '\\'
    · obtain rfl := Word.nil_of_backslash plain guards
      simp [plain, expandChars, parts, Part.expand]
    · rw [expandChars_plain vars _ plain reference, ih, List.flatMap_cons]
      rfl

theorem parts_plain {c : Char} (after : List Char) (plain : Word.isSpecial c = false) :
    parts (c :: after) = .char c :: parts after := by
  rw [parts]
  · rintro _ _ rfl _
    exact absurd plain (by decide)
  · rintro rfl
    exact absurd plain (by decide)

theorem parts_guarded (c : Char) (after : List Char) :
    parts ('\\' :: c :: after) = .char c :: parts after := by
  rw [parts]

theorem parts_protect (text after : List Char) :
    parts (protectChars text ++ after) = text.map .char ++ parts after := by
  induction text with
  | nil => rfl
  | cons c text ih =>
    rw [protectChars, List.flatMap_cons, List.append_assoc, List.map_cons, List.cons_append]
    change parts (_ ++ (protectChars text ++ after)) = _
    split
    · rw [List.cons_append, List.cons_append, List.nil_append, parts_guarded, ih]
    · rename_i plain
      rw [List.cons_append, List.nil_append, parts_plain _ (eq_false_of_ne_true plain), ih]

theorem parts_dollar (rest : List Char) :
    parts ('$' :: rest) = begun rest :: parts (rest.drop (extent rest)) := by
  rw [parts]

/-- What belongs to a dollar sign is one part. -/
theorem Takes.parts {taken after : List Char} (takes : Takes taken after) :
    parts ('$' :: (taken ++ after)) = .reference taken :: parts after := by
  rw [parts_dollar, takes.begun, takes.extent, List.drop_left]

theorem Takes.parts_alone {taken : List Char} (takes : Takes taken []) :
    Expansion.parts ('$' :: taken) = [.reference taken] := by
  have whole := takes.parts
  rwa [List.append_nil, Expansion.parts] at whole

theorem parts_lone {after : List Char} (nothing : Expansion.extent after = 0) :
    parts ('$' :: after) = .char '$' :: parts after := by
  rw [parts_dollar, begun, nothing, if_pos rfl, List.drop_zero]

/-- A dollar sign is read as itself only if it begins nothing. -/
theorem parts_lone_iff {after : List Char} {others : List Part} :
    parts ('$' :: after) = .char '$' :: others ↔ extent after = 0 ∧ parts after = others := by
  by_cases nothing : extent after = 0
  · rw [parts_lone nothing]
    simp [nothing]
  · rw [parts_dollar, begun, if_neg nothing]
    simp [nothing]

end Expansion

namespace Word

open Expansion (Part Takes extent isSingle parts parts_plain parts_guarded parts_protect parts_lone
  parts_lone_iff)

/-- The parts that stand for a segment: its characters, or what the parameter that is recorded for
it is expanded as. -/
def Segment.reading (segment : Segment) : List Part :=
  match segment.parameter? with
  | some value => parts value
  | none => segment.literal.map .char

/-- What a segment stands for: its characters, or the value of the parameter that is recorded for
it. -/
def Segment.meaning (vars : Variables) (segment : Segment) : List Char :=
  match segment.parameter? with
  | some value => Expansion.expandChars vars value
  | none => segment.literal

theorem Segment.meaning_eq_reading (vars : Variables) (segment : Segment) :
    segment.meaning vars = segment.reading.flatMap (Part.expand vars) := by
  unfold meaning reading
  cases segment.parameter? with
  | some value => exact Expansion.expandChars_eq_parts vars value
  | none => simp [List.flatMap_map, Part.expand]

/-- Whether a segment ends apart from the text after it: a name does not go on there, and a dollar
sign that begins nothing by itself begins nothing there. -/
def Segment.apart (after : List Char) : Segment → Bool
  | .lone => extent after == 0
  | .special c => c != '$' || extent after == 0
  | .named _ => (after.takeWhile Lexer.isNameChar).isEmpty
  | _ => true

/-- Whether each segment ends apart from the text of those after it. -/
def standApart : List Segment → Bool
  | [] => true
  | segment :: segments => segment.apart (segments.flatMap Segment.text) && standApart segments

theorem Segment.parts_escaped (quoted : Bool) (c : Char) (after : List Char) :
    parts ((Segment.escaped quoted c).text ++ after) =
      (Segment.escaped quoted c).reading ++ parts after := by
  by_cases newline : c = '\n'
  · subst newline
    rfl
  cases quoted with
  | false =>
    simpa [Segment.text, Segment.reading, Segment.literal, Segment.parameter?, newline]
      using parts_guarded c after
  | true =>
    by_cases quote : c = '"'
    · subst quote
      exact parts_plain after rfl
    cases special : isSpecial c with
    | true =>
      simpa [Segment.text, Segment.reading, Segment.literal, Segment.parameter?, newline, quote,
        special] using parts_guarded c after
    | false =>
      have kept : parts ('\\' :: '\\' :: c :: after) =
          .char '\\' :: .char c :: parts after := by
        rw [parts_guarded, parts_plain after special]
      simpa [Segment.text, Segment.reading, Segment.literal, Segment.parameter?, newline, quote,
        special] using kept

/-- A segment that is read as what it stands for is read so whatever follows. -/
theorem Segment.parts_iff_of_eq {segment : Segment} {after : List Char} (others : List Part)
    (ends : segment.apart after = true)
    (same : parts (segment.text ++ after) = segment.reading ++ parts after) :
    parts (segment.text ++ after) = segment.reading ++ others ↔
      segment.apart after = true ∧ parts after = others := by
  rw [same, List.append_cancel_left_eq, ends]
  exact (and_iff_right rfl).symm

/-- A name is read apart from what follows exactly if it does not go on there. -/
theorem Segment.parts_named_iff {first : Char} {name : List Char}
    (start : Lexer.isNameStart first = true) (named : name.all Lexer.isNameChar = true)
    (after : List Char) (others : List Part) :
    parts ('$' :: first :: name ++ after) =
        parts ('$' :: first :: name) ++ others ↔
      (after.takeWhile Lexer.isNameChar).isEmpty = true ∧ parts after = others := by
  have alone := (Takes.named [] start named).parts_alone
  have here := (Takes.named after start named).parts
  have rejoined : after.takeWhile Lexer.isNameChar ++ after.dropWhile Lexer.isNameChar = after :=
    List.takeWhile_append_dropWhile
  rw [List.append_assoc, rejoined] at here
  rw [List.takeWhile_nil, List.append_nil] at alone
  rw [List.cons_append, here, alone]
  cases more : after.takeWhile Lexer.isNameChar with
  | nil =>
    rw [more, List.nil_append] at rejoined
    rw [rejoined]
    simp
  | cons c rest => simp

/-- A parameter with a name of its own is read apart from what follows, but a second dollar sign
may begin something there. -/
theorem Segment.parts_special_iff {c : Char} (parameter : Lexer.isSpecialParameter c = true)
    (after : List Char) (others : List Part) :
    parts ('$' :: c :: after) = parts ['$', c] ++ others ↔
      (c != '$' || extent after == 0) = true ∧ parts after = others := by
  by_cases single : isSingle c = true
  · have alone := (Takes.single [] single).parts_alone
    have here := (Takes.single after single).parts
    have other : c ≠ '$' := by
      rintro rfl
      exact absurd single (by decide)
    rw [List.singleton_append] at here
    rw [here, alone]
    simp [other]
  · -- Expansion knows no such parameter: both characters stand for themselves.
    have kind : c = '?' ∨ c = '$' ∨ c = '!' := by
      simp only [Lexer.isSpecialParameter, isSingle] at parameter single
      grind
    have nothing : ∀ more, extent (c :: more) = 0 := by
      intro more
      rcases kind with rfl | rfl | rfl <;> rfl
    rw [parts_lone (nothing after), parts_lone (nothing [])]
    by_cases dollar : c = '$'
    · subst dollar
      rw [parts_lone (show extent [] = 0 from rfl), parts]
      simp [parts_lone_iff]
    · have plain : isSpecial c = false := by
        rcases kind with rfl | rfl | rfl
        · rfl
        · exact absurd rfl dollar
        · rfl
      rw [parts_plain after plain, parts_plain [] plain, parts]
      simp [dollar]

/-- A segment is read as what it stands for exactly if it ends apart from what follows. -/
theorem Begins.parts_iff {quoted still : Bool} {text left : List Char} {segment : Segment}
    (begins : Begins quoted text segment still left) (after : List Char) (others : List Part) :
    parts (segment.text ++ after) = segment.reading ++ others ↔
      segment.apart after = true ∧ parts after = others := by
  cases begins with
  | @bare _ c _ plain =>
    have ordinary : isSpecial c = false := by
      simp only [isPlain, Bool.and_eq_true, Bool.not_eq_true', Bool.or_eq_false_iff] at plain
      exact plain.1.1
    exact Segment.parts_iff_of_eq others rfl (parts_plain after ordinary)
  | @escaped _ c =>
    exact Segment.parts_iff_of_eq others rfl (Segment.parts_escaped quoted c after)
  | hanging =>
    refine Segment.parts_iff_of_eq others rfl ?_
    exact parts_guarded '\\' after
  | @single inside _ absent =>
    exact Segment.parts_iff_of_eq others rfl (parts_protect inside after)
  | quote => exact Segment.parts_iff_of_eq others rfl rfl
  | lone ends =>
    rw [Segment.apart, beq_iff_eq]
    exact parts_lone_iff
  | @braced _ inside _ absent =>
    have alone := (Takes.braced [] absent).parts_alone
    have here := (Takes.braced after absent).parts
    refine Segment.parts_iff_of_eq others rfl ?_
    change parts ('$' :: ('\x7b' :: (inside ++ ['\x7d']) ++ after)) =
      parts ('$' :: '\x7b' :: (inside ++ ['\x7d'])) ++ _
    rw [here, alone]
    rfl
  | named start named ends => exact Segment.parts_named_iff start named after others
  | special parameter => exact Segment.parts_special_iff parameter after others

theorem Written.parts_iff {quoted still : Bool} {text left : List Char} {segments : List Segment}
    (written : Written quoted text segments still left) :
    parts (segments.flatMap Segment.text) = segments.flatMap Segment.reading ↔
      standApart segments = true := by
  induction written with
  | done => simp [standApart, parts]
  | next begins _ ih =>
    rw [List.flatMap_cons, List.flatMap_cons, begins.parts_iff, ih, standApart, Bool.and_eq_true]

/-- A word without substitutions is read from segments of the script, and its recorded parameters
are theirs. Expansion finds in its text just what they stand for, and gives back what they stand for
whatever the variables are, exactly if each of them ends apart from those after it. -/
theorem expand_agrees_iff {cursor next : Cursor} {read : Word}
    (done : Lexer.word cursor = .ok (read, next))
    (direct : ∀ piece ∈ read.pieces, piece.isSubstitution = false) :
    ∃ segments, Written false cursor.rest segments false next.rest ∧
      next.rest.head?.all Lexer.endsWord = true ∧
      read.pieces.filterMap Piece.parameter? = segments.filterMap Segment.parameter? ∧
      ((parts read.chars = segments.flatMap Segment.reading ∧
          ∀ vars : Variables, vars.expand read.text =
            String.ofList (segments.flatMap (Segment.meaning vars))) ↔
        standApart segments = true) := by
  obtain ⟨⟨segments, written, made, recorded⟩, ends⟩ :=
    Lexer.word_leaves cursor read next done direct
  have chars : read.chars = segments.flatMap Segment.text := made
  refine ⟨segments, written, ends, recorded, ?_⟩
  rw [chars, ← written.parts_iff, and_iff_left_iff_imp]
  intro same vars
  have expanded : Expansion.expandChars vars read.chars =
      segments.flatMap (Segment.meaning vars) := by
    rw [Expansion.expandChars_eq_parts, chars, same, List.flatMap_assoc]
    exact List.flatMap_congr fun segment _ => (segment.meaning_eq_reading vars).symm
  rw [Variables.expand, Word.text, String.toList_ofList, expanded]

/-- Quotes, a backslash and braces keep these parameters apart. -/
theorem expand_agrees_mixed :
    let cursor : Cursor := ⟨['"', '$', 'a', '"', '\'', '$', 'b', '\'', '\\', 'c', '$', '\x7b', 'd',
      '\x7d'], .starting 0⟩
    let read : Word := ⟨[.reference "$a".toList ⟨1, 3⟩, .guarded '$', .plain 'b', .guarded 'c',
      .reference "$\x7bd\x7d".toList ⟨10, 14⟩], true⟩
    Lexer.word cursor = .ok (read, ⟨[], ⟨1, 15, 14⟩⟩) ∧
      (∀ piece ∈ read.pieces, piece.isSubstitution = false) ∧
      ∀ vars : Variables, vars.expand read.text = String.ofList
        (Expansion.expandChars vars "$a".toList ++ "$b".toList ++ "c".toList ++
          Expansion.expandChars vars "$\x7bd\x7d".toList) := by
  intro cursor read
  have done : Lexer.word cursor = .ok (read, ⟨[], ⟨1, 15, 14⟩⟩) := by with_unfolding_all rfl
  have direct : ∀ piece ∈ read.pieces, piece.isSubstitution = false := by decide
  have spelled : Written false cursor.rest [.quote, .named ['a'], .quote, .single ['$', 'b'],
      .escaped false 'c', .braced ['d']] false [] := by
    refine .next .quote ?_
    refine .next (@Begins.named _ 'a' [] _ rfl rfl rfl) ?_
    refine .next .quote ?_
    refine .next (@Begins.single ['$', 'b'] _ (by decide)) ?_
    refine .next .escaped ?_
    exact .next (@Begins.braced _ ['d'] [] (by decide)) .done
  refine ⟨done, direct, fun vars => ?_⟩
  obtain ⟨segments, written, ends, -, agrees⟩ := expand_agrees_iff done direct
  obtain ⟨rfl, -⟩ := written.unique rfl ends spelled rfl
  rw [(agrees.mpr rfl).2 vars]
  simp [Segment.meaning, Segment.parameter?, Segment.literal]

/-- The quotes behind a name end it in the script and are gone when the word is expanded. -/
theorem expand_joins_name :
    let cursor : Cursor := ⟨['"', '$', 'a', '"', 'b'], .starting 0⟩
    let read : Word := ⟨[.reference "$a".toList ⟨1, 3⟩, .plain 'b'], true⟩
    let segments : List Segment := [.quote, .named ['a'], .quote, .bare 'b']
    let vars := Variables.assign Table.empty "a" "x"
    Lexer.word cursor = .ok (read, ⟨[], ⟨1, 6, 5⟩⟩) ∧
      Written false cursor.rest segments false [] ∧
      String.ofList (segments.flatMap (Segment.meaning vars)) = "xb" ∧
      vars.expand read.text = "" := by
  intro cursor read segments vars
  refine ⟨by with_unfolding_all rfl, ?_, by decide +kernel, by decide +kernel⟩
  refine .next .quote ?_
  refine .next (@Begins.named _ 'a' [] _ rfl rfl rfl) ?_
  refine .next .quote ?_
  exact .next (.bare rfl) .done

end Word

end StepShell

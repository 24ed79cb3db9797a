import StepShell.Command.Echo

/-! Interpreting the escapes of a text that is put together. Where two texts are joined by a space
no escape comes about and none is lost, since a space is no digit, and a backslash in front of it is
shown as it is. So to interpret the texts one by one is to interpret the whole, unless one of them
but the last is ended by an escape: that escape ends the whole as well. -/

namespace StepShell.Command

namespace Echo

/-- A text up to the escape that ends it, and all of it if there is none. -/
def cut : List Char → List Char
  | [] => []
  | '\\' :: c :: rest => if c = 'c' then [] else '\\' :: c :: cut rest
  | c :: rest => c :: cut rest

/-- A text that may stand where another one does: it begins as that one does, or with a space or a
backslash, which are no digits. -/
def Continues (rest other : List Char) : Prop :=
  ∀ c ∈ other.head?, c = ' ' ∨ c = '\\' ∨ rest.head? = some c

/-- A character or an escape, together with what stands for it, in front of some text. -/
structure Chunk (chunk shown rest : List Char) : Prop where
  shows : ∀ other, Continues rest other → interpret (chunk ++ other) = shown ++ interpret other
  uncut : ∀ other, cut (chunk ++ other) = chunk ++ cut other

section Cut

variable {c : Char}

theorem cut_cons (ordinary : c ≠ '\\') (rest : List Char) : cut (c :: rest) = c :: cut rest := by
  rw [cut]
  exact fun _ _ same _ => ordinary same

theorem cut_escape (other : c ≠ 'c') (rest : List Char) :
    cut ('\\' :: c :: rest) = '\\' :: c :: cut rest := by
  rw [cut, if_neg other]

theorem cut_append {front : List Char} (ordinary : '\\' ∉ front) (rest : List Char) :
    cut (front ++ rest) = front ++ cut rest := by
  induction front with
  | nil => rfl
  | cons c front ih =>
    obtain ⟨here, later⟩ := not_or.mp (mt List.mem_cons.mpr ordinary)
    rw [List.cons_append, cut_cons (Ne.symm here), ih later, List.cons_append]

/-- What is left of a text when it is cut begins as the text does. -/
theorem continues_cut (text : List Char) : Continues text (cut text) := by
  intro c begins
  fun_cases cut text <;> simp_all [cut, eq_comm]

end Cut

section Chunks

/-- A number ends where it did if what follows it is something else that continues it. -/
theorem takeWhile_continues {keep : Char → Bool} (space : keep ' ' = false)
    (backslash : keep '\\' = false) {count : Nat} {rest other : List Char}
    (continues : Continues (rest.drop ((rest.take count).takeWhile keep).length) other) :
    (((rest.take count).takeWhile keep ++ other).take count).takeWhile keep =
      (rest.take count).takeWhile keep := by
  have ends {rest : List Char} (stops : ∀ c ∈ rest.head?, keep c = false)
      (continues : Continues rest other) (count : Nat) :
      (other.take count).takeWhile keep = [] := by
    cases other with
    | nil => simp
    | cons c other =>
      cases count with
      | zero => rfl
      | succ count =>
        have other : keep c = false := by
          obtain rfl | rfl | same := continues c rfl
          · exact space
          · exact backslash
          · exact stops c same
        rw [List.take_succ_cons, List.takeWhile_cons_of_neg (by simp [other])]
  induction rest generalizing count with
  | nil =>
    simp only [List.take_nil, List.takeWhile_nil, List.nil_append] at *
    exact ends (by simp) continues count
  | cons c rest ih =>
    cases count with
    | zero => rfl
    | succ count =>
      by_cases digit : keep c
      · rw [List.take_succ_cons, List.takeWhile_cons_of_pos digit] at continues ⊢
        rw [List.cons_append, List.take_succ_cons, List.takeWhile_cons_of_pos digit, ih continues]
      · rw [List.take_succ_cons, List.takeWhile_cons_of_neg digit] at continues ⊢
        exact ends (by simpa using digit) continues (count + 1)

variable {c : Char} {shown : List Char}

theorem Chunk.plain (ordinary : c ≠ '\\') (rest : List Char) : Chunk [c] [c] rest where
  shows other _ := by
    change interpret (c :: other) = c :: interpret other
    rw [interpret.eq_def]
    exact if_neg ordinary
  uncut other := cut_cons ordinary other

/-- An escape that needs nothing behind it. -/
theorem Chunk.simple (going : c ≠ 'c')
    (shows : ∀ other, interpret ('\\' :: c :: other) = shown ++ interpret other)
    (rest : List Char) : Chunk ['\\', c] shown rest where
  shows other _ := shows other
  uncut other := cut_escape going other

/-- An escape that takes some digits behind it for a number. -/
theorem Chunk.number {keep : Char → Bool} (value : List Char → Char) {count : Nat}
    (space : keep ' ' = false) (backslash : keep '\\' = false) (going : c ≠ 'c')
    (shows : ∀ other, interpret ('\\' :: c :: other) =
      value ((other.take count).takeWhile keep) ::
        interpret (other.drop ((other.take count).takeWhile keep).length)) (rest : List Char) :
    Chunk ('\\' :: c :: (rest.take count).takeWhile keep) [value ((rest.take count).takeWhile keep)]
      (rest.drop ((rest.take count).takeWhile keep).length) where
  shows other continues := by
    rw [List.cons_append, List.cons_append, shows, takeWhile_continues space backslash continues,
      List.drop_left, List.singleton_append]
  uncut other := by
    have digits : '\\' ∉ (rest.take count).takeWhile keep := by
      intro member
      have digit := List.all_eq_true.mp List.all_takeWhile _ member
      rw [backslash] at digit
      cases digit
    rw [List.cons_append, List.cons_append, cut_escape going, cut_append digits, List.cons_append,
      List.cons_append]

/-- Texts are empty, a lone backslash, ended at once, or a chunk in front of another text. -/
theorem chunks_induction {holds : List Char → Prop} (nil : holds []) (lone : holds ['\\'])
    (stop : ∀ more, holds ('\\' :: 'c' :: more))
    (step : ∀ chunk shown rest, Chunk chunk shown rest → holds rest → holds (chunk ++ rest))
    (text : List Char) : holds text := by
  have number {c : Char} {count : Nat} {keep : Char → Bool} {value : List Char → Char}
      {rest : List Char} (chunk : Chunk ('\\' :: c :: (rest.take count).takeWhile keep)
        [value ((rest.take count).takeWhile keep)]
        (rest.drop ((rest.take count).takeWhile keep).length))
      (later : holds (rest.drop ((rest.take count).takeWhile keep).length)) :
      holds ('\\' :: c :: rest) := by
    have prefixed : (rest.take count).takeWhile keep <+: rest :=
      (List.takeWhile_prefix keep).trans (List.take_prefix count rest)
    have split := step _ _ _ chunk later
    rwa [List.cons_append, List.cons_append, List.prefix_iff_eq_append.mp prefixed] at split
  fun_induction interpret text with
  | case1 => exact nil
  | case2 => exact lone
  | case3 rest digits ih =>
    refine number (.number octal rfl rfl (by decide) (fun other => ?_) rest) ih
    rw [interpret, if_pos rfl, if_pos rfl]
  | case4 rest digits different ih =>
    refine number (.number hexadecimal rfl rfl (by decide) (fun other => ?_) rest) ih
    rw [interpret, if_pos rfl, if_neg different, if_pos rfl]
  | case5 rest => exact stop rest
  | case6 escape rest octal hexadecimal going plain stands ih =>
    refine step _ [plain] _ (.simple going (fun other => ?_) rest) ih
    rw [interpret, if_pos rfl, if_neg octal, if_neg hexadecimal, if_neg going, stands]
    rfl
  | case7 escape rest octal hexadecimal going unknown ih =>
    refine step _ ['\\', escape] _ (.simple going (fun other => ?_) rest) ih
    rw [interpret, if_pos rfl, if_neg octal, if_neg hexadecimal, if_neg going, unknown]
    rfl
  | case8 c rest ordinary ih => exact step _ _ _ (.plain ordinary rest) ih

end Chunks

section Joints

theorem continues_append (rest second : List Char) : Continues rest (rest ++ ' ' :: second) := by
  intro c begins
  cases rest with
  | nil => exact .inl (Option.some.inj begins).symm
  | cons d rest => exact .inr (.inr begins)

theorem continues_self (rest : List Char) : Continues rest rest :=
  fun _ begins => .inr (.inr begins)

/-- What follows a text and a space is interpreted by itself, unless the text is ended. -/
theorem interpret_append (first second : List Char) :
    interpret (first ++ ' ' :: second) =
      interpret first ++ if cut first = first then ' ' :: interpret second else [] := by
  induction first using chunks_induction with
  | nil =>
    have space : Chunk [' '] [' '] second := .plain (by decide) second
    simpa [interpret, cut] using space.shows second (continues_self second)
  | lone =>
    change interpret ('\\' :: ' ' :: second) = _
    rw [interpret]
    simp [simpleEscape?, interpret, cut]
  | stop more =>
    rw [List.cons_append, List.cons_append, interpret, if_pos rfl, interpret, if_pos rfl]
    simp [cut]
  | step front shown rest chunk ih =>
    rw [List.append_assoc, chunk.shows _ (continues_append rest second), ih,
      chunk.shows _ (continues_self rest), chunk.uncut, List.append_assoc]
    simp only [List.append_cancel_left_eq]

/-- Nothing behind the escape that ends a text is interpreted. -/
theorem interpret_cut (text : List Char) : interpret (cut text) = interpret text := by
  induction text using chunks_induction with
  | nil | lone => rfl
  | stop more => simp [cut, interpret]
  | step front shown rest chunk ih =>
    rw [chunk.uncut, chunk.shows _ (continues_cut rest), chunk.shows _ (continues_self rest), ih]

theorem cut_cut (text : List Char) : cut (cut text) = cut text := by
  induction text using chunks_induction with
  | nil | lone => rfl
  | stop more => rfl
  | step front shown rest chunk ih => rw [chunk.uncut, chunk.uncut, ih]

/-- A text without a backslash is shown as it is. -/
theorem interpret_eq_self {text : List Char} (ordinary : '\\' ∉ text) : interpret text = text := by
  induction text with
  | nil => rw [interpret]
  | cons c rest ih =>
    obtain ⟨here, later⟩ := not_or.mp (mt List.mem_cons.mpr ordinary)
    have shows := (Chunk.plain (Ne.symm here) rest).shows rest (continues_self rest)
    rw [List.singleton_append] at shows
    rw [shows, ih later, List.singleton_append]

/-- Interpreting texts with spaces between them is interpreting each of them, just when none but the
last is ended by an escape. -/
theorem interpret_intercalate_iff (texts : List (List Char)) :
    interpret ([' '].intercalate texts) = [' '].intercalate (texts.map interpret) ↔
      ∀ text ∈ texts.dropLast, cut text = text := by
  induction texts with
  | nil => simp [interpret]
  | cons text rest ih =>
    cases rest with
    | nil => simp
    | cons next rest =>
      rw [List.intercalate_cons_cons, List.append_assoc, List.singleton_append, interpret_append,
        List.map_cons, List.map_cons, List.intercalate_cons_cons, List.append_assoc,
        List.singleton_append, List.append_cancel_left_eq, List.dropLast_cons_cons,
        List.forall_mem_cons, ← ih, ← List.map_cons]
      by_cases whole : cut text = text
      · rw [if_pos whole, List.cons_inj_right, and_iff_right whole]
      · rw [if_neg whole]
        exact iff_of_false (List.cons_ne_nil _ _).symm fun both => whole both.1

end Joints

section Options

variable {args : List String}

/-- Where no option is in front, all arguments are texts. -/
theorem options_eq (operand : ∀ first ∈ args.head?, first ∉ ["-n", "-e", "-E"]) (escapes : Bool) :
    options escapes args = (escapes, args) := by
  cases args with
  | nil => rfl
  | cons first rest =>
    have other := operand first rfl
    simp only [List.mem_cons, List.not_mem_nil, or_false, not_or] at other
    rw [options, if_neg other.1, if_neg other.2.1, if_neg other.2.2]

end Options

/-- The interpretation of a text. -/
def interpreted (text : String) : String :=
  String.ofList (interpret text.toList)

/-- The text in front of the escape that ends it. -/
def upToStop (text : String) : String :=
  String.ofList (cut text.toList)

theorem interpreted_intercalate_iff (args : List String) :
    interpreted (" ".intercalate args) = " ".intercalate (args.map interpreted) ↔
      ∀ arg ∈ args.dropLast, upToStop arg = arg := by
  have texts := interpret_intercalate_iff (args.map String.toList)
  rw [← String.toList_inj, interpreted, String.toList_ofList, String.toList_intercalate,
    String.toList_intercalate]
  have each :
      (args.map interpreted).map String.toList = (args.map String.toList).map interpret := by
    simp [interpreted]
  rw [each]
  refine texts.trans ?_
  rw [← List.map_dropLast, List.forall_mem_map]
  simp [upToStop, ← String.toList_inj]

theorem interpreted_upToStop (text : String) : interpreted (upToStop text) = interpreted text := by
  rw [interpreted, upToStop, String.toList_ofList, interpret_cut, interpreted]

theorem upToStop_upToStop (text : String) : upToStop (upToStop text) = upToStop text := by
  rw [upToStop, upToStop, String.toList_ofList, cut_cut]

end Echo

open Echo (upToStop interpreted)

variable {args : List String}

/-- The arguments are interpreted one by one. -/
theorem echo_escapes (operand : ∀ first ∈ args.head?, first ∉ ["-n", "-e", "-E"]) :
    echo ("-e" :: args) = .ok (" ".intercalate (args.map interpreted)) := by
  have read : Echo.options false ("-e" :: args) = (true, args) := Echo.options_eq operand true
  rw [echo, read]
  rfl

theorem echo_plain (operand : ∀ first ∈ args.head?, first ∉ ["-n", "-e", "-E"]) :
    echo args = .ok (" ".intercalate args) := by
  rw [echo, Echo.options_eq operand]
  rfl

/-- Interpreting the arguments one by one is interpreting them joined with spaces just when none
but the last holds an escape that ends it. What is printed is always the interpretation of the
joined arguments after each of them has been cut off where it is ended. Without backslashes nothing
is to be interpreted. -/
theorem escapes_joined_iff (args : List String)
    (operand : ∀ first ∈ args.head?, first ∉ ["-n", "-e", "-E"]) :
    (echo ("-e" :: args) = .ok (interpreted (" ".intercalate args)) ↔
        ∀ arg ∈ args.dropLast, upToStop arg = arg) ∧
      echo ("-e" :: args) = .ok (interpreted (" ".intercalate (args.map upToStop))) ∧
      ((∀ arg ∈ args, '\\' ∉ arg.toList) → echo ("-e" :: args) = echo args) := by
  have printed := echo_escapes operand
  refine ⟨?_, ?_, fun ordinary => ?_⟩
  · rw [printed, ← Echo.interpreted_intercalate_iff, eq_comm]
    simp [Printed.ok]
  · have whole : ∀ arg ∈ (args.map upToStop).dropLast, upToStop arg = arg := by
      rw [← List.map_dropLast, List.forall_mem_map]
      exact fun arg _ => Echo.upToStop_upToStop arg
    rw [(Echo.interpreted_intercalate_iff _).mpr whole, List.map_map, printed]
    simp [Function.comp_def, Echo.interpreted_upToStop]
  · have same : ∀ arg ∈ args, interpreted arg = arg := fun arg among => by
      rw [interpreted, Echo.interpret_eq_self (ordinary arg among), String.ofList_toList]
    rw [printed, echo_plain operand, List.map_congr_left same, List.map_id']

/-- At the joints stand unfinished numbers and a lone backslash, and the last argument is ended. -/
theorem escapes_joined_iff_joints :
    let args := ["a\\x4", "1\\0", "1\\", "c\\cd"]
    (∀ first ∈ args.head?, first ∉ ["-n", "-e", "-E"]) ∧
      echo ("-e" :: args) = .ok "a\x04 1\x00 1\\ c" := by
  intro args
  have operand : ∀ first ∈ args.head?, first ∉ ["-n", "-e", "-E"] := by decide
  have joined := (escapes_joined_iff args operand).1.mpr (by decide)
  exact ⟨operand, joined.trans (by decide +kernel)⟩

/-- A stop in an argument does not keep the next one from being printed. -/
theorem stop_ends_one_argument :
    echo ["-e", "a\\c", "b"] = .ok "a b" ∧
      interpreted (" ".intercalate ["a\\c", "b"]) = "a" := by
  decide +kernel

end StepShell.Command

import StepShell.Proofs.Token.Extent
import StepShell.Proofs.Word.Marker
import StepShell.Proofs.Word.Segments
import StepShell.Word.Quote

/-! The text of a word written as shell source and read again. What comes back is the text without
the backslashes that double quotes have no use for, provided that each dollar sign in it begins
there what it begins in the text. -/

namespace StepShell

namespace Word

/-- Copy a text with its substitutions as they are: what a backslash guards and what stands for
itself are each written in a way of their own. -/
def recast (guarded plain : Char → List Char) : List Char → List Char
  | [] => []
  | '\\' :: c :: rest => guarded c ++ recast guarded plain rest
  | '$' :: '(' :: rest =>
    let text := '(' :: rest
    '$' :: text.take (groupLength text) ++ recast guarded plain (text.drop (groupLength text))
  | c :: rest => plain c ++ recast guarded plain rest
termination_by text => text.length
decreasing_by all_goals simp only [List.length_cons, List.length_drop]; omega

/-- How a guarded character is written, between double quotes or bare. -/
def guardedForm (quoted : Bool) (c : Char) : List Char :=
  if quoted && !(isSpecial c || c == '"') then [c] else ['\\', c]

def plainForm (quoted : Bool) (c : Char) : List Char :=
  if quoted && c == '"' then ['\\', c] else [c]

/-- A text as it stands between double quotes or bare. -/
def written (quoted : Bool) : List Char → List Char :=
  recast (guardedForm quoted) (plainForm quoted)

/-- What a guarded character is once it is read again. -/
def keptForm (quoted : Bool) (c : Char) : List Char :=
  if quoted && !isSpecial c then [c] else ['\\', c]

/-- What a text is once it is written and read again. -/
def spoken (quoted : Bool) : List Char → List Char :=
  recast (keptForm quoted) fun c => [c]

/-- The text without the backslashes before characters that need none. -/
def essential : List Char → List Char :=
  spoken true

/-- Whether a text has to be written between double quotes. -/
def breaks (text : List Char) : Bool :=
  text.isEmpty || text.any breaksWord

/-- The text of the substitution that a piece is. -/
def Piece.body? : Piece → Option (List Char)
  | .substitution body _ _ => some body
  | _ => none

/-- The texts of the substitutions that are recorded for a word, in their order. -/
def bodies (word : Word) : List (List Char) :=
  word.pieces.filterMap Piece.body?

theorem bodies_append (first second : Word) :
    (first ++ second).bodies = first.bodies ++ second.bodies :=
  List.filterMap_append

theorem unplaced_bodies (word : Word) : word.unplaced.bodies = word.bodies := by
  rw [bodies, unplaced, List.filterMap_map]
  refine List.filterMap_congr fun piece _ => ?_
  cases piece <;> rfl

/-- The texts of the substitutions that a text shows, in their order. -/
def groups : List Char → List (List Char)
  | [] => []
  | '\\' :: _ :: rest => groups rest
  | '$' :: '(' :: rest =>
    match closingParen? 0 .plain rest with
    | some length => rest.take length :: groups (rest.drop (length + 1))
    | none => []
  | _ :: rest => groups rest
termination_by text => text.length
decreasing_by all_goals simp only [List.length_cons, List.length_drop]; omega

theorem ne_of_isNameStart {first c : Char} (start : Lexer.isNameStart first = true)
    (other : Lexer.isNameStart c = false) : first ≠ c := by
  rintro rfl
  rw [start] at other
  cases other

theorem ordinary_of_isName {first : Char} {name : List Char}
    (start : Lexer.isNameStart first = true) (named : name.all Lexer.isNameChar = true) :
    ∀ c ∈ first :: name, isSpecial c = false ∧ c ≠ '"' := by
  intro c member
  have inName : Lexer.isNameChar c = true := by
    rcases List.mem_cons.mp member with rfl | member
    · exact Expansion.isNameChar_of_isNameStart start
    · exact List.all_eq_true.mp named c member
  constructor
  · rw [← Bool.not_eq_true]
    intro special
    simp only [isSpecial, Bool.or_eq_true, beq_iff_eq] at special
    rcases special with (rfl | rfl) | rfl <;> exact absurd inName (by decide)
  · rintro rfl
    exact absurd inName (by decide)

theorem ne_of_isSpecialParameter {parameter c : Char}
    (special : Lexer.isSpecialParameter parameter = true)
    (other : Lexer.isSpecialParameter c = false) : parameter ≠ c := by
  rintro rfl
  rw [special] at other
  cases other

theorem head_ne_of_not_mem {c : Char} {text rest : List Char} (absent : c ∉ text)
    (next : rest.head? ≠ some c) : (text ++ rest).head? ≠ some c := by
  cases text with
  | nil => exact next
  | cons d text =>
    rintro same
    exact absent (List.mem_cons.mpr (.inl (Option.some.inj same).symm))

section recast
variable {guarded plain : Char → List Char} {c : Char} {rest : List Char}

theorem recast_nil : recast guarded plain [] = [] := by
  rw [recast]

theorem recast_escaped (c : Char) (rest : List Char) :
    recast guarded plain ('\\' :: c :: rest) = guarded c ++ recast guarded plain rest := by
  rw [recast]

theorem recast_cons (backslash : c ≠ '\\') (group : c = '$' → rest.head? ≠ some '(') :
    recast guarded plain (c :: rest) = plain c ++ recast guarded plain rest := by
  rw [recast]
  · rintro _ _ rfl _
    exact backslash rfl
  · rintro tail rfl rfl
    exact group rfl rfl

theorem recast_plain (ordinary : isSpecial c = false) :
    recast guarded plain (c :: rest) = plain c ++ recast guarded plain rest := by
  simp only [isSpecial, Bool.or_eq_false_iff, beq_eq_false_iff_ne] at ordinary
  exact recast_cons ordinary.2 fun dollar => absurd dollar ordinary.1.1

theorem recast_group {body : List Char} (balanced : Balanced body) (rest : List Char) :
    recast guarded plain ('$' :: '(' :: (body ++ ')' :: rest)) =
      '$' :: '(' :: (body ++ ')' :: recast guarded plain rest) := by
  have ends : groupLength ('(' :: (body ++ ')' :: rest)) = body.length + 2 := by
    rw [groupLength, groupEnd?, (balanced_iff rest).mp balanced]
    rfl
  have split : '(' :: (body ++ ')' :: rest) = ('(' :: body ++ [')']) ++ rest := by simp
  rw [recast, ends, split, List.take_left' (by simp), List.drop_left' (by simp)]
  simp

/-- Characters that stand for themselves are written one by one. -/
theorem recast_run {inside : List Char} (selves : ∀ c ∈ inside, plain c = [c])
    (backslash : '\\' ∉ inside) (paren : '(' ∉ inside) (next : rest.head? ≠ some '(') :
    recast guarded plain (inside ++ rest) = inside ++ recast guarded plain rest := by
  induction inside with
  | nil => rfl
  | cons c inside ih =>
    obtain ⟨other, escapes⟩ := List.ne_and_not_mem_of_not_mem_cons backslash
    obtain ⟨-, opens⟩ := List.ne_and_not_mem_of_not_mem_cons paren
    obtain ⟨self, others⟩ := List.forall_mem_cons.mp selves
    rw [List.cons_append, recast_cons other.symm fun _ => head_ne_of_not_mem opens next, self,
      ih others escapes opens]
    rfl

/-- What is written the same wherever it stands. -/
theorem recast_ordinary {run : List Char} (selves : ∀ c, c ≠ '"' → plain c = [c])
    (ordinary : ∀ c ∈ run, isSpecial c = false ∧ c ≠ '"') :
    recast guarded plain (run ++ rest) = run ++ recast guarded plain rest := by
  induction run with
  | nil => rfl
  | cons c run ih =>
    obtain ⟨⟨here, quote⟩, later⟩ := List.forall_mem_cons.mp ordinary
    rw [List.cons_append, recast_plain here, selves c quote, ih later]
    rfl

section selves
variable (selves : ∀ c, c ≠ '"' → plain c = [c])
include selves

theorem recast_lone (alone : rest.head? ≠ some '(') :
    recast guarded plain ('$' :: rest) = '$' :: recast guarded plain rest := by
  rw [recast_cons (by decide) fun _ => alone, selves '$' (by decide)]
  rfl

theorem recast_braced {inside : List Char}
    (copied : '\\' ∉ inside ∧ '"' ∉ inside ∧ '(' ∉ inside) :
    recast guarded plain ('$' :: '\x7b' :: (inside ++ '\x7d' :: rest)) =
      '$' :: '\x7b' :: (inside ++ '\x7d' :: recast guarded plain rest) := by
  obtain ⟨backslash, quote, paren⟩ := copied
  rw [recast_lone selves (by simp), recast_plain (by decide), selves _ (by decide),
    recast_run (fun c member => selves c fun same => quote (same ▸ member)) backslash paren
      (by simp), recast_plain (by decide), selves _ (by decide)]
  rfl

theorem recast_named {first : Char} {name : List Char} (start : Lexer.isNameStart first = true)
    (named : name.all Lexer.isNameChar = true) :
    recast guarded plain ('$' :: (first :: name ++ rest)) =
      '$' :: (first :: name ++ recast guarded plain rest) := by
  have paren := ne_of_isNameStart start (rfl : Lexer.isNameStart '(' = false)
  rw [recast_lone selves (by simpa using paren),
    recast_ordinary selves (ordinary_of_isName start named)]

theorem recast_special (parameter : Lexer.isSpecialParameter c = true)
    (apart : c = '$' → rest.head? ≠ some '(') :
    recast guarded plain ('$' :: c :: rest) = '$' :: c :: recast guarded plain rest := by
  have other {d : Char} (wrong : Lexer.isSpecialParameter d = false) : c ≠ d :=
    ne_of_isSpecialParameter parameter wrong
  rw [recast_lone selves (by simpa using other (d := '(') rfl),
    recast_cons (other rfl) apart, selves c (other rfl)]
  rfl

end selves

theorem recast_self (text : List Char) :
    recast (fun c => ['\\', c]) (fun c => [c]) text = text := by
  fun_induction recast (fun c => ['\\', c]) (fun c => [c]) text with
  | case1 => rfl
  | case2 c rest ih => rw [ih]; rfl
  | case3 rest text ih =>
    rw [ih, List.cons_append, List.take_append_drop]
  | case4 c rest _ _ ih => rw [ih]; rfl

end recast

section groups
variable {c : Char} {rest run : List Char}

theorem groups_escaped (c : Char) (rest : List Char) : groups ('\\' :: c :: rest) = groups rest := by
  rw [groups]

theorem groups_cons (backslash : c ≠ '\\') (group : c = '$' → rest.head? ≠ some '(') :
    groups (c :: rest) = groups rest := by
  rw [groups]
  · rintro _ _ rfl _
    exact backslash rfl
  · rintro tail rfl rfl
    exact group rfl rfl

theorem groups_plain (ordinary : isSpecial c = false) : groups (c :: rest) = groups rest := by
  simp only [isSpecial, Bool.or_eq_false_iff, beq_eq_false_iff_ne] at ordinary
  exact groups_cons ordinary.2 fun dollar => absurd dollar ordinary.1.1

/-- Without parentheses and backslashes there are no groups. -/
theorem groups_run (backslash : '\\' ∉ run) (paren : '(' ∉ run) (next : rest.head? ≠ some '(') :
    groups (run ++ rest) = groups rest := by
  induction run with
  | nil => rfl
  | cons c run ih =>
    obtain ⟨other, escapes⟩ := List.ne_and_not_mem_of_not_mem_cons backslash
    obtain ⟨-, opens⟩ := List.ne_and_not_mem_of_not_mem_cons paren
    rw [List.cons_append, groups_cons other.symm fun _ => head_ne_of_not_mem opens next,
      ih escapes opens]

theorem groups_ordinary (ordinary : ∀ c ∈ run, isSpecial c = false) :
    groups (run ++ rest) = groups rest := by
  induction run with
  | nil => rfl
  | cons c run ih =>
    obtain ⟨here, later⟩ := List.forall_mem_cons.mp ordinary
    rw [List.cons_append, groups_plain here, ih later]

theorem groups_lone (alone : rest.head? ≠ some '(') : groups ('$' :: rest) = groups rest :=
  groups_cons (by decide) fun _ => alone

theorem groups_braced {inside : List Char} (backslash : '\\' ∉ inside) (paren : '(' ∉ inside) :
    groups ('$' :: '\x7b' :: (inside ++ '\x7d' :: rest)) = groups rest := by
  rw [groups_lone (by simp), groups_plain (by decide), groups_run backslash paren (by simp),
    groups_plain (by decide)]

theorem groups_named {first : Char} {name : List Char} (start : Lexer.isNameStart first = true)
    (named : name.all Lexer.isNameChar = true) :
    groups ('$' :: (first :: name ++ rest)) = groups rest := by
  have paren := ne_of_isNameStart start (rfl : Lexer.isNameStart '(' = false)
  rw [groups_lone (by simpa using paren),
    groups_ordinary fun c member => (ordinary_of_isName start named c member).1]

theorem groups_special (parameter : Lexer.isSpecialParameter c = true)
    (apart : c = '$' → rest.head? ≠ some '(') : groups ('$' :: c :: rest) = groups rest := by
  have other {d : Char} (wrong : Lexer.isSpecialParameter d = false) : c ≠ d :=
    ne_of_isSpecialParameter parameter wrong
  rw [groups_lone (by simpa using other (d := '(') rfl), groups_cons (other rfl) apart]

theorem groups_group {body : List Char} (balanced : Balanced body) (rest : List Char) :
    groups ('$' :: '(' :: (body ++ ')' :: rest)) = body :: groups rest := by
  have whole : body ++ ')' :: rest = (body ++ [')']) ++ rest := by simp
  rw [groups, (balanced_iff rest).mp balanced]
  dsimp only
  rw [List.take_left, whole, List.drop_left' (by simp)]

theorem groups_eq_nil {text : List Char} (paren : '(' ∉ text) : groups text = [] := by
  fun_induction groups text with
  | case1 => rfl
  | case2 c rest ih =>
    exact ih fun member => paren (List.mem_cons_of_mem _ (List.mem_cons_of_mem _ member))
  | case3 | case4 => exact absurd (List.mem_cons_of_mem _ List.mem_cons_self) paren
  | case5 c rest _ _ ih => exact ih fun member => paren (List.mem_cons_of_mem _ member)

/-- What needs no quotes shows no substitution. -/
theorem groups_of_unbroken {text : List Char} (unbroken : breaks text = false) :
    groups text = [] := by
  refine groups_eq_nil fun member => ?_
  exact List.any_eq_false.mp (Bool.or_eq_false_iff.mp unbroken).2 _ member (by decide)

end groups

theorem quotedInside_eq (text : List Char) : quotedInside text = written true text := by
  unfold written
  fun_induction quotedInside text with
  | case1 => rw [recast_nil]
  | case2 c rest ih =>
    rw [recast_escaped, ih]
    simp only [guardedForm, Bool.true_and, Bool.not_eq_true', ← Bool.not_eq_true]
    split <;> simp_all
  | case3 rest text ih => rw [recast, ih]
  | case4 rest _ _ ih =>
    rw [recast_plain (by decide), ih]
    rfl
  | case5 c rest guards group other ih =>
    rw [recast, ih, plainForm, if_neg (by simp [other])]
    · rfl
    · exact guards
    · exact group

@[simp] theorem written_bare (text : List Char) : written false text = text :=
  recast_self text

@[simp] theorem spoken_bare (text : List Char) : spoken false text = text :=
  recast_self text

theorem quoteChars_eq (text : List Char) : quoteChars text =
    if breaks text then '"' :: (written true text ++ ['"']) else written false text := by
  rw [quoteChars, quotedInside_eq, written_bare, breaks]
  rfl

theorem plainForm_self (quoted : Bool) (c : Char) (other : c ≠ '"') :
    plainForm quoted c = [c] := by
  rw [plainForm, if_neg (by simp [other])]

/-- Texts that keep their parameters and substitutions when they are written: a dollar sign begins
nothing else then, the name behind it does not go on, and what stands in braces needs no backslash.
The text of each substitution is `held`. -/
inductive Spelled (held : List Char → Prop) (quoted : Bool) : List Char → Prop where
  | nil : Spelled held quoted []
  | plain {c : Char} {rest : List Char} (ordinary : isSpecial c = false)
      (later : Spelled held quoted rest) : Spelled held quoted (c :: rest)
  | escaped {c : Char} {rest : List Char} (later : Spelled held quoted rest) :
      Spelled held quoted ('\\' :: c :: rest)
  | lone {rest : List Char} (idle : (written quoted rest).head?.any follows = false)
      (later : Spelled held quoted rest) : Spelled held quoted ('$' :: rest)
  | braced {inside rest : List Char} (absent : '\x7d' ∉ inside)
      (copied : quoted = true → '\\' ∉ inside ∧ '"' ∉ inside ∧ '(' ∉ inside)
      (later : Spelled held quoted rest) :
      Spelled held quoted ('$' :: '\x7b' :: (inside ++ '\x7d' :: rest))
  | named {first : Char} {name rest : List Char} (start : Lexer.isNameStart first = true)
      (named : name.all Lexer.isNameChar = true)
      (ends : (written quoted rest).head?.any Lexer.isNameChar = false)
      (later : Spelled held quoted rest) : Spelled held quoted ('$' :: (first :: name ++ rest))
  | special {c : Char} {rest : List Char} (parameter : Lexer.isSpecialParameter c = true)
      (apart : c = '$' → (written quoted rest).head? ≠ some '(')
      (later : Spelled held quoted rest) : Spelled held quoted ('$' :: c :: rest)
  | substitution {body rest : List Char} (balanced : Balanced body) (holds : held body)
      (later : Spelled held quoted rest) :
      Spelled held quoted ('$' :: '(' :: (body ++ ')' :: rest))

section Spelled
variable {held : List Char → Prop} {quoted : Bool} {text rest : List Char}

theorem head_recast {guarded plain : Char → List Char} (paren : plain '(' = ['('])
    (opens : rest.head? = some '(') : (recast guarded plain rest).head? = some '(' := by
  obtain ⟨tail, rfl⟩ := List.head?_eq_some_iff.mp opens
  rw [recast_plain (by decide), paren]
  rfl

theorem head_spoken (quoted : Bool) (text : List Char) :
    (spoken quoted text).head? = (written quoted text).head? ∨
      (spoken quoted text).head? = some '"' := by
  unfold spoken written
  fun_induction recast (keptForm quoted) (fun c => [c]) text with
  | case1 => exact .inl (by rw [recast_nil])
  | case2 c rest =>
    rw [recast_escaped]
    by_cases quote : c = '"'
    · subst quote
      cases quoted
      · exact .inl rfl
      · exact .inr rfl
    · refine .inl ?_
      simp only [keptForm, guardedForm, quote, Bool.or_false, beq_eq_false_iff_ne.mpr,
        ne_eq, not_false_eq_true]
      split <;> rfl
  | case3 rest text =>
    rw [recast]
    exact .inl rfl
  | case4 c rest guards group =>
    rw [recast]
    · by_cases quote : c = '"'
      · exact .inr (congrArg some quote)
      · exact .inl (by simp [plainForm, quote])
    · exact guards
    · exact group

theorem head_ne_paren (apart : (written quoted rest).head? ≠ some '(') :
    rest.head? ≠ some '(' ∧ (spoken quoted rest).head? ≠ some '(' := by
  refine ⟨fun opens => apart (head_recast ?_ opens), ?_⟩
  · rw [plainForm]
    cases quoted <;> rfl
  · rcases head_spoken quoted rest with same | quote
    · rwa [same]
    · rw [quote]
      decide

theorem head_ne_of_idle (idle : (written quoted rest).head?.any follows = false) :
    (written quoted rest).head? ≠ some '(' := by
  intro opens
  rw [opens] at idle
  cases idle

/-- A text that was written and read is as good as the text itself, wherever what it lost is of no
account. -/
theorem Spelled.recast_spoken {guarded plain kept : Char → List Char}
    (spelled : Spelled held true text) (special : ∀ c, isSpecial c = true → guarded c = kept c)
    (bare : ∀ c, isSpecial c = false → plain c = kept c)
    (selves : ∀ c, c ≠ '"' → plain c = [c]) :
    recast guarded plain (spoken true text) = recast kept plain text := by
  have each (c : Char) (_ : c ≠ '"') : (fun c : Char => [c]) c = [c] := rfl
  induction spelled with
  | nil => rw [spoken, recast_nil, recast_nil, recast_nil]
  | @plain c rest ordinary _ ih =>
    rw [spoken, recast_plain ordinary, recast_plain ordinary, ← ih, List.singleton_append,
      recast_plain ordinary]
    rfl
  | @escaped c rest _ ih =>
    rw [spoken, recast_escaped, recast_escaped, ← ih]
    cases guards : isSpecial c with
    | true =>
      rw [keptForm, guards, ← special c guards]
      exact recast_escaped _ _
    | false =>
      rw [keptForm, guards, ← bare c guards]
      exact recast_plain guards
  | lone idle _ ih =>
    obtain ⟨here, there⟩ := head_ne_paren (head_ne_of_idle idle)
    rw [spoken, recast_lone each here, recast_lone selves here, ← ih]
    exact recast_lone selves there
  | braced absent copied _ ih =>
    rw [spoken, recast_braced each (copied rfl), recast_braced selves (copied rfl),
      recast_braced selves (copied rfl), ← ih]
    rfl
  | named start named ends _ ih =>
    rw [spoken, recast_named each start named, recast_named selves start named,
      recast_named selves start named, ← ih]
    rfl
  | special parameter apart _ ih =>
    rw [spoken, recast_special each parameter fun same => (head_ne_paren (apart same)).1,
      recast_special selves parameter fun same => (head_ne_paren (apart same)).1, ← ih]
    exact recast_special selves parameter fun same => (head_ne_paren (apart same)).2
  | substitution balanced _ _ ih =>
    rw [spoken, recast_group balanced, recast_group balanced, recast_group balanced, ← ih]
    rfl

theorem Spelled.written_spoken (spelled : Spelled held quoted text) :
    written quoted (spoken quoted text) = written quoted text := by
  cases quoted with
  | false => rw [spoken_bare]
  | true =>
    refine spelled.recast_spoken (fun _ _ => rfl) (fun c ordinary => ?_) fun c other => ?_
    · simp only [plainForm, guardedForm, ordinary, Bool.false_or, Bool.true_and, beq_iff_eq,
        Bool.not_eq_true', beq_eq_false_iff_ne, ite_not]
    · exact plainForm_self true c other

theorem Spelled.essential_spoken (spelled : Spelled held quoted text) :
    essential (spoken quoted text) = essential text := by
  cases quoted with
  | false => rw [spoken_bare]
  | true =>
    refine spelled.recast_spoken (fun _ _ => rfl) (fun c ordinary => ?_) fun _ _ => rfl
    rw [keptForm, ordinary]
    rfl

theorem any_breaksWord_essential (text : List Char) :
    (essential text).any breaksWord = text.any breaksWord := by
  unfold essential spoken
  fun_induction recast (keptForm true) (fun c => [c]) text with
  | case1 => rfl
  | case2 c rest ih =>
    have backslash : breaksWord '\\' = false := by decide
    rw [List.any_append, ih, List.any_cons, List.any_cons, backslash, Bool.false_or]
    congr 1
    rw [keptForm]
    split <;> simp [backslash]
  | case3 rest text ih =>
    rw [List.any_append, ih, List.any_cons, List.any_cons, Bool.or_assoc, ← List.any_append,
      List.take_append_drop]
  | case4 c rest _ _ ih => rw [List.any_append, ih]; simp

theorem breaks_spoken (text : List Char) : breaks (spoken (breaks text) text) = breaks text := by
  cases broken : breaks text with
  | false => rw [spoken_bare, broken]
  | true =>
    rcases Bool.or_eq_true_iff.mp broken with empty | some
    · obtain rfl := List.isEmpty_iff.mp empty
      rw [spoken, recast_nil]
      rfl
    · rw [breaks, show spoken true text = essential text from rfl, any_breaksWord_essential, some,
        Bool.or_true]

theorem Spelled.groups_held (spelled : Spelled held true text) : ∀ body ∈ groups text, held body := by
  induction spelled with
  | nil => simp [groups]
  | plain ordinary _ ih => rwa [groups_plain ordinary]
  | escaped _ ih => rwa [groups_escaped]
  | lone idle _ ih => rwa [groups_lone (head_ne_paren (head_ne_of_idle idle)).1]
  | braced absent copied _ ih => rwa [groups_braced (copied rfl).1 (copied rfl).2.2]
  | named start named _ _ ih => rwa [groups_named start named]
  | special parameter apart _ ih =>
    rwa [groups_special parameter fun same => (head_ne_paren (apart same)).1]
  | substitution balanced holds _ ih =>
    rw [groups_group balanced]
    exact List.forall_mem_cons.mpr ⟨holds, ih⟩

/-- The substitutions that a text shows are the ones in it, quoted or bare. -/
theorem Spelled.bodies_held (spelled : Spelled held (breaks text) text) :
    ∀ body ∈ groups text, held body := by
  cases broken : breaks text with
  | false => simp [groups_of_unbroken broken]
  | true =>
    rw [broken] at spelled
    exact spelled.groups_held

/-- A text is written the same once it has been read again. -/
theorem Spelled.quoteChars_spoken (spelled : Spelled held (breaks text) text) :
    quoteChars (spoken (breaks text) text) = quoteChars text := by
  rw [quoteChars_eq, quoteChars_eq, breaks_spoken]
  cases broken : breaks text with
  | false => rw [spoken_bare]
  | true =>
    rw [broken] at spelled
    rw [if_pos rfl, if_pos rfl, spelled.written_spoken]

end Spelled

/-- Whether a text keeps its parameters and substitutions when it is written, found by one walk. -/
def keeps (holds : List Char → Bool) (quoted : Bool) : List Char → Bool
  | [] | ['$'] => true
  | '\\' :: _ :: rest => keeps holds quoted rest
  | '$' :: '(' :: rest =>
    match closingParen? 0 .plain rest with
    | some length => (rest.drop length).head? == some ')' && holds (rest.take length) &&
        keeps holds quoted (rest.drop (length + 1))
    | none => false
  | '$' :: '\x7b' :: rest =>
    let behind := rest.dropWhile (· != '\x7d')
    !behind.isEmpty &&
      !(quoted && (rest.takeWhile (· != '\x7d')).any ['\\', '"', '('].contains) &&
      keeps holds quoted behind.tail
  | '$' :: c :: rest =>
    if Lexer.isNameStart c then
      let behind := rest.dropWhile Lexer.isNameChar
      !(written quoted behind).head?.any Lexer.isNameChar && keeps holds quoted behind
    else if Lexer.isSpecialParameter c then
      !(c == '$' && (written quoted rest).head? == some '(') && keeps holds quoted rest
    else !(written quoted (c :: rest)).head?.any follows && keeps holds quoted (c :: rest)
  | c :: rest => !isSpecial c && keeps holds quoted rest
termination_by text => text.length
decreasing_by
  all_goals
    have named := (List.dropWhile_suffix (l := rest) Lexer.isNameChar).length_le
    have braced := (List.dropWhile_suffix (l := rest) (· != '\x7d')).length_le
    simp only [List.length_cons, List.length_drop, List.length_tail]
    omega

theorem spelled_of_keeps {holds : List Char → Bool} {held : List Char → Prop}
    (sound : ∀ body, holds body = true → held body) {quoted : Bool} {text : List Char}
    (kept : keeps holds quoted text = true) : Spelled held quoted text := by
  fun_induction keeps holds quoted text with
  | case1 => exact .nil
  | case2 => exact .lone (by rw [written, recast_nil]; rfl) .nil
  | case3 c rest ih => exact .escaped (ih kept)
  | case4 rest length closing ih =>
    simp only [Bool.and_eq_true, beq_iff_eq] at kept
    obtain ⟨⟨closes, inside⟩, later⟩ := kept
    obtain ⟨behind, split⟩ := List.head?_eq_some_iff.mp closes
    have whole : rest = rest.take length ++ ')' :: rest.drop (length + 1) := by
      rw [← List.tail_drop, split, List.tail_cons, ← split, List.take_append_drop]
    have short : (rest.take length).length = length :=
      List.length_take_of_le (closingParen?_lt _ closing).le
    have balanced : Balanced (rest.take length) := by
      rw [balanced_iff (rest.drop (length + 1)), ← whole, closing, short]
    rw [whole]
    exact .substitution balanced (sound _ inside) (ih later)
  | case5 => cases kept
  | case6 rest behind ih =>
    simp only [Bool.and_eq_true, Bool.not_eq_true', List.isEmpty_eq_false_iff] at kept
    obtain ⟨⟨some, copied⟩, later⟩ := kept
    have closes : behind.head some = '\x7d' := by
      simpa using List.head_dropWhile_not (· != '\x7d') some
    have tail : '\x7d' :: behind.tail = behind := by rw [← closes, List.cons_head_tail]
    have whole : rest = rest.takeWhile (· != '\x7d') ++ '\x7d' :: behind.tail := by
      rw [tail]
      exact List.takeWhile_append_dropWhile.symm
    rw [whole]
    refine .braced (fun member => ?_) (fun both => ?_) (ih later)
    · simpa using List.mem_takeWhile_imp member
    · rw [both, Bool.true_and, List.any_eq_false] at copied
      and_intros <;> exact fun member => copied _ member (by decide)
  | case7 c rest _ _ start behind ih =>
    simp only [Bool.and_eq_true, Bool.not_eq_true'] at kept
    rw [← List.takeWhile_append_dropWhile (p := Lexer.isNameChar) (l := rest)]
    exact .named start List.all_takeWhile kept.1 (ih kept.2)
  | case8 c rest _ _ _ special ih =>
    simp only [Bool.and_eq_true, Bool.not_eq_true', Bool.and_eq_false_iff] at kept
    refine .special special (fun same opens => ?_) (ih kept.2)
    rcases kept.1 with other | other
    · simp [same] at other
    · simp [opens] at other
  | case9 c rest _ _ _ _ ih =>
    simp only [Bool.and_eq_true, Bool.not_eq_true'] at kept
    exact .lone kept.1 (ih kept.2)
  | case10 c rest _ _ _ _ _ ih =>
    simp only [Bool.and_eq_true, Bool.not_eq_true'] at kept
    exact .plain kept.1 (ih kept.2)

end Word

end StepShell

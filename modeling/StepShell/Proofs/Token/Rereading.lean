import StepShell.Proofs.Word.Quoting

/-! A word that is written as shell source is read as one word again, and its text is what
`Word.spoken` says. -/

namespace StepShell

namespace Lexer

open Word (Piece Spelled Balanced isSpecial follows written spoken)

/-- A reader takes all of its text but `left`. The pieces that it makes stand for `text`, and the
substitutions among them are `bodies`. -/
def Delivers (bodies : List (List Char)) (reading : Reading (List Piece)) (text left : List Char) :
    Prop :=
  ∃ pieces stop, reading = .ok (pieces, ⟨left, stop⟩) ∧ pieces.flatMap Piece.text = text ∧
    pieces.filterMap Piece.body? = bodies

section
variable {held : List Char → Prop} {start position stop : Position} {bodies : List (List Char)}
  {inside name body text rest left middle first second : List Char} {c : Char}

/-- What no text begins with does not follow it either, if it is no beginning of the rest. -/
theorem any_head_append {keep : Char → Bool} (here : text.head?.any keep = false)
    (later : text = [] → rest.head?.any keep = false) :
    (text ++ rest).head?.any keep = false := by
  cases text with
  | nil => exact later rfl
  | cons c text => exact here

/-- A dollar sign begins nothing if nothing follows it that it could begin. -/
theorem dollar_lone (idle : rest.head?.any follows = false) :
    Delivers [] (dollar start rest) ['$'] rest := by
  cases rest with
  | nil => exact ⟨_, _, rfl, rfl, rfl⟩
  | cons c tail =>
    simp only [List.head?_cons, Option.any_some, follows, Bool.or_eq_false_iff,
      beq_eq_false_iff_ne] at idle
    obtain ⟨⟨⟨group, brace⟩, unnamed⟩, ordinary⟩ := idle
    rw [dollar_cons _ _ group brace, unnamed, ordinary]
    exact ⟨_, _, rfl, rfl, rfl⟩

theorem braced_closed (absent : '\x7d' ∉ inside) (position : Position) (rest : List Char) :
    ∃ stop, braced position (inside ++ '\x7d' :: rest) =
      .ok (inside ++ ['\x7d'], ⟨rest, stop⟩) := by
  induction inside generalizing position with
  | nil => exact ⟨_, by rw [List.nil_append, braced, if_pos rfl]; rfl⟩
  | cons c inside ih =>
    obtain ⟨here, later⟩ := not_or.mp (mt List.mem_cons.mpr absent)
    obtain ⟨stop, ran⟩ := ih later (position.advance c)
    exact ⟨stop, by rw [List.cons_append, braced, if_neg (Ne.symm here), ran]; rfl⟩

theorem dollar_closed (absent : '\x7d' ∉ inside) :
    Delivers [] (dollar start ('\x7b' :: (inside ++ '\x7d' :: rest)))
      ('$' :: '\x7b' :: (inside ++ ['\x7d'])) rest := by
  obtain ⟨stop, ran⟩ := braced_closed absent ((start.advance '$').advance '\x7b') rest
  rw [dollar_brace, ran]
  exact ⟨_, _, rfl, by simp [Piece.text], rfl⟩

theorem dollar_named (first : isNameStart c = true) (named : name.all isNameChar = true)
    (ends : rest.head?.any isNameChar = false) :
    Delivers [] (dollar start (c :: name ++ rest)) ('$' :: c :: name) rest := by
  have group := Word.ne_of_isNameStart first (rfl : isNameStart '(' = false)
  have brace := Word.ne_of_isNameStart first (rfl : isNameStart '\x7b' = false)
  have all : ∀ d ∈ c :: name, isNameChar d = true := by
    intro d member
    rcases List.mem_cons.mp member with rfl | member
    · exact Expansion.isNameChar_of_isNameStart first
    · exact List.all_eq_true.mp named d member
  obtain ⟨taken, left⟩ := Text.takeWhile_of_head ends
  rw [List.cons_append, dollar_cons _ _ group brace, if_pos first, ← List.cons_append,
    List.takeWhile_append_of_pos all, List.dropWhile_append_of_pos all, taken, left,
    List.append_nil]
  exact ⟨_, _, rfl, by simp [Piece.text], rfl⟩

theorem dollar_special (parameter : isSpecialParameter c = true) :
    Delivers [] (dollar start (c :: rest)) ['$', c] rest := by
  have group := Word.ne_of_isSpecialParameter parameter (rfl : isSpecialParameter '(' = false)
  have brace := Word.ne_of_isSpecialParameter parameter (rfl : isSpecialParameter '\x7b' = false)
  have unnamed : isNameStart c = false := by
    rw [← Bool.not_eq_true]
    intro start
    rw [Expansion.isNameStart_not_parameter start] at parameter
    cases parameter
  rw [dollar_cons _ _ group brace, unnamed, parameter]
  exact ⟨_, _, rfl, by simp [Piece.text], rfl⟩

theorem dollar_substituted (balanced : Balanced body) :
    Delivers [body] (dollar start ('(' :: (body ++ ')' :: rest))) ('$' :: '(' :: (body ++ [')']))
      rest := by
  have ran := bodyIn_closed ((Word.balanced_iff rest).mp balanced)
    ((start.advance '$').advance '(')
  change Lexer.body _ _ _ = _ at ran
  rw [dollar_group, ran]
  exact ⟨_, _, rfl, by simp [Piece.text], rfl⟩

theorem Delivers.quoted {others : List (List Char)} (inside : c ≠ '"')
    (here : Delivers others (quotedPiece position c rest) first middle)
    (later : ∀ position, Delivers bodies (doubleQuoted ⟨middle, position⟩) second left) :
    Delivers (others ++ bodies) (doubleQuoted ⟨c :: rest, position⟩) (first ++ second) left := by
  obtain ⟨pieces, stop, ran, rfl, rfl⟩ := here
  obtain ⟨others, final, runs, rfl, rfl⟩ := later stop
  refine ⟨pieces ++ others, final, ?_, List.flatMap_append, List.filterMap_append⟩
  rw [doubleQuoted_cons inside, ran]
  dsimp only
  rw [runs]
  rfl

theorem Delivers.dollar {others : List (List Char)}
    (here : Delivers others (dollar position rest) first middle)
    (later : ∀ position, Delivers bodies (doubleQuoted ⟨middle, position⟩) second left) :
    Delivers (others ++ bodies) (doubleQuoted ⟨'$' :: rest, position⟩) (first ++ second) left :=
  .quoted (by decide) here later

/-- Between double quotes a backslash stays where it is needed. -/
theorem Delivers.escape (special : isSpecial c = true)
    (later : ∀ position, Delivers bodies (doubleQuoted ⟨middle, position⟩) second left) :
    Delivers bodies (doubleQuoted ⟨'\\' :: c :: middle, position⟩) ('\\' :: c :: second) left := by
  have ran : quotedPiece position '\\' (c :: middle) =
      .ok ([.guarded c], ⟨middle, (position.advance '\\').advance c⟩) := by
    simp only [isSpecial, Bool.or_eq_true, beq_iff_eq] at special
    rcases special with (rfl | rfl) | rfl <;> rfl
  exact .quoted (by decide) ⟨_, _, ran, rfl, rfl⟩ later

/-- A character that is nothing special is itself, with the backslash that a quote needs. -/
theorem Delivers.self (ordinary : isSpecial c = false)
    (later : ∀ position, Delivers bodies (doubleQuoted ⟨middle, position⟩) second left) :
    Delivers bodies (doubleQuoted ⟨Word.plainForm true c ++ middle, position⟩) (c :: second)
      left := by
  by_cases quote : c = '"'
  · subst quote
    have ran : quotedPiece position '\\' ('"' :: middle) =
        .ok ([.plain '"'], ⟨middle, (position.advance '\\').advance '"'⟩) := rfl
    exact .quoted (by decide) ⟨_, _, ran, rfl, rfl⟩ later
  · have ran : quotedPiece position c middle = .ok ([.plain c], ⟨middle, position.advance c⟩) := by
      simp only [isSpecial, Bool.or_eq_false_iff, beq_eq_false_iff_ne] at ordinary
      simp only [quotedPiece, ordinary, if_false]
    rw [Word.plainForm_self true c quote]
    exact .quoted quote ⟨_, _, ran, rfl, rfl⟩ later

/-- Between double quotes a text is written so that it is read up to the closing quote. -/
theorem doubleQuoted_spelled (spelled : Spelled held true text) (left : List Char) :
    ∀ position, Delivers (Word.groups text)
      (doubleQuoted ⟨written true text ++ '"' :: left, position⟩) (spoken true text) left := by
  have selves := Word.plainForm_self true
  have each (c : Char) (_ : c ≠ '"') : (fun c : Char => [c]) c = [c] := rfl
  unfold written spoken
  induction spelled with
  | nil =>
    intro position
    rw [Word.recast_nil, Word.recast_nil, Word.groups, List.nil_append]
    exact ⟨[], _, by rw [doubleQuoted]; rfl, rfl, rfl⟩
  | @plain c rest ordinary _ ih =>
    intro position
    rw [Word.recast_plain ordinary, Word.recast_plain ordinary, Word.groups_plain ordinary,
      List.append_assoc]
    exact .self ordinary ih
  | @escaped c rest _ ih =>
    intro position
    rw [Word.recast_escaped, Word.recast_escaped, Word.groups_escaped, List.append_assoc]
    cases special : isSpecial c with
    | true =>
      have guarded : Word.guardedForm true c = ['\\', c] := by simp [Word.guardedForm, special]
      have kept : Word.keptForm true c = ['\\', c] := by simp [Word.keptForm, special]
      rw [guarded, kept]
      exact .escape special ih
    | false =>
      have guarded : Word.guardedForm true c = Word.plainForm true c := by
        simp [Word.guardedForm, Word.plainForm, special]
      have kept : Word.keptForm true c = [c] := by simp [Word.keptForm, special]
      rw [guarded, kept]
      exact .self special ih
  | lone idle _ ih =>
    intro position
    obtain ⟨here, -⟩ := Word.head_ne_paren (Word.head_ne_of_idle idle)
    rw [Word.recast_lone selves here, Word.recast_lone each here, Word.groups_lone here]
    exact .dollar (dollar_lone (any_head_append idle (fun _ => rfl))) ih
  | braced absent copied _ ih =>
    intro position
    rw [Word.recast_braced selves (copied rfl), Word.recast_braced each (copied rfl),
      Word.groups_braced (copied rfl).1 (copied rfl).2.2]
    simpa using Delivers.dollar (dollar_closed absent) ih
  | named start named ends _ ih =>
    intro position
    rw [Word.recast_named selves start named, Word.recast_named each start named,
      Word.groups_named start named, List.cons_append, List.append_assoc]
    exact .dollar (dollar_named start named (any_head_append ends (fun _ => rfl))) ih
  | special parameter apart _ ih =>
    intro position
    have unlike same := (Word.head_ne_paren (apart same)).1
    rw [Word.recast_special selves parameter unlike, Word.recast_special each parameter unlike,
      Word.groups_special parameter unlike]
    exact .dollar (dollar_special parameter) ih
  | substitution balanced _ _ ih =>
    intro position
    rw [Word.recast_group balanced, Word.recast_group balanced, Word.groups_group balanced]
    simpa using Delivers.dollar (dollar_substituted balanced) ih

/-- A reader of a word takes all of its text but `left`. The word stands for `text`, and the
substitutions in it are `bodies`. -/
def Speaks (bodies : List (List Char)) (reading : Reading Word) (quoted : Bool)
    (text left : List Char) : Prop :=
  ∃ read stop, reading = .ok (read, ⟨left, stop⟩) ∧ read.chars = text ∧ read.quoted = quoted ∧
    read.bodies = bodies

theorem Speaks.nil (ends : left.head?.all endsWord = true) :
    Speaks [] (word ⟨left, position⟩) false [] left :=
  ⟨Word.empty, position, word_ended ends position, rfl, rfl, rfl⟩

theorem Speaks.append {quoted again : Bool} {reading : Reading (List Piece)}
    {others : List (List Char)} (inside : endsWord c = false)
    (segment : segment position c rest = mapAt (fun read _ => ⟨read, quoted⟩) reading)
    (here : Delivers others reading first middle)
    (later : ∀ position, Speaks bodies (word ⟨middle, position⟩) again second left) :
    Speaks (others ++ bodies) (word ⟨c :: rest, position⟩) (quoted || again) (first ++ second)
      left := by
  obtain ⟨pieces, stop, ran, rfl, rfl⟩ := here
  obtain ⟨read, final, runs, rfl, rfl, rfl⟩ := later stop
  refine ⟨⟨pieces, quoted⟩ ++ read, final, ?_, Word.chars_append _ _, rfl,
    Word.bodies_append _ _⟩
  rw [word_cons inside, segment, ran]
  change mapAt _ (word ⟨middle, stop⟩) = _
  rw [runs]
  rfl

/-- A character that nothing outside quotes is made of but itself. -/
theorem Speaks.plain {quoted : Bool} (plain : Word.isPlain false c = true)
    (later : ∀ position, Speaks bodies (word ⟨middle, position⟩) quoted second left) :
    Speaks bodies (word ⟨c :: middle, position⟩) quoted (c :: second) left := by
  simp only [Word.isPlain, isSpecial, Bool.false_or, Bool.and_eq_true, Bool.not_eq_true',
    Bool.or_eq_false_iff, beq_eq_false_iff_ne] at plain
  obtain ⟨⟨⟨⟨dollar, backquote⟩, backslash⟩, double⟩, single, inside⟩ := plain
  have segment : segment position c middle = mapAt (fun read _ => ⟨read, false⟩)
      (.ok ([.plain c], ⟨middle, position.advance c⟩)) := by
    simp only [Lexer.segment, dollar, backquote, backslash, double, single, if_false]
    rfl
  have here : Delivers [] (.ok ([.plain c], ⟨middle, position.advance c⟩)) [c] middle :=
    ⟨_, _, rfl, rfl, rfl⟩
  simpa using Speaks.append inside segment here later

theorem Speaks.run {quoted : Bool} (plain : ∀ c ∈ first, Word.isPlain false c = true)
    (later : ∀ position, Speaks bodies (word ⟨middle, position⟩) quoted second left) :
    ∀ position, Speaks bodies (word ⟨first ++ middle, position⟩) quoted (first ++ second) left := by
  induction first with
  | nil => exact later
  | cons c first ih =>
    obtain ⟨here, others⟩ := List.forall_mem_cons.mp plain
    exact fun position => .plain here (ih others)

theorem Speaks.dollar (here : Delivers [] (Lexer.dollar position rest) first middle)
    (later : ∀ position, Speaks bodies (word ⟨middle, position⟩) false second left) :
    Speaks bodies (word ⟨'$' :: rest, position⟩) false (first ++ second) left := by
  have segment : segment position '$' rest = mapAt (fun read _ => ⟨read, false⟩)
      (Lexer.dollar position rest) := rfl
  exact Speaks.append (by decide) segment here later

theorem Speaks.guarded (inline : c ≠ '\n')
    (later : ∀ position, Speaks bodies (word ⟨middle, position⟩) false second left) :
    Speaks bodies (word ⟨'\\' :: c :: middle, position⟩) false ('\\' :: c :: second) left := by
  have segment : segment position '\\' (c :: middle) = mapAt (fun read _ => ⟨read, false⟩)
      (.ok ([.guarded c], ⟨middle, (position.advance '\\').advance c⟩)) := by
    simp only [Lexer.segment, Char.reduceEq, if_false, if_true]
    rfl
  have here : Delivers []
      (.ok ([.guarded c], ⟨middle, (position.advance '\\').advance c⟩)) ['\\', c] middle :=
    ⟨_, _, rfl, rfl, rfl⟩
  exact Speaks.append (by decide) segment here later

/-- What breaks no word neither ends one nor quotes anything. -/
theorem plain_of_unbroken (unbroken : Word.breaksWord c = false) :
    c ≠ '\n' ∧ c ≠ '#' ∧ endsWord c = false ∧
      (isSpecial c = false → Word.isPlain false c = true) := by
  simp only [Word.breaksWord, List.contains_eq_mem, List.mem_cons, List.not_mem_nil, or_false,
    Bool.or_eq_false_iff, decide_eq_false_iff_not, not_or] at unbroken
  obtain ⟨solid, semicolon, ampersand, bar, less, greater, opens, closes, single, double,
    comment⟩ := unbroken
  have blank (d : Char) (wrong : Text.isBlank d = true) : c ≠ d := by
    rintro rfl
    rw [solid] at wrong
    cases wrong
  have inside : endsWord c = false := by
    simp [endsWord, blank ' ' rfl, blank '\t' rfl, blank '\r' rfl, blank '\n' rfl, *]
  refine ⟨blank '\n' rfl, comment, inside, fun ordinary => ?_⟩
  simp [Word.isPlain, *]

theorem ended_idle (ends : left.head?.all endsWord = true) (closed : left.head? ≠ some '(') :
    left.head?.any follows = false := by
  cases left with
  | nil => rfl
  | cons c left =>
    simp only [List.head?_cons, Option.all_some, endsWord, List.contains_eq_mem, List.mem_cons,
      List.not_mem_nil, or_false, decide_eq_true_eq] at ends
    rcases ends with rfl | rfl | rfl | rfl | rfl | rfl | rfl | rfl | rfl | rfl | rfl
    all_goals first | rfl | exact absurd rfl closed

theorem ended_unnamed (ends : left.head?.all endsWord = true) :
    left.head?.any isNameChar = false := by
  cases left with
  | nil => rfl
  | cons c left =>
    simp only [List.head?_cons, Option.all_some, endsWord, List.contains_eq_mem, List.mem_cons,
      List.not_mem_nil, or_false, decide_eq_true_eq] at ends
    rcases ends with rfl | rfl | rfl | rfl | rfl | rfl | rfl | rfl | rfl | rfl | rfl <;> rfl

/-- A word that needs no quotes is read as it stands, unless a parenthesis follows its last dollar
sign. -/
theorem word_bare (spelled : Spelled held false text) (unbroken : text.any Word.breaksWord = false)
    (ends : left.head?.all endsWord = true)
    (closed : left.head? = some '(' → ∀ before, text ≠ before ++ ['$']) :
    ∀ position, Speaks [] (word ⟨text ++ left, position⟩) false text left := by
  induction spelled with
  | nil => exact fun position => .nil ends
  | @plain c rest ordinary _ ih =>
    rw [List.any_cons, Bool.or_eq_false_iff] at unbroken
    have plain := (plain_of_unbroken unbroken.1).2.2.2 ordinary
    have later := ih unbroken.2 fun paren before same =>
      closed paren (c :: before) (congrArg (c :: ·) same)
    exact fun position => .plain plain later
  | @escaped c rest _ ih =>
    rw [List.any_cons, List.any_cons, Bool.or_eq_false_iff, Bool.or_eq_false_iff] at unbroken
    have later := ih unbroken.2.2 fun paren before same =>
      closed paren ('\\' :: c :: before) (congrArg ('\\' :: c :: ·) same)
    exact fun position => .guarded (plain_of_unbroken unbroken.2.1).1 later
  | @lone rest idle _ ih =>
    rw [List.any_cons, Bool.or_eq_false_iff] at unbroken
    rw [Word.written_bare] at idle
    have later := ih unbroken.2 fun paren before same =>
      closed paren ('$' :: before) (congrArg ('$' :: ·) same)
    intro position
    refine .dollar (dollar_lone (any_head_append idle fun last => ?_)) later
    subst last
    exact ended_idle ends fun paren => closed paren [] rfl
  | @braced inside rest absent copied _ ih =>
    have others : rest.any Word.breaksWord = false := by
      simp only [List.any_cons, List.any_append, Bool.or_eq_false_iff] at unbroken
      exact unbroken.2.2.2.2
    have later := ih others fun paren before same =>
      closed paren ('$' :: '\x7b' :: (inside ++ '\x7d' :: before)) (by rw [same]; simp)
    intro position
    simpa using Speaks.dollar (dollar_closed absent) later
  | @named first name rest start named apart _ ih =>
    rw [List.any_cons, Bool.or_eq_false_iff, List.any_append, Bool.or_eq_false_iff] at unbroken
    rw [Word.written_bare] at apart
    have later := ih unbroken.2.2 fun paren before same =>
      closed paren ('$' :: (first :: name ++ before)) (by rw [same]; simp)
    intro position
    rw [List.cons_append, List.append_assoc]
    exact .dollar (dollar_named start named (any_head_append apart fun _ => ended_unnamed ends))
      later
  | @special c rest parameter _ _ ih =>
    rw [List.any_cons, List.any_cons, Bool.or_eq_false_iff, Bool.or_eq_false_iff] at unbroken
    have later := ih unbroken.2.2 fun paren before same =>
      closed paren ('$' :: c :: before) (congrArg ('$' :: c :: ·) same)
    exact fun position => .dollar (dollar_special parameter) later
  | substitution =>
    rw [List.any_cons, List.any_cons] at unbroken
    cases unbroken

/-- What is written for a text is read as one word. -/
theorem word_quoteChars (spelled : Spelled held (Word.breaks text) text)
    (ends : left.head?.all endsWord = true) (closed : left.head? ≠ some '(') :
    ∀ position, Speaks (Word.groups text) (word ⟨Word.quoteChars text ++ left, position⟩)
      (Word.breaks text) (spoken (Word.breaks text) text) left := by
  rw [Word.quoteChars_eq]
  cases broken : Word.breaks text with
  | false =>
    rw [broken] at spelled
    rw [if_neg (by decide), Word.written_bare, Word.spoken_bare, Word.groups_of_unbroken broken]
    exact word_bare spelled (Bool.or_eq_false_iff.mp broken).2 ends fun paren => absurd paren closed
  | true =>
    rw [broken] at spelled
    intro position
    have segment : segment position '"' (written true text ++ '"' :: left) =
        mapAt (fun read _ => ⟨read, true⟩)
          (doubleQuoted ⟨written true text ++ '"' :: left, position.advance '"'⟩) := rfl
    have word := Speaks.append (by decide) segment (doubleQuoted_spelled spelled left _)
      fun _ => .nil ends
    simpa using word

end

end Lexer

end StepShell

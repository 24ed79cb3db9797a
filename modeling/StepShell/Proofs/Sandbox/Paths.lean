import Mathlib.Data.List.Induction
import StepShell.Proofs.Text.Lines
import StepShell.Sandbox.Path

/-! The paths that names resolve to: a root, and below it components that each go one further down.
A `..` at the root is dropped, but at a root that is a tilde with more behind it, it takes the root
back. -/

namespace StepShell.Path

/-- The components of a text, which stand between its slashes. -/
def pieces (text : List Char) : List (List Char) :=
  Text.cutAt (· == '/') text

/-- A component that goes one further down. -/
def Ordinary (component : List Char) : Prop :=
  component ≠ [] ∧ component ≠ ['.'] ∧ component ≠ ['.', '.']

/-- A component that a path may start with: nothing, before its slash, or a tilde and what stands
behind it. -/
def IsRoot (component : List Char) : Prop :=
  component = [] ∨ component.head? = some '~'

instance (component : List Char) : Decidable (Ordinary component) :=
  inferInstanceAs (Decidable (_ ∧ _))

instance (component : List Char) : Decidable (IsRoot component) :=
  inferInstanceAs (Decidable (_ ∨ _))

/-- What stands before the first slash. -/
def origin (text : List Char) : List Char :=
  (pieces text).headD []

/-- A root with ordinary components below it, or the slash alone. -/
def Folded (text : List Char) : Prop :=
  text = ['/'] ∨
    text ≠ [] ∧ IsRoot (origin text) ∧
      ∀ component ∈ (pieces text).tail, Ordinary component

instance (text : List Char) : Decidable (Folded text) :=
  inferInstanceAs (Decidable (_ ∨ _ ∧ _))

/-- A path from `/` or from a tilde, with no empty, `.` or `..` component and no slash at its end,
unless it is just that. -/
def Canonical (path : String) : Prop :=
  Folded path.toList

instance (path : String) : Decidable (Canonical path) :=
  inferInstanceAs (Decidable (Folded path.toList))

section pieces
variable {text front back component : List Char} {components : List (List Char)}

theorem pieces_ne_nil (text : List Char) : pieces text ≠ [] :=
  Text.cutAt_ne_nil _ text

theorem pieces_append (front back : List Char) :
    pieces (front ++ '/' :: back) = pieces front ++ pieces back := by
  induction front with
  | nil => rfl
  | cons c front ih =>
    unfold pieces at ih ⊢
    rw [List.cons_append, Text.cutAt, Text.cutAt, ih]
    split
    · rfl
    · cases cut : Text.cutAt (· == '/') front with
      | nil => exact absurd cut (Text.cutAt_ne_nil _ _)
      | cons => rfl

theorem pieces_of_slashless (slashless : '/' ∉ component) : pieces component = [component] :=
  Text.cutAt_of_free fun _ among => beq_eq_false_iff_ne.mpr fun same => slashless (same ▸ among)

theorem slashless_of_mem_pieces (among : component ∈ pieces text) : '/' ∉ component := by
  induction text generalizing component with
  | nil =>
    obtain rfl := List.mem_singleton.mp among
    exact List.not_mem_nil
  | cons c text ih =>
    unfold pieces at ih among
    rw [Text.cutAt] at among
    split at among
    · rcases List.mem_cons.mp among with rfl | later
      · exact List.not_mem_nil
      · exact ih later
    · rename_i other
      cases cut : Text.cutAt (· == '/') text with
      | nil => exact absurd cut (Text.cutAt_ne_nil _ _)
      | cons first rest =>
        rw [cut] at ih among
        rcases List.mem_cons.mp among with rfl | later
        · have different : '/' ≠ c := fun same => other (beq_iff_eq.mpr same.symm)
          exact List.not_mem_cons_of_ne_of_not_mem different (ih List.mem_cons_self)
        · exact ih (List.mem_cons_of_mem _ later)

theorem joined_cons (first : List Char) {rest : List (List Char)} (more : rest ≠ []) :
    joined (first :: rest) = first ++ '/' :: joined rest := by
  cases rest with
  | nil => exact absurd rfl more
  | cons => rfl

theorem joined_pieces (text : List Char) : joined (pieces text) = text := by
  induction text with
  | nil => rfl
  | cons c text ih =>
    unfold pieces at ih ⊢
    rw [Text.cutAt]
    split
    · rename_i slash
      rw [joined_cons [] (Text.cutAt_ne_nil _ _), ih, beq_iff_eq.mp slash, List.nil_append]
    · cases cut : Text.cutAt (· == '/') text with
      | nil => exact absurd cut (Text.cutAt_ne_nil _ _)
      | cons first rest =>
        rw [cut] at ih
        cases rest with
        | nil => exact congrArg (c :: ·) ih
        | cons => exact congrArg (c :: ·) ih

theorem pieces_joined (some : components ≠ [])
    (slashless : ∀ component ∈ components, '/' ∉ component) :
    pieces (joined components) = components := by
  induction components with
  | nil => exact absurd rfl some
  | cons first rest ih =>
    obtain ⟨here, later⟩ := List.forall_mem_cons.mp slashless
    by_cases more : rest = []
    · rw [more]
      exact pieces_of_slashless here
    · rw [joined_cons first more, pieces_append, pieces_of_slashless here, ih more later]
      rfl

end pieces

section fold
variable {component : List Char} {above components : List (List Char)}

theorem fold_ordinary (ordinary : Ordinary component) :
    fold above component = above ++ [component] := by
  obtain ⟨solid, other, forward⟩ := ordinary
  rw [fold, if_neg (not_or_intro solid other), if_neg forward]

theorem foldl_fold_ordinary (ordinary : ∀ component ∈ components, Ordinary component) :
    components.foldl fold above = above ++ components := by
  induction components generalizing above with
  | nil => exact (List.append_nil above).symm
  | cons first rest ih =>
    obtain ⟨here, later⟩ := List.forall_mem_cons.mp ordinary
    rw [List.foldl_cons, fold_ordinary here, ih later, List.append_assoc, List.singleton_append]

theorem fold_cases (component : List Char) :
    (∀ above, fold above component = above) ∨
      component = ['.', '.'] ∧ (∀ above, fold above component = above.dropLast) ∨
      Ordinary component ∧ ∀ above, fold above component = above ++ [component] := by
  by_cases void : component = [] ∨ component = ['.']
  · exact .inl fun above => if_pos void
  · by_cases back : component = ['.', '.']
    · exact .inr (.inl ⟨back, fun above => by rw [fold, if_neg void, if_pos back]⟩)
    · have ordinary := not_or.mp void
      exact .inr (.inr ⟨⟨ordinary.1, ordinary.2, back⟩, fun above => by
        rw [fold, if_neg void, if_neg back]⟩)

/-- Only ordinary components stay when others are folded. -/
theorem ordinary_of_mem_foldl (among : component ∈ components.foldl fold above) :
    component ∈ above ∨ component ∈ components ∧ Ordinary component := by
  induction components generalizing above with
  | nil => exact .inl among
  | cons first rest ih =>
    rw [List.foldl_cons] at among
    rcases ih among with before | ⟨later, ordinary⟩
    · rcases fold_cases first with void | ⟨-, back⟩ | ⟨ordinary, further⟩
      · rw [void] at before
        exact .inl before
      · rw [back] at before
        exact .inl (List.dropLast_subset _ before)
      · rw [further] at before
        rcases List.mem_append.mp before with early | last
        · exact .inl early
        · obtain rfl := List.mem_singleton.mp last
          exact .inr ⟨List.mem_cons_self, ordinary⟩
    · exact .inr ⟨List.mem_cons_of_mem _ later, ordinary⟩

/-- The components come to a `..` when all of those before it are taken back. -/
def Climbs (components : List (List Char)) : Prop :=
  ∃ front back, components = front ++ ['.', '.'] :: back ∧ front.foldl fold [] = []

/-- Folded below a component that can be taken back, components leave it where it is or, if they
climb, leave what they come to without it. -/
theorem foldl_fold_cons (root : List Char) (components : List (List Char)) :
    ¬ Climbs components ∧ components.foldl fold [root] = root :: components.foldl fold [] ∨
      Climbs components ∧ components.foldl fold [root] = components.foldl fold [] := by
  induction components using List.reverseRecOn with
  | nil =>
    refine .inl ⟨?_, rfl⟩
    rintro ⟨front, back, same, -⟩
    exact absurd same.symm (by simp)
  | append_singleton front last ih =>
    rw [List.foldl_append, List.foldl_append, List.foldl_cons, List.foldl_cons, List.foldl_nil,
      List.foldl_nil]
    have climbs_iff : Climbs (front ++ [last]) ↔
        Climbs front ∨ last = ['.', '.'] ∧ front.foldl fold [] = [] := by
      constructor
      · rintro ⟨early, back, same, emptied⟩
        rcases List.eq_nil_or_concat back with rfl | ⟨before, final, rfl⟩
        · obtain ⟨rfl, last⟩ := List.append_inj' same rfl
          exact .inr ⟨List.singleton_inj.mp last, emptied⟩
        · rw [List.concat_eq_append, ← List.cons_append, ← List.append_assoc] at same
          obtain ⟨rfl, -⟩ := List.append_inj' same rfl
          exact .inl ⟨early, before, rfl, emptied⟩
      · rintro (⟨early, back, rfl, emptied⟩ | ⟨rfl, emptied⟩)
        · exact ⟨early, back ++ [last], by simp, emptied⟩
        · exact ⟨front, [], rfl, emptied⟩
    rw [climbs_iff]
    rcases ih with ⟨low, kept⟩ | ⟨climbs, lost⟩
    · rw [kept]
      rcases fold_cases last with void | ⟨rfl, back⟩ | ⟨ordinary, further⟩
      · rw [void, void]
        by_cases climbs : last = ['.', '.'] ∧ front.foldl fold [] = []
        · rw [climbs.1] at void
          exact absurd (void [[]]) (by decide)
        · exact .inl ⟨not_or_intro low climbs, rfl⟩
      · rw [back, back]
        by_cases emptied : front.foldl fold [] = []
        · rw [emptied]
          exact .inr ⟨.inr ⟨rfl, rfl⟩, rfl⟩
        · refine .inl ⟨not_or_intro low fun climbs => emptied climbs.2, ?_⟩
          exact List.dropLast_cons_of_ne_nil emptied
      · rw [further, further]
        exact .inl ⟨not_or_intro low fun climbs => ordinary.2.2 climbs.1, rfl⟩
    · rw [lost]
      exact .inr ⟨.inl climbs, rfl⟩

end fold

/-! A text folded below what it starts with. -/

/-- The components after the first slash, folded among themselves. -/
def below (text : List Char) : List (List Char) :=
  (pieces text).tail.foldl fold []

/-- The text of components below a root. -/
def spelled (root : List Char) (below : List (List Char)) : List Char :=
  if root = [] ∧ below = [] then ['/'] else joined (root :: below)

/-- A `..` takes back the tilde that the text starts with, which has more behind it. -/
def LosesOrigin (text : List Char) : Prop :=
  origin text ≠ [] ∧ origin text ≠ ['~'] ∧ Climbs (pieces text).tail

section text
variable {text front component : List Char} {components : List (List Char)}

theorem pieces_eq (text : List Char) : pieces text = origin text :: (pieces text).tail := by
  unfold origin
  cases cut : pieces text with
  | nil => exact absurd cut (pieces_ne_nil text)
  | cons => rfl

theorem origin_append (front back : List Char) : origin (front ++ '/' :: back) = origin front := by
  rw [origin, pieces_append, pieces_eq front]
  rfl

theorem origin_cons {c : Char} (solid : c ≠ '/') (text : List Char) :
    origin (c :: text) = c :: origin text := by
  have free : ¬ (c == '/') = true := fun slash => solid (beq_iff_eq.mp slash)
  have cut := pieces_eq text
  unfold origin pieces at cut ⊢
  rw [Text.cutAt, if_neg free, cut]
  rfl

/-- Whether a text starts at a root is seen at its first character. -/
theorem isRoot_origin_iff :
    IsRoot (origin text) ↔ ∀ first ∈ text.head?, first = '/' ∨ first = '~' := by
  cases text with
  | nil => exact iff_of_true (.inl rfl) fun _ none => nomatch none
  | cons c text =>
    rw [List.head?_cons]
    simp only [Option.mem_some_iff, forall_eq']
    by_cases slash : c = '/'
    · rw [slash]
      exact iff_of_true (.inl (origin_append [] text)) (.inl rfl)
    · rw [origin_cons slash]
      simp [IsRoot, slash]

theorem ordinary_below (text : List Char) :
    ∀ component ∈ below text, Ordinary component ∧ '/' ∉ component := by
  intro component among
  rcases ordinary_of_mem_foldl among with none | ⟨member, ordinary⟩
  · exact nomatch none
  · exact ⟨ordinary, slashless_of_mem_pieces (List.mem_of_mem_tail member)⟩

theorem slashless_origin (text : List Char) : '/' ∉ origin text := by
  have first : origin text ∈ pieces text := by
    rw [pieces_eq text]
    exact List.mem_cons_self
  exact slashless_of_mem_pieces first

theorem spelled_ne_joined {root : List Char} (solid : root ≠ []) (slashless : '/' ∉ root)
    (free : ∀ component ∈ components, '/' ∉ component) :
    joined components ≠ spelled root components := by
  intro same
  rw [spelled, if_neg fun both => solid both.1] at same
  have cut := congrArg pieces same
  rw [pieces_joined (List.cons_ne_nil _ _) (List.forall_mem_cons.mpr ⟨slashless, free⟩)] at cut
  by_cases none : components = []
  · rw [none] at cut
    exact solid (List.cons.inj cut).1.symm
  · rw [pieces_joined none free] at cut
    exact absurd (congrArg List.length cut) (by simp)

theorem folded_spelled {root : List Char} (starts : IsRoot root) (slashless : '/' ∉ root)
    (ordinary : ∀ component ∈ components, Ordinary component ∧ '/' ∉ component) :
    Folded (spelled root components) := by
  unfold spelled
  split
  · exact .inl rfl
  · rename_i more
    have free : ∀ component ∈ root :: components, '/' ∉ component :=
      List.forall_mem_cons.mpr ⟨slashless, fun component among => (ordinary component among).2⟩
    have cut := pieces_joined (List.cons_ne_nil root components) free
    refine .inr ⟨?_, ?_, ?_⟩
    · intro none
      rw [none] at cut
      obtain ⟨rfl, rfl⟩ := List.cons.inj cut
      exact more ⟨rfl, rfl⟩
    · rw [origin, cut]
      exact starts
    · rw [cut]
      exact fun component among => (ordinary component among).1

theorem folded_joined_iff
    (ordinary : ∀ component ∈ components, Ordinary component ∧ '/' ∉ component) :
    Folded (joined components) ↔ ∃ first ∈ components.head?, first.head? = some '~' := by
  cases components with
  | nil => exact iff_of_false (by decide) (by simp)
  | cons first rest =>
    obtain ⟨⟨here, free⟩, later⟩ := List.forall_mem_cons.mp ordinary
    have cut := pieces_joined (List.cons_ne_nil first rest)
      fun component among => (ordinary component among).2
    have starts : origin (joined (first :: rest)) = first := by rw [origin, cut]; rfl
    simp only [List.head?_cons, Option.mem_some_iff, exists_eq_left']
    constructor
    · rintro (slash | ⟨-, root, -⟩)
      · rw [slash] at starts
        exact absurd starts.symm here.1
      · rw [starts] at root
        exact root.resolve_left here.1
    · intro tilde
      refine .inr ⟨?_, ?_, ?_⟩
      · intro none
        rw [none] at starts
        exact here.1 starts.symm
      · rw [starts]
        exact .inr tilde
      · rw [cut]
        exact fun component among => (later component among).1

theorem splitRoot_of_own (solid : origin text ≠ []) (own : origin text ≠ ['~']) :
    splitRoot text = (.none, text) := by
  unfold splitRoot
  split
  · exact absurd (origin_append [] _) solid
  · exact absurd rfl own
  · exact absurd (origin_append ['~'] _) own
  · rfl

theorem chars_slash (components : List (List Char)) :
    chars ⟨.slash, components⟩ = spelled [] components := by
  cases components <;> rfl

theorem chars_home (components : List (List Char)) :
    chars ⟨.home, components⟩ = spelled ['~'] components := by
  cases components <;> rfl

/-- A text that starts at a root is folded below it. The root is lost only where a `..` takes it
back. -/
theorem chars_ofChars (root : IsRoot (origin text)) (some : text ≠ []) :
    ¬ LosesOrigin text ∧ (ofChars text).chars = spelled (origin text) (below text) ∨
      LosesOrigin text ∧ (ofChars text).chars = joined (below text) := by
  have whole := joined_pieces text
  rw [pieces_eq text] at whole
  by_cases bare : origin text = []
  · refine .inl ⟨fun loses => loses.1 bare, ?_⟩
    by_cases alone : (pieces text).tail = []
    · rw [bare, alone] at whole
      exact absurd whole.symm some
    · rw [bare, joined_cons [] alone, List.nil_append] at whole
      rw [bare, ← chars_slash, ← whole, ofChars, below]
      rfl
  · by_cases home : origin text = ['~']
    · refine .inl ⟨fun loses => loses.2.1 home, ?_⟩
      rw [home, ← chars_home]
      by_cases alone : (pieces text).tail = []
      · rw [home, alone] at whole
        rw [← whole]
        rfl
      · rw [home, joined_cons ['~'] alone] at whole
        rw [← whole]
        rfl
    · have tilde := root.resolve_left bare
      have ordinary : Ordinary (origin text) := by
        refine ⟨bare, ?_, ?_⟩ <;> intro dots <;> rw [dots] at tilde <;> cases tilde
      have folded : (ofChars text).chars =
          joined ((pieces text).tail.foldl fold [origin text]) := by
        rw [ofChars, splitRoot_of_own bare home]
        change joined ((pieces text).foldl fold []) = _
        rw [pieces_eq text, List.foldl_cons, fold_ordinary ordinary]
        rfl
      rw [folded]
      rcases foldl_fold_cons (origin text) (pieces text).tail with ⟨low, kept⟩ | ⟨climbs, lost⟩
      · refine .inl ⟨fun loses => low loses.2.2, ?_⟩
        rw [kept, spelled, if_neg fun both => bare both.1]
        rfl
      · rw [lost]
        exact .inr ⟨⟨bare, home, climbs⟩, rfl⟩

/-- A path that is written in the one way stays as it is. -/
theorem chars_ofChars_of_folded (folded : Folded text) : (ofChars text).chars = text := by
  rcases folded with rfl | ⟨some, root, ordinary⟩
  · rfl
  · have settled : below text = (pieces text).tail := foldl_fold_ordinary ordinary
    rcases chars_ofChars root some with ⟨-, kept⟩ | ⟨⟨-, -, front, back, climbs, -⟩, -⟩
    · rw [kept, settled, spelled, if_neg, ← pieces_eq, joined_pieces]
      rintro ⟨bare, alone⟩
      have whole := joined_pieces text
      rw [pieces_eq text, bare, alone] at whole
      exact some whole.symm
    · refine absurd rfl (ordinary ['.', '.'] ?_).2.2
      rw [climbs]
      exact List.mem_append_right _ List.mem_cons_self

theorem head?_of_folded (folded : Folded text) :
    text ≠ [] ∧ ∀ first ∈ text.head?, first = '/' ∨ first = '~' := by
  rcases folded with rfl | ⟨some, root, -⟩
  · exact ⟨List.cons_ne_nil _ _, fun _ here => .inl (Option.some.inj here).symm⟩
  · exact ⟨some, isRoot_origin_iff.mp root⟩

end text

/-! Names seen from a directory. -/

section resolve
variable {directory text : List Char}

/-- A name is always seen from a root if the directory is. -/
theorem root_joinChars (folded : Folded directory) (name : List Char) :
    joinChars directory name ≠ [] ∧ IsRoot (origin (joinChars directory name)) := by
  rw [isRoot_origin_iff]
  obtain ⟨some, starts⟩ := head?_of_folded folded
  cases name with
  | nil => exact ⟨some, starts⟩
  | cons first rest =>
    unfold joinChars
    dsimp only
    split
    · rename_i complete
      exact ⟨List.cons_ne_nil _ _, fun _ here => (Option.some.inj here) ▸ complete⟩
    · refine ⟨by simp, ?_⟩
      have begins : Text.dropEndWhile (· == '/') directory <+: directory := by
        rw [Text.dropEndWhile, ← List.reverse_suffix, List.reverse_reverse]
        exact List.dropWhile_suffix _
      cases cut : Text.dropEndWhile (· == '/') directory with
      | nil => exact fun _ here => .inl (Option.some.inj here).symm
      | cons c more =>
        obtain ⟨behind, same⟩ := begins
        rw [cut] at same
        intro other here
        exact starts other (by rw [← same]; exact here)

theorem joinChars_of_folded (folded : Folded text) (directory : List Char) :
    joinChars directory text = text := by
  obtain ⟨some, starts⟩ := head?_of_folded folded
  cases text with
  | nil => exact absurd rfl some
  | cons first rest => exact if_pos (starts first rfl)

theorem joinChars_append (directory front : List Char) :
    ∃ whole, ∀ back, joinChars directory (front ++ '/' :: back) = whole ++ '/' :: back := by
  cases front with
  | nil => exact ⟨[], fun _ => rfl⟩
  | cons first front =>
    by_cases complete : first = '/' ∨ first = '~'
    · exact ⟨first :: front, fun _ => if_pos complete⟩
    · refine ⟨Text.dropEndWhile (· == '/') directory ++ '/' :: first :: front, fun back => ?_⟩
      rw [List.append_assoc]
      exact if_neg complete

end resolve

/-- What leads nowhere when it stands behind a slash. -/
inductive Idle : List Char → Prop where
  | slash : Idle ['/']
  | here : Idle ['.', '/']
  | back {component : List Char} (ordinary : Ordinary component) (slashless : '/' ∉ component) :
      Idle (component ++ ['/', '.', '.', '/'])

section idle
variable {idle : List Char}

theorem Idle.foldl_fold (leads : Idle idle) (above : List (List Char)) (back : List Char) :
    (pieces (idle ++ back)).foldl fold above = (pieces back).foldl fold above := by
  cases leads with
  | slash => rfl
  | here =>
    change (pieces (['.'] ++ '/' :: back)).foldl fold above = _
    rw [pieces_append]
    rfl
  | @back component ordinary slashless =>
    have split : component ++ ['/', '.', '.', '/'] ++ back =
        component ++ '/' :: (['.', '.'] ++ '/' :: back) := by simp
    rw [split, pieces_append, pieces_append, pieces_of_slashless slashless, List.foldl_append,
      List.foldl_append, List.foldl_cons, fold_ordinary ordinary]
    change (pieces back).foldl fold (above ++ [component]).dropLast = _
    rw [List.dropLast_concat]

theorem splitRoot_append (front : List Char) :
    (∃ root, ∀ back, splitRoot (front ++ '/' :: back) = (root, back)) ∨
      ∃ root rest, ∀ back, splitRoot (front ++ '/' :: back) = (root, rest ++ '/' :: back) := by
  have whole := joined_pieces front
  rw [pieces_eq front] at whole
  by_cases bare : origin front = []
  · rw [bare] at whole
    by_cases alone : (pieces front).tail = []
    · rw [← whole, alone]
      exact .inl ⟨.slash, fun _ => rfl⟩
    · rw [← whole, joined_cons [] alone]
      exact .inr ⟨.slash, _, fun _ => rfl⟩
  · by_cases home : origin front = ['~']
    · rw [home] at whole
      by_cases alone : (pieces front).tail = []
      · rw [← whole, alone]
        exact .inl ⟨.home, fun _ => rfl⟩
      · rw [← whole, joined_cons ['~'] alone]
        exact .inr ⟨.home, _, fun _ => rfl⟩
    · refine .inr ⟨.none, front, fun back => splitRoot_of_own ?_ ?_⟩
      · rwa [origin_append]
      · rwa [origin_append]

/-- Folding does not see what leads nowhere. -/
theorem Idle.ofChars (leads : Idle idle) (front back : List Char) :
    ofChars (front ++ '/' :: (idle ++ back)) = ofChars (front ++ '/' :: back) := by
  unfold Path.ofChars
  rcases splitRoot_append front with ⟨root, same⟩ | ⟨root, rest, same⟩
  · rw [same, same]
    exact congrArg (Path.mk root) (leads.foldl_fold [] back)
  · rw [same, same]
    change Path.mk root ((pieces _).foldl fold []) = Path.mk root ((pieces _).foldl fold [])
    rw [pieces_append, pieces_append, List.foldl_append, List.foldl_append, leads.foldl_fold]

end idle

/-! The same of texts that are strings. -/

section
variable {directory : String}

/-- The path that a name should lead to: below the root that it is seen from, whatever that is. -/
def rooted (directory name : String) : String :=
  let text := joinChars directory.toList name.toList
  String.ofList (spelled (origin text) (below text))

/-- Seen from the directory, the name has a `..` that takes its root back. -/
def Loses (directory name : String) : Prop :=
  LosesOrigin (joinChars directory.toList name.toList)

/-- The name loses its root, and what is left does not happen to begin with a tilde. -/
def Strays (directory name : String) : Prop :=
  Loses directory name ∧
    ¬ ∃ first ∈ (below (joinChars directory.toList name.toList)).head?, first.head? = some '~'

theorem canonical_rooted (canonical : Canonical directory) (name : String) :
    Canonical (rooted directory name) := by
  obtain ⟨-, root⟩ := root_joinChars canonical name.toList
  unfold Canonical rooted
  rw [String.toList_ofList]
  exact folded_spelled root (slashless_origin _) (ordinary_below _)

theorem resolve_cases (canonical : Canonical directory) (name : String) :
    ¬ Loses directory name ∧ resolve directory name = rooted directory name ∨
      Loses directory name ∧ resolve directory name =
        String.ofList (joined (below (joinChars directory.toList name.toList))) := by
  obtain ⟨some, root⟩ := root_joinChars canonical name.toList
  unfold resolve
  rcases chars_ofChars root some with ⟨kept, same⟩ | ⟨lost, same⟩
  · rw [same]
    exact .inl ⟨kept, rfl⟩
  · rw [same]
    exact .inr ⟨lost, rfl⟩

/-- A name leads where it should unless it loses its root. -/
theorem resolve_eq_rooted_iff (canonical : Canonical directory) (name : String) :
    resolve directory name = rooted directory name ↔ ¬ Loses directory name := by
  rcases resolve_cases canonical name with ⟨kept, same⟩ | ⟨lost, same⟩
  · exact iff_of_true same kept
  · refine iff_of_false (fun also => ?_) (not_not_intro lost)
    rw [same, rooted, String.ofList_inj] at also
    exact spelled_ne_joined lost.1 (slashless_origin _)
      (fun _ among => (ordinary_below _ _ among).2) also

/-- A path that a name resolves to is canonical unless the name strays. -/
theorem canonical_resolve_iff (canonical : Canonical directory) (name : String) :
    Canonical (resolve directory name) ↔ ¬ Strays directory name := by
  rcases resolve_cases canonical name with ⟨kept, same⟩ | ⟨lost, same⟩
  · rw [same]
    exact iff_of_true (canonical_rooted canonical name) fun strays => kept strays.1
  · rw [same, Canonical, String.toList_ofList, folded_joined_iff (ordinary_below _)]
    simp only [Strays, lost, true_and, not_not]

/-- A canonical path is its own, wherever it is seen from. -/
theorem resolve_of_canonical {path : String} (canonical : Canonical path) (directory : String) :
    resolve directory path = path := by
  rw [resolve, joinChars_of_folded canonical, chars_ofChars_of_folded canonical,
    String.ofList_toList]

/-- What leads nowhere may stand behind any slash of a name. -/
theorem resolve_insert {idle : String} (leads : Idle idle.toList) (directory front back : String) :
    resolve directory (front ++ "/" ++ idle ++ back) =
      resolve directory (front ++ "/" ++ back) := by
  obtain ⟨whole, joins⟩ := joinChars_append directory.toList front.toList
  have slash : "/".toList = ['/'] := rfl
  unfold resolve
  simp only [String.toList_append, slash, List.append_assoc, List.cons_append, List.nil_append]
  rw [joins, joins, leads.ofChars]

end

end StepShell.Path

import StepShell.Proofs.Script.Derivations
import StepShell.Proofs.Token.Layout

/-! A script with a reading is parsed, and what the parser makes of it is what the reading says. A
phrase takes tokens, so the fuel the parser is given for a text lasts. -/

namespace StepShell

namespace Grammar

/-- A phrase takes at least so many tokens. -/
structure Takes (least : Nat) (before after : List Lexeme) : Prop where
  suffix : after <:+ before
  length : after.length + least ≤ before.length

theorem Takes.refl (lexemes : List Lexeme) : Takes 0 lexemes lexemes :=
  ⟨List.suffix_refl _, by simp⟩

theorem Takes.of_suffix {before after : List Lexeme} (suffix : after <:+ before) :
    Takes 0 before after :=
  ⟨suffix, by simpa using suffix.length_le⟩

theorem Takes.trans {least more : Nat} {before middle after : List Lexeme}
    (first : Takes least before middle) (second : Takes more middle after) :
    Takes (least + more) before after :=
  ⟨second.suffix.trans first.suffix, by have := first.length; have := second.length; omega⟩

theorem Takes.weaken {least more : Nat} {before after : List Lexeme}
    (takes : Takes more before after) (fewer : least ≤ more) : Takes least before after :=
  ⟨takes.suffix, by have := takes.length; omega⟩

theorem Takes.cons (lexeme : Lexeme) {least : Nat} {before after : List Lexeme}
    (takes : Takes least before after) : Takes (least + 1) (lexeme :: before) after :=
  ⟨takes.suffix.trans (List.suffix_cons _ _), by
    have := takes.length
    simp only [List.length_cons]
    omega⟩

theorem Takes.newlines {before after : List Lexeme} (same : pastNewlines before = after) :
    Takes 0 before after :=
  .of_suffix (same ▸ List.dropWhile_suffix _)

theorem Takes.separators {before after : List Lexeme} (same : pastSeparators before = after) :
    Takes 0 before after :=
  .of_suffix (same ▸ List.dropWhile_suffix _)

/-- How many tokens a phrase takes, at the least: one for each of its parts. -/
def Phrase.least : Phrase → Nat
  | .pieces _ _ | .script _ => 0
  | .word _ | .redirect _ | .group _ | .clauses _ _ | .command _ | .pipeline _ | .list _ _ => 1
  | .redirects nodes | .items nodes | .parts _ nodes | .stages nodes | .chain nodes
  | .entries _ nodes => nodes.length

theorem Opens.takes {topLevel : Bool} {before start : List Lexeme}
    (opens : Opens topLevel before start) : Takes 0 before start := by
  cases topLevel with
  | true => exact opens ▸ .refl _
  | false => exact .newlines opens.1.symm

theorem listed?_ne_nil {parts : List Node} {node : Node} (made : listed? parts = some node) :
    parts ≠ [] := by
  rintro rfl
  cases made

theorem Parens.takes {before after : List Lexeme} (parens : Parens before after) :
    Takes 0 before after := by
  cases parens with
  | none => exact .refl _
  | pair => exact (((Takes.refl _).cons _).cons _).weaken (Nat.zero_le _)

/-- The token before it is one of those that a phrase leaves. -/
theorem Takes.behind {least : Nat} {before rest : List Lexeme} {lexeme : Lexeme}
    (takes : Takes least before (lexeme :: rest)) : Takes (least + 1) before rest :=
  takes.trans ((Takes.refl rest).cons lexeme)

theorem Reads.stages_ne_nil {parts : List Node} {before after : List Lexeme}
    (read : Reads (.stages parts) before after) : parts ≠ [] := by
  cases read <;> exact List.cons_ne_nil _ _

theorem Reads.takes {phrase : Phrase} {before after : List Lexeme}
    (read : Reads phrase before after) : Takes phrase.least before after := by
  induction read with
  | noPieces => exact .refl _
  | plain => exact .refl _
  | guarded => exact .refl _
  | reference => exact .refl _
  | substitution => exact .refl _
  | word => exact (Takes.refl _).cons _
  | redirect _ _ leads => exact (leads.cons _).weaken (Nat.le_succ _)
  | noRedirect => exact .refl _
  | redirects _ _ here later => exact (here.trans later).weaken (Nat.add_comm ..).le
  | noPart => exact .refl _
  | assignment _ _ _ _ _ later => exact later.cons _
  | argument _ _ _ _ here later => exact (here.trans later).weaken (Nat.add_comm ..).le
  | redirected _ _ here later => exact (here.trans later).weaken (Nat.add_comm ..).le
  | noItem => exact .refl _
  | items _ _ here later => exact (here.trans later).weaken (Nat.add_comm ..).le
  | group _ _ _ inside behind =>
    exact ((inside.behind.cons _).trans behind).weaken (by simp only [Phrase.least]; omega)
  | clause _ _ _ _ _ test inside =>
    exact (test.behind.trans inside).weaken (by simp only [Phrase.least]; omega)
  | clauseElse _ _ _ _ _ test inside otherwise =>
    exact ((test.behind.trans inside.behind).trans otherwise).weaken
      (by simp only [Phrase.least]; omega)
  | clauseElif _ _ _ _ _ test inside later =>
    have whole := (test.behind.trans inside.behind).trans later
    exact whole.weaken (by simp only [Phrase.least]; omega)
  | simple _ some _ read => exact read.weaken (List.length_pos_of_ne_nil some)
  | grouped _ group => exact group
  | forIn _ _ _ newlines _ _ separators _ _ _ values inside =>
    have values := ((Takes.newlines newlines).behind.trans values).trans (.separators separators)
    exact (((values.behind.trans inside.behind).cons _).cons _).weaken
      (by simp only [Phrase.least]; omega)
  | forEach _ _ _ newlines _ separators _ _ _ inside =>
    have values := (Takes.newlines newlines).trans (.separators separators)
    exact (((values.behind.trans inside.behind).cons _).cons _).weaken
      (by simp only [Phrase.least]; omega)
  | conditional _ _ _ clauses =>
    exact (clauses.behind.cons _).weaken (by simp only [Phrase.least]; omega)
  | function _ _ parens _ inside =>
    exact (((parens.takes.trans (.newlines rfl)).trans inside).cons _).cons _ |>.weaken
      (by simp only [Phrase.least]; omega)
  | definition _ _ _ _ _ inside =>
    exact ((((Takes.newlines rfl).trans inside).cons _).cons _).cons _ |>.weaken
      (by simp only [Phrase.least]; omega)
  | stage _ _ here => exact here
  | pipe _ _ _ here later =>
    exact ((here.behind.trans (.newlines rfl)).trans later).weaken
      (by simp only [Phrase.least, List.length_cons]; omega)
  | single _ read => exact read
  | pipeline _ stages read => exact read.weaken (List.length_pos_of_ne_nil stages.stages_ne_nil)
  | link _ _ here => exact here
  | chain _ _ _ here later =>
    exact ((here.behind.trans (.newlines rfl)).trans later).weaken
      (by simp only [Phrase.least, List.length_cons]; omega)
  | noEntry => exact .newlines rfl
  | entry opens _ _ here => exact (opens.takes.trans here).weaken (Nat.zero_add _).ge
  | lastEntry _ _ _ here => exact here.behind.weaken (by simp [Phrase.least])
  | entries opens _ _ _ _ here later =>
    exact ((opens.takes.trans here.behind).trans later).weaken
      (by simp only [Phrase.least, List.length_append, List.length_cons]; omega)
  | list _ made read => exact read.weaken (List.length_pos_of_ne_nil (listed?_ne_nil made))
  | ended nothing => exact .of_suffix (List.nil_suffix)
  | line _ _ _ _ here later =>
    exact (((Takes.newlines rfl).trans here).trans later).weaken (Nat.zero_le _)

/-- The scripts in these pieces are parsed. -/
def Inner.Serves (inner : Inner) (pieces : List Word.Piece) : Prop :=
  ∀ body span start, .substitution body span start ∈ pieces → ∀ lexemes nodes,
    lex body start = .ok lexemes → Reads (.script nodes) lexemes [] → inner body start = .ok nodes

/-- The scripts in the words among these tokens are parsed. -/
def Inner.ServesAll (inner : Inner) (lexemes : List Lexeme) : Prop :=
  ∀ lexeme ∈ lexemes, ∀ read, lexeme.token = .word read → inner.Serves read.pieces

theorem Inner.ServesAll.suffix {inner : Inner} {before after : List Lexeme}
    (serves : inner.ServesAll before) (suffix : after <:+ before) : inner.ServesAll after :=
  fun lexeme member => serves lexeme (suffix.subset member)

theorem Inner.ServesAll.tail {inner : Inner} {lexeme : Lexeme} {rest : List Lexeme}
    (serves : inner.ServesAll (lexeme :: rest)) : inner.ServesAll rest :=
  serves.suffix (List.suffix_cons _ _)

/-- With this much fuel the parser makes the value of the tokens before it. -/
def Makes {α : Type} (parser : Nat → Parser α) (least : Nat) (value : α)
    (before after : List Lexeme) : Prop :=
  ∀ fuel, least ≤ fuel → ∀ input : Input, input.rest = before →
    ∃ left, parser fuel input = .ok (value, left) ∧ left.rest = after

/-- The parser makes what the phrase is of the tokens that it takes. -/
def Recognized (inner : Inner) : Phrase → List Lexeme → List Lexeme → Prop
  | .pieces pieces parts, _, _ => inner.Serves pieces → partsOf inner pieces = .ok parts
  | .word node, before, after => inner.ServesAll before →
    ∃ lexeme read parts, before = lexeme :: after ∧ lexeme.token = .word read ∧
      partsOf inner read.pieces = .ok parts ∧
      node = .word read.text parts read.quoted lexeme.span
  | .redirect node, before, after => inner.ServesAll before →
    ∃ kind, next before = some (.redirect kind) ∧
      Makes (fun _ => redirect inner kind) 0 node before after
  | .redirects nodes, before, after => inner.ServesAll before →
    Makes (redirects inner) (before.length + 1) nodes before after
  | .parts named parts, before, after => inner.ServesAll before →
    Makes (simpleParts inner · named) (before.length + 1) parts before after
  | .items nodes, before, after => inner.ServesAll before →
    Makes (items inner) (before.length + 1) nodes before after
  | .group node, before, after => inner.ServesAll before →
    ∃ opening closing, (next before = some .leftParen ∧ opening = "(" ∧ closing = ")" ∨
        (next before).bind Token.bare? = some "\x7b" ∧ opening = "\x7b" ∧ closing = "\x7d") ∧
      Makes (group inner · opening closing) (8 * before.length - 5) node before after
  | .clauses keyword clauses, before, after => inner.ServesAll before →
    Makes (Grammar.clauses inner · keyword) (8 * before.length + 3) clauses before after
  | .command node, before, after => inner.ServesAll before →
    Makes (command inner) (8 * before.length - 3) node before after
  | .stages parts, before, after => inner.ServesAll before →
    Makes (pipelineParts inner) (8 * before.length - 2) parts before after
  | .pipeline node, before, after => inner.ServesAll before →
    Makes (pipeline inner) (8 * before.length - 1) node before after
  | .chain parts, before, after => inner.ServesAll before →
    Makes (andOr inner) (8 * before.length) parts before after
  | .entries topLevel parts, before, after => inner.ServesAll before →
    Makes (listParts inner · topLevel) (8 * before.length + 1) parts before after
  | .list topLevel node, before, after => inner.ServesAll before →
    Makes (list inner · topLevel) (8 * before.length + 2) node before after
  | .script nodes, before, _ => inner.ServesAll before →
    Makes (script inner) (8 * before.length + 4) nodes before []

theorem Makes.step {α : Type} {parser : Nat → Parser α} {least : Nat} {value : α}
    {before after : List Lexeme} (some : 0 < least)
    (makes : ∀ fuel, least ≤ fuel + 1 → ∀ input : Input, input.rest = before →
      ∃ left, parser (fuel + 1) input = .ok (value, left) ∧ left.rest = after) :
    Makes parser least value before after := by
  intro fuel enough input here
  obtain ⟨fuel, rfl⟩ := Nat.exists_eq_add_of_lt (some.trans_le enough)
  rw [Nat.zero_add] at *
  exact makes fuel enough input here

theorem Input.span_of_rest {input : Input} {lexeme : Lexeme} {rest : List Lexeme}
    (here : input.rest = lexeme :: rest) : input.span = lexeme.span := by
  rw [Input.span, here]

theorem Input.advanced_of_rest {input : Input} {lexeme : Lexeme} {rest : List Lexeme}
    (here : input.rest = lexeme :: rest) : input.advanced.rest = rest := by
  rw [Input.advanced, here]

theorem Input.next_of_rest {input : Input} {lexeme : Lexeme} {rest : List Lexeme}
    (here : input.rest = lexeme :: rest) : next input.rest = some lexeme.token := by
  rw [here]
  rfl

theorem Input.word_of_rest {input : Input} {lexeme : Lexeme} {rest : List Lexeme} {word : String}
    (here : input.rest = lexeme :: rest) (bare : lexeme.token.bare? = some word) :
    (next input.rest).bind Token.bare? = some word := by
  rw [Input.next_of_rest here]
  exact bare

theorem Inner.Serves.tail {inner : Inner} {piece : Word.Piece} {rest : List Word.Piece}
    (serves : inner.Serves (piece :: rest)) : inner.Serves rest :=
  fun body span start member => serves body span start (List.mem_cons_of_mem _ member)

section
variable {inner : Inner}

theorem recognized_noRedirect {rest : List Lexeme}
    (other : ∀ kind, next rest ≠ some (.redirect kind)) :
    Recognized inner (.redirects []) rest rest := by
  refine fun _ => .step (Nat.succ_pos _) fun fuel _ input here => ⟨input, ?_, here⟩
  subst here
  rw [redirects_eq_ok]
  split
  · exact absurd ‹_› (other _)
  · exact ⟨rfl, rfl⟩

theorem recognized_redirects {first : Node} {others : List Node} {before middle after : List Lexeme}
    (takes : Takes 1 before middle) (here : Recognized inner (.redirect first) before middle)
    (later : Recognized inner (.redirects others) middle after) :
    Recognized inner (.redirects (first :: others)) before after := by
  refine fun serves => .step (Nat.succ_pos _) fun fuel enough input start => ?_
  obtain ⟨kind, sign, here⟩ := here serves
  obtain ⟨left, made, rest⟩ := here 0 (Nat.zero_le _) input start
  have length := takes.length
  obtain ⟨last, done, ends⟩ := later (serves.suffix takes.suffix) fuel (by omega) left rest
  refine ⟨last, ?_, ends⟩
  rw [redirects_eq_ok, start, sign]
  exact ⟨first, left, others, made, done, rfl⟩

theorem recognized_noPart {named : Bool} {rest : List Lexeme}
    (word : ∀ read, next rest ≠ some (.word read))
    (redirect : ∀ kind, next rest ≠ some (.redirect kind)) :
    Recognized inner (.parts named []) rest rest := by
  refine fun _ => .step (Nat.succ_pos _) fun fuel _ input here => ⟨input, ?_, here⟩
  subst here
  rw [simpleParts_eq_ok]
  split
  · exact absurd ‹_› (word _)
  · exact absurd ‹_› (redirect _)
  · exact ⟨rfl, rfl⟩

theorem recognized_assignment {lexeme : Lexeme} {read : Word} {parts others : List Node}
    {rest after : List Lexeme} (token : lexeme.token = .word read)
    (form : isAssignment read = true) (pieces : Recognized inner (.pieces read.pieces parts) [] [])
    (later : Recognized inner (.parts false others) rest after) :
    Recognized inner (.parts false (.assignment read.text parts lexeme.span :: others))
      (lexeme :: rest) after := by
  refine fun serves => .step (Nat.succ_pos _) fun fuel enough input here => ?_
  rw [List.length_cons] at enough
  obtain ⟨left, done, ends⟩ := later serves.tail fuel (by omega) input.advanced
    (Input.advanced_of_rest here)
  refine ⟨left, ?_, ends⟩
  rw [simpleParts_eq_ok, Input.next_of_rest here, token, Input.span_of_rest here]
  refine ⟨parts, others, pieces (serves _ List.mem_cons_self _ token), ?_⟩
  rw [if_pos (by simpa using form)]
  exact ⟨done, rfl⟩

theorem recognized_argument {named : Bool} {lexeme : Lexeme} {read : Word} {first : Node}
    {others : List Node} {rest after : List Lexeme} (token : lexeme.token = .word read)
    (form : named = false → isAssignment read = false)
    (here : Recognized inner (.word first) (lexeme :: rest) rest)
    (later : Recognized inner (.parts true others) rest after) :
    Recognized inner (.parts named (first :: others)) (lexeme :: rest) after := by
  refine fun serves => .step (Nat.succ_pos _) fun fuel enough input start => ?_
  rw [List.length_cons] at enough
  obtain ⟨_, _, parts, same, also, pieces, rfl⟩ := here serves
  cases same
  obtain rfl := Token.word.inj (token.symm.trans also)
  obtain ⟨left, done, ends⟩ := later serves.tail fuel (by omega) input.advanced
    (Input.advanced_of_rest start)
  refine ⟨left, ?_, ends⟩
  rw [simpleParts_eq_ok, Input.next_of_rest start, token, Input.span_of_rest start]
  refine ⟨parts, others, pieces, ?_⟩
  rw [if_neg (by cases named <;> simp_all)]
  exact ⟨done, rfl⟩

theorem recognized_redirected {named : Bool} {first : Node} {others : List Node}
    {before middle after : List Lexeme} (takes : Takes 1 before middle)
    (here : Recognized inner (.redirect first) before middle)
    (later : Recognized inner (.parts named others) middle after) :
    Recognized inner (.parts named (first :: others)) before after := by
  refine fun serves => .step (Nat.succ_pos _) fun fuel enough input start => ?_
  obtain ⟨kind, sign, here⟩ := here serves
  obtain ⟨left, made, rest⟩ := here 0 (Nat.zero_le _) input start
  have length := takes.length
  obtain ⟨last, done, ends⟩ := later (serves.suffix takes.suffix) fuel (by omega) left rest
  refine ⟨last, ?_, ends⟩
  rw [simpleParts_eq_ok, start, sign]
  exact ⟨first, left, others, made, done, rfl⟩

theorem recognized_noItem {rest : List Lexeme} (other : ∀ read, next rest ≠ some (.word read)) :
    Recognized inner (.items []) rest rest := by
  refine fun _ => .step (Nat.succ_pos _) fun fuel _ input here => ⟨input, ?_, here⟩
  subst here
  rw [items_eq_ok]
  split
  · exact absurd ‹_› (other _)
  · exact ⟨rfl, rfl⟩

theorem recognized_items {first : Node} {others : List Node} {before middle after : List Lexeme}
    (here : Recognized inner (.word first) before middle)
    (later : Recognized inner (.items others) middle after) :
    Recognized inner (.items (first :: others)) before after := by
  refine fun serves => .step (Nat.succ_pos _) fun fuel enough input start => ?_
  obtain ⟨lexeme, read, parts, rfl, token, pieces, rfl⟩ := here serves
  rw [List.length_cons] at enough
  obtain ⟨left, done, ends⟩ := later serves.tail fuel (by omega) input.advanced
    (Input.advanced_of_rest start)
  refine ⟨left, ?_, ends⟩
  rw [items_eq_ok, Input.next_of_rest start, token, Input.span_of_rest start]
  exact ⟨parts, others, pieces, done, rfl⟩

theorem Brackets.opens {opening closing : String} {opener closer : Token}
    (pair : Brackets opening closing opener closer) :
    (some opener = some .leftParen ∧ opening = "(" ∧ closing = ")" ∨
      opener.bare? = some "\x7b" ∧ opening = "\x7b" ∧ closing = "\x7d") ∧
    closes closing (some closer) = true := by
  cases pair with
  | parens => exact ⟨.inl ⟨rfl, rfl, rfl⟩, rfl⟩
  | braces first last => exact ⟨.inr ⟨first, rfl, rfl⟩, by simp [closes, last]⟩

theorem recognized_group (derives : inner.Derives) {opener closer : Lexeme}
    {opening closing : String} {body : Node} {nodes : List Node} {rest middle after : List Lexeme}
    (pair : Brackets opening closing opener.token closer.token)
    (takes : Takes 1 rest (closer :: middle))
    (inside : Recognized inner (.list false body) rest (closer :: middle))
    (behind : Recognized inner (.redirects nodes) middle after) :
    Recognized inner (.group (.compound [.reserved opening opener.span, body,
      .reserved closing closer.span] nodes
        ⟨opener.span.start, stopAfter closer.span.stop nodes⟩)) (opener :: rest) after := by
  refine fun serves => ⟨opening, closing, pair.opens.1, .step ?_ fun fuel enough input here => ?_⟩
  · rw [List.length_cons]
    omega
  rw [List.length_cons] at enough
  have length := takes.behind.length
  obtain ⟨left, made, there⟩ := inside serves.tail fuel (by omega) input.advanced
    (Input.advanced_of_rest here)
  obtain ⟨last, done, ends⟩ := behind (serves.tail.suffix takes.behind.suffix) fuel (by omega)
    left.advanced (Input.advanced_of_rest there)
  refine ⟨last, group_eq_ok.mpr ⟨body, left, nodes, made, ?_, done, ?_⟩, ends⟩
  · rw [Input.next_of_rest there]
    exact pair.opens.2
  · have stop := ((Derived.all derives fuel).redirects _ _ _ done).2
    have closed : left.advanced.previousStop = closer.span.stop := by
      rw [Input.advanced, there]
      rfl
    rw [Input.span_of_rest here, Input.span_of_rest there, stop, closed]

theorem recognized_clause {keyword : String} {thenWord : Lexeme} {condition body : Node}
    {before start after : List Lexeme} (takes : Takes 1 before (thenWord :: start))
    (test : Recognized inner (.list false condition) before (thenWord :: start))
    (then_ : thenWord.token.bare? = some "then")
    (inside : Recognized inner (.list false body) start after)
    (noElif : (next after).bind Token.bare? ≠ some "elif")
    (noElse : (next after).bind Token.bare? ≠ some "else") :
    Recognized inner (.clauses keyword [.mk keyword (some condition) body]) before after := by
  refine fun serves => .step (Nat.succ_pos _) fun fuel enough input here => ?_
  have length := takes.length
  rw [List.length_cons] at length
  obtain ⟨left, tested, there⟩ := test serves fuel (by omega) input here
  obtain ⟨last, made, ends⟩ := inside (serves.suffix takes.behind.suffix) fuel (by omega)
    left.advanced (Input.advanced_of_rest there)
  refine ⟨last, clauses_eq_ok.mpr ⟨condition, left, tested, Input.word_of_rest there then_, body,
    last, made, ?_⟩, ends⟩
  rw [ends, if_neg noElif, if_neg noElse]
  exact ⟨rfl, rfl⟩

theorem recognized_clauseElse {keyword : String} {thenWord elseWord : Lexeme}
    {condition body other : Node} {before start middle after : List Lexeme}
    (takes : Takes 1 before (thenWord :: start)) (more : Takes 1 start (elseWord :: middle))
    (test : Recognized inner (.list false condition) before (thenWord :: start))
    (then_ : thenWord.token.bare? = some "then")
    (inside : Recognized inner (.list false body) start (elseWord :: middle))
    (else_ : elseWord.token.bare? = some "else")
    (otherwise : Recognized inner (.list false other) middle after) :
    Recognized inner (.clauses keyword [.mk keyword (some condition) body, .mk "else" none other])
      before after := by
  refine fun serves => .step (Nat.succ_pos _) fun fuel enough input here => ?_
  have length := takes.behind.length
  have longer := more.behind.length
  have serves' := serves.suffix takes.behind.suffix
  obtain ⟨left, tested, there⟩ := test serves fuel (by omega) input here
  obtain ⟨middle', made, ends⟩ := inside serves' fuel (by omega) left.advanced
    (Input.advanced_of_rest there)
  obtain ⟨last, done, finish⟩ := otherwise (serves'.suffix more.behind.suffix) fuel (by omega)
    middle'.advanced (Input.advanced_of_rest ends)
  refine ⟨last, clauses_eq_ok.mpr ⟨condition, left, tested, Input.word_of_rest there then_, body,
    middle', made, ?_⟩, finish⟩
  rw [Input.next_of_rest ends, Option.bind_some, else_, if_neg (by decide), if_pos rfl]
  exact ⟨other, done, rfl⟩

theorem recognized_clauseElif {keyword : String} {thenWord elifWord : Lexeme}
    {condition body : Node} {others : List Clause} {before start middle after : List Lexeme}
    (takes : Takes 1 before (thenWord :: start)) (more : Takes 1 start (elifWord :: middle))
    (test : Recognized inner (.list false condition) before (thenWord :: start))
    (then_ : thenWord.token.bare? = some "then")
    (inside : Recognized inner (.list false body) start (elifWord :: middle))
    (elif_ : elifWord.token.bare? = some "elif")
    (later : Recognized inner (.clauses "elif" others) middle after) :
    Recognized inner (.clauses keyword (.mk keyword (some condition) body :: others))
      before after := by
  refine fun serves => .step (Nat.succ_pos _) fun fuel enough input here => ?_
  have length := takes.behind.length
  have longer := more.behind.length
  have serves' := serves.suffix takes.behind.suffix
  obtain ⟨left, tested, there⟩ := test serves fuel (by omega) input here
  obtain ⟨middle', made, ends⟩ := inside serves' fuel (by omega) left.advanced
    (Input.advanced_of_rest there)
  obtain ⟨last, done, finish⟩ := later (serves'.suffix more.behind.suffix) fuel (by omega)
    middle'.advanced (Input.advanced_of_rest ends)
  refine ⟨last, clauses_eq_ok.mpr ⟨condition, left, tested, Input.word_of_rest there then_, body,
    middle', made, ?_⟩, finish⟩
  rw [Input.next_of_rest ends, Option.bind_some, elif_, if_pos rfl]
  exact ⟨others, done, rfl⟩

theorem recognized_simple (derives : inner.Derives) {parts : List Node}
    {before after : List Lexeme} (simple : beginsSimple before = true) (some : parts ≠ [])
    (reads : Reads (.parts false parts) before after)
    (read : Recognized inner (.parts false parts) before after) :
    Recognized inner (.command (.command parts (spanning parts))) before after := by
  obtain ⟨first, others, rfl⟩ := List.exists_cons_of_ne_nil some
  obtain ⟨lexeme, rest, rfl, start, noParen⟩ := reads.parts_start
  refine fun serves =>
    .step (by simp only [List.length_cons]; omega) fun fuel enough input here => ?_
  rw [List.length_cons] at enough
  obtain ⟨fuel, rfl⟩ := Nat.exists_eq_add_of_lt (show 0 < fuel by omega)
  rw [Nat.zero_add] at *
  obtain ⟨left, done, ends⟩ := read serves fuel (by rw [List.length_cons]; omega) input here
  have stop := ((Derived.all derives fuel).simpleParts _ _ _ _ done).2
  have span : spanning (first :: others) = ⟨input.span.start, left.previousStop⟩ := by
    rw [spanning_eq input.previousStop, stop, Input.span_of_rest here, start]
  refine ⟨left, ?_, ends⟩
  rw [span, command_eq_ok]
  iterate 5 right
  refine ⟨?_, here ▸ simple, simpleCommand_eq_ok.mpr ⟨_, done, some, rfl⟩⟩
  rw [Input.next_of_rest here]
  exact fun same => noParen (Option.some.inj same)

theorem recognized_grouped {node : Node} {before after : List Lexeme}
    (takes : Takes 1 before after) (group : Recognized inner (.group node) before after) :
    Recognized inner (.command node) before after := by
  intro serves
  obtain ⟨opening, closing, opens, made⟩ := group serves
  have length := takes.length
  refine .step (by omega) fun fuel enough input here => ?_
  obtain ⟨left, done, ends⟩ := made fuel (by omega) input here
  refine ⟨left, command_eq_ok.mpr ?_, ends⟩
  rw [here]
  obtain ⟨seen, rfl, rfl⟩ | ⟨seen, rfl, rfl⟩ := opens
  · exact .inl ⟨seen, done⟩
  · exact .inr (.inl ⟨seen, done⟩)

/-- A loop is read whatever its items are. -/
theorem recognized_loop {forWord name doWord doneWord : Lexeme} {loopName : String}
    {items : List Node} {body : Node} {rest middle start after : List Lexeme}
    (for_ : forWord.token.bare? = some "for") (named : name.token.bare? = some loopName)
    (form : isName loopName = true) (takes : Takes 0 (pastNewlines rest) middle)
    (goes : inner.ServesAll rest → ∀ fuel, rest.length + 1 ≤ fuel → ∀ input : Input,
      input.rest = pastNewlines rest →
        ∃ left, Goes inner fuel input items left ∧ left.rest = middle)
    (separators : pastSeparators middle = doWord :: start) (do_ : doWord.token.bare? = some "do")
    (inside : Recognized inner (.list false body) start (doneWord :: after))
    (done_ : doneWord.token.bare? = some "done") :
    Recognized inner (.command (.forLoop loopName items body
      ⟨forWord.span.start, doneWord.span.stop⟩)) (forWord :: name :: rest) after := by
  refine fun serves =>
    .step (by simp only [List.length_cons]; omega) fun fuel enough input here => ?_
  simp only [List.length_cons] at enough
  obtain ⟨fuel, rfl⟩ := Nat.exists_eq_add_of_lt (show 0 < fuel by omega)
  rw [Nat.zero_add] at *
  have header := (Takes.newlines rfl).trans takes
  have longer := (Takes.separators separators).behind
  have length := (header.trans longer).length
  have behind : input.advanced.advanced.skipped.rest = pastNewlines rest := by
    rw [Input.skipped_rest, Input.advanced_of_rest (Input.advanced_of_rest here)]
  obtain ⟨left, valued, there⟩ := goes serves.tail.tail fuel (by omega) _ behind
  obtain ⟨⟨⟨⟩, passed⟩, skipped⟩ := skipSeparators_of_lt left
    (show left.rest.length < fuel by rw [there]; have := header.length; omega)
  have past := skipSeparators_eq_ok _ skipped
  rw [there, separators] at past
  obtain ⟨last, made, ends⟩ := inside (serves.tail.tail.suffix (header.trans longer).suffix) fuel
    (by omega) passed.advanced (Input.advanced_of_rest past)
  refine ⟨last.advanced, ?_, Input.advanced_of_rest ends⟩
  rw [command_eq_ok]
  iterate 3 right
  left
  refine ⟨Input.word_of_rest here for_, forLoop_eq_ok.mpr ⟨Input.word_of_rest here for_, loopName,
    Input.word_of_rest (Input.advanced_of_rest here) named, form, items, left, valued, passed,
    skipped, Input.word_of_rest past do_, body, last, made, Input.word_of_rest ends done_, ?_, rfl⟩⟩
  rw [Input.span_of_rest here, Input.span_of_rest ends]

theorem recognized_forIn {forWord name inWord doWord doneWord : Lexeme} {loopName : String}
    {items : List Node} {body : Node} {rest others middle start after : List Lexeme}
    (for_ : forWord.token.bare? = some "for") (named : name.token.bare? = some loopName)
    (form : isName loopName = true) (newlines : pastNewlines rest = inWord :: others)
    (in_ : inWord.token.bare? = some "in") (takes : Takes 0 others middle)
    (values : Recognized inner (.items items) others middle)
    (separators : pastSeparators middle = doWord :: start) (do_ : doWord.token.bare? = some "do")
    (inside : Recognized inner (.list false body) start (doneWord :: after))
    (done_ : doneWord.token.bare? = some "done") :
    Recognized inner (.command (.forLoop loopName items body
      ⟨forWord.span.start, doneWord.span.stop⟩)) (forWord :: name :: rest) after := by
  have header : Takes 0 (pastNewlines rest) middle :=
    newlines ▸ (takes.cons inWord).weaken (Nat.zero_le _)
  refine recognized_loop for_ named form header ?_ separators do_ inside done_
  intro serves fuel enough input here
  rw [newlines] at here
  have past := Takes.newlines newlines
  have length := past.length
  rw [List.length_cons] at length
  obtain ⟨left, valued, there⟩ := values (serves.suffix past.suffix).tail fuel (by omega) _
    (Input.advanced_of_rest here)
  refine ⟨left, ?_, there⟩
  rw [Goes, if_pos (Input.word_of_rest here in_)]
  exact valued

theorem recognized_forEach {forWord name first doWord doneWord : Lexeme} {loopName : String}
    {body : Node} {rest others start after : List Lexeme}
    (for_ : forWord.token.bare? = some "for") (named : name.token.bare? = some loopName)
    (form : isName loopName = true) (newlines : pastNewlines rest = first :: others)
    (noIn : first.token.bare? ≠ some "in")
    (separators : pastSeparators (first :: others) = doWord :: start)
    (do_ : doWord.token.bare? = some "do")
    (inside : Recognized inner (.list false body) start (doneWord :: after))
    (done_ : doneWord.token.bare? = some "done") :
    Recognized inner (.command (.forLoop loopName [positionals first.span] body
      ⟨forWord.span.start, doneWord.span.stop⟩)) (forWord :: name :: rest) after := by
  refine recognized_loop for_ named form (newlines ▸ .refl _) ?_ separators do_ inside done_
  intro _ fuel _ input here
  rw [newlines] at here
  refine ⟨input, ?_, here⟩
  rw [Goes, Input.next_of_rest here, Option.bind_some, if_neg noIn, Input.span_of_rest here]
  exact ⟨rfl, rfl⟩

theorem recognized_conditional {ifWord fiWord : Lexeme} {clauses : List Clause}
    {rest after : List Lexeme} (if_ : ifWord.token.bare? = some "if")
    (read : Recognized inner (.clauses "if" clauses) rest (fiWord :: after))
    (fi_ : fiWord.token.bare? = some "fi") :
    Recognized inner (.command (.conditional clauses ⟨ifWord.span.start, fiWord.span.stop⟩))
      (ifWord :: rest) after := by
  refine fun serves =>
    .step (by simp only [List.length_cons]; omega) fun fuel enough input here => ?_
  simp only [List.length_cons] at enough
  obtain ⟨fuel, rfl⟩ := Nat.exists_eq_add_of_lt (show 0 < fuel by omega)
  rw [Nat.zero_add] at *
  obtain ⟨left, made, ends⟩ := read serves.tail fuel (by omega) input.advanced
    (Input.advanced_of_rest here)
  refine ⟨left.advanced, ?_, Input.advanced_of_rest ends⟩
  rw [command_eq_ok]
  iterate 2 right
  left
  refine ⟨Input.word_of_rest here if_, conditional_eq_ok.mpr ⟨Input.word_of_rest here if_, clauses,
    left, made, Input.word_of_rest ends fi_, ?_, rfl⟩⟩
  rw [Input.span_of_rest here, Input.span_of_rest ends]

theorem Parens.passed {before after : List Lexeme} (parens : Parens before after) {input : Input}
    (here : input.rest = before) : ∃ behind, input.Parens behind ∧ behind.rest = after := by
  cases parens with
  | none other =>
    refine ⟨input, ?_, here⟩
    rw [Input.Parens, here, if_neg other]
  | pair first second =>
    refine ⟨input.advanced.advanced, ?_, Input.advanced_of_rest (Input.advanced_of_rest here)⟩
    rw [Input.Parens, Input.next_of_rest here, first, if_pos rfl,
      Input.next_of_rest (Input.advanced_of_rest here), second]
    exact ⟨rfl, rfl⟩

/-- A function is read once its name and its parentheses are. -/
theorem recognized_named (derives : inner.Derives) {first name : Lexeme} {called : String}
    {body : Node} {others middle behind after : List Lexeme} (defines : Defines (first :: others))
    (here : (if first.token.bare? = some "function" then others else first :: others) =
      name :: middle) (bare : name.token.bare? = some called) (parens : Parens middle behind)
    (inside : Recognized inner (.group body) (pastNewlines behind) after) :
    Recognized inner (.command (.function called body ⟨first.span.start, body.span.stop⟩))
      (first :: others) after := by
  refine fun serves =>
    .step (by simp only [List.length_cons]; omega) fun fuel enough input start => ?_
  simp only [List.length_cons] at enough
  obtain ⟨fuel, rfl⟩ := Nat.exists_eq_add_of_lt (show 0 < fuel by omega)
  rw [Nat.zero_add] at *
  let head := if (next input.rest).bind Token.bare? = some "function" then input.advanced else input
  have headed : head.rest = name :: middle := by
    rw [← here, ← start]
    dsimp only [head]
    rw [Input.next_of_rest start, Option.bind_some]
    split
    · exact Input.advanced_of_rest start
    · rfl
  have short : Takes 0 (first :: others) (name :: middle) := by
    rw [← here]
    split
    · exact ((Takes.refl _).cons _).weaken (Nat.zero_le _)
    · exact .refl _
  obtain ⟨passed, parens', there⟩ := parens.passed (Input.advanced_of_rest headed)
  have header := (short.behind.trans parens.takes).trans (.newlines rfl)
  obtain ⟨opening, closing, opens, made⟩ := inside (serves.suffix header.suffix)
  have length := header.length
  rw [List.length_cons] at length
  have skipped : passed.skipped.rest = pastNewlines behind := by rw [Input.skipped_rest, there]
  obtain ⟨left, done, ends⟩ := made fuel (by omega) _ skipped
  refine ⟨left, command_eq_ok.mpr (.inr (.inr (.inr (.inr (.inl ⟨start ▸ defines, ?_⟩))))), ends⟩
  have follows : Follows inner fuel passed.skipped (body, left) := by
    rw [Follows, skipped]
    obtain ⟨seen, rfl, rfl⟩ | ⟨seen, rfl, rfl⟩ := opens
    · exact .inl ⟨seen, done⟩
    · exact .inr ⟨seen, done⟩
  refine definition_eq_ok.mpr ⟨called, head, rfl, Input.word_of_rest headed bare, passed, parens',
    body, follows, ?_⟩
  rw [Input.span_of_rest start, ((Derived.all derives fuel).follows follows).2]

theorem recognized_stage {node : Node} {before after : List Lexeme} (takes : Takes 1 before after)
    (here : Recognized inner (.command node) before after) (last : next after ≠ some .pipe) :
    Recognized inner (.stages [node]) before after := by
  have length := takes.length
  refine fun serves => .step (by omega) fun fuel enough input start => ?_
  obtain ⟨left, made, ends⟩ := here serves fuel (by omega) input start
  refine ⟨left, pipelineParts_eq_ok.mpr ⟨node, left, made, ?_⟩, ends⟩
  rw [ends, if_neg last]
  exact ⟨rfl, rfl⟩

theorem recognized_pipe {node : Node} {lexeme : Lexeme} {others : List Node}
    {before rest after : List Lexeme} (takes : Takes 1 before (lexeme :: rest))
    (here : Recognized inner (.command node) before (lexeme :: rest)) (token : lexeme.token = .pipe)
    (later : Recognized inner (.stages others) (pastNewlines rest) after) :
    Recognized inner (.stages (node :: .pipe "|" lexeme.span :: others)) before after := by
  have header := takes.behind.trans (.newlines rfl)
  have length := header.length
  refine fun serves => .step (by omega) fun fuel enough input start => ?_
  obtain ⟨left, made, there⟩ := here serves fuel (by omega) input start
  obtain ⟨last, done, ends⟩ := later (serves.suffix header.suffix) fuel (by omega)
    left.advanced.skipped (by rw [Input.skipped_rest, Input.advanced_of_rest there])
  refine ⟨last, pipelineParts_eq_ok.mpr ⟨node, left, made, ?_⟩, ends⟩
  rw [Input.next_of_rest there, token, if_pos rfl, Input.span_of_rest there]
  exact ⟨others, done, rfl⟩

theorem recognized_pipeline {parts : List Node} {node : Node} {before after : List Lexeme}
    (takes : Takes 1 before after)
    (made : parts = [node] ∨ parts.length ≠ 1 ∧ node = .pipeline parts (spanning parts))
    (read : Recognized inner (.stages parts) before after) :
    Recognized inner (.pipeline node) before after := by
  have length := takes.length
  refine fun serves => .step (by omega) fun fuel enough input start => ?_
  obtain ⟨left, done, ends⟩ := read serves fuel (by omega) input start
  exact ⟨left, pipeline_eq_ok.mpr ⟨parts, done, made⟩, ends⟩

theorem recognized_link {node : Node} {before after : List Lexeme} (takes : Takes 1 before after)
    (here : Recognized inner (.pipeline node) before after)
    (last : (next after).bind connective? = none) :
    Recognized inner (.chain [node]) before after := by
  have length := takes.length
  refine fun serves => .step (by omega) fun fuel enough input start => ?_
  obtain ⟨left, made, ends⟩ := here serves fuel (by omega) input start
  refine ⟨left, andOr_eq_ok.mpr ⟨node, left, made, ?_⟩, ends⟩
  rw [ends, last]
  exact ⟨rfl, rfl⟩

theorem recognized_chain {node : Node} {lexeme : Lexeme} {op : String} {others : List Node}
    {before rest after : List Lexeme} (takes : Takes 1 before (lexeme :: rest))
    (here : Recognized inner (.pipeline node) before (lexeme :: rest))
    (token : connective? lexeme.token = some op)
    (later : Recognized inner (.chain others) (pastNewlines rest) after) :
    Recognized inner (.chain (node :: .operator op lexeme.span :: others)) before after := by
  have header := takes.behind.trans (.newlines rfl)
  have length := header.length
  refine fun serves => .step (by omega) fun fuel enough input start => ?_
  obtain ⟨left, made, there⟩ := here serves fuel (by omega) input start
  obtain ⟨last, done, ends⟩ := later (serves.suffix header.suffix) fuel (by omega)
    left.advanced.skipped (by rw [Input.skipped_rest, Input.advanced_of_rest there])
  refine ⟨last, andOr_eq_ok.mpr ⟨node, left, made, ?_⟩, ends⟩
  rw [Input.next_of_rest there, Option.bind_some, token, Input.span_of_rest there]
  exact ⟨others, done, rfl⟩

theorem recognized_noEntry {before : List Lexeme}
    (closed : endsList (pastNewlines before) = true) :
    Recognized inner (.entries false []) before (pastNewlines before) := by
  refine fun _ => .step (Nat.succ_pos _) fun fuel _ input here => ⟨input.skipped, ?_, ?_⟩
  · rw [listParts_eq_ok, here, if_pos (by simpa using closed)]
    exact ⟨rfl, rfl⟩
  · rw [Input.skipped_rest, here]

/-- A list is read once its first chain is and what becomes of it behind that. -/
theorem recognized_entry {topLevel : Bool} {chain parts : List Node}
    {before start middle after : List Lexeme} (opens : Opens topLevel before start)
    (here : Recognized inner (.chain chain) start middle)
    (extends_ : inner.ServesAll before → ∀ fuel, 8 * before.length ≤ fuel → ∀ input : Input,
      input.rest = middle → ∃ left, Extends inner fuel topLevel chain input parts left ∧
        left.rest = after) :
    Recognized inner (.entries topLevel parts) before after := by
  refine fun serves => .step (Nat.succ_pos _) fun fuel enough input begins => ?_
  have length := opens.takes.length
  have opened : (input.opened topLevel).rest = start := by
    cases topLevel with
    | true => exact begins.trans opens.symm
    | false => exact (Input.skipped_rest input).trans (begins ▸ opens.1.symm)
  obtain ⟨left, made, there⟩ := here (serves.suffix opens.takes.suffix) fuel (by omega) _ opened
  obtain ⟨last, done, ends⟩ := extends_ serves fuel (by omega) left there
  refine ⟨last, ?_, ends⟩
  rw [listParts_eq_ok, if_neg]
  · exact ⟨chain, left, made, done⟩
  · cases topLevel with
    | true => simp
    | false => simpa [begins, ← opens.1] using opens.2

theorem recognized_lastEntry {parts : List Node} {lexeme : Lexeme} {op : String}
    {before after : List Lexeme} (here : Recognized inner (.chain parts) before (lexeme :: after))
    (token : separator? true lexeme.token = some op) (line : endsLine after = true) :
    Recognized inner (.entries true (parts ++ [.operator op lexeme.span])) before after := by
  refine recognized_entry rfl here fun _ fuel _ input there => ⟨input.advanced, ?_, ?_⟩
  · rw [Extends, Input.next_of_rest there, Option.bind_some, token, Input.span_of_rest there,
      Input.advanced_of_rest there]
    simp only [line, Bool.and_self, if_true, and_self]
  · exact Input.advanced_of_rest there

theorem recognized_entries {topLevel : Bool} {parts others : List Node} {lexeme : Lexeme}
    {op : String} {before start rest after : List Lexeme} (opens : Opens topLevel before start)
    (takes : Takes parts.length start (lexeme :: rest))
    (here : Recognized inner (.chain parts) start (lexeme :: rest))
    (token : separator? topLevel lexeme.token = some op)
    (goes : topLevel = true → endsLine rest = false)
    (later : Recognized inner (.entries topLevel others) rest after) :
    Recognized inner (.entries topLevel (parts ++ .operator op lexeme.span :: others))
      before after := by
  have header := opens.takes.trans takes.behind
  have length := header.length
  refine recognized_entry opens here fun serves fuel enough input there => ?_
  obtain ⟨left, done, ends⟩ := later (serves.suffix header.suffix) fuel (by omega) input.advanced
    (Input.advanced_of_rest there)
  refine ⟨left, ?_, ends⟩
  have more : (topLevel && endsLine rest) = false := by
    cases topLevel with
    | true => exact goes rfl
    | false => rfl
  rw [Extends, Input.next_of_rest there, Option.bind_some, token, Input.span_of_rest there,
    Input.advanced_of_rest there]
  simp only [more, Bool.false_eq_true, if_false]
  exact ⟨others, done, rfl⟩

theorem recognized_list {topLevel : Bool} {parts : List Node} {node : Node}
    {before after : List Lexeme} (made : listed? parts = some node)
    (read : Recognized inner (.entries topLevel parts) before after) :
    Recognized inner (.list topLevel node) before after := by
  refine fun serves => .step (Nat.succ_pos _) fun fuel enough input start => ?_
  obtain ⟨left, done, ends⟩ := read serves fuel (by omega) input start
  exact ⟨left, list_eq_ok.mpr ⟨parts, done, made⟩, ends⟩

theorem recognized_ended {before : List Lexeme} (nothing : pastNewlines before = []) :
    Recognized inner (.script []) before [] := by
  refine fun _ => .step (Nat.succ_pos _) fun fuel _ input here => ⟨input.skipped, ?_, ?_⟩
  · rw [script_eq_ok, here, if_pos nothing]
    exact ⟨rfl, rfl⟩
  · rw [Input.skipped_rest, here, nothing]

theorem recognized_line {node : Node} {others : List Node} {before middle after : List Lexeme}
    (something : pastNewlines before ≠ []) (takes : Takes 1 (pastNewlines before) middle)
    (here : Recognized inner (.list true node) (pastNewlines before) middle)
    (line : endsLine middle = true) (later : Recognized inner (.script others) middle after) :
    Recognized inner (.script (node :: others)) before after := by
  have newlines : Takes 0 before (pastNewlines before) := .newlines rfl
  have header := newlines.trans takes
  have length := newlines.length
  have longer := header.length
  refine fun serves => .step (Nat.succ_pos _) fun fuel enough input start => ?_
  obtain ⟨left, made, there⟩ := here (serves.suffix (Takes.newlines rfl).suffix) fuel (by omega)
    input.skipped (by rw [Input.skipped_rest, start])
  obtain ⟨last, done, ends⟩ := later (serves.suffix header.suffix) fuel (by omega) left there
  refine ⟨last, script_eq_ok.mpr ?_, ends⟩
  rw [start, if_neg something]
  exact ⟨node, left, made, there ▸ line, others, done, rfl⟩

end

theorem Reads.recognized {inner : Inner} (derives : inner.Derives) {phrase : Phrase}
    {before after : List Lexeme} (read : Reads phrase before after) :
    Recognized inner phrase before after := by
  induction read with
  | noPieces => exact fun _ => rfl
  | plain _ later => exact fun serves => later serves.tail
  | guarded _ later => exact fun serves => later serves.tail
  | reference _ later =>
    intro serves
    rw [partsOf, later serves.tail]
    rfl
  | substitution tokens inside made _ _ later =>
    intro serves
    have inside := serves _ _ _ List.mem_cons_self _ _ tokens inside
    rw [partsOf]
    exact except_bind_eq_ok.mpr ⟨_, inside, except_bind_eq_ok.mpr ⟨_, made,
      except_bind_eq_ok.mpr ⟨_, later serves.tail, rfl⟩⟩⟩
  | word token _ pieces =>
    intro serves
    exact ⟨_, _, _, rfl, token, pieces (serves _ List.mem_cons_self _ token), rfl⟩
  | redirect token _ leads =>
    intro serves
    obtain ⟨lexeme, read, parts, rfl, word, pieces, rfl⟩ := leads serves.tail
    exact ⟨_, congrArg some token, fun _ _ input here => ⟨_, redirect_eq_ok.mpr
      ⟨_, lexeme, _, read, parts, here, word, pieces, rfl, rfl⟩, rfl⟩⟩
  | noRedirect other => exact recognized_noRedirect other
  | redirects read _ here later => exact recognized_redirects read.takes here later
  | noPart word redirect => exact recognized_noPart word redirect
  | assignment token form _ _ pieces later => exact recognized_assignment token form pieces later
  | argument token form _ _ here later => exact recognized_argument token form here later
  | redirected read _ here later => exact recognized_redirected read.takes here later
  | noItem other => exact recognized_noItem other
  | items _ _ here later => exact recognized_items here later
  | group pair read _ inside behind => exact recognized_group derives pair read.takes inside behind
  | clause read then_ _ noElif noElse test inside =>
    exact recognized_clause read.takes test then_ inside noElif noElse
  | clauseElse read then_ body else_ _ test inside otherwise =>
    exact recognized_clauseElse read.takes body.takes test then_ inside else_ otherwise
  | clauseElif read then_ body elif_ _ test inside later =>
    exact recognized_clauseElif read.takes body.takes test then_ inside elif_ later
  | simple begins some reads read => exact recognized_simple derives begins some reads read
  | grouped read group => exact recognized_grouped read.takes group
  | forIn for_ named form newlines in_ read separators do_ _ done_ values inside =>
    exact recognized_forIn for_ named form newlines in_ (read.takes.weaken (Nat.zero_le _)) values
      separators do_ inside done_
  | forEach for_ named form newlines noIn separators do_ _ done_ inside =>
    exact recognized_forEach for_ named form newlines noIn separators do_ inside done_
  | conditional if_ _ fi_ read => exact recognized_conditional if_ read fi_
  | function function_ named parens _ inside =>
    exact recognized_named derives (.inl function_) (if_pos function_) named parens inside
  | definition named unreserved first second _ inside =>
    have other : ¬ _ = some "function" := fun same =>
      unreserved (Option.some.inj (named.symm.trans same) ▸ by decide)
    exact recognized_named derives
      (.inr ⟨_, named, unreserved, congrArg₂ (fun one two => [one, two]) first second⟩)
      (if_neg other) named (.pair first second) inside
  | stage read last here => exact recognized_stage read.takes here last
  | pipe read token _ here later => exact recognized_pipe read.takes here token later
  | single stages read => exact recognized_pipeline stages.takes (.inl rfl) read
  | pipeline several stages read =>
    exact recognized_pipeline
      (stages.takes.weaken (List.length_pos_of_ne_nil stages.stages_ne_nil))
      (.inr ⟨several, rfl⟩) read
  | link read last here => exact recognized_link read.takes here last
  | chain read token _ here later => exact recognized_chain read.takes here token later
  | noEntry closed => exact recognized_noEntry closed
  | entry opens _ last here =>
    refine recognized_entry opens here fun _ fuel _ input there => ⟨input, ?_, there⟩
    rw [Extends, there, last]
    exact ⟨rfl, rfl⟩
  | lastEntry _ token line here => exact recognized_lastEntry here token line
  | entries opens read token goes _ here later =>
    exact recognized_entries opens read.takes here token goes later
  | list _ made read => exact recognized_list made read
  | ended nothing => exact recognized_ended nothing
  | line something read line _ here later =>
    exact recognized_line something read.takes here line later

end Grammar

namespace Script

open Grammar (Reads)

/-- A text is parsed as its tokens are read. -/
theorem parseAt_of_reads (text : List Char) (offset : Nat) {lexemes : List Lexeme}
    {nodes : List Node} (tokens : lex text offset = .ok lexemes)
    (read : Reads (.script nodes) lexemes []) : parseAt text offset = .ok nodes := by
  induction h : text.length using Nat.strong_induction_on
    generalizing text offset lexemes nodes with
  | _ length ih =>
    subst h
    let inner : Grammar.Inner := fun body start =>
      if body.length < text.length then parseAt body start else .error .emptySubstitution
    have derives : inner.Derives := by
      intro body start nodes parsed
      dsimp only [inner] at parsed
      split at parsed
      · exact parseAt_reads body start nodes parsed
      · cases parsed
    have serves : inner.ServesAll lexemes := by
      intro lexeme member word token body span start piece others parts made inside
      dsimp only [inner]
      rw [if_pos (lex_short tokens member token piece)]
      exact ih _ (lex_short tokens member token piece) body start made inside rfl
    obtain ⟨left, made, -⟩ := read.recognized derives serves
      (Grammar.fuelFor lexemes.length) (by rw [Grammar.fuelFor]; omega)
      ⟨lexemes, ((lexemes.getLast?.map (·.stop)).getD (Position.starting offset)).offset,
        (lexemes.getLast?.map (·.stop)).getD (Position.starting offset)⟩ rfl
    rw [parseAt]
    refine except_bind_eq_ok.mpr ⟨lexemes, tokens, except_bind_eq_ok.mpr ⟨(nodes, left), ?_, rfl⟩⟩
    exact made

theorem parseAt_eq_ok {text : List Char} {offset : Nat} {nodes : List Node} :
    parseAt text offset = .ok nodes ↔
      ∃ lexemes, lex text offset = .ok lexemes ∧ Reads (.script nodes) lexemes [] :=
  ⟨parseAt_reads text offset nodes, fun ⟨_, tokens, read⟩ =>
    parseAt_of_reads text offset tokens read⟩

end Script

end StepShell

import StepShell.Proofs.Script.Recognition
import StepShell.Proofs.Script.Defines

/-! What the tree of a script shows of its tokens. Each token that a reading takes is shown once, in
the order of the tokens, or it is one of the few that leave no trace. -/

namespace StepShell

/-- What a tree shows of a token: its text, and where it stands if a node is there for it. -/
inductive Mark where
  | word (text : String) (span : Span)
  | sign (text : String) (span : Span)
  | keyword (text : String) (span : Option Span)
  | redirect (kind : RedirectKind) (start : Nat)

namespace Token

/-- How a token that is no word and no redirect is written. -/
def sign? : Token → Option String
  | .newline => some "\n"
  | .semicolon => some ";"
  | .pipe => some "|"
  | .and => some "&&"
  | .or => some "||"
  | .background => some "&"
  | .leftParen => some "("
  | .rightParen => some ")"
  | .word _ | .redirect _ => none

theorem eq_semicolon {token : Token} (sign : token.sign? = some ";") : token = .semicolon := by
  cases token <;> simp_all [sign?]

theorem eq_newline {token : Token} (sign : token.sign? = some "\n") : token = .newline := by
  cases token <;> simp_all [sign?]

end Token

/-- The token is the one that the mark is of. -/
def Mark.Of (lexeme : Lexeme) : Mark → Prop
  | .word text span => (∃ read, lexeme.token = .word read ∧ read.text = text) ∧ lexeme.span = span
  | .sign text span => lexeme.token.sign? = some text ∧ lexeme.span = span
  | .keyword text span => lexeme.token.bare? = some text ∧ ∀ place ∈ span, lexeme.span = place
  | .redirect kind start => lexeme.token = .redirect kind ∧ lexeme.span.start = start

/-- The items of a loop that names none. -/
def Grammar.implicit : List Node → Bool
  | [.word "$@" [.parameter "$@" inside] true span] => inside = span
  | _ => false

mutual

/-- The tokens that a tree shows, in order. -/
def Node.marks : Node → List Mark
  | .word text _ _ span | .assignment text _ span => [.word text span]
  | .parameter .. | .substitution .. => []
  | .operator text span | .pipe text span => [.sign text span]
  | .reserved text span =>
    [if text = "(" || text = ")" then .sign text span else .keyword text (some span)]
  | .command parts _ | .pipeline parts _ | .list parts _ => Node.marksAll parts
  | .compound parts redirects _ => Node.marksAll parts ++ Node.marksAll redirects
  | .redirect kind target span => .redirect kind span.start :: target.marks
  | .forLoop name items body _ =>
    .keyword "for" none :: .keyword name none ::
      (if Grammar.implicit items then [] else .keyword "in" none :: Node.marksAll items) ++
      .keyword "do" none :: body.marks ++ [.keyword "done" none]
  | .conditional clauses _ => Clause.marksAll clauses ++ [.keyword "fi" none]
  | .function name body _ => .keyword name none :: body.marks

def Node.marksAll : List Node → List Mark
  | [] => []
  | node :: rest => node.marks ++ Node.marksAll rest

def Clause.marks : Clause → List Mark
  | .mk keyword (some condition) body =>
    .keyword keyword none :: condition.marks ++ .keyword "then" none :: body.marks
  | .mk keyword none body => .keyword keyword none :: body.marks

def Clause.marksAll : List Clause → List Mark
  | [] => []
  | clause :: rest => clause.marks ++ Clause.marksAll rest

end

/-- The marks are of the tokens, in order and one for each, but for newlines, semicolons, the
parentheses of a definition and the word before one. -/
inductive Accounts : List Mark → List Lexeme → Prop where
  | done : Accounts [] []
  | shown {mark : Mark} {marks : List Mark} {lexeme : Lexeme} {rest : List Lexeme}
      (of : mark.Of lexeme) (later : Accounts marks rest) :
      Accounts (mark :: marks) (lexeme :: rest)
  | newline {marks : List Mark} {lexeme : Lexeme} {rest : List Lexeme}
      (token : lexeme.token = .newline) (later : Accounts marks rest) :
      Accounts marks (lexeme :: rest)
  | semicolon {marks : List Mark} {lexeme : Lexeme} {rest : List Lexeme}
      (token : lexeme.token = .semicolon) (later : Accounts marks rest) :
      Accounts marks (lexeme :: rest)
  | parens {marks : List Mark} {left right : Lexeme} {rest : List Lexeme}
      (first : left.token = .leftParen) (second : right.token = .rightParen)
      (later : Accounts marks rest) : Accounts marks (left :: right :: rest)
  | function {marks : List Mark} {lexeme : Lexeme} {rest : List Lexeme}
      (bare : lexeme.token.bare? = some "function") (later : Accounts marks rest) :
      Accounts marks (lexeme :: rest)

theorem Node.marksAll_append (first second : List Node) :
    Node.marksAll (first ++ second) = Node.marksAll first ++ Node.marksAll second := by
  induction first with
  | nil => rfl
  | cons node rest ih =>
    rw [List.cons_append, Node.marksAll, Node.marksAll, ih, List.append_assoc]

namespace Grammar

theorem dropSeparators_operator (front : List Node) (op : String) (span : Span) :
    dropSeparators (front ++ [.operator op span]) =
      if op = ";" ∨ op = "\n" then dropSeparators front else front ++ [.operator op span] := by
  rw [dropSeparators, List.reverse_append, List.reverse_singleton, List.singleton_append,
    List.dropWhile_cons]
  by_cases separator : op = ";" ∨ op = "\n"
  · rw [if_pos separator, if_pos (by simpa using separator)]
    rfl
  · rw [if_neg separator, if_neg (by simpa using separator), List.reverse_cons,
      List.reverse_reverse]

theorem dropSeparators_command (front : List Node) {last : Node}
    (other : ∀ op span, last ≠ .operator op span) :
    dropSeparators (front ++ [last]) = front ++ [last] := by
  rw [dropSeparators, List.reverse_append, List.reverse_singleton, List.singleton_append,
    List.dropWhile_cons, if_neg, List.reverse_cons, List.reverse_reverse]
  split
  · exact absurd rfl (other _ _)
  · exact Bool.false_ne_true

end Grammar

namespace Accounts

variable {marks : List Mark} {lexemes : List Lexeme}

theorem newlines (accounts : Accounts marks (Grammar.pastNewlines lexemes)) :
    Accounts marks lexemes := by
  induction lexemes with
  | nil => exact accounts
  | cons lexeme rest ih =>
    rw [Grammar.pastNewlines, List.dropWhile_cons] at accounts
    split at accounts
    · rename_i token
      exact .newline (by simpa using token) (ih accounts)
    · exact accounts

theorem separators (accounts : Accounts marks (Grammar.pastSeparators lexemes)) :
    Accounts marks lexemes := by
  induction lexemes with
  | nil => exact accounts
  | cons lexeme rest ih =>
    rw [Grammar.pastSeparators, List.dropWhile_cons] at accounts
    split at accounts
    · rename_i token
      obtain token | token : lexeme.token = .semicolon ∨ lexeme.token = .newline := by
        simpa using token
      · exact .semicolon token (ih accounts)
      · exact .newline token (ih accounts)
    · exact accounts

/-- The mark of a separator may be left out. -/
theorem unmarked {front behind : List Mark} {op : String} {span : Span}
    (known : op = ";" ∨ op = "\n")
    (accounts : Accounts (front ++ .sign op span :: behind) lexemes) :
    Accounts (front ++ behind) lexemes := by
  generalize same : front ++ .sign op span :: behind = whole at accounts
  induction accounts generalizing front with
  | done => simp at same
  | @shown mark marks lexeme rest of later ih =>
    cases front with
    | nil =>
      obtain ⟨rfl, rfl⟩ := List.cons.inj same
      obtain ⟨sign, -⟩ := of
      obtain rfl | rfl := known
      · exact .semicolon (Token.eq_semicolon sign) later
      · exact .newline (Token.eq_newline sign) later
    | cons first front =>
      obtain ⟨rfl, rfl⟩ := List.cons.inj same
      exact .shown of (ih rfl)
  | newline token _ ih => exact .newline token (ih same)
  | semicolon token _ ih => exact .semicolon token (ih same)
  | parens first second _ ih => exact .parens first second (ih same)
  | function bare _ ih => exact .function bare (ih same)

theorem dropped {parts : List Node} {behind : List Mark}
    (accounts : Accounts (Node.marksAll parts ++ behind) lexemes) :
    Accounts (Node.marksAll (Grammar.dropSeparators parts) ++ behind) lexemes := by
  induction parts using List.reverseRecOn with
  | nil => exact accounts
  | append_singleton front last ih =>
    by_cases separator : ∃ op span, last = .operator op span ∧ (op = ";" ∨ op = "\n")
    · obtain ⟨op, span, rfl, known⟩ := separator
      rw [Grammar.dropSeparators_operator, if_pos known]
      rw [Node.marksAll_append, List.append_assoc] at accounts
      exact ih (unmarked known accounts)
    · have kept : Grammar.dropSeparators (front ++ [last]) = front ++ [last] := by
        by_cases operator : ∃ op span, last = .operator op span
        · obtain ⟨op, span, rfl⟩ := operator
          rw [Grammar.dropSeparators_operator, if_neg fun known =>
            separator ⟨op, span, rfl, known⟩]
        · exact Grammar.dropSeparators_command front fun op span same => operator ⟨op, span, same⟩
      rw [kept]
      exact accounts

end Accounts

namespace Grammar

theorem listed?_marks {parts : List Node} {node : Node} (made : listed? parts = some node) :
    node.marks = Node.marksAll (dropSeparators parts) := by
  rw [listed?] at made
  generalize dropSeparators parts = kept at made
  rcases kept with _ | ⟨first, _ | ⟨second, rest⟩⟩
  · cases made
  · cases made
    simp [Node.marksAll]
  · cases made
    rw [Node.marks]

/-- No parameter takes the place of a quoted word, as none does among the tokens of a text. -/
def Proper (lexeme : Lexeme) : Prop :=
  ∀ read, lexeme.token = .word read → read.quoted = true →
    ∀ value, .reference value lexeme.span ∉ read.pieces

/-- A parameter of a word is one of its pieces. -/
theorem Reads.refers {phrase : Phrase} {before after : List Lexeme}
    (read : Reads phrase before after) {pieces : List Word.Piece} {parts : List Node}
    (same : phrase = .pieces pieces parts) {value : String} {span : Span}
    (member : .parameter value span ∈ parts) : ∃ value, .reference value span ∈ pieces := by
  induction read generalizing pieces parts with
  | noPieces =>
    cases same
    cases member
  | plain _ ih | guarded _ ih =>
    cases same
    obtain ⟨value, member⟩ := ih rfl member
    exact ⟨value, List.mem_cons_of_mem _ member⟩
  | reference _ ih =>
    cases same
    rcases List.mem_cons.mp member with same | member
    · cases same
      exact ⟨_, List.mem_cons_self⟩
    · obtain ⟨value, member⟩ := ih rfl member
      exact ⟨value, List.mem_cons_of_mem _ member⟩
  | substitution _ _ _ _ _ ih =>
    cases same
    rcases List.mem_cons.mp member with same | member
    · cases same
    · obtain ⟨value, member⟩ := ih rfl member
      exact ⟨value, List.mem_cons_of_mem _ member⟩
  | _ => cases same

/-- The items that a script names are not those of a loop that names none. -/
theorem Reads.explicit {items : List Node} {before after : List Lexeme}
    (read : Reads (.items items) before after) (proper : ∀ lexeme ∈ before, Proper lexeme) :
    implicit items = false := by
  cases read with
  | noItem => rfl
  | items here later =>
    cases here with
    | @word lexeme read parts rest token pieces =>
      rw [← Bool.not_eq_true]
      intro wrong
      unfold implicit at wrong
      split at wrong
      · rename_i inside span same
        simp only [List.cons.injEq, Node.word.injEq] at same
        obtain ⟨⟨-, rfl, quoted, rfl⟩, -⟩ := same
        obtain rfl := of_decide_eq_true wrong
        obtain ⟨value, member⟩ := pieces.refers rfl (List.mem_singleton_self _)
        exact proper lexeme List.mem_cons_self read token quoted value member
      · cases wrong

/-- The marks are of the tokens up to some later ones. -/
structure Shown (marks : List Mark) (before after : List Lexeme) : Prop where
  suffix : after <:+ before
  accounts : (∀ lexeme ∈ before, Proper lexeme) → ∀ later, Accounts later after →
    Accounts (marks ++ later) before

namespace Shown

variable {marks more : List Mark} {lexeme : Lexeme}
  {before middle after rest : List Lexeme}

theorem refl (lexemes : List Lexeme) : Shown [] lexemes lexemes :=
  ⟨List.suffix_refl _, fun _ _ accounts => accounts⟩

theorem trans (first : Shown marks before middle) (second : Shown more middle after) :
    Shown (marks ++ more) before after := by
  refine ⟨second.suffix.trans first.suffix, fun proper later accounts => ?_⟩
  rw [List.append_assoc]
  refine first.accounts proper _ (second.accounts (fun lexeme member => ?_) _ accounts)
  exact proper lexeme (first.suffix.subset member)

theorem pass (passes : ∀ {marks}, Accounts marks rest → Accounts marks before)
    (suffix : rest <:+ before) : Shown [] before rest :=
  ⟨suffix, fun _ _ accounts => passes accounts⟩

theorem newlines (same : pastNewlines before = after) : Shown [] before after :=
  .pass (fun accounts => .newlines (same ▸ accounts)) (same ▸ List.dropWhile_suffix _)

theorem separators (same : pastSeparators before = after) : Shown [] before after :=
  .pass (fun accounts => .separators (same ▸ accounts)) (same ▸ List.dropWhile_suffix _)

theorem single (mark : Mark) (of : mark.Of lexeme) : Shown [mark] (lexeme :: rest) rest :=
  ⟨List.suffix_cons _ _, fun _ _ accounts => .shown of accounts⟩

theorem cons (mark : Mark) (of : mark.Of lexeme) (later : Shown marks rest after) :
    Shown (mark :: marks) (lexeme :: rest) after :=
  (single mark of).trans later

theorem snoc (earlier : Shown marks before (lexeme :: rest)) (mark : Mark) (of : mark.Of lexeme) :
    Shown (marks ++ [mark]) before rest :=
  earlier.trans (single mark of)

theorem dropped {parts : List Node} (shown : Shown (Node.marksAll parts) before after) :
    Shown (Node.marksAll (dropSeparators parts)) before after :=
  ⟨shown.suffix, fun proper later accounts => (shown.accounts proper later accounts).dropped⟩

end Shown

/-- The tokens that a phrase shows. -/
def Phrase.marks : Phrase → List Mark
  | .pieces _ _ => []
  | .word node | .redirect node | .group node | .command node | .pipeline node
  | .list _ node => node.marks
  | .redirects nodes | .parts _ nodes | .items nodes | .stages nodes | .chain nodes
  | .entries _ nodes | .script nodes => Node.marksAll nodes
  -- the word that begins the first clause stands before it
  | .clauses _ made => (Clause.marksAll made).tail

theorem Opens.shown {topLevel : Bool} {before start : List Lexeme}
    (opens : Opens topLevel before start) : Shown [] before start := by
  cases topLevel with
  | true => exact opens ▸ .refl _
  | false => exact .newlines opens.1.symm

theorem Parens.shown {before after : List Lexeme} (parens : Parens before after) :
    Shown [] before after := by
  cases parens with
  | none => exact .refl _
  | pair first second =>
    exact .pass (fun accounts => .parens first second accounts)
      ((List.suffix_cons _ _).trans (List.suffix_cons _ _))

theorem separator?_sign {topLevel : Bool} {token : Token} {op : String}
    (sign : separator? topLevel token = some op) : token.sign? = some op := by
  cases token <;> simp_all [separator?, Token.sign?]

theorem connective?_sign {token : Token} {op : String} (sign : connective? token = some op) :
    token.sign? = some op := by
  cases token <;> simp_all [connective?, Token.sign?]

/-- The words or parentheses of a group are shown as they stand. -/
theorem Brackets.shown {opening closing : String} {opener closer : Lexeme}
    (pair : Brackets opening closing opener.token closer.token) :
    (if opening = "(" || opening = ")" then Mark.sign opening opener.span
      else .keyword opening (some opener.span)).Of opener ∧
    (if closing = "(" || closing = ")" then Mark.sign closing closer.span
      else .keyword closing (some closer.span)).Of closer := by
  generalize opens : opener.token = first at pair
  generalize closes : closer.token = last at pair
  cases pair with
  | parens => exact ⟨⟨by rw [opens]; rfl, rfl⟩, by rw [closes]; rfl, rfl⟩
  | braces one two =>
    exact ⟨⟨opens ▸ one, by simp⟩, closes ▸ two, by simp⟩

/-- The first of the clauses begins with the word that led to them. -/
theorem Reads.clauses_marks {keyword : String} {clauses : List Clause}
    {before after : List Lexeme} (read : Reads (.clauses keyword clauses) before after) :
    Clause.marksAll clauses = .keyword keyword none :: (Clause.marksAll clauses).tail := by
  cases read <;> simp [Clause.marksAll, Clause.marks]

theorem Shown.keyword {marks : List Mark} {word : String} {lexeme : Lexeme}
    {before rest : List Lexeme} (earlier : Shown marks before (lexeme :: rest))
    (bare : lexeme.token.bare? = some word) : Shown (marks ++ [.keyword word none]) before rest :=
  earlier.snoc _ ⟨bare, by simp⟩

theorem Reads.shown {phrase : Phrase} {before after : List Lexeme}
    (read : Reads phrase before after) : Shown phrase.marks before after := by
  induction read with
  | noPieces => exact .refl _
  | plain => exact .refl _
  | guarded => exact .refl _
  | reference => exact .refl _
  | substitution => exact .refl _
  | word token _ _ => exact .single _ ⟨⟨_, token, rfl⟩, rfl⟩
  | redirect token _ leads => exact .cons _ ⟨token, rfl⟩ leads
  | noRedirect => exact .refl _
  | redirects _ _ here others => exact here.trans others
  | noPart => exact .refl _
  | assignment token _ _ _ _ later => exact .cons _ ⟨⟨_, token, rfl⟩, rfl⟩ later
  | argument _ _ _ _ here later => exact here.trans later
  | redirected _ _ here later => exact here.trans later
  | noItem => exact .refl _
  | items _ _ here later => exact here.trans later
  | group pair _ _ inside behind =>
    have shown := ((inside.cons _ pair.shown.1).snoc _ pair.shown.2).trans behind
    simpa [Phrase.marks, Node.marks, Node.marksAll] using shown
  | clause _ then_ _ _ _ test inside =>
    simpa [Phrase.marks, Clause.marks, Clause.marksAll] using (test.keyword then_).trans inside
  | clauseElse _ then_ _ else_ _ test inside otherwise =>
    have shown := (((test.keyword then_).trans inside).keyword else_).trans otherwise
    simpa [Phrase.marks, Clause.marks, Clause.marksAll] using shown
  | clauseElif _ then_ _ elif_ read test inside later =>
    have shown := (((test.keyword then_).trans inside).keyword elif_).trans later
    simpa [Phrase.marks, Clause.marks, Clause.marksAll, ← read.clauses_marks] using shown
  | simple _ _ _ read => exact read
  | grouped _ group => exact group
  | forIn for_ named form newlines in_ read separators do_ _ done_ values inside =>
    have header := ((Shown.newlines newlines).keyword in_).trans values
    have opened := (header.trans (.separators separators)).keyword do_
    have loop := (opened.trans inside).keyword done_
    have shown := (loop.cons (.keyword _ none) ⟨named, by simp⟩).cons
      (.keyword "for" none) ⟨for_, by simp⟩
    refine ⟨shown.suffix, fun proper later accounts => ?_⟩
    have explicit := read.explicit fun lexeme member => proper lexeme
      (List.mem_cons_of_mem _ (List.mem_cons_of_mem _
        ((Shown.newlines newlines).suffix.subset (List.mem_cons_of_mem _ member))))
    simpa [Phrase.marks, Node.marks, explicit] using shown.accounts proper later accounts
  | forEach for_ named form newlines noIn separators do_ _ done_ inside =>
    have header := (Shown.newlines newlines).trans (.separators separators)
    have loop := ((header.keyword do_).trans inside).keyword done_
    have shown := (loop.cons (.keyword _ none) ⟨named, by simp⟩).cons
      (.keyword "for" none) ⟨for_, by simp⟩
    simpa [Phrase.marks, Node.marks, positionals, implicit] using shown
  | conditional if_ read fi_ clauses =>
    have shown := (clauses.keyword fi_).cons (.keyword "if" none) ⟨if_, by simp⟩
    rw [Phrase.marks, Node.marks, read.clauses_marks]
    exact shown
  | function function_ named parens _ inside =>
    have behind := (parens.shown.trans (.newlines rfl)).trans inside
    have shown := behind.cons (.keyword _ none) ⟨named, by simp⟩
    exact (Shown.pass (.function function_) (List.suffix_cons _ _)).trans shown
  | definition named _ first second _ inside =>
    have behind := ((Parens.pair first second).shown.trans (.newlines rfl)).trans inside
    exact behind.cons (.keyword _ none) ⟨named, by simp⟩
  | stage _ _ here => simpa [Phrase.marks, Node.marksAll] using here
  | pipe _ token _ here later =>
    have piped := here.snoc (.sign "|" _) ⟨token ▸ rfl, rfl⟩
    have shown := (piped.trans (.newlines rfl)).trans later
    simpa [Phrase.marks, Node.marks, Node.marksAll] using shown
  | single _ read => simpa [Phrase.marks, Node.marksAll] using read
  | pipeline _ _ read => exact read
  | link _ _ here => simpa [Phrase.marks, Node.marksAll] using here
  | chain _ token _ here later =>
    have linked := here.snoc (.sign _ _) ⟨connective?_sign token, rfl⟩
    have shown := (linked.trans (.newlines rfl)).trans later
    simpa [Phrase.marks, Node.marks, Node.marksAll] using shown
  | noEntry => exact .newlines rfl
  | entry opens _ _ here => exact opens.shown.trans here
  | lastEntry _ token _ here =>
    have shown := here.snoc (.sign _ _) ⟨separator?_sign token, rfl⟩
    simpa [Phrase.marks, Node.marks, Node.marksAll, Node.marksAll_append] using shown
  | entries opens _ token _ _ here later =>
    have ended := here.snoc (.sign _ _) ⟨separator?_sign token, rfl⟩
    have shown := (opens.shown.trans ended).trans later
    simpa [Phrase.marks, Node.marks, Node.marksAll, Node.marksAll_append] using shown
  | list _ made read =>
    rw [Phrase.marks, listed?_marks made]
    exact read.dropped
  | ended nothing => exact .newlines nothing
  | line _ _ _ _ here later =>
    exact ((Shown.newlines rfl).trans here).trans later

end Grammar

theorem lex_proper {text : List Char} {offset : Nat} {lexemes : List Lexeme}
    (tokens : lex text offset = .ok lexemes) : ∀ lexeme ∈ lexemes, Grammar.Proper lexeme := by
  intro lexeme member read token quoted value piece
  obtain ⟨gap, own, behind, -, -, stops, fits, -⟩ := (Lexer.lexemes_rows _ _ tokens).1.mem member
  rw [token] at fits
  have inside := (fits.quotes quoted).2 value lexeme.span piece
  rw [Lexeme.span, stops, Position.after_offset] at inside
  exact Nat.lt_irrefl _ inside

namespace Script

/-- What is parsed is what the rules of the grammar read from the tokens of the text, and it
accounts for each token: none is dropped but those that leave no trace, and none is used twice. -/
theorem parse_eq_ok_iff_reads (text : String) (nodes : List Node) :
    parse text = .ok nodes ↔ ∃ lexemes, lex text.toList 0 = .ok lexemes ∧
      Grammar.Reads (.script nodes) lexemes [] ∧ Accounts (Node.marksAll nodes) lexemes := by
  rw [parse, parseAt_eq_ok]
  refine exists_congr fun lexemes => and_congr_right fun tokens => ?_
  refine ⟨fun read => ⟨read, ?_⟩, And.left⟩
  have shown := read.shown.accounts (lex_proper tokens) [] .done
  rwa [List.append_nil] at shown

end Script

end StepShell

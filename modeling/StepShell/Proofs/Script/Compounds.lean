import StepShell.Proofs.Script.Rewording

/-! Simple commands, groups, conditionals, loops and functions are read again of their shell texts,
if the lists inside them are. -/

namespace StepShell

namespace Node

/-- Whether the node is a command or is made up of commands. -/
def isCommand : Node → Bool
  | .command .. | .pipeline .. | .list .. | .compound .. | .forLoop .. | .conditional ..
  | .function .. => true
  | _ => false

variable {node : Node}

theorem shellGroup_parens (start stop : Span) (command : node.isCommand = true) :
    shellGroup [.reserved "(" start, node, .reserved ")" stop] = "( " ++ node.shell ++ " )" := by
  rw [String.append_assoc]
  cases node <;> first | rfl | cases command

theorem shellGroup_braces (start stop : Span) (command : node.isCommand = true) :
    shellGroup [.reserved "\x7b" start, node, .reserved "\x7d" stop] =
      "\x7b " ++ node.shell ++ "; \x7d" := by
  rw [String.append_assoc]
  cases node <;> first | rfl | cases command

end Node

namespace Grammar

open Lexer (Spells Nameable)
open Node (respelledAll shapeAll)

section
variable {node : Node} {before after : List Lexeme}

theorem Reads.group_isCommand (reads : Reads (.group node) before after) :
    node.isCommand = true := by
  cases reads
  rfl

theorem Reads.command_isCommand (reads : Reads (.command node) before after) :
    node.isCommand = true := by
  cases reads with
  | grouped group => exact group.group_isCommand
  | _ => rfl

end

/-- What is written of a command or pipeline. -/
structure CommandAgain (make : Node → Phrase) (allowed : List Token) (node : Node)
    (tokens : List Token) : Prop where
  starts : Starts tokens
  spells : Spells node.shell.toList tokens
  comes : Comes make (·.shape = node.respelled) allowed tokens

/-- What may stand behind a list: the end of the script or of a group in parentheses, or a semicolon
with a reserved word behind it. -/
inductive Ends (node : Node) : Bool → List Lexeme → List Lexeme → Prop where
  | nothing : Ends node true [] []
  | paren {closer : Lexeme} {rest : List Lexeme} (token : closer.token = .rightParen) :
      Ends node false (closer :: rest) (closer :: rest)
  | semicolon {separator word : Lexeme} {name : String} {rest : List Lexeme}
      (closed : node.endsOpen = false) (token : separator.token = .semicolon)
      (bare : word.token.bare? = some name) (ends : name ∈ terminators) :
      Ends node false (separator :: word :: rest) (word :: rest)

/-- What is written of a list. -/
structure ListAgain (topLevel : Bool) (node : Node) (tokens : List Token) : Prop where
  command : node.isCommand = true
  starts : Starts tokens
  spells : Spells node.shell.toList tokens
  reads : ∀ tail after, Ends node topLevel tail after →
    ∃ again, Reads (.list topLevel again) (loose tokens ++ tail) after ∧
      again.shape = node.respelled

section
variable {named : Bool} {node first body : Node} {nodes others parts redirects : List Node}
  {tokens rest more : List Token} {allowed : List Token} {keyword name : String}

/-- No definition begins with the parts of a simple command. -/
theorem PartsAgain.beginsSimple {first : Token} {rest : List Token}
    (again : PartsAgain false nodes (first :: rest))
    (unreserved : ∀ text ∈ Node.opening? nodes, text ∉ reserved) {after : List Lexeme}
    (behind : Behind afterCommand after) :
    Grammar.beginsSimple (loose (first :: rest) ++ after) = true := by
  obtain ⟨-, inside⟩ := List.forall_mem_cons.mp again.inside
  have paren : ((loose rest ++ after).map Lexeme.token).head? ≠ some .leftParen := by
    cases rest with
    | nil =>
      rw [loose_nil, List.nil_append, List.head?_map]
      exact behind.ne (by decide)
    | cons second rest =>
      intro same
      exact inside second List.mem_cons_self (Option.some.inj same ▸ List.mem_cons_self)
  have looks : ((loose rest ++ after).map Lexeme.token).take 2 ≠ [.leftParen, .rightParen] := by
    intro same
    have head := congrArg List.head? same
    rw [List.head?_take, if_neg (by decide)] at head
    exact paren head
  rw [loose_cons, List.cons_append, Grammar.beginsSimple]
  split
  · rfl
  · rename_i word bare
    have free : word ∉ keywords := fun known =>
      have known := List.mem_append_left terminators known
      unreserved word (again.opens word known bare) known
    simpa [free] using looks

theorem PartsAgain.starts (again : PartsAgain false nodes tokens) (some : nodes ≠ [])
    (unreserved : ∀ text ∈ Node.opening? nodes, text ∉ reserved) : Starts tokens := by
  cases tokens with
  | nil => exact absurd (again.empty rfl) some
  | cons first rest =>
    obtain ⟨other, -⟩ := List.forall_mem_cons.mp again.inside
    refine ⟨first, rest, rfl, ?_, ?_, fun word bare known => ?_⟩
    · rintro rfl
      exact other (by decide)
    · rintro rfl
      exact other (by decide)
    · have known := List.mem_append_right keywords known
      exact unreserved word (again.opens word known bare) known

theorem PartsAgain.command {span : Span} (again : PartsAgain false nodes tokens) (some : nodes ≠ [])
    (unreserved : ∀ text ∈ Node.opening? nodes, text ∉ reserved) :
    CommandAgain .command afterCommand (.command nodes span) tokens where
  starts := again.starts some unreserved
  spells := again.spells
  comes after behind := by
    obtain ⟨value, reads, same⟩ := again.comes after behind
    have made : value ≠ [] := by
      rintro rfl
      exact some (List.eq_nil_of_length_eq_zero (outlineAll_length same).symm)
    obtain ⟨first, rest, rfl, -⟩ := again.starts some unreserved
    exact ⟨_, .simple (again.beginsSimple unreserved behind) made reads,
      congrArg (Node.command · default) same⟩

/-- A reserved word as the one token that it is. -/
theorem exists_reserved (name : String) (known : name ∈ "in" :: reserved) :
    ∃ token : Token, token.bare? = some name ∧ Spells name.toList [token] := by
  obtain ⟨read, bare, spells⟩ := Lexer.exists_keyword known
  exact ⟨.word read, bare, spells⟩

theorem pastNewlines_word (word : Lexeme) {rest : List Lexeme}
    (bare : word.token.bare? = some name) : pastNewlines (word :: rest) = word :: rest := by
  refine List.dropWhile_cons_of_neg ?_
  rw [decide_eq_true_eq]
  intro newline
  rw [newline] at bare
  cases bare

theorem pastSeparators_word {separator : Lexeme} (word : Lexeme) {rest : List Lexeme}
    (token : separator.token = .semicolon) (bare : word.token.bare? = some name) :
    pastSeparators (separator :: word :: rest) = word :: rest := by
  rw [pastSeparators, List.dropWhile_cons_of_pos (by simp [token])]
  refine List.dropWhile_cons_of_neg ?_
  rw [Bool.or_eq_true, decide_eq_true_eq, decide_eq_true_eq]
  rintro (same | same) <;> rw [same] at bare <;> cases bare

theorem starts_of_bare {token : Token} (bare : token.bare? = some name) (free : name ∉ terminators)
    (rest : List Token) : Starts (token :: rest) := by
  refine ⟨token, rest, rfl, ?_, ?_, fun word same => ?_⟩
  · rintro rfl
    cases bare
  · rintro rfl
    cases bare
  · obtain rfl := Option.some.inj (bare.symm.trans same)
    exact free

/-- A list with a semicolon and a reserved word behind it. -/
theorem ListAgain.before (word : Lexeme) (again : ListAgain false body tokens)
    (closed : body.endsOpen = false) (bare : word.token.bare? = some name)
    (ends : name ∈ terminators) (after : List Lexeme) :
    ∃ made, Reads (.list false made)
      (loose tokens ++ ⟨.semicolon, default, default⟩ :: word :: after) (word :: after) ∧
      made.shape = body.respelled :=
  again.reads _ _ (.semicolon closed rfl bare ends)

/-- A list in parentheses. -/
theorem ListAgain.parens {start stop span : Span} (again : ListAgain false body tokens)
    (behind : RedirectsAgain redirects more) :
    CommandAgain .group afterCommand
      (.compound [.reserved "(" start, body, .reserved ")" stop] redirects span)
      (.leftParen :: (tokens ++ .rightParen :: more)) where
  starts := ⟨.leftParen, _, rfl, by decide, by decide, fun _ none => by cases none⟩
  spells := by
    have text : (Node.compound [.reserved "(" start, body, .reserved ")" stop] redirects
        span).shell.toList = '(' :: ' ' :: (body.shell.toList ++ ' ' :: ')' ::
          (Node.shellRedirects redirects).toList) := by
      rw [Node.shell, Node.shellGroup_parens start stop again.command]
      simp
    rw [text]
    exact .leftParen (.blank (again.spells.append (.blank (.rightParen behind.spells)) rfl))
  comes after ends := by
    obtain ⟨others, read, same⟩ := behind.comes after ends
    obtain ⟨inside, reads, shape⟩ := again.reads
      (⟨.rightParen, default, default⟩ :: (loose more ++ after)) _ (.paren rfl)
    rw [loose_cons, loose_append, loose_cons, List.cons_append, List.append_assoc]
    exact ⟨_, .group .parens reads read, congrArg₂ (fun body others =>
      Node.compound [.reserved "(" default, body, .reserved ")" default] others default) shape same⟩

/-- A list in braces, with a semicolon behind it. -/
theorem ListAgain.braces {start stop span : Span} (again : ListAgain false body tokens)
    (closed : body.endsOpen = false) (behind : RedirectsAgain redirects more) :
    ∃ all, CommandAgain .group afterCommand
      (.compound [.reserved "\x7b" start, body, .reserved "\x7d" stop] redirects span) all := by
  obtain ⟨opener, opens, spellsOpen⟩ := exists_reserved "\x7b" (by decide)
  obtain ⟨closer, closes, spellsClose⟩ := exists_reserved "\x7d" (by decide)
  refine ⟨_, starts_of_bare opens (by decide) (tokens ++ .semicolon :: closer :: more), ?_,
    fun after ends => ?_⟩
  · have text : (Node.compound [.reserved "\x7b" start, body, .reserved "\x7d" stop] redirects
        span).shell.toList = "\x7b".toList ++ ' ' :: (body.shell.toList ++ ';' :: ' ' ::
          ("\x7d".toList ++ (Node.shellRedirects redirects).toList)) := by
      rw [Node.shell, Node.shellGroup_braces start stop again.command]
      simp
    rw [text]
    have tail := spellsClose.append behind.spells (apart_redirects redirects)
    exact spellsOpen.append (.blank (again.spells.append (.semicolon (.blank tail)) rfl)) rfl
  · obtain ⟨others, read, same⟩ := behind.comes after ends
    obtain ⟨inside, reads, shape⟩ :=
      again.before ⟨closer, default, default⟩ closed closes (by decide) (loose more ++ after)
    rw [loose_cons, loose_append, loose_cons, loose_cons, List.cons_append, List.append_assoc]
    exact ⟨_, .group (.braces opens closes) reads read, congrArg₂ (fun body others =>
      Node.compound [.reserved "\x7b" default, body, .reserved "\x7d" default] others default)
        shape same⟩

theorem CommandAgain.grouped (again : CommandAgain .group afterCommand node tokens) :
    CommandAgain .command afterCommand node tokens where
  starts := again.starts
  spells := again.spells
  comes after behind := by
    obtain ⟨value, reads, same⟩ := again.comes after behind
    exact ⟨value, .grouped reads, same⟩

/-- What is written of the clauses of a conditional, the keyword of the first included. -/
structure ClausesAgain (keyword : String) (clauses : List Clause) (tokens : List Token) :
    Prop where
  spells : ∃ text head, (Clause.shellAll clauses).toList = text ++ [' '] ∧
    head.bare? = some keyword ∧ Spells text (head :: tokens)
  reads : ∀ fi after, fi.token.bare? = some "fi" →
    ∃ value, Reads (.clauses keyword value) (loose tokens ++ fi :: after) (fi :: after) ∧
      Clause.shapeAll value = Clause.respelledAll clauses

/-- The text of a clause with a condition, but for the blank at its end. -/
def clauseText (keyword : String) (condition body : Node) : List Char :=
  keyword.toList ++ ' ' :: (condition.shell.toList ++ ';' :: ' ' ::
    ("then".toList ++ ' ' :: (body.shell.toList ++ [';'])))

theorem shell_clause (keyword : String) (condition body : Node) :
    (Clause.mk keyword (some condition) body).shell.toList =
      clauseText keyword condition body ++ [' '] := by
  simp [Clause.shell, clauseText]

theorem spells_clause {condition : Node} {ahead inside : List Token} {head thenWord : Token}
    (begins : Spells keyword.toList [head]) (test : Spells condition.shell.toList ahead)
    (then_ : Spells "then".toList [thenWord]) (block : Spells body.shell.toList inside) :
    Spells (clauseText keyword condition body)
      (head :: (ahead ++ .semicolon :: thenWord :: (inside ++ [.semicolon]))) := by
  have block := block.append (.semicolon .nil) rfl
  have rest := then_.append block.blank rfl
  have tail := test.append (.semicolon (.blank rest)) rfl
  exact begins.append tail.blank rfl

/-- The list of a last clause with a condition. -/
theorem ClausesAgain.clause {condition : Node} {ahead inside : List Token}
    (known : keyword ∈ "in" :: reserved) (test : ListAgain false condition ahead)
    (closedTest : condition.endsOpen = false) (block : ListAgain false body inside)
    (closed : body.endsOpen = false) :
    ∃ all, ClausesAgain keyword [.mk keyword (some condition) body] all := by
  obtain ⟨head, bare, begins⟩ := exists_reserved keyword known
  obtain ⟨thenWord, then_, spells⟩ := exists_reserved "then" (by decide)
  refine ⟨_, ⟨_, head, ?_, bare, spells_clause begins test.spells spells block.spells⟩,
    fun fi after fi_ => ?_⟩
  · rw [Clause.shellAll, Clause.shellAll, String.append_empty, shell_clause]
  · obtain ⟨read, inner, same⟩ := block.before fi closed fi_ (by decide) after
    obtain ⟨value, reads, shape⟩ := test.before ⟨thenWord, default, default⟩ closedTest then_
      (by decide) (loose _ ++ ⟨.semicolon, default, default⟩ :: fi :: after)
    refine ⟨[.mk keyword (some value) read], ?_, ?_⟩
    · simp only [loose_append, loose_cons, loose_nil, List.append_assoc, List.cons_append,
        List.nil_append]
      exact .clause reads then_ inner (by simp [next, fi_]) (by simp [next, fi_])
    · exact congrArg₂ (fun condition body => [Clause.mk keyword (some condition) body]) shape same

theorem ClausesAgain.clauseElse {condition last : Node} {ahead inside behind : List Token}
    (known : keyword ∈ "in" :: reserved) (test : ListAgain false condition ahead)
    (closedTest : condition.endsOpen = false) (block : ListAgain false body inside)
    (closed : body.endsOpen = false) (otherwise : ListAgain false last behind)
    (closedLast : last.endsOpen = false) :
    ∃ all, ClausesAgain keyword [.mk keyword (some condition) body, .mk "else" none last] all := by
  obtain ⟨head, bare, begins⟩ := exists_reserved keyword known
  obtain ⟨thenWord, then_, spells⟩ := exists_reserved "then" (by decide)
  obtain ⟨elseWord, else_, spellsElse⟩ := exists_reserved "else" (by decide)
  have final := otherwise.spells.append (.semicolon .nil) rfl
  have tail := spellsElse.append final.blank rfl
  have text := (spells_clause begins test.spells spells block.spells).append tail.blank rfl
  refine ⟨ahead ++ .semicolon :: thenWord :: (inside ++ .semicolon :: elseWord ::
    (behind ++ [.semicolon])), ⟨_, head, ?_, bare, by simpa using text⟩, fun fi after fi_ => ?_⟩
  · simp [Clause.shellAll, Clause.shell, clauseText]
  · obtain ⟨third, ends, shown⟩ := otherwise.before fi closedLast fi_ (by decide) after
    obtain ⟨read, inner, same⟩ := block.before ⟨elseWord, default, default⟩ closed else_
      (by decide) (loose _ ++ ⟨.semicolon, default, default⟩ :: fi :: after)
    obtain ⟨value, reads, shape⟩ := test.before ⟨thenWord, default, default⟩ closedTest then_
      (by decide) (loose _ ++ ⟨.semicolon, default, default⟩ :: _)
    refine ⟨[.mk keyword (some value) read, .mk "else" none third], ?_, ?_⟩
    · simp only [loose_append, loose_cons, loose_nil, List.append_assoc, List.cons_append,
        List.nil_append]
      exact .clauseElse reads then_ inner else_ ends
    · change [Clause.mk keyword (some value.shape) read.shape, .mk "else" none third.shape] = _
      rw [shape, same, shown]
      rfl

theorem ClausesAgain.clauseElif {condition : Node} {clauses : List Clause}
    {ahead inside behind : List Token} (known : keyword ∈ "in" :: reserved)
    (test : ListAgain false condition ahead) (closedTest : condition.endsOpen = false)
    (block : ListAgain false body inside) (closed : body.endsOpen = false)
    (later : ClausesAgain "elif" clauses behind) :
    ∃ all, ClausesAgain keyword (.mk keyword (some condition) body :: clauses) all := by
  obtain ⟨head, bare, begins⟩ := exists_reserved keyword known
  obtain ⟨thenWord, then_, spells⟩ := exists_reserved "then" (by decide)
  obtain ⟨rest, elifWord, others, elif_, spellsLater⟩ := later.spells
  have text := (spells_clause begins test.spells spells block.spells).append spellsLater.blank rfl
  refine ⟨ahead ++ .semicolon :: thenWord :: (inside ++ .semicolon :: elifWord :: behind),
    ⟨_, head, ?_, bare, by simpa using text⟩, fun fi after fi_ => ?_⟩
  · rw [Clause.shellAll, String.toList_append, shell_clause, others]
    simp
  · obtain ⟨third, ends, shown⟩ := later.reads fi after fi_
    obtain ⟨read, inner, same⟩ := block.before ⟨elifWord, default, default⟩ closed elif_
      (by decide) (loose _ ++ fi :: after)
    obtain ⟨value, reads, shape⟩ := test.before ⟨thenWord, default, default⟩ closedTest then_
      (by decide) (loose _ ++ ⟨.semicolon, default, default⟩ :: _)
    refine ⟨.mk keyword (some value) read :: third, ?_, ?_⟩
    · simp only [loose_append, loose_cons, List.append_assoc, List.cons_append]
      exact .clauseElif reads then_ inner elif_ ends
    · change Clause.mk keyword (some value.shape) read.shape :: Clause.shapeAll third = _
      rw [shape, same, shown]
      rfl

theorem ClausesAgain.conditional {clauses : List Clause} {span : Span}
    (again : ClausesAgain "if" clauses tokens) :
    ∃ all, CommandAgain .command afterCommand (.conditional clauses span) all := by
  obtain ⟨fiWord, fi_, spellsFi⟩ := exists_reserved "fi" (by decide)
  obtain ⟨text, ifWord, whole, if_, spells⟩ := again.spells
  refine ⟨_, starts_of_bare if_ (by decide) (tokens ++ [fiWord]), ?_, fun after behind => ?_⟩
  · have shown : (Node.conditional clauses span).shell.toList = text ++ ' ' :: "fi".toList := by
      rw [Node.shell, String.toList_append, whole]
      simp
    rw [shown]
    exact spells.append spellsFi.blank rfl
  · obtain ⟨value, reads, same⟩ := again.reads ⟨fiWord, default, default⟩ after fi_
    simp only [loose_cons, loose_append, loose_nil, List.cons_append, List.append_assoc,
      List.nil_append]
    exact ⟨_, .conditional if_ reads fi_, congrArg (Node.conditional · default) same⟩

/-- A loop is written with its items, also where they were not. -/
theorem ListAgain.loop {items : List Node} {values : List Token} {span : Span}
    (again : ListAgain false body tokens) (closed : body.endsOpen = false)
    (form : isName name = true) (itemsAgain : ItemsAgain items values) :
    ∃ all, CommandAgain .command afterCommand (.forLoop name items body span) all := by
  obtain ⟨forWord, for_, spellsFor⟩ := exists_reserved "for" (by decide)
  obtain ⟨inWord, in_, spellsIn⟩ := exists_reserved "in" (by decide)
  obtain ⟨doWord, do_, spellsDo⟩ := exists_reserved "do" (by decide)
  obtain ⟨doneWord, done_, spellsDone⟩ := exists_reserved "done" (by decide)
  obtain ⟨nameWord, named, spellsName⟩ := Lexer.exists_name form
  refine ⟨_, starts_of_bare for_ (by decide) (.word nameWord :: inWord :: (values ++ .semicolon ::
    doWord :: (tokens ++ [.semicolon, doneWord]))), ?_, fun after behind => ?_⟩
  · have shown : (Node.forLoop name items body span).shell.toList =
        "for".toList ++ ' ' :: (name.toList ++ ' ' :: ("in".toList ++ ' ' ::
          ((Node.shellJoined items).toList ++ ';' :: ' ' :: ("do".toList ++ ' ' ::
            (body.shell.toList ++ ';' :: ' ' :: "done".toList))))) := by
      simp [Node.shell]
    rw [shown]
    have block := again.spells.append (.semicolon spellsDone.blank) rfl
    have rest := spellsDo.append block.blank rfl
    have list := itemsAgain.spells.append (.semicolon rest.blank) rfl
    have tail := spellsIn.append list.blank rfl
    exact spellsFor.append (spellsName.append tail.blank rfl).blank rfl
  · obtain ⟨made, reads, shape⟩ :=
      again.before ⟨doneWord, default, default⟩ closed done_ (by decide) after
    obtain ⟨others, read, same⟩ := itemsAgain.comes (⟨.semicolon, default, default⟩ ::
      ⟨doWord, default, default⟩ :: (loose tokens ++ ⟨.semicolon, default, default⟩ ::
        ⟨doneWord, default, default⟩ :: after)) (.cons (by decide))
    simp only [loose_cons, loose_append, loose_nil, List.cons_append, List.append_assoc,
      List.nil_append]
    exact ⟨_, .forIn for_ named form (pastNewlines_word _ in_) in_ read
      (pastSeparators_word ⟨doWord, default, default⟩ rfl do_) do_ reads done_,
      congrArg₂ (Node.forLoop name · · default) same shape⟩

/-- A function is written with parentheses behind its name. -/
theorem CommandAgain.function {span : Span} (again : CommandAgain .group afterCommand body tokens)
    (nameable : Nameable Script.Holds name.toList) (free : name ∉ reserved)
    (bare : '\\' ∉ name.toList) :
    ∃ all, CommandAgain .command afterCommand (.function name body span) all := by
  obtain ⟨read, names, chars, unquoted, -⟩ := nameable.names
  have named : (Token.word read).bare? = some name := by
    change read.bare? = _
    rw [Word.bare?, unquoted, Word.text, chars, if_pos (by simpa using bare), String.ofList_toList]
  obtain ⟨unreserved, continues⟩ : name ∉ keywords ∧ name ∉ terminators := by
    rw [← not_or, ← List.mem_append]
    exact free
  refine ⟨_, starts_of_bare named continues (.leftParen :: .rightParen :: tokens), ?_,
    fun after behind => ?_⟩
  · have shown : (Node.function name body span).shell.toList =
        name.toList ++ '(' :: ')' :: ' ' :: body.shell.toList := by
      simp [Node.shell]
    rw [shown]
    exact .word nameable.solid names (fun _ _ => rfl)
      (.leftParen (.rightParen again.spells.blank))
  · obtain ⟨value, reads, shape⟩ := again.comes after behind
    rw [← again.starts.pastNewlines after] at reads
    exact ⟨_, .definition named unreserved rfl rfl reads,
      congrArg (Node.function name · default) shape⟩

end

end Grammar

end StepShell

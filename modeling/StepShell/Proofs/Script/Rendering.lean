import StepShell.Proofs.Script.Account
import StepShell.Proofs.Script.Compounds

/-! The shell text of a tree is read as a tree of the same shape. The proof goes by the rules by
which the tree was read: the text of each phrase spells tokens of which the phrase is read again,
whatever of what can stand behind it does so. -/

namespace StepShell

namespace Node
variable {node : Node}

theorem shellList_command (spaced : Bool) (rest : List Node) (command : node.isCommand = true) :
    shellList spaced (node :: rest) =
      (if spaced then " " else "") ++ node.shell ++ shellList spaced rest := by
  cases node <;> first | rfl | cases command

/-- What stands before an operator is written without regard to what stands behind it. -/
theorem shellList_operator (spaced : Bool) (front others : List Node) (op : String) (span : Span) :
    shellList spaced (front ++ .operator op span :: others) =
      shellList spaced front ++ shellList false (.operator op span :: others) := by
  induction front generalizing spaced with
  | nil => exact (String.empty_append).symm
  | cons node rest ih =>
    cases node <;> simp only [List.cons_append, shellList, ih, String.append_assoc]

end Node

namespace Grammar

open Lexer (Apart Spells)
open Node (respelledAll shapeAll)

theorem Reads.pipeline_isCommand {node : Node} {before after : List Lexeme}
    (reads : Reads (.pipeline node) before after) :
    node.isCommand = true := by
  cases reads with
  | single read =>
    cases read with
    | stage here _ => exact here.command_isCommand
  | pipeline => rfl

/-- What is written of commands with pipes between them. -/
structure StagesAgain (nodes : List Node) (tokens : List Token) : Prop where
  starts : Starts tokens
  spells : Spells (Node.shellJoined nodes).toList tokens
  comes : Comes .stages (shapeAll · = respelledAll nodes) afterPipeline tokens

/-- The texts of commands with operators between them spell the tokens. -/
structure Shows (nodes : List Node) (tokens : List Token) : Prop where
  starts : Starts tokens
  spells : ∀ spaced, Spells (Node.shellList spaced nodes).toList tokens
  first : ∃ node rest, nodes = node :: rest ∧ node.isCommand = true
  last : ∃ front node, nodes = front ++ [node] ∧ node.isCommand = true

/-- The operators of lists and the tokens that they are. -/
def operators : List (String × Token) :=
  [("&&", .and), ("||", .or), (";", .semicolon), ("&", .background), ("\n", .newline)]

theorem Shows.single {make : Node → Phrase} {allowed : List Token} {node : Node}
    {tokens : List Token} (again : CommandAgain make allowed node tokens)
    (command : node.isCommand = true) : Shows [node] tokens where
  starts := again.starts
  spells spaced := by
    rw [Node.shellList_command spaced [] command, Node.shellList, String.append_empty,
      String.toList_append]
    cases spaced with
    | false => exact again.spells
    | true => exact again.spells.blank
  first := ⟨node, [], rfl, command⟩
  last := ⟨[], node, rfl, command⟩

theorem Shows.apart {nodes : List Node} {tokens : List Token} (shows : Shows nodes tokens) :
    Apart (Node.shellList true nodes).toList := by
  obtain ⟨node, rest, rfl, command⟩ := shows.first
  rw [Node.shellList_command true rest command, String.toList_append, String.toList_append]
  exact rfl

/-- An operator is written apart from what stands before it. -/
theorem spells_operator (span : Span) {op : String} {token : Token} {nodes : List Node}
    {tokens : List Token} (known : (op, token) ∈ operators)
    (spells : ∀ spaced, Spells (Node.shellList spaced nodes).toList tokens)
    (apart : Apart (Node.shellList true nodes).toList) :
    Spells (Node.shellList false (.operator op span :: nodes)).toList (token :: tokens) ∧
      Apart (Node.shellList false (.operator op span :: nodes)).toList := by
  simp only [operators, List.mem_cons, Prod.mk.injEq, List.not_mem_nil, or_false] at known
  rw [Node.shellList, String.toList_append]
  rcases known with ⟨rfl, rfl⟩ | ⟨rfl, rfl⟩ | ⟨rfl, rfl⟩ | ⟨rfl, rfl⟩ | ⟨rfl, rfl⟩
  · exact ⟨.blank (.twice (by decide) (spells true)), rfl⟩
  · exact ⟨.blank (.twice (by decide) (spells true)), rfl⟩
  · exact ⟨.semicolon (spells true), rfl⟩
  · exact ⟨.blank (.once (by decide) apart (spells true)), rfl⟩
  · exact ⟨.newline (spells false), rfl⟩

theorem Shows.operator {parts others : List Node} {first rest : List Token} {op : String}
    {token : Token} (span : Span) (known : (op, token) ∈ operators) (here : Shows parts first)
    (later : Shows others rest) :
    Shows (parts ++ .operator op span :: others) (first ++ token :: rest) where
  starts := here.starts.append _
  spells spaced := by
    rw [Node.shellList_operator, String.toList_append]
    obtain ⟨spells, apart⟩ := spells_operator span known later.spells later.apart
    exact (here.spells spaced).append spells apart
  first := by
    obtain ⟨node, more, rfl, command⟩ := here.first
    exact ⟨node, _, rfl, command⟩
  last := by
    obtain ⟨front, node, rfl, command⟩ := later.last
    exact ⟨parts ++ .operator op span :: front, node, by simp, command⟩

/-- What is written of a chain. -/
structure ChainAgain (nodes : List Node) (tokens : List Token) : Prop extends
    Shows nodes tokens where
  comes : Comes .chain (shapeAll · = respelledAll nodes) afterChain tokens

/-- What stands behind the last chain of a list: `extra` operators end the list, and what it leaves
are the tokens `after`. -/
structure Closes (topLevel : Bool) (tail after : List Lexeme) (extra : List Node) : Prop where
  behind : Behind afterChain tail
  closes : ∀ parts before start, Opens topLevel before start → Reads (.chain parts) start tail →
    Reads (.entries topLevel (parts ++ extra)) before after

/-- What is written of the chains of a list. -/
structure EntriesAgain (topLevel : Bool) (nodes : List Node) (tokens : List Token) : Prop extends
    Shows nodes tokens where
  reads : ∀ tail after extra, Closes topLevel tail after extra →
    ∃ again, Reads (.entries topLevel (again ++ extra)) (loose tokens ++ tail) after ∧
      shapeAll again = respelledAll nodes

section
variable {node : Node} {nodes others front : List Node} {first rest tokens : List Token}
  {token : Token} {op : String} {topLevel : Bool} {tail after : List Lexeme} {extra : List Node}

theorem StagesAgain.single (again : CommandAgain .command afterCommand node tokens) :
    StagesAgain [node] tokens where
  starts := again.starts
  spells := again.spells
  comes after behind := by
    obtain ⟨value, reads, shape⟩ := again.comes after (behind.mono (List.subset_cons_self _ _))
    exact ⟨[value], .stage reads (behind.ne (by decide)), congrArg (fun node => [node]) shape⟩

theorem StagesAgain.pipe (span : Span) (again : CommandAgain .command afterCommand node first)
    (later : StagesAgain others rest) :
    StagesAgain (node :: .pipe "|" span :: others) (first ++ .pipe :: rest) where
  starts := again.starts.append _
  spells := by
    have sign : Spells (Node.pipe "|" span).shell.toList [.pipe] := by
      have text : (Node.pipe "|" span).shell.toList = ['|'] := by simp [Node.shell]
      rw [text]
      exact .once (by decide) rfl .nil
    have tail : Spells (Node.shellJoined (.pipe "|" span :: others)).toList (.pipe :: rest) :=
      spells_joined sign later.spells
    exact spells_joined again.spells tail
  comes after behind := by
    obtain ⟨made, read, same⟩ := later.comes after behind
    obtain ⟨value, reads, shape⟩ :=
      again.comes (⟨.pipe, default, default⟩ :: (loose rest ++ after)) (.cons (by decide))
    rw [← later.starts.pastNewlines after] at read
    rw [loose_append, List.append_assoc]
    exact ⟨_, .pipe reads rfl read,
      congrArg₂ (fun node others => node :: Node.pipe "|" default :: others) shape same⟩

theorem StagesAgain.command (again : StagesAgain [node] tokens) :
    CommandAgain .pipeline afterPipeline node tokens where
  starts := again.starts
  spells := again.spells
  comes after behind := by
    obtain ⟨value, reads, same⟩ := again.comes after behind
    obtain ⟨made, rfl⟩ := List.length_eq_one_iff.mp (outlineAll_length same)
    exact ⟨made, .single reads, (List.cons.inj same).1⟩

theorem StagesAgain.pipeline (span : Span) (again : StagesAgain nodes tokens)
    (several : nodes.length ≠ 1) :
    CommandAgain .pipeline afterPipeline (.pipeline nodes span) tokens where
  starts := again.starts
  spells := again.spells
  comes after behind := by
    obtain ⟨value, reads, same⟩ := again.comes after behind
    exact ⟨_, .pipeline (outlineAll_length same ▸ several) reads,
      congrArg (Node.pipeline · default) same⟩

theorem ChainAgain.link (again : CommandAgain .pipeline afterPipeline node tokens)
    (command : node.isCommand = true) : ChainAgain [node] tokens where
  toShows := .single again command
  comes after behind := by
    obtain ⟨value, reads, shape⟩ := again.comes after (behind.mono (by decide))
    have last : (next after).bind connective? = none := by
      cases seen : next after with
      | none => rfl
      | some token =>
        have known := behind token seen
        simp only [afterChain, List.mem_cons, List.not_mem_nil, or_false] at known
        rcases known with rfl | rfl | rfl | rfl <;> rfl
    exact ⟨[value], .link reads last, congrArg (fun node => [node]) shape⟩

theorem operator_of_connective (linked : connective? token = some op) :
    (op, token) ∈ operators ∧ token ∈ afterPipeline := by
  cases token <;> cases linked <;> decide

theorem operator_of_separator (separates : separator? topLevel token = some op) :
    (op, token) ∈ operators ∧ token ∈ afterChain := by
  cases topLevel <;> cases token <;> cases separates <;> decide

theorem ChainAgain.chain (span : Span) (linked : connective? token = some op)
    (again : CommandAgain .pipeline afterPipeline node first) (command : node.isCommand = true)
    (later : ChainAgain others rest) :
    ChainAgain (node :: .operator op span :: others) (first ++ token :: rest) where
  toShows := .operator span (operator_of_connective linked).1 (.single again command) later.toShows
  comes after behind := by
    obtain ⟨made, read, same⟩ := later.comes after behind
    obtain ⟨value, reads, shape⟩ := again.comes (⟨token, default, default⟩ :: (loose rest ++ after))
      (.cons (operator_of_connective linked).2)
    rw [← later.starts.pastNewlines after] at read
    rw [loose_append, List.append_assoc]
    exact ⟨_, .chain reads linked read,
      congrArg₂ (fun node others => node :: Node.operator op default :: others) shape same⟩

theorem Closes.nothing : Closes true [] [] [] where
  behind := .nil
  closes parts before start opens chain := by
    rw [List.append_nil]
    exact .entry opens chain rfl

theorem Closes.paren {closer : Lexeme} {others : List Lexeme} (token : closer.token = .rightParen) :
    Closes false (closer :: others) (closer :: others) [] where
  behind := .cons (token ▸ by decide)
  closes parts before start opens chain := by
    rw [List.append_nil]
    refine .entry opens chain ?_
    simp [next, token, separator?]

/-- The last chain of a script has an operator behind it. -/
theorem Closes.last {lexeme : Lexeme} (separates : separator? true lexeme.token = some op) :
    Closes true [lexeme] [] [.operator op lexeme.span] where
  behind := .cons (operator_of_separator separates).2
  closes parts before start opens chain := by
    obtain rfl : start = before := opens
    exact .lastEntry chain separates rfl

theorem pastNewlines_of_endsList {lexemes : List Lexeme} (ends : endsList lexemes = true) :
    pastNewlines lexemes = lexemes := by
  cases lexemes with
  | nil => rfl
  | cons lexeme rest =>
    refine List.dropWhile_cons_of_neg ?_
    rw [decide_eq_true_eq]
    intro newline
    simp [endsList_eq, next, newline, Token.bare?] at ends

/-- The last chain of a nested list has an operator behind it. -/
theorem Closes.nested {lexeme : Lexeme} {others : List Lexeme}
    (separates : separator? false lexeme.token = some op) (ends : endsList others = true) :
    Closes false (lexeme :: others) others [.operator op lexeme.span] where
  behind := .cons (operator_of_separator separates).2
  closes parts before start opens chain := by
    have still := pastNewlines_of_endsList ends
    have nothing : Reads (.entries false []) others (pastNewlines others) :=
      .noEntry (still.symm ▸ ends)
    rw [still] at nothing
    exact .entries opens chain separates (fun top => by cases top) nothing

theorem EntriesAgain.chain (topLevel : Bool) (again : ChainAgain nodes tokens) :
    EntriesAgain topLevel nodes tokens where
  toShows := again.toShows
  reads tail _ _ closes := by
    obtain ⟨value, reads, same⟩ := again.comes tail closes.behind
    exact ⟨value, closes.closes value _ _ (again.starts.opens topLevel tail) reads, same⟩

theorem EntriesAgain.operator (span : Span) (separates : separator? topLevel token = some op)
    (again : ChainAgain nodes first) (later : EntriesAgain topLevel others rest) :
    EntriesAgain topLevel (nodes ++ .operator op span :: others) (first ++ token :: rest) where
  toShows := .operator span (operator_of_separator separates).1 again.toShows later.toShows
  reads tail after extra closes := by
    obtain ⟨made, read, same⟩ := later.reads tail after extra closes
    obtain ⟨value, reads, shape⟩ := again.comes (⟨token, default, default⟩ :: (loose rest ++ tail))
      (.cons (operator_of_separator separates).2)
    have goes : topLevel = true → endsLine (loose rest ++ tail) = false :=
      fun _ => later.starts.endsLine tail
    have whole := Reads.entries (again.starts.opens topLevel _) reads separates goes read
    refine ⟨value ++ .operator op default :: made, ?_, ?_⟩
    · rw [loose_append, List.append_assoc, List.append_assoc]
      exact whole
    · simp only [shapeAll, respelledAll, Node.outlineAll_append]
      exact congrArg₂ (· ++ Node.operator op default :: ·) shape same

theorem listed?_cases {parts : List Node} (made : listed? parts = some node) :
    dropSeparators parts = [node] ∨ ∃ first second rest span,
      dropSeparators parts = first :: second :: rest ∧
        node = .list (first :: second :: rest) span := by
  rw [listed?] at made
  generalize dropSeparators parts = kept at made
  rcases kept with _ | ⟨first, _ | ⟨second, rest⟩⟩
  · cases made
  · cases made
    exact .inl rfl
  · cases made
    exact .inr ⟨first, second, rest, _, rfl, rfl⟩

theorem Shows.kept (shows : Shows nodes tokens) : dropSeparators nodes = nodes := by
  obtain ⟨front, node, rfl, command⟩ := shows.last
  refine dropSeparators_command front fun op span same => ?_
  rw [same] at command
  cases command

/-- A list whose parts are kept to the last. -/
theorem EntriesAgain.list (again : EntriesAgain topLevel nodes tokens)
    (made : listed? nodes = some node) : ListAgain topLevel node tokens := by
  have shown : node.isCommand = true ∧ node.shell = Node.shellList false nodes := by
    rcases listed?_cases made with single | ⟨first, second, rest, span, several, rfl⟩
    · rw [again.kept] at single
      subst single
      obtain ⟨_, _, same, command⟩ := again.first
      cases same
      refine ⟨command, ?_⟩
      rw [Node.shellList_command false [] command, Node.shellList, String.append_empty]
      exact String.empty_append.symm
    · rw [again.kept] at several
      rw [several]
      exact ⟨rfl, rfl⟩
  refine ⟨shown.1, again.starts, shown.2 ▸ again.spells false, fun tail after ends => ?_⟩
  cases ends with
  | nothing =>
    obtain ⟨value, reads, same⟩ := again.reads _ _ _ .nothing
    rw [List.append_nil] at reads
    obtain ⟨second, remade, shape⟩ := listed?_outline made same
    exact ⟨second, .list reads remade, shape⟩
  | paren token =>
    obtain ⟨value, reads, same⟩ := again.reads _ _ _ (.paren token)
    rw [List.append_nil] at reads
    obtain ⟨second, remade, shape⟩ := listed?_outline made same
    exact ⟨second, .list reads remade, shape⟩
  | @semicolon separator word name rest closed token bare ends =>
    have stops : endsList (word :: rest) = true := by
      simp [endsList_eq, next, bare, ends]
    have separates : separator? false separator.token = some ";" := by rw [token]; rfl
    obtain ⟨value, reads, same⟩ := again.reads _ _ _ (.nested separates stops)
    obtain ⟨second, remade, shape⟩ := listed?_outline made same
    refine ⟨second, .list reads ?_, shape⟩
    rw [listed?, dropSeparators_operator, if_pos (.inl rfl)]
    exact remade

/-- A list that ends with the operator `&`. -/
theorem EntriesAgain.background (again : EntriesAgain topLevel nodes tokens) (span : Span)
    (made : listed? (nodes ++ [.operator "&" span]) = some node) :
    ListAgain topLevel node (tokens ++ [.background]) := by
  obtain ⟨head, others, split, -⟩ := again.first
  have kept : dropSeparators (nodes ++ [.operator "&" span]) = nodes ++ [.operator "&" span] := by
    rw [dropSeparators_operator, if_neg (by decide)]
  obtain ⟨own, rfl⟩ : ∃ own, node = .list (nodes ++ [.operator "&" span]) own := by
    rcases listed?_cases made with single | ⟨first, second, rest, own, several, rfl⟩
    · rw [kept, split] at single
      simp at single
    · rw [kept] at several
      exact ⟨own, by rw [several]⟩
  have spells : Spells (Node.shellList false (nodes ++ [.operator "&" span])).toList
      (tokens ++ [.background]) := by
    have text : (Node.shellList false [.operator "&" span]).toList = [' ', '&'] := by
      simp [Node.shellList]
    rw [Node.shellList_operator, String.toList_append, text]
    exact (again.spells false).append (.blank (.once (by decide) rfl .nil)) rfl
  have remade (value : List Node) (place : Span) (same : shapeAll value = respelledAll nodes) :
      ∃ second, listed? (value ++ [.operator "&" place]) = some second ∧
        second.shape = (Node.list (nodes ++ [.operator "&" span]) own).respelled := by
    refine listed?_outline made ?_
    rw [Node.outlineAll_append, Node.outlineAll_append]
    exact congrArg (· ++ [Node.operator "&" default]) same
  refine ⟨rfl, again.starts.append _, spells, fun tail after ends => ?_⟩
  rw [loose_append, List.append_assoc]
  cases ends with
  | nothing =>
    obtain ⟨value, reads, same⟩ :=
      again.reads [⟨.background, default, default⟩] _ _ (.last rfl)
    obtain ⟨second, remade, shape⟩ := remade value _ same
    exact ⟨second, .list reads remade, shape⟩
  | @paren closer rest token =>
    have stops : endsList (closer :: rest) = true := by simp [endsList_eq, next, token]
    obtain ⟨value, reads, same⟩ :=
      again.reads (⟨.background, default, default⟩ :: closer :: rest) _ _ (.nested rfl stops)
    obtain ⟨second, remade, shape⟩ := remade value _ same
    exact ⟨second, .list reads remade, shape⟩
  | semicolon closed =>
    rw [Node.endsOpen, List.getLast?_concat] at closed
    cases closed

end

/-- What may follow the chains of a list at its end. -/
def Trails (topLevel : Bool) (trailing : List Node) : Prop :=
  trailing = [] ∨ ∃ op token span, separator? topLevel token = some op ∧
    trailing = [.operator op span]

/-- The clause comes back, with the semicolons behind its lists. -/
def ClauseRenderable (clause : Clause) : Prop :=
  (∀ condition ∈ clause.condition, condition.Renderable ∧ condition.endsOpen = false) ∧
    clause.body.Renderable ∧ clause.body.endsOpen = false

/-- What was read of a script is read again of its shell text. -/
def Phrase.Rendered : Phrase → Prop
  | .pieces .. | .word _ | .redirect _ => True
  | .redirects nodes => Renderable nodes → ∃ tokens, RedirectsAgain nodes tokens
  | .parts named nodes => Renderable nodes →
    (named = false → ∀ text ∈ Node.called? nodes, assigns (Word.respell text) = false) →
      ∃ tokens, PartsAgain named nodes tokens
  | .items nodes => Renderable nodes → ∃ tokens, ItemsAgain nodes tokens
  | .group node => node.Renderable → ∃ tokens, CommandAgain .group afterCommand node tokens
  | .clauses keyword made => keyword ∈ "in" :: reserved →
    (∀ clause ∈ made, ClauseRenderable clause) → ∃ tokens, ClausesAgain keyword made tokens
  | .command node => node.Renderable → ∃ tokens, CommandAgain .command afterCommand node tokens
  | .stages nodes => Renderable nodes → ∃ tokens, StagesAgain nodes tokens
  | .pipeline node => node.Renderable → ∃ tokens, CommandAgain .pipeline afterPipeline node tokens
  | .chain nodes => Renderable nodes → ∃ tokens, ChainAgain nodes tokens
  | .entries topLevel nodes => Renderable nodes → nodes = [] ∨ ∃ front trailing tokens,
    nodes = front ++ trailing ∧ Trails topLevel trailing ∧ EntriesAgain topLevel front tokens
  | .list topLevel node => node.Renderable → ∃ tokens, ListAgain topLevel node tokens
  | .script nodes => ∀ node ∈ nodes, node.Renderable → ∃ tokens, ListAgain true node tokens

theorem Brackets.texts {opening closing : String} {opener closer : Token}
    (pair : Brackets opening closing opener closer) :
    opening = "(" ∧ closing = ")" ∨ opening = "\x7b" ∧ closing = "\x7d" := by
  cases pair with
  | parens => exact .inl ⟨rfl, rfl⟩
  | braces => exact .inr ⟨rfl, rfl⟩

theorem renderable_operator (op : String) (span : Span) : (Node.operator op span).Renderable :=
  .intro trivial (by simp [Node.written, Node.children])

/-- What a list loses at its end are operators. -/
theorem mem_dropSeparators {parts : List Node} {part : Node} (member : part ∈ parts) :
    part ∈ dropSeparators parts ∨ ∃ op span, part = .operator op span := by
  induction parts using List.reverseRecOn with
  | nil => cases member
  | append_singleton front last ih =>
    by_cases operator : ∃ op span, last = .operator op span
    · rcases List.mem_append.mp member with inside | here
      · obtain ⟨op, span, rfl⟩ := operator
        rw [dropSeparators_operator]
        split
        · exact ih inside
        · exact .inl member
      · exact .inr (List.mem_singleton.mp here ▸ operator)
    · rw [dropSeparators_command front fun op span same => operator ⟨op, span, same⟩]
      exact .inl member

theorem renderable_of_listed {parts : List Node} {node : Node} (made : listed? parts = some node)
    (renderable : node.Renderable) : Renderable parts := by
  intro part member
  rcases mem_dropSeparators member with kept | ⟨op, span, rfl⟩
  · rcases listed?_cases made with single | ⟨first, second, rest, span, several, rfl⟩
    · rw [single, List.mem_singleton] at kept
      exact kept ▸ renderable
    · exact renderable.each part (several ▸ kept)
  · exact renderable_operator op span

theorem clauses_renderable {clauses : List Clause} {span : Span}
    (renderable : (Node.conditional clauses span).Renderable) :
    ∀ clause ∈ clauses, ClauseRenderable clause := by
  intro clause member
  obtain ⟨condition, body⟩ := renderable.own clause member
  have each (node : Node) (inside : node ∈ clause.condition.toList ++ [clause.body]) :
      node.Renderable := renderable.each node (List.mem_flatMap.mpr ⟨clause, member, inside⟩)
  refine ⟨fun test there => ⟨each test ?_, condition test there⟩, each _ (by simp), body⟩
  exact List.mem_append_left _ (Option.mem_toList.mpr there)

theorem Reads.rendered {phrase : Phrase} {before after : List Lexeme}
    (reads : Reads phrase before after) : phrase.Rendered := by
  induction reads with
  | noPieces | plain | guarded | reference | substitution | word | redirect => trivial
  | noRedirect => exact fun _ => ⟨[], .nil⟩
  | redirects here later _ ih =>
    intro renderable
    obtain ⟨first, rest⟩ := List.forall_mem_cons.mp renderable
    obtain ⟨tokens, again⟩ := ih rest
    exact again.cons here first
  | @noPart named => exact fun _ _ => ⟨[], .nil named⟩
  | assignment token form pieces later _ ih =>
    intro renderable called
    obtain ⟨first, rest⟩ := List.forall_mem_cons.mp renderable
    obtain ⟨tokens, again⟩ := ih rest called
    exact again.assignment form first
  | argument token form here later _ ih =>
    intro renderable called
    obtain ⟨first, rest⟩ := List.forall_mem_cons.mp renderable
    obtain ⟨tokens, again⟩ := ih rest fun wrong => by cases wrong
    exact again.argument here first called
  | redirected here later _ ih =>
    intro renderable called
    obtain ⟨first, rest⟩ := List.forall_mem_cons.mp renderable
    obtain ⟨tokens, again⟩ := ih rest fun unnamed => by
      cases here
      exact called unnamed
    exact again.redirected here first
  | noItem => exact fun _ => ⟨[], .nil⟩
  | items here later _ ih =>
    intro renderable
    obtain ⟨first, rest⟩ := List.forall_mem_cons.mp renderable
    obtain ⟨tokens, again⟩ := ih rest
    obtain ⟨read, word⟩ := here.wordAgain first
    exact ⟨_, again.cons word⟩
  | group pair inside behind ihInside ihBehind =>
    intro renderable
    obtain ⟨parts, redirects⟩ := List.forall_mem_append.mp renderable.each
    obtain ⟨tokens, list⟩ := ihInside (parts _ (by simp))
    obtain ⟨more, others⟩ := ihBehind redirects
    rcases pair.texts with ⟨rfl, rfl⟩ | ⟨rfl, rfl⟩
    · exact ⟨_, list.parens others⟩
    · exact list.braces (by simpa [Node.Rewritable, Node.bracesOpen] using renderable.own) others
  | clause test then_ inside noElif noElse ihTest ihInside =>
    intro known renderable
    obtain ⟨condition, body, closed⟩ := List.forall_mem_singleton.mp renderable
    obtain ⟨test, closedTest⟩ := condition _ rfl
    obtain ⟨ahead, tested⟩ := ihTest test
    obtain ⟨tokens, block⟩ := ihInside body
    exact ClausesAgain.clause known tested closedTest block closed
  | clauseElse test then_ inside else_ otherwise ihTest ihInside ihOtherwise =>
    intro known renderable
    obtain ⟨⟨condition, body, closed⟩, others⟩ := List.forall_mem_cons.mp renderable
    obtain ⟨-, last, closedLast⟩ := List.forall_mem_singleton.mp others
    obtain ⟨test, closedTest⟩ := condition _ rfl
    obtain ⟨ahead, tested⟩ := ihTest test
    obtain ⟨tokens, block⟩ := ihInside body
    obtain ⟨behind, final⟩ := ihOtherwise last
    exact ClausesAgain.clauseElse known tested closedTest block closed final closedLast
  | clauseElif test then_ inside elif_ later ihTest ihInside ihLater =>
    intro known renderable
    obtain ⟨⟨condition, body, closed⟩, others⟩ := List.forall_mem_cons.mp renderable
    obtain ⟨test, closedTest⟩ := condition _ rfl
    obtain ⟨ahead, tested⟩ := ihTest test
    obtain ⟨tokens, block⟩ := ihInside body
    obtain ⟨behind, rest⟩ := ihLater (by decide) others
    exact ClausesAgain.clauseElif known tested closedTest block closed rest
  | simple simple some read ih =>
    intro renderable
    obtain ⟨unreserved, called⟩ := renderable.own
    obtain ⟨tokens, again⟩ := ih renderable.each fun _ => called
    exact ⟨tokens, again.command some unreserved⟩
  | grouped group ih =>
    intro renderable
    obtain ⟨tokens, again⟩ := ih renderable
    exact ⟨tokens, again.grouped⟩
  | forIn for_ named form newlines in_ values separators do_ inside done_ ihValues ihInside =>
    intro renderable
    obtain ⟨items, body⟩ := List.forall_mem_append.mp renderable.each
    obtain ⟨words, again⟩ := ihValues items
    obtain ⟨tokens, block⟩ := ihInside (body _ (List.mem_singleton_self _))
    exact block.loop renderable.own form again
  | forEach for_ named form newlines noIn separators do_ inside done_ ihInside =>
    intro renderable
    obtain ⟨items, body⟩ := List.forall_mem_append.mp renderable.each
    have item := List.forall_mem_singleton.mp items
    obtain ⟨read, word⟩ := Grammar.wordAgain _ _ _ item.own
    obtain ⟨tokens, block⟩ := ihInside (body _ (List.mem_singleton_self _))
    exact block.loop renderable.own form (.cons word .nil)
  | conditional if_ read fi_ ih =>
    intro renderable
    obtain ⟨tokens, again⟩ := ih (by decide) (clauses_renderable renderable)
    exact again.conditional
  | function function_ named parens inside ih =>
    intro renderable
    obtain ⟨nameable, free⟩ := renderable.own
    obtain ⟨tokens, again⟩ := ih (renderable.each _ (List.mem_singleton_self _))
    exact again.function nameable free (Token.backslash_not_mem named)
  | definition named unreserved first second inside ih =>
    intro renderable
    obtain ⟨nameable, free⟩ := renderable.own
    obtain ⟨tokens, again⟩ := ih (renderable.each _ (List.mem_singleton_self _))
    exact again.function nameable free (Token.backslash_not_mem named)
  | stage here last ih =>
    intro renderable
    obtain ⟨tokens, again⟩ := ih (List.forall_mem_singleton.mp renderable)
    exact ⟨tokens, .single again⟩
  | pipe here token later ihHere ihLater =>
    intro renderable
    obtain ⟨first, others⟩ := List.forall_mem_cons.mp renderable
    obtain ⟨tokens, again⟩ := ihHere first
    obtain ⟨more, rest⟩ := ihLater (List.forall_mem_cons.mp others).2
    exact ⟨_, .pipe _ again rest⟩
  | single read ih =>
    intro renderable
    obtain ⟨tokens, again⟩ := ih (List.forall_mem_singleton.mpr renderable)
    exact ⟨tokens, again.command⟩
  | pipeline several read ih =>
    intro renderable
    obtain ⟨tokens, again⟩ := ih renderable.each
    exact ⟨tokens, again.pipeline _ several⟩
  | link here last ih =>
    intro renderable
    obtain ⟨tokens, again⟩ := ih (List.forall_mem_singleton.mp renderable)
    exact ⟨tokens, .link again here.pipeline_isCommand⟩
  | chain here token later ihHere ihLater =>
    intro renderable
    obtain ⟨first, others⟩ := List.forall_mem_cons.mp renderable
    obtain ⟨tokens, again⟩ := ihHere first
    obtain ⟨more, rest⟩ := ihLater (List.forall_mem_cons.mp others).2
    exact ⟨_, .chain _ token again here.pipeline_isCommand rest⟩
  | noEntry => exact fun _ => .inl rfl
  | @entry topLevel parts _ _ _ opens here last ih =>
    intro renderable
    obtain ⟨tokens, again⟩ := ih renderable
    exact .inr ⟨parts, [], tokens, (List.append_nil _).symm, .inl rfl, .chain topLevel again⟩
  | @lastEntry parts lexeme op _ _ here token line ih =>
    intro renderable
    obtain ⟨tokens, again⟩ := ih (List.forall_mem_append.mp renderable).1
    exact .inr ⟨parts, _, tokens, rfl, .inr ⟨op, _, _, token, rfl⟩, .chain true again⟩
  | @entries topLevel parts others lexeme op _ _ _ _ opens here token goes later ihHere ihLater =>
    intro renderable
    obtain ⟨first, rest⟩ := List.forall_mem_append.mp renderable
    obtain ⟨tokens, again⟩ := ihHere first
    rcases ihLater (List.forall_mem_cons.mp rest).2 with
      rfl | ⟨front, trailing, more, rfl, trails, behind⟩
    · exact .inr ⟨parts, _, tokens, rfl, .inr ⟨op, _, _, token, rfl⟩, .chain topLevel again⟩
    · exact .inr ⟨_, trailing, _, by simp, trails, .operator lexeme.span token again behind⟩
  | @list topLevel parts node _ _ read made ih =>
    intro renderable
    rcases ih (renderable_of_listed made renderable) with
      rfl | ⟨front, trailing, tokens, rfl, trails, again⟩
    · cases made
    · rcases trails with rfl | ⟨op, token, span, separates, rfl⟩
      · rw [List.append_nil] at made
        exact ⟨tokens, again.list made⟩
      by_cases separator : op = ";" ∨ op = "\n"
      · rw [listed?, dropSeparators_operator, if_pos separator] at made
        exact ⟨tokens, again.list made⟩
      · obtain rfl : op = "&" := by
          cases topLevel <;> cases token <;> cases separates <;> simp at separator ⊢
        exact ⟨_, again.background span made⟩
  | ended => simp [Phrase.Rendered]
  | line something here line later ihHere ihLater =>
    exact List.forall_mem_cons.mpr ⟨ihHere, ihLater⟩

/-- The tokens of a text that spells them, read wherever they stand. -/
theorem reads_spelled {text : List Char} {tokens : List Token} {nodes : List Node}
    (spells : Spells text tokens) (reads : Reads (.script nodes) (loose tokens) []) (offset : Nat) :
    ∃ again, Script.parseAt text offset = .ok again ∧
      Node.shapeAll again = Node.shapeAll nodes := by
  obtain ⟨lexemes, read, same⟩ := spells.lex offset
  have moved : Moved (loose tokens) lexemes := by
    refine moved_of_map ?_
    rw [← same, loose, List.map_map, List.map_map]
    exact List.map_congr_left fun lexeme _ => (Token.unplaced_unplaced lexeme.token).symm
  obtain ⟨again, left, script, rest, shapes⟩ := reads.again lexemes moved
  cases rest
  exact ⟨again, Script.parseAt_eq_ok.mpr ⟨lexemes, read, script⟩, shapes⟩

/-- The text of a list at top level is a script of one command. -/
theorem ListAgain.parse {node : Node} {tokens : List Token} (again : ListAgain true node tokens) :
    ∃ made, Script.parse node.shell = .ok [made] ∧ made.shape = node.respelled := by
  obtain ⟨value, reads, shape⟩ := again.reads [] [] .nothing
  have start := again.starts.pastNewlines []
  rw [List.append_nil] at reads start
  have some : pastNewlines (loose tokens) ≠ [] := by
    obtain ⟨first, rest, rfl, -⟩ := again.starts
    rw [start]
    exact List.cons_ne_nil _ _
  have script : Reads (.script [value]) (loose tokens) [] :=
    .line some (start.symm ▸ reads) rfl (.ended rfl)
  obtain ⟨nodes, parsed, same⟩ := reads_spelled again.spells script 0
  obtain ⟨made, rfl⟩ := List.length_eq_one_iff.mp (outlineAll_length same)
  exact ⟨made, parsed, (List.cons.inj same).1.trans shape⟩

end Grammar

namespace Script

/-- The shell text of a parsed command, if all in it is renderable, is a script of one command that
has the same shell text, and the same tree but for places, flags of quotes, redundant backslashes
and the parts of words. -/
theorem shell_reparses {text : String} {nodes : List Node} (parsed : parse text = .ok nodes)
    {node : Node} (member : node ∈ nodes) (renderable : node.Renderable) :
    ∃ again, parse node.shell = .ok [again] ∧ again.shell = node.shell ∧
      again.essence = node.essence := by
  obtain ⟨lexemes, -, reads⟩ := parseAt_eq_ok.mp parsed
  obtain ⟨tokens, list⟩ := reads.rendered node member renderable
  obtain ⟨again, made, shape⟩ := list.parse
  exact ⟨again, made, renderable.respelled shape⟩

theorem shell_reparses_nested : ∃ found,
    parse "k() ( for x in $y; do if t; then v='w w' c | d >>o & e; else \"$(f 'g')\"; fi; done )" =
        .ok found ∧ found.length = 1 ∧ ∀ node ∈ found, node.Renderable ∧
      ∃ again, parse node.shell = .ok [again] ∧ again.shell = node.shell ∧
        again.essence = node.essence := by
  obtain ⟨found, parsed, single, all⟩ : ∃ found,
      parse "k() ( for x in $y; do if t; then v='w w' c | d >>o & e; else \"$(f 'g')\"; fi; done )"
        = .ok found ∧ found.length = 1 ∧ found.all (Node.everywhere Node.rewrites) = true :=
    ⟨_, parse_eq_nodes (by decide +kernel), by decide +kernel, by decide +kernel⟩
  refine ⟨found, parsed, single, fun node member => ?_⟩
  have renderable := Node.renderable_of_everywhere (List.all_eq_true.mp all node member)
  exact ⟨renderable, shell_reparses parsed member renderable⟩

/-- Behind an `&` no semicolon may stand, but one is written before a brace. -/
theorem background_not_reparsed : ∃ node, parse "\x7b a & \x7d" = .ok [node] ∧
    node.shell = "\x7b a &; \x7d" ∧ ∀ again, parse node.shell ≠ .ok again := by
  have parsed : parse "\x7b a & \x7d" = .ok _ := parse_eq_nodes (by decide +kernel)
  obtain ⟨node, single⟩ : ∃ node, nodes "\x7b a & \x7d" = [node] :=
    List.length_eq_one_iff.mp (by decide +kernel)
  have shown : (nodes "\x7b a & \x7d").map Node.shell = ["\x7b a &; \x7d"] := by decide +kernel
  rw [single] at parsed shown
  have text := (List.cons.inj shown).1
  refine ⟨node, parsed, text, fun again reparsed => ?_⟩
  have refused : (parse "\x7b a &; \x7d").isOk = false := by decide +kernel
  rw [← text, reparsed] at refused
  cases refused

end Script

end StepShell

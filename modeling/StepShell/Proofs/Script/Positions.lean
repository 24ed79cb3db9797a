import Mathlib.Data.String.Basic
import StepShell.Proofs.Script.Account
import StepShell.Proofs.Script.Defines

/-! Where the nodes of a parsed script stand in its text. Each node has its children in order and
apart from each other within its span. A word is what is read of the characters at its span; only
between backquotes may it stand elsewhere, since backslashes are dropped there. -/

namespace StepShell

/-- The span takes these characters of the source. -/
def Span.Covers (span : Span) (source own : List Char) : Prop :=
  ∃ before after, source = before ++ (own ++ after) ∧ Text.size before = span.start ∧
    span.start + Text.size own = span.stop

namespace Node

/-- The text of a word, be it an assignment or not. -/
def wordText? : Node → Option String
  | .word text .. | .assignment text .. => some text
  | _ => none

/-- The nodes stand one after the other between two offsets. -/
inductive InOrder : Nat → List Node → Nat → Prop where
  | nil {start stop : Nat} (ordered : start ≤ stop) : InOrder start [] stop
  | cons {start stop : Nat} {node : Node} {rest : List Node} (begins : start ≤ node.span.start)
      (ends : node.span.start ≤ node.span.stop) (later : InOrder node.span.stop rest stop) :
      InOrder start (node :: rest) stop

/-- A substitution that is written with backquotes. -/
def Backquoted (source : List Char) : Node → Prop
  | .substitution _ span => ∃ own, span.Covers source ('\x60' :: own)
  | _ => False

/-- The first node stands somewhere in the second, and between no backquotes there. -/
inductive Verbatim (source : List Char) : Node → Node → Prop where
  | self {node : Node} : Verbatim source node node
  | inside {inner child outer : Node} (plain : ¬Backquoted source outer)
      (member : child ∈ outer.children) (within : Verbatim source inner child) :
      Verbatim source inner outer

/-- The characters at the span of the node are one word with this text. -/
def Rereads (source : List Char) (node : Node) (text : String) : Prop :=
  ∃ own, node.span.Covers source own ∧ ∀ offset, ∃ read start stop,
    lex own offset = .ok [⟨.word read, start, stop⟩] ∧ read.text = text

/-- The children of the node stand in order in it, and so down to the leaves. The words below it are
read again at their spans if the node is written verbatim in the source. -/
inductive Faithful (source : List Char) : Prop → Node → Prop where
  | intro {verbatim : Prop} {node : Node}
      (ordered : InOrder node.span.start node.children node.span.stop)
      (rereads : verbatim → ∀ text, node.wordText? = some text →
        node ≠ Grammar.positionals node.span → node.Rereads source text)
      (each : ∀ child ∈ node.children,
        Faithful source (verbatim ∧ ¬Backquoted source node) child) :
      Faithful source verbatim node

end Node

namespace Span.Covers

variable {source second : List Char} {start stop : Nat}

theorem split (first : List Char) (covers : (Span.mk start stop).Covers source (first ++ second)) :
    (Span.mk start (start + Text.size first)).Covers source first ∧
      (Span.mk (start + Text.size first) stop).Covers source second := by
  obtain ⟨before, after, rfl, begins, ends⟩ := covers
  dsimp only at begins ends
  refine ⟨⟨before, second ++ after, by simp only [List.append_assoc], begins, rfl⟩,
    before ++ first, after, by simp only [List.append_assoc], ?_, ?_⟩
  · rw [Text.size_append, begins]
  · rw [← ends, Text.size_append, Nat.add_assoc]

end Span.Covers

namespace Node

namespace InOrder

variable {start middle stop : Nat} {node : Node} {nodes first second : List Node}

theorem le (ordered : InOrder start nodes stop) : start ≤ stop := by
  induction ordered with
  | nil ordered => exact ordered
  | cons begins ends _ ih => omega

theorem lower {earlier : Nat} (before : earlier ≤ start) (ordered : InOrder start nodes stop) :
    InOrder earlier nodes stop := by
  cases ordered with
  | nil ordered => exact .nil (before.trans ordered)
  | cons begins ends later => exact .cons (before.trans begins) ends later

theorem raise {later : Nat} (behind : stop ≤ later) (ordered : InOrder start nodes stop) :
    InOrder start nodes later := by
  induction ordered with
  | nil ordered => exact .nil (ordered.trans behind)
  | cons begins ends _ ih => exact .cons begins ends (ih behind)

theorem append (here : InOrder start first middle) (there : InOrder middle second stop) :
    InOrder start (first ++ second) stop := by
  induction here with
  | nil ordered => exact there.lower ordered
  | cons begins ends _ ih => exact .cons begins ends (ih there)

theorem front (ordered : InOrder start (first ++ second) stop) : InOrder start first stop := by
  induction first generalizing start with
  | nil => exact .nil ordered.le
  | cons node rest ih =>
    cases ordered with
    | cons begins ends later => exact .cons begins ends (ih later)

theorem mem (ordered : InOrder start nodes stop) (member : node ∈ nodes) :
    start ≤ node.span.start ∧ node.span.start ≤ node.span.stop ∧ node.span.stop ≤ stop := by
  induction ordered with
  | nil => cases member
  | cons begins ends later ih =>
    rcases List.mem_cons.mp member with rfl | member
    · exact ⟨begins, ends, later.le⟩
    · have := ih member
      omega

theorem single (begins : start ≤ node.span.start) (ends : node.span.start ≤ node.span.stop)
    (behind : node.span.stop ≤ stop) : InOrder start [node] stop :=
  .cons begins ends (.nil behind)

/-- The nodes stand in order up to where the last of them ends. -/
theorem stopAfter (ordered : InOrder start nodes stop) :
    InOrder start nodes (Grammar.stopAfter start nodes) ∧ Grammar.stopAfter start nodes ≤ stop := by
  induction ordered with
  | nil ordered => exact ⟨.nil (Nat.le_refl _), ordered⟩
  | @cons start stop node rest begins ends later ih =>
    rw [Grammar.stopAfter_cons]
    exact ⟨.cons begins ends ih.1, ih.2⟩

/-- The span from the first of the nodes to the last. -/
theorem spanning (some : nodes ≠ []) (ordered : InOrder start nodes stop) :
    start ≤ (Grammar.spanning nodes).start ∧
      InOrder (Grammar.spanning nodes).start nodes (Grammar.spanning nodes).stop ∧
      (Grammar.spanning nodes).stop ≤ stop := by
  cases ordered with
  | nil => exact absurd rfl some
  | @cons _ _ node rest begins ends later =>
    obtain ⟨inside, behind⟩ := later.stopAfter
    rw [Grammar.spanning_eq node.span.stop, Grammar.stopAfter_cons]
    exact ⟨begins, .cons (Nat.le_refl _) ends inside, behind⟩

end InOrder

theorem not_backquoted {source : List Char} {node : Node}
    (plain : ∀ command span, node ≠ .substitution command span) : ¬Backquoted source node := by
  cases node with
  | substitution command span => exact absurd rfl (plain command span)
  | _ => exact id

end Node

/-- Nodes that stand in order between two offsets, each of them faithful. -/
structure Placed (source : List Char) (verbatim : Prop) (start : Nat) (nodes : List Node)
    (stop : Nat) : Prop where
  ordered : Node.InOrder start nodes stop
  faithful : ∀ node ∈ nodes, Node.Faithful source verbatim node

namespace Placed

variable {source : List Char} {verbatim : Prop} {start middle stop : Nat} {node : Node}
  {nodes first second : List Node}

theorem nil (ordered : start ≤ stop) : Placed source verbatim start [] stop :=
  ⟨.nil ordered, by simp⟩

theorem lower {earlier : Nat} (before : earlier ≤ start)
    (placed : Placed source verbatim start nodes stop) :
    Placed source verbatim earlier nodes stop :=
  ⟨placed.ordered.lower before, placed.faithful⟩

theorem append (here : Placed source verbatim start first middle)
    (there : Placed source verbatim middle second stop) :
    Placed source verbatim start (first ++ second) stop := by
  refine ⟨here.ordered.append there.ordered, fun node member => ?_⟩
  exact (List.mem_append.mp member).elim (here.faithful node) (there.faithful node)

theorem single (faithful : Node.Faithful source verbatim node) (begins : start ≤ node.span.start)
    (ends : node.span.start ≤ node.span.stop) (behind : node.span.stop ≤ stop) :
    Placed source verbatim start [node] stop :=
  ⟨.single begins ends behind, fun _ member => List.mem_singleton.mp member ▸ faithful⟩

theorem front (placed : Placed source verbatim start (first ++ second) stop) :
    Placed source verbatim start first stop :=
  ⟨placed.ordered.front, fun node member => placed.faithful node (List.mem_append_left _ member)⟩

theorem uncons (placed : Placed source verbatim start (node :: nodes) stop) :
    Placed source verbatim start [node] node.span.stop ∧
      Placed source verbatim node.span.stop nodes stop := by
  cases placed.ordered with
  | cons begins ends later =>
    exact ⟨.single (placed.faithful node List.mem_cons_self) begins ends (Nat.le_refl _), later,
      fun other member => placed.faithful other (List.mem_cons_of_mem _ member)⟩

/-- A node that is no word and no substitution, with the nodes that stand in it. -/
theorem wrap (children : node.children = nodes) (other : node.wordText? = none)
    (plain : ∀ command span, node ≠ .substitution command span)
    (placed : Placed source verbatim node.span.start nodes node.span.stop)
    (begins : start ≤ node.span.start) (behind : node.span.stop ≤ stop) :
    Placed source verbatim start [node] stop := by
  refine .single (.intro (children ▸ placed.ordered) ?_ ?_) begins placed.ordered.le behind
  · intro _ text written
    rw [other] at written
    cases written
  · intro child member
    rw [and_iff_left (Node.not_backquoted plain)]
    exact placed.faithful child (children ▸ member)

theorem leaf (children : node.children = []) (other : node.wordText? = none)
    (plain : ∀ command span, node ≠ .substitution command span) (begins : start ≤ node.span.start)
    (ends : node.span.start ≤ node.span.stop) :
    Placed source verbatim start [node] node.span.stop :=
  .wrap children other plain (.nil ends) begins (Nat.le_refl _)

theorem spanning (children : node.children = nodes) (other : node.wordText? = none)
    (plain : ∀ command span, node ≠ .substitution command span) (some : nodes ≠ [])
    (span : node.span = Grammar.spanning nodes)
    (placed : Placed source verbatim start nodes stop) :
    Placed source verbatim start [node] stop := by
  obtain ⟨begins, inside, behind⟩ := placed.ordered.spanning some
  rw [← span] at begins inside behind
  exact .wrap children other plain ⟨inside, placed.faithful⟩ begins behind

/-- A newline put before a node takes no place. -/
theorem separated (placed : Placed source verbatim start nodes stop) :
    Placed source verbatim start (nodes.flatMap fun node =>
      [.operator "\n" ⟨node.span.start, node.span.start⟩, node]) stop := by
  induction nodes generalizing start with
  | nil => exact placed
  | cons node rest ih =>
    obtain ⟨here, later⟩ := placed.uncons
    obtain ⟨begins, ends, -⟩ := here.ordered.mem (List.mem_singleton_self node)
    have newline : Placed source verbatim start
        [.operator "\n" ⟨node.span.start, node.span.start⟩] node.span.start :=
      .leaf rfl rfl (fun _ _ => Node.noConfusion) begins (Nat.le_refl _)
    have first : Placed source verbatim node.span.start [node] node.span.stop :=
      .single (here.faithful node List.mem_cons_self) (Nat.le_refl _) ends (Nat.le_refl _)
    exact (newline.append first).append (ih later)

/-- The command of a substitution stands where the commands in it do. -/
theorem substituted (made : Grammar.substitutedCommand nodes = .ok node)
    (placed : Placed source verbatim start nodes stop) :
    Placed source verbatim start [node] stop := by
  rcases nodes with _ | ⟨first, _ | ⟨second, rest⟩⟩
  · cases made
  · cases made
    exact placed
  · cases made
    obtain ⟨here, later⟩ := placed.uncons
    exact .spanning rfl rfl (fun _ _ => Node.noConfusion) (List.cons_ne_nil _ _) rfl
      (here.append later.separated)

end Placed

/-- Pieces of a word that are recorded between two offsets. -/
def Word.Lie (source : List Char) (verbatim : Prop) (start : Nat) (pieces : List Word.Piece)
    (stop : Nat) : Prop :=
  ∃ text, Word.Spread start text pieces ∧ start + Text.size text ≤ stop ∧
    (verbatim → (Span.mk start stop).Covers source text)

/-- A word with its pieces in its span, where it can be read again. -/
structure Word.Stands (source : List Char) (verbatim : Prop) (span : Span) (read : Word) :
    Prop where
  pieces : Word.Lie source verbatim span.start read.pieces span.stop
  again : verbatim → ∃ own, span.Covers source own ∧ Lexer.Alone own read

theorem Word.Lie.uncons {source : List Char} {verbatim : Prop} {start stop : Nat}
    {piece : Word.Piece} {rest : List Word.Piece}
    (lie : Word.Lie source verbatim start (piece :: rest) stop) :
    ∃ begins own, start ≤ begins ∧ piece.Rests begins own ∧
      (verbatim → (Span.mk begins (begins + Text.size own)).Covers source own) ∧
      Word.Lie source verbatim (begins + Text.size own) rest stop := by
  obtain ⟨text, spread, ends, covers⟩ := lie
  cases spread with
  | @cons _ before own behind _ _ first later =>
    simp only [Text.size_append] at ends
    have slices (here : verbatim) := ((covers here).split _).2.split _
    refine ⟨start + Text.size before, own, Nat.le_add_right _ _, first,
      fun here => (slices here).1, behind, later, by omega, fun here => (slices here).2⟩

/-- Tokens that stand one after the other between two offsets. -/
inductive Laid (source : List Char) (verbatim : Prop) (stop : Nat) : Nat → List Lexeme → Prop where
  | nil {start : Nat} (ordered : start ≤ stop) : Laid source verbatim stop start []
  | cons {start : Nat} {lexeme : Lexeme} {rest : List Lexeme}
      (begins : start ≤ lexeme.span.start) (ends : lexeme.span.start ≤ lexeme.span.stop)
      (word : ∀ read, lexeme.token = .word read → read.Stands source verbatim lexeme.span)
      (later : Laid source verbatim stop lexeme.span.stop rest) :
      Laid source verbatim stop start (lexeme :: rest)

namespace Laid

variable {source : List Char} {verbatim : Prop} {start stop : Nat}
  {lexemes before after : List Lexeme}

theorem le (laid : Laid source verbatim stop start lexemes) : start ≤ stop := by
  induction laid with
  | nil ordered => exact ordered
  | cons begins ends _ _ ih => omega

theorem lower {earlier : Nat} (before : earlier ≤ start)
    (laid : Laid source verbatim stop start lexemes) :
    Laid source verbatim stop earlier lexemes := by
  cases laid with
  | nil ordered => exact .nil (before.trans ordered)
  | cons begins ends word later => exact .cons (before.trans begins) ends word later

theorem suffix (behind : after <:+ before) (laid : Laid source verbatim stop start before) :
    Laid source verbatim stop start after := by
  induction laid with
  | nil ordered =>
    obtain rfl := List.suffix_nil.mp behind
    exact .nil ordered
  | cons begins ends word later ih =>
    rcases List.suffix_cons_iff.mp behind with rfl | behind
    · exact .cons begins ends word later
    · exact (ih behind).lower (begins.trans ends)

end Laid

/-- The tokens of a text stand one after the other where the text does. -/
theorem Lexer.Rows.laid {source text : List Char} {verbatim : Prop} {position : Position}
    {stop : Nat} {lexemes : List Lexeme} (rows : Rows position text lexemes)
    (ends : position.offset + Text.size text ≤ stop)
    (covers : verbatim → (Span.mk position.offset stop).Covers source text) :
    Laid source verbatim stop position.offset lexemes := by
  induction rows with
  | nil => exact .nil (by omega)
  | @cons position gap own behind lexeme rest starts stops some fits alone later ih =>
    have start : lexeme.start.offset = position.offset + Text.size gap := by
      rw [starts, Position.after_offset]
    have finish : lexeme.stop.offset = lexeme.start.offset + Text.size own := by
      rw [stops, Position.after_offset]
    simp only [Text.size_append] at ends
    have slices (here : verbatim) := ((covers here).split _).2.split _
    rw [← start, ← finish] at slices
    refine .cons (Nat.le.intro start.symm) (Nat.le.intro finish.symm) ?_
      (ih (by rw [finish, start]; omega) fun here => (slices here).2)
    intro read token
    rw [token] at fits
    exact ⟨⟨own, fits.spread, Nat.le_of_eq finish.symm, fun here => (slices here).1⟩,
      fun here => ⟨own, (slices here).1, alone read token⟩⟩

namespace Grammar

/-- The nodes of a phrase stand in order where its tokens do, before the tokens after it. -/
def Moves (source : List Char) (nodes : List Node) (before after : List Lexeme) : Prop :=
  ∀ ⦃verbatim : Prop⦄ ⦃start stop : Nat⦄, Laid source verbatim stop start before →
    ∃ middle, Placed source verbatim start nodes middle ∧ Laid source verbatim stop middle after

namespace Moves

variable {source : List Char} {node child : Node} {nodes first second : List Node}
  {lexeme last : Lexeme} {before middle rest after : List Lexeme}

theorem pass (behind : after <:+ before) : Moves source [] before after :=
  fun _ start _ laid => ⟨start, .nil (Nat.le_refl _), laid.suffix behind⟩

theorem newlines : Moves source [] before (pastNewlines before) :=
  pass (List.dropWhile_suffix _)

theorem trans (here : Moves source first before middle)
    (there : Moves source second middle after) : Moves source (first ++ second) before after := by
  intro verbatim start stop laid
  obtain ⟨between, placed, laid⟩ := here laid
  obtain ⟨finish, others, laid⟩ := there laid
  exact ⟨finish, placed.append others, laid⟩

/-- A token without a node may stand behind the nodes. -/
theorem skip (earlier : Moves source nodes before (lexeme :: rest)) :
    Moves source nodes before rest := by
  have both := earlier.trans (pass (List.suffix_cons lexeme rest))
  rwa [List.append_nil] at both

theorem behind (suffix : middle <:+ before) (later : Moves source nodes middle after) :
    Moves source nodes before after :=
  (pass suffix).trans later

theorem leaf (children : node.children = []) (other : node.wordText? = none)
    (plain : ∀ command span, node ≠ .substitution command span) (span : node.span = lexeme.span) :
    Moves source [node] (lexeme :: rest) rest := by
  intro verbatim start stop laid
  cases laid with
  | cons begins ends word later =>
    rw [← span] at begins ends later
    exact ⟨_, .leaf children other plain begins ends, later⟩

theorem operator (op : String) : Moves source [.operator op lexeme.span] (lexeme :: rest) rest :=
  leaf rfl rfl (fun _ _ => Node.noConfusion) rfl

theorem pipe : Moves source [.pipe "|" lexeme.span] (lexeme :: rest) rest :=
  leaf rfl rfl (fun _ _ => Node.noConfusion) rfl

theorem reserved (word : String) :
    Moves source [.reserved word lexeme.span] (lexeme :: rest) rest :=
  leaf rfl rfl (fun _ _ => Node.noConfusion) rfl

/-- A node from its first token up to its last. -/
theorem around (children : node.children = nodes) (other : node.wordText? = none)
    (plain : ∀ command span, node ≠ .substitution command span)
    (begun : node.span.start = lexeme.span.start) (ended : node.span.stop = last.span.stop)
    (inside : Moves source nodes rest (last :: after)) :
    Moves source [node] (lexeme :: rest) after := by
  intro verbatim start stop laid
  cases laid with
  | cons begins ends word later =>
    obtain ⟨middle, placed, laid⟩ := inside later
    cases laid with
    | cons first finish _ others =>
      refine ⟨_, .wrap children other plain ⟨?_, placed.faithful⟩ (begun ▸ begins) ended.le, others⟩
      rw [begun, ended]
      exact (placed.ordered.lower ends).raise (first.trans finish)

/-- A node from its first token up to the end of its only child. -/
theorem upTo (children : node.children = [child]) (other : node.wordText? = none)
    (plain : ∀ command span, node ≠ .substitution command span)
    (begun : node.span.start = lexeme.span.start) (ended : node.span.stop = child.span.stop)
    (inside : Moves source [child] rest after) : Moves source [node] (lexeme :: rest) after := by
  intro verbatim start stop laid
  cases laid with
  | cons begins ends word later =>
    obtain ⟨middle, placed, laid⟩ := inside later
    obtain ⟨after, ordered, behind⟩ := placed.ordered.mem (List.mem_singleton_self child)
    refine ⟨middle, .wrap children other plain ⟨?_, placed.faithful⟩ (begun ▸ begins)
      (ended ▸ behind), laid⟩
    rw [begun, ended]
    exact .single (ends.trans after) ordered (Nat.le_refl _)

theorem spanning (children : node.children = nodes) (other : node.wordText? = none)
    (plain : ∀ command span, node ≠ .substitution command span) (some : nodes ≠ [])
    (span : node.span = Grammar.spanning nodes) (inside : Moves source nodes before after) :
    Moves source [node] before after := by
  intro verbatim start stop laid
  obtain ⟨middle, placed, laid⟩ := inside laid
  exact ⟨middle, .spanning children other plain some span placed, laid⟩

theorem front (whole : Moves source (first ++ second) before after) :
    Moves source first before after := by
  intro verbatim start stop laid
  obtain ⟨middle, placed, laid⟩ := whole laid
  exact ⟨middle, placed.front, laid⟩

end Moves

/-- The nodes that a phrase is in the tree. -/
def Phrase.nodes : Phrase → List Node
  | .pieces _ made => made
  | .word node | .redirect node | .group node | .command node | .pipeline node
  | .list _ node => [node]
  | .redirects nodes | .parts _ nodes | .items nodes | .stages nodes | .chain nodes
  | .entries _ nodes | .script nodes => nodes
  | .clauses _ made => (Node.conditional made default).children

/-- The nodes of a phrase stand in order where its pieces or its tokens do. -/
def Phrase.Stands (source : List Char) : Phrase → List Lexeme → List Lexeme → Prop
  | .pieces read made, _, _ => ∀ ⦃verbatim : Prop⦄ ⦃start stop : Nat⦄,
    Word.Lie source verbatim start read stop → Placed source verbatim start made stop
  | phrase, before, after => Moves source phrase.nodes before after

theorem dropSeparators_append (parts : List Node) :
    ∃ dropped, dropSeparators parts ++ dropped = parts :=
  List.rdropWhile_prefix _ parts

theorem Moves.listed {source : List Char} {parts : List Node} {node : Node}
    {before after : List Lexeme} (made : listed? parts = some node)
    (inside : Moves source parts before after) : Moves source [node] before after := by
  obtain ⟨dropped, whole⟩ := dropSeparators_append parts
  rw [← whole] at inside
  have kept := inside.front
  rw [listed?] at made
  generalize dropSeparators parts = front at made kept
  rcases front with _ | ⟨first, _ | ⟨second, rest⟩⟩
  · cases made
  · cases made
    exact kept
  · cases made
    exact .spanning rfl rfl (fun _ _ => Node.noConfusion) (List.cons_ne_nil _ _) rfl kept

/-- The pieces of a word stand in it. -/
theorem Moves.word {source : List Char} {lexeme : Lexeme} {read : Word} {parts : List Node}
    {node : Node} {rest : List Lexeme} (token : lexeme.token = .word read)
    (pieces : Phrase.Stands source (.pieces read.pieces parts) [] [])
    (children : node.children = parts) (written : node.wordText? = some read.text)
    (span : node.span = lexeme.span) : Moves source [node] (lexeme :: rest) rest := by
  intro verbatim start stop laid
  cases laid with
  | cons begins ends word later =>
    obtain ⟨lie, again⟩ := word read token
    have placed := pieces lie
    rw [← span] at begins ends later placed again
    have plain : ∀ command span, node ≠ .substitution command span := by
      rintro command span rfl
      cases written
    refine ⟨node.span.stop, .single (.intro (children ▸ placed.ordered) ?_ ?_) begins ends
      (Nat.le_refl _), later⟩
    · intro here text same _
      cases written.symm.trans same
      obtain ⟨own, covers, alone⟩ := again here
      refine ⟨own, covers, fun offset => ?_⟩
      obtain ⟨again, ran, equal⟩ := alone offset
      refine ⟨again, _, _, ran, ?_⟩
      rw [Word.text, Word.text, ← Word.unplaced_chars, equal, Word.unplaced_chars]
    · intro child member
      rw [and_iff_left (Node.not_backquoted plain)]
      exact placed.faithful child (children ▸ member)

/-- The commands of a substitution stand between its parentheses or backquotes. -/
theorem Placed.substitution {source body own : List Char} {verbatim : Prop}
    {start begins bodyStart : Nat} {span : Span} {lexemes : List Lexeme} {nodes : List Node}
    {command : Node} (tokens : lex body bodyStart = .ok lexemes)
    (made : substitutedCommand nodes = .ok command) (inside : Moves source nodes lexemes [])
    (rests : (Word.Piece.substitution body span bodyStart).Rests begins own)
    (after : start ≤ begins)
    (covers : verbatim → (Span.mk begins (begins + Text.size own)).Covers source own) :
    Placed source verbatim start [.substitution command span] (begins + Text.size own) := by
  obtain ⟨rfl, form⟩ := rests
  obtain ⟨early, late, slice⟩ : begins ≤ bodyStart ∧
      bodyStart + Text.size body ≤ begins + Text.size own ∧
      (verbatim ∧ ¬Node.Backquoted source
          (.substitution command ⟨begins, begins + Text.size own⟩) →
        (Span.mk bodyStart (bodyStart + Text.size body)).Covers source body) := by
    obtain ⟨rfl, rfl⟩ | ⟨between, rfl, sublist, rfl⟩ := form
    · refine ⟨Nat.le_add_right _ _, ?_, fun here => ?_⟩
      · simp only [Text.size_cons, Text.size_append]
        have := Char.utf8Size_pos '$'
        have := Char.utf8Size_pos '('
        have := Char.utf8Size_pos ')'
        omega
      · exact (((covers here.1).split ['$', '(']).2.split _).1
    · refine ⟨Nat.le_add_right _ _, ?_, fun here => absurd ⟨_, covers here.1⟩ here.2⟩
      have := Text.size_le_of_sublist sublist
      simp only [Text.size_cons, Text.size_append]
      have := Char.utf8Size_pos '\x60'
      omega
  obtain ⟨middle, placed, laid⟩ :=
    inside ((Lexer.lexemes_rows _ _ tokens).1.laid (Nat.le_refl _) slice)
  have command := placed.substituted made
  have ordered := (command.ordered.lower early).raise (laid.le.trans late)
  refine .single (.intro ordered ?_ command.faithful) after (Nat.le_add_right _ _) (Nat.le_refl _)
  intro _ _ written
  cases written

/-- The item of a loop that names none stands at the token behind the variable, which comes before
the body also if it is the word `do`. -/
theorem Moves.implied {source : List Char} {first doWord doneWord : Lexeme} {body : Node}
    {others start after : List Lexeme}
    (separators : pastSeparators (first :: others) = doWord :: start)
    (inside : Moves source [body] start (doneWord :: after)) :
    Moves source [positionals first.span, body] (first :: others) (doneWord :: after) := by
  have behind : start <:+ others := by
    rw [pastSeparators, List.dropWhile_cons] at separators
    split at separators
    · exact (List.suffix_cons _ _).trans (Shown.separators separators).suffix
    · cases separators
      exact List.suffix_refl _
  intro verbatim begins stop laid
  cases laid with
  | cons after ends word later =>
    obtain ⟨middle, placed, laid⟩ := inside (later.suffix behind)
    have inner : Placed source verbatim first.span.start [.parameter "$@" first.span] _ :=
      .leaf rfl rfl (fun _ _ => Node.noConfusion) (Nat.le_refl _) ends
    have item : Placed source verbatim begins [positionals first.span] first.span.stop := by
      refine .single (.intro inner.ordered ?_ ?_) after ends (Nat.le_refl _)
      · exact fun _ _ _ other => absurd rfl other
      · rw [and_iff_left (Node.not_backquoted fun _ _ => Node.noConfusion)]
        exact inner.faithful
    exact ⟨middle, item.append placed, laid⟩

theorem Reads.stands {source : List Char} {phrase : Phrase} {before after : List Lexeme}
    (read : Reads phrase before after) : phrase.Stands source before after := by
  induction read with
  | noPieces =>
    rintro verbatim start stop ⟨text, -, ends, -⟩
    exact .nil (by omega)
  | plain _ ih | guarded _ ih =>
    intro verbatim start stop lie
    obtain ⟨begins, own, after, -, -, later⟩ := lie.uncons
    exact (ih later).lower (after.trans (Nat.le_add_right _ _))
  | @reference value span _ _ _ ih =>
    intro verbatim start stop lie
    obtain ⟨begins, own, after, rfl, -, later⟩ := lie.uncons
    have here : Placed source verbatim start
        [.parameter (String.ofList value) ⟨begins, begins + Text.size own⟩] _ :=
      .leaf rfl rfl (fun _ _ => Node.noConfusion) after (Nat.le_add_right begins (Text.size own))
    exact here.append (ih later)
  | substitution tokens _ made _ inside ih =>
    intro verbatim start stop lie
    obtain ⟨begins, own, after, rests, covers, later⟩ := lie.uncons
    exact (Placed.substitution tokens made inside rests after covers).append (ih later)
  | word token _ pieces => exact .word token pieces rfl rfl rfl
  | redirect token _ leads => exact .upTo rfl rfl (fun _ _ => Node.noConfusion) rfl rfl leads
  | noRedirect => exact .pass (List.suffix_refl _)
  | redirects _ _ here others => exact here.trans others
  | noPart => exact .pass (List.suffix_refl _)
  | assignment token _ _ _ pieces later =>
    exact (Moves.word token pieces rfl rfl rfl).trans later
  | argument _ _ _ _ here later => exact here.trans later
  | redirected _ _ here later => exact here.trans later
  | noItem => exact .pass (List.suffix_refl _)
  | items _ _ here later => exact here.trans later
  | @group opener closer opening closing body redirects rest _ _ _ _ _ inside behind =>
    have opens : Moves source [.reserved opening opener.span] (opener :: rest) rest := .reserved _
    have whole := ((opens.trans inside).trans (.reserved closing)).trans behind
    refine .spanning rfl rfl (fun _ _ => Node.noConfusion) (List.cons_ne_nil _ _) ?_ whole
    change _ = Grammar.spanning (_ :: body :: .reserved closing closer.span :: redirects)
    rw [spanning_eq 0, stopAfter_cons, stopAfter_cons, stopAfter_cons]
    rfl
  | clause _ _ _ _ _ test inside =>
    exact test.skip.trans inside
  | clauseElse _ _ _ _ _ test inside otherwise =>
    exact (test.skip.trans inside.skip).trans otherwise
  | clauseElif _ _ _ _ _ test inside later =>
    exact (test.skip.trans inside.skip).trans later
  | simple _ some _ read =>
    exact .spanning rfl rfl (fun _ _ => Node.noConfusion) some rfl read
  | grouped _ group => exact group
  | @forIn _ _ _ _ _ _ _ _ _ _ _ _ _ _ _ _ newlines _ _ separators _ _ _ values inside =>
    have body := (inside.behind (List.suffix_cons _ _)).behind (Shown.separators separators).suffix
    have named := (values.trans body).behind
      ((List.suffix_cons _ _).trans (Shown.newlines newlines).suffix)
    exact .around rfl rfl (fun _ _ => Node.noConfusion) rfl rfl
      (named.behind (List.suffix_cons _ _))
  | forEach _ _ _ newlines _ separators _ _ _ inside =>
    have each := Moves.implied separators inside
    have named := each.behind (Shown.newlines newlines).suffix
    exact .around rfl rfl (fun _ _ => Node.noConfusion) rfl rfl
      (named.behind (List.suffix_cons _ _))
  | conditional _ _ _ clauses =>
    exact .around rfl rfl (fun _ _ => Node.noConfusion) rfl rfl clauses
  | function _ _ parens _ inside =>
    have body := (inside.behind (List.dropWhile_suffix _)).behind parens.shown.suffix
    exact .upTo rfl rfl (fun _ _ => Node.noConfusion) rfl rfl (body.behind (List.suffix_cons _ _))
  | definition _ _ first second _ inside =>
    have group := inside.behind (List.dropWhile_suffix _)
    have body := group.behind (Parens.pair first second).shown.suffix
    exact .upTo rfl rfl (fun _ _ => Node.noConfusion) rfl rfl body
  | stage _ _ here => exact here
  | pipe _ _ _ here later =>
    exact (here.trans .pipe).trans (later.behind (List.dropWhile_suffix _))
  | single _ read => exact read
  | pipeline several read inside =>
    exact .spanning rfl rfl (fun _ _ => Node.noConfusion) read.stages_ne_nil rfl inside
  | link _ _ here => exact here
  | chain _ _ _ here later =>
    exact (here.trans (.operator _)).trans (later.behind (List.dropWhile_suffix _))
  | noEntry => exact .newlines
  | entry opens _ _ here => exact here.behind opens.shown.suffix
  | lastEntry _ _ _ here => exact here.trans (.operator _)
  | entries opens _ _ _ _ here later =>
    exact (here.behind opens.shown.suffix).trans ((Moves.operator _).trans later)
  | list _ made read => exact read.listed made
  | ended nothing => exact .pass List.nil_suffix
  | line _ _ _ _ here later => exact (Moves.newlines.trans here).trans later

end Grammar

namespace Node

variable {source : List Char} {verbatim : Prop} {node root : Node}

theorem Faithful.ordered (faithful : Faithful source verbatim node) :
    InOrder node.span.start node.children node.span.stop := by
  cases faithful with
  | intro ordered => exact ordered

/-- What stands in a faithful node is faithful, and no further out. -/
theorem Faithful.within (faithful : Faithful source verbatim root) (within : Within node root) :
    (∃ verbatim, Faithful source verbatim node) ∧ root.span.start ≤ node.span.start ∧
      node.span.stop ≤ root.span.stop := by
  induction within generalizing verbatim with
  | self => exact ⟨⟨verbatim, faithful⟩, Nat.le_refl _, Nat.le_refl _⟩
  | inside member _ ih =>
    cases faithful with
    | intro ordered rereads each =>
      obtain ⟨begins, -, ends⟩ := ordered.mem member
      obtain ⟨inner, after, before⟩ := ih (each _ member)
      exact ⟨inner, begins.trans after, before.trans ends⟩

theorem Faithful.rereads (faithful : Faithful source verbatim root) (here : verbatim)
    (within : Verbatim source node root) {text : String} (written : node.wordText? = some text)
    (other : node ≠ Grammar.positionals node.span) : node.Rereads source text := by
  induction within generalizing verbatim with
  | self =>
    cases faithful with
    | intro _ rereads => exact rereads here text written other
  | inside plain member _ ih =>
    cases faithful with
    | intro _ _ each => exact ih (each _ member) ⟨here, plain⟩

end Node

theorem Text.size_toList (text : String) : Text.size text.toList = text.utf8ByteSize := by
  rw [← String.utf8Len_toList]
  induction text.toList with
  | nil => rfl
  | cons c rest ih => rw [size_cons, ih, String.utf8Len_cons, Nat.add_comm]

namespace Script

/-- The nodes of a parsed script stand in order in its text, and so do the children of each node in
it. The characters at the span of a word are that word alone, wherever they are read, unless the
word stands between backquotes or for the items that a loop leaves out. -/
theorem parse_positions {text : String} {nodes : List Node} (parsed : parse text = .ok nodes) :
    Node.InOrder 0 nodes text.utf8ByteSize ∧ ∀ root ∈ nodes,
      (∀ node, Node.Within node root →
        Node.InOrder node.span.start node.children node.span.stop ∧
          node.span.start ≤ node.span.stop ∧ node.span.stop ≤ text.utf8ByteSize) ∧
      ∀ node, Node.Verbatim text.toList node root → ∀ written, node.wordText? = some written →
        node ≠ Grammar.positionals node.span → node.Rereads text.toList written := by
  obtain ⟨lexemes, tokens, read⟩ := parseAt_eq_ok.mp parsed
  have rows := (Lexer.lexemes_rows _ _ tokens).1
  have laid : Laid text.toList True text.utf8ByteSize 0 lexemes := by
    have size : 0 + Text.size text.toList = text.utf8ByteSize := by
      rw [Text.size_toList, Nat.zero_add]
    exact rows.laid (Nat.le_of_eq size) fun _ => ⟨[], [], (List.append_nil _).symm, rfl, size⟩
  obtain ⟨middle, placed, behind⟩ := read.stands laid
  refine ⟨placed.ordered.raise behind.le, fun root member => ?_⟩
  have faithful := placed.faithful root member
  obtain ⟨-, -, ends⟩ := placed.ordered.mem member
  constructor
  · intro node within
    obtain ⟨⟨verbatim, inner⟩, -, before⟩ := faithful.within within
    exact ⟨inner.ordered, inner.ordered.le, (before.trans ends).trans behind.le⟩
  · intro node within written text other
    exact faithful.rereads trivial within text other

theorem parse_positions_nested :
    ∃ found, parse "for x; do a=\"é $(b 'c d' $y)\" `f $(g)` >o; done" = .ok found ∧
      Node.InOrder 0 found 48 ∧ ∀ root ∈ found,
        ∀ node, Node.Verbatim "for x; do a=\"é $(b 'c d' $y)\" `f $(g)` >o; done".toList node root →
          ∀ written, node.wordText? = some written → node ≠ Grammar.positionals node.span →
            node.Rereads "for x; do a=\"é $(b 'c d' $y)\" `f $(g)` >o; done".toList written := by
  have parsed : parse "for x; do a=\"é $(b 'c d' $y)\" `f $(g)` >o; done" = .ok _ :=
    parse_eq_nodes (by decide +kernel)
  obtain ⟨ordered, each⟩ := parse_positions parsed
  exact ⟨_, parsed, ordered, fun root member => (each root member).2⟩

end Script

end StepShell

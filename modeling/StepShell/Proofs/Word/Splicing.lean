import StepShell.Compilation
import StepShell.Proofs.Script.Defines
import StepShell.Proofs.Word.Marker

/-! Resolving the substitutions of a word, the last one first. Each output takes the place of the
region it belongs to exactly if the search finds that region's start, whatever the outputs after it
are, and if what stood between backquotes is balanced. -/

namespace StepShell

namespace Word

/-- Where a substitution stands in the source. -/
def Piece.place? : Piece → Option Span
  | .substitution _ span _ => some span
  | _ => none

def places (pieces : List Piece) : List Span :=
  pieces.filterMap Piece.place?

/-- The text of a piece; a substitution is resolved. -/
def Piece.filled (output : Span → String) : Piece → List Char
  | .substitution _ span _ => Expansion.protectChars (output span).toList
  | piece => piece.text

def filled (output : Span → String) (pieces : List Piece) : List Char :=
  pieces.flatMap (Piece.filled output)

/-- Every substitution of a word that starts at `start` is found in its turn, when those after it
are resolved: the nearest marker is its own, and its text is balanced if it stood between
backquotes. -/
def Findable (read : Word) (start : Nat) : Prop :=
  ∀ (output : Span → String) before body place bodyStart after,
    read.pieces = before ++ .substitution body place bodyStart :: after →
    nearestMarker? (before.flatMap Piece.text ++ '$' :: '(' :: (body ++ ')' :: filled output after))
        (place.start - start) = some (before.flatMap Piece.text).length ∧
      (bodyStart = place.start + 1 → Balanced body)

theorem places_append (first second : List Piece) :
    places (first ++ second) = places first ++ places second :=
  List.filterMap_append

theorem places_cons (piece : Piece) (rest : List Piece) :
    places (piece :: rest) = piece.place?.toList ++ places rest := by
  rw [places, List.filterMap_cons]
  cases piece.place? <;> rfl

theorem filled_cons (output : Span → String) (piece : Piece) (rest : List Piece) :
    filled output (piece :: rest) = piece.filled output ++ filled output rest :=
  List.flatMap_cons

/-- Only the outputs of the substitutions in a text matter. -/
theorem filled_congr {output other : Span → String} {pieces : List Piece}
    (same : ∀ place ∈ places pieces, output place = other place) :
    filled output pieces = filled other pieces := by
  induction pieces with
  | nil => rfl
  | cons piece rest ih =>
    rw [places_cons] at same
    rw [filled_cons, filled_cons, ih fun place later => same place (List.mem_append_right _ later)]
    cases piece with
    | substitution body place bodyStart =>
      rw [Piece.filled, Piece.filled, same place (List.mem_append_left _ List.mem_cons_self)]
    | plain | guarded | reference => rfl

theorem region_text (before : List Piece) (body : List Char) (place : Span) (bodyStart : Nat)
    (more : List Char) :
    (before ++ [Piece.substitution body place bodyStart]).flatMap Piece.text ++ more =
      before.flatMap Piece.text ++ '$' :: '(' :: (body ++ ')' :: more) := by
  simp [Piece.text]

theorem Laid.places_ge {start stop : Nat} {pieces : List Piece} (laid : Laid start pieces stop) :
    ∀ place ∈ places pieces, start ≤ place.start := by
  induction laid with
  | nil => simp [places]
  | @cons _ _ _ piece _ order stands _ ih =>
    intro place member
    rw [places_cons] at member
    rcases List.mem_append.mp member with here | later
    · cases piece with
      | substitution body span bodyStart =>
        obtain rfl := List.mem_singleton.mp here
        exact stands.1
      | plain | guarded | reference => simp [Piece.place?] at here
    · exact Nat.le_trans order (ih place later)

/-- No two substitutions of a word stand at one place. -/
theorem Laid.places_nodup {start stop : Nat} {pieces : List Piece} (laid : Laid start pieces stop) :
    (places pieces).Nodup := by
  induction laid with
  | nil => exact List.nodup_nil
  | @cons _ _ _ piece _ order stands later ih =>
    rw [places_cons]
    cases piece with
    | substitution body span bodyStart =>
      refine List.nodup_cons.mpr ⟨fun again => ?_, ih⟩
      have after := later.places_ge span again
      have before := stands.2.1
      omega
    | plain | guarded | reference => exact ih

/-- A substitution does not stand where a later one does. -/
theorem Laid.notMem_later {start stop : Nat} {before after : List Piece} {body : List Char}
    {place : Span} {bodyStart : Nat}
    (laid : Laid start (before ++ .substitution body place bodyStart :: after) stop) :
    place ∉ places after := by
  have nodup := laid.places_nodup
  rw [places_append] at nodup
  exact (List.nodup_cons.mp (List.nodup_append.mp nodup).2.1).1

theorem Laid.balanced {start stop : Nat} {pieces : List Piece} (laid : Laid start pieces stop)
    {body : List Char} {place : Span} {bodyStart : Nat}
    (member : Piece.substitution body place bodyStart ∈ pieces) :
    bodyStart = place.start + 1 ∨ Balanced body := by
  induction laid with
  | nil => cases member
  | cons _ stands _ ih =>
    rcases List.mem_cons.mp member with rfl | later
    · exact stands.2.2
    · exact ih later

/-- Substitutions in parentheses are found where nothing before them was written differently. -/
theorem Laid.findable {read : Word} {start stop : Nat} (laid : Laid start read.pieces stop)
    (undrifted : ∀ before body place bodyStart after,
      read.pieces = before ++ .substitution body place bodyStart :: after →
        (before.flatMap Piece.text).length = place.start - start ∧ bodyStart ≠ place.start + 1) :
    read.Findable start := by
  intro output before body place bodyStart after split
  obtain ⟨there, parenthesised⟩ := undrifted before body place bodyStart after split
  refine ⟨?_, fun backquoted => absurd backquoted parenthesised⟩
  rw [split] at laid
  rw [there]
  refine nearestMarker?_self ?_
  rw [← there]
  exact laid.left.marked _

end Word

theorem Lexed.laid {read : Word} {span : Span} (lexed : Lexed read span) :
    Word.Laid span.start read.pieces span.stop := by
  obtain ⟨text, offset, lexemes, found, lexeme, member, same, rfl⟩ := lexed
  exact Lexer.lexemes_laid _ _ found lexeme member read same

namespace Node

/-- The substitution that a part of a word is stands here. -/
def place? : Node → Option Span
  | .substitution _ span => some span
  | _ => none

/-- The parts of a word without the substitutions at some places. -/
def without (places : List Span) (parts : List Node) : List Node :=
  parts.filter fun part => part.place?.all fun place => !places.contains place

/-- A part of a command with another text and other parts in its word. -/
def rewritten (text : String) (parts : List Node) : Node → Node
  | .word _ _ quoted span => .word text parts quoted span
  | .assignment _ _ span => .assignment text parts span
  | .redirect kind target span => .redirect kind (target.rewritten text parts) span
  | node => node

theorem isSubstitution_iff {place : Span} {part : Node} :
    isSubstitution place part = true ↔ part.place? = some place := by
  cases part <;> simp [isSubstitution, place?]

theorem without_cons (places : List Span) (part : Node) (parts : List Node) :
    without places (part :: parts) =
      if part.place?.all fun place => !places.contains place then part :: without places parts
      else without places parts :=
  List.filter_cons

/-- Nothing is lost with a place where no part stands. -/
theorem without_absent {place : Span} {done : List Span} {parts : List Node}
    (absent : place ∉ parts.filterMap Node.place?) :
    without (place :: done) parts = without done parts := by
  refine List.filter_congr fun part member => ?_
  cases here : part.place? with
  | none => rfl
  | some other =>
    have different : other ≠ place := by
      rintro rfl
      exact absent (List.mem_filterMap.mpr ⟨part, member, here⟩)
    simp [different]

theorem without_nil (parts : List Node) : without [] parts = parts := by
  refine List.filter_eq_self.mpr fun part _ => ?_
  cases part.place? <;> rfl

/-- Without all its places a word has no substitution. -/
theorem place?_without (parts : List Node) :
    (without (parts.filterMap Node.place?) parts).filterMap Node.place? = [] := by
  refine List.filterMap_eq_nil_iff.mpr fun part kept => ?_
  obtain ⟨member, free⟩ := List.mem_filter.mp kept
  cases here : part.place? with
  | none => rfl
  | some place =>
    have listed : place ∈ parts.filterMap Node.place? :=
      List.mem_filterMap.mpr ⟨part, member, here⟩
    rw [here, Option.all_some, List.contains_iff_mem.mpr listed] at free
    cases free

/-- The first part at a place is the only one. -/
theorem eraseIdx_without {place : Span} {done : List Span} {parts : List Node}
    (nodup : (parts.filterMap Node.place?).Nodup) (member : place ∈ parts.filterMap Node.place?)
    (unresolved : place ∉ done) :
    ∃ index, (without done parts).findIdx? (isSubstitution place) = some index ∧
      (without done parts).eraseIdx index = without (place :: done) parts := by
  induction parts with
  | nil => simp at member
  | cons part rest ih =>
    rw [without_cons, without_cons]
    cases here : part.place? with
    | none =>
      rw [List.filterMap_cons_none here] at nodup member
      obtain ⟨index, found, erased⟩ := ih nodup member
      have other : isSubstitution place part ≠ true := by
        rw [ne_eq, isSubstitution_iff, here]
        exact nofun
      refine ⟨index + 1, ?_, ?_⟩
      · rw [Option.all_none, if_pos rfl, List.findIdx?_cons, if_neg other, found]
        rfl
      · rw [Option.all_none, Option.all_none, if_pos rfl, if_pos rfl, List.eraseIdx_cons_succ,
          erased]
    | some other =>
      rw [List.filterMap_cons_some here] at nodup member
      obtain ⟨absent, nodup⟩ := List.nodup_cons.mp nodup
      by_cases same : other = place
      · subst same
        refine ⟨0, ?_, ?_⟩
        · rw [if_pos (by simpa using unresolved), List.findIdx?_cons,
            if_pos (isSubstitution_iff.mpr here)]
        · rw [if_pos (by simpa using unresolved), if_neg (by simp), List.eraseIdx_cons_zero,
            without_absent absent]
      · obtain ⟨index, found, erased⟩ :=
          ih nodup ((List.mem_cons.mp member).resolve_left fun equal => same equal.symm)
        by_cases resolved : other ∈ done
        · refine ⟨index, ?_, ?_⟩
          · rw [if_neg (by simpa using resolved), found]
          · rw [if_neg (by simpa using resolved), if_neg (by simp [resolved]), erased]
        · have apart : isSubstitution place part ≠ true := by
            rw [ne_eq, isSubstitution_iff, here]
            simpa using same
          refine ⟨index + 1, ?_, ?_⟩
          · rw [if_pos (by simpa using resolved), List.findIdx?_cons, if_neg apart, found]
            rfl
          · rw [if_pos (by simpa using resolved), if_pos (by simp [same, resolved]),
              List.eraseIdx_cons_succ, erased]

/-- Put the outputs of the substitutions at these places into a part of a command, one after the
other. -/
def resolve (output : Span → String) (places : List Span) (node : Node) :
    Except ExecutionError Node :=
  places.foldlM (fun node place => node.spliceTarget place (output place)) node

/-- An argument, an assignment or a redirect, as the grammar makes it of a word. -/
inductive Spells (read : Word) (parts : List Node) (span : Span) : Node → Prop where
  | argument : Spells read parts span (.word read.text parts read.quoted span)
  | assignment : Spells read parts span (.assignment read.text parts span)
  | target {kind : RedirectKind} {whole : Span} :
      Spells read parts span (.redirect kind (.word read.text parts read.quoted span) whole)

/-- After any number of substitutions, from the last one on, their regions hold their outputs, all
else is as it was read, and the others are the ones still to be resolved. -/
def SplicesExactly (read : Word) (parts : List Node) (node : Node) : Prop :=
  ∀ (output : Span → String) before after, read.pieces = before ++ after →
    node.resolve output (Word.places after).reverse =
      .ok (node.rewritten
        (String.ofList (before.flatMap Word.Piece.text ++ Word.filled output after))
        (without (Word.places after) parts))

/-- The grammar keeps the places of a word's substitutions. -/
theorem place?_partsOf {inner : Grammar.Inner} {pieces : List Word.Piece} {parts : List Node}
    (made : Grammar.partsOf inner pieces = .ok parts) :
    parts.filterMap Node.place? = Word.places pieces := by
  induction pieces generalizing parts with
  | nil =>
    cases made
    rfl
  | cons piece rest ih =>
    rw [Word.places_cons]
    cases piece with
    | plain c => exact ih made
    | guarded c => exact ih made
    | reference value span =>
      obtain ⟨later, read, same⟩ := except_bind_eq_ok.mp made
      cases same
      rw [List.filterMap_cons, ← ih read]
      rfl
    | substitution body span bodyStart =>
      obtain ⟨nodes, _, made⟩ := except_bind_eq_ok.mp made
      obtain ⟨command, _, made⟩ := except_bind_eq_ok.mp made
      obtain ⟨later, read, same⟩ := except_bind_eq_ok.mp made
      cases same
      rw [List.filterMap_cons, ih read]
      rfl

theorem Spells.spliceTarget_eq_ok {read : Word} {parts kept : List Node} {span place : Span}
    {node after : Node} {text output : String} (spelled : Spells read parts span node) :
    (node.rewritten text kept).spliceTarget place output = .ok after ↔
      ∃ replaced left, resolved place output text kept span.start = .ok (replaced, left) ∧
        after = node.rewritten replaced left := by
  cases spelled with
  | argument | assignment =>
    constructor
    · intro done
      obtain ⟨⟨replaced, left⟩, found, made⟩ := except_bind_eq_ok.mp done
      cases made
      exact ⟨replaced, left, found, rfl⟩
    · rintro ⟨replaced, left, found, rfl⟩
      exact except_bind_eq_ok.mpr ⟨(replaced, left), found, rfl⟩
  | target =>
    constructor
    · intro done
      obtain ⟨target, inside, made⟩ := except_bind_eq_ok.mp done
      obtain ⟨⟨replaced, left⟩, found, same⟩ := except_bind_eq_ok.mp inside
      cases same
      cases made
      exact ⟨replaced, left, found, rfl⟩
    · rintro ⟨replaced, left, found, rfl⟩
      refine except_bind_eq_ok.mpr ⟨_, except_bind_eq_ok.mpr ⟨(replaced, left), found, rfl⟩, rfl⟩

theorem resolved_eq_ok {place : Span} {output text replaced : String} {done : List Span}
    {parts left : List Node} {start : Nat} (nodup : (parts.filterMap Node.place?).Nodup)
    (member : place ∈ parts.filterMap Node.place?) (unresolved : place ∉ done) :
    resolved place output text (without done parts) start = .ok (replaced, left) ↔
      Word.replaceMarked text (place.start - start) output = .ok replaced ∧
        left = without (place :: done) parts := by
  obtain ⟨index, found, erased⟩ := eraseIdx_without nodup member unresolved
  rw [resolved, found, ← erased]
  constructor
  · intro made
    obtain ⟨text, marked, same⟩ := except_bind_eq_ok.mp made
    cases same
    exact ⟨marked, rfl⟩
  · rintro ⟨marked, rfl⟩
    exact except_bind_eq_ok.mpr ⟨_, marked, rfl⟩

theorem resolve_append {output : Span → String} {first second : List Span} {node after : Node} :
    node.resolve output (first ++ second) = .ok after ↔
      ∃ middle, node.resolve output first = .ok middle ∧
        middle.resolve output second = .ok after := by
  rw [resolve, List.foldlM_append]
  exact except_bind_eq_ok

theorem resolve_single {output : Span → String} {place : Span} {node after : Node} :
    node.resolve output [place] = .ok after ↔
      node.spliceTarget place (output place) = .ok after := by
  rw [resolve, List.foldlM_cons]
  constructor
  · intro made
    obtain ⟨_, spliced, same⟩ := except_bind_eq_ok.mp made
    cases same
    exact spliced
  · intro spliced
    exact except_bind_eq_ok.mpr ⟨after, spliced, rfl⟩

theorem Spells.rewritten_self {read : Word} {parts : List Node} {span : Span} {node : Node}
    (spelled : Spells read parts span node) : node.rewritten read.text parts = node := by
  cases spelled <;> rfl

theorem Spells.rewritten_text {read : Word} {parts left left' : List Node} {span : Span}
    {node : Node} {text text' : String} (spelled : Spells read parts span node)
    (same : node.rewritten text left = node.rewritten text' left') : text = text' := by
  cases spelled <;> simp [rewritten] at same <;> exact same.1

/-- Every part of a command that a script gives is made of a word that the lexer reads; only the
items of a loop that names none are not. -/
theorem spelled_of_formed {node : Node} (formed : Formed .part node) :
    (∃ read parts span inner, Lexed read span ∧ Grammar.partsOf inner read.pieces = .ok parts ∧
      Spells read parts span node) ∨
    (∃ span, node.owner = .word "$@" [.parameter "$@" span] true span) := by
  cases formed with
  | argument word =>
    cases word with
    | word lexed made _ => exact .inl ⟨_, _, _, _, lexed, made, .argument⟩
    | positionals => exact .inr ⟨_, rfl⟩
  | assignment lexed made _ _ => exact .inl ⟨_, _, _, _, lexed, made, .assignment⟩
  | redirection redirect =>
    cases redirect with
    | redirect leads =>
      cases leads with
      | word lexed made _ => exact .inl ⟨_, _, _, _, lexed, made, .target⟩
      | positionals => exact .inr ⟨_, rfl⟩

section
variable {read : Word} {parts : List Node} {span : Span} {node : Node} {inner : Grammar.Inner}

/-- In the end the word is the one that was read with all its regions filled, and no substitution is
left in it. -/
theorem SplicesExactly.whole (spliced : SplicesExactly read parts node)
    (made : Grammar.partsOf inner read.pieces = .ok parts) (output : Span → String) :
    ∃ left, node.resolve output (Word.places read.pieces).reverse =
        .ok (node.rewritten (String.ofList (Word.filled output read.pieces)) left) ∧
      left.filterMap Node.place? = [] := by
  refine ⟨_, spliced output [] read.pieces rfl, ?_⟩
  rw [← place?_partsOf made]
  exact place?_without parts

/-- One more substitution is resolved exactly if its region is replaced. -/
theorem Spells.resolve_step (spelled : Spells read parts span node)
    (nodup : (parts.filterMap Node.place?).Nodup) {place : Span} {later : List Span}
    (member : place ∈ parts.filterMap Node.place?) (unresolved : place ∉ later)
    {output : Span → String} {text replaced : String}
    (resolved : node.resolve output later.reverse =
      .ok (node.rewritten text (without later parts))) :
    node.resolve output (place :: later).reverse =
        .ok (node.rewritten replaced (without (place :: later) parts)) ↔
      Word.replaceMarked text (place.start - span.start) (output place) = .ok replaced := by
  rw [List.reverse_cons, resolve_append]
  constructor
  · rintro ⟨middle, first, last⟩
    rw [resolved] at first
    cases first
    obtain ⟨found, left, made, same⟩ := spelled.spliceTarget_eq_ok.mp (resolve_single.mp last)
    obtain ⟨marked, rfl⟩ := (resolved_eq_ok nodup member unresolved).mp made
    rwa [spelled.rewritten_text same]
  · intro marked
    refine ⟨_, resolved, resolve_single.mpr (spelled.spliceTarget_eq_ok.mpr ?_)⟩
    exact ⟨_, _, (resolved_eq_ok nodup member unresolved).mpr ⟨marked, rfl⟩, rfl⟩

/-- Every output takes the place of its own region exactly if each substitution is found in its
turn. -/
theorem splicesExactly_iff (lexed : Lexed read span)
    (made : Grammar.partsOf inner read.pieces = .ok parts) (spelled : Spells read parts span node) :
    SplicesExactly read parts node ↔ read.Findable span.start := by
  have laid := lexed.laid
  have places := place?_partsOf made
  have nodup := laid.places_nodup
  rw [← places] at nodup
  constructor
  · intro spliced output before body place bodyStart after split
    have unresolved : place ∉ Word.places after := Word.Laid.notMem_later (split ▸ laid)
    have member : place ∈ parts.filterMap Node.place? := by
      rw [places, split, Word.places_append]
      exact List.mem_append_right _ List.mem_cons_self
    have replaced : ∀ out, Word.replaceMarked
        (String.ofList (before.flatMap Word.Piece.text ++
          '$' :: '(' :: (body ++ ')' :: Word.filled output after))) (place.start - span.start) out =
        .ok (String.ofList (before.flatMap Word.Piece.text ++
          Expansion.protectChars out.toList ++ Word.filled output after)) := by
      intro out
      let changed : Span → String := fun span => if span = place then out else output span
      have only : changed place = out := if_pos rfl
      have kept : Word.filled changed after = Word.filled output after := by
        refine Word.filled_congr fun other later => if_neg ?_
        rintro rfl
        exact unresolved later
      have first := spliced changed _ after (split.trans (List.append_cons _ _ _))
      have last := spliced changed before _ split
      have marked := (spelled.resolve_step nodup member unresolved first).mp last
      rw [Word.region_text, Word.filled_cons, Word.Piece.filled, only, kept,
        ← List.append_assoc] at marked
      exact marked
    obtain ⟨nearest, balanced⟩ := Word.replaceMarked_iff.mp replaced
    exact ⟨nearest, fun _ => balanced⟩
  · intro findable output before after split
    induction after generalizing before with
    | nil =>
      rw [List.append_nil] at split
      have text : String.ofList (before.flatMap Word.Piece.text ++ Word.filled output []) =
          read.text := by
        rw [← split, Word.filled, List.flatMap_nil, List.append_nil]
        rfl
      rw [text, Word.places, List.filterMap_nil, without_nil, spelled.rewritten_self]
      rfl
    | cons piece rest ih =>
      have later := ih (before ++ [piece]) (split.trans (List.append_cons _ _ _))
      cases piece with
      | substitution body place bodyStart =>
        have unresolved : place ∉ Word.places rest := Word.Laid.notMem_later (split ▸ laid)
        have member : place ∈ parts.filterMap Node.place? := by
          rw [places, split, Word.places_append]
          exact List.mem_append_right _ List.mem_cons_self
        obtain ⟨nearest, backquoted⟩ := findable output before body place bodyStart rest split
        have balanced : Word.Balanced body :=
          (laid.balanced (split ▸ List.mem_append_right _ List.mem_cons_self)).elim backquoted id
        refine (spelled.resolve_step nodup member unresolved later).mpr ?_
        rw [Word.region_text, Word.filled_cons, ← List.append_assoc]
        exact Word.replaceMarked_iff.mpr ⟨nearest, balanced⟩ (output place)
      | plain | guarded | reference =>
        rw [List.flatMap_append, List.flatMap_singleton, List.append_assoc] at later
        exact later

end

/-- One of the words whose substitution is found. -/
theorem splicesExactly_between_letters :
    let read : Word :=
      ⟨[.plain 'a', .substitution "echo b".toList ⟨6, 15⟩ 8, .plain 'c'], false⟩
    ∃ parts span, Script.parse "echo a$(echo b)c" =
        .ok [.command [.word "echo" [] false ⟨0, 4⟩, .word read.text parts false ⟨5, 16⟩] span] ∧
      SplicesExactly read parts (.word read.text parts false ⟨5, 16⟩) := by
  intro read
  have lexed : Lexed read ⟨5, 16⟩ := .of_lex "echo a$(echo b)c".toList 0 (by decide +kernel)
  have made : Grammar.partsOf Script.parseAt read.pieces = .ok [.substitution (.command
      [.word "echo" [] false ⟨8, 12⟩, .word "b" [] false ⟨13, 14⟩] ⟨8, 14⟩) ⟨6, 15⟩] :=
    eq_ok_of_toOption (by decide +kernel)
  refine ⟨_, ⟨0, 16⟩, eq_ok_of_toOption (by decide +kernel),
    (splicesExactly_iff lexed made .argument).mpr (lexed.laid.findable ?_)⟩
  intro before body place bodyStart after split
  rcases before with _ | ⟨first, _ | ⟨second, _ | ⟨third, _ | ⟨fourth, before⟩⟩⟩⟩ <;> cases split
  decide

/-- A hint that quotes have moved finds the inner of two substitutions. -/
theorem nested_substitution_replaced :
    let read : Word := ⟨[.substitution "echo $(echo a)".toList ⟨11, 28⟩ 13], true⟩
    ∃ parts span, Script.parse "echo \"\"\"\"\"\"$(echo $(echo a))" =
        .ok [.command [.word "echo" [] false ⟨0, 4⟩, .word read.text parts true ⟨5, 28⟩] span] ∧
      Lexed read ⟨5, 28⟩ ∧ String.ofList (Word.filled (fun _ => "a") read.pieces) = "a" ∧
      resolve (fun _ => "a") (Word.places read.pieces).reverse
          (.word read.text parts true ⟨5, 28⟩) = .ok (.word "$(echo a)" [] true ⟨5, 28⟩) := by
  intro read
  exact ⟨[.substitution (.command [.word "echo" [] false ⟨13, 17⟩,
      .word "$(echo a)" [.substitution (.command [.word "echo" [] false ⟨20, 24⟩,
        .word "a" [] false ⟨25, 26⟩] ⟨20, 26⟩) ⟨18, 27⟩] false ⟨18, 27⟩] ⟨13, 27⟩) ⟨11, 28⟩],
    ⟨0, 28⟩, eq_ok_of_toOption (by decide +kernel),
    .of_lex "echo \"\"\"\"\"\"$(echo $(echo a))".toList 0 (by decide +kernel), by decide,
    eq_ok_of_toOption (by decide +kernel)⟩

end Node

namespace Compilation

/-- The substitution that an operation puts the output of into its word. -/
def leaving? (slot index : Nat) : Action → Option Span
  | ⟨.leaveSubstitution other word place, _, _⟩ =>
    if other = slot ∧ word = index then some place else none
  | _ => none

/-- Compiling resolves the substitutions of a word from the last one on. -/
theorem leaving?_substitutionPairs (slot index : Nat) (parts : List Node) :
    (parts.reverse.flatMap (substitutionPair slot index)).filterMap (leaving? slot index) =
      (parts.filterMap Node.place?).reverse := by
  rw [← List.filterMap_reverse]
  induction parts.reverse with
  | nil => rfl
  | cons part rest ih =>
    rw [List.flatMap_cons, List.filterMap_append, ih]
    cases part with
    | substitution command span =>
      have pair : (substitutionPair slot index (.substitution command span)).filterMap
          (leaving? slot index) = [span] := by
        rw [substitutionPair, List.filterMap_cons_none rfl]
        exact List.filterMap_cons_some (if_pos ⟨rfl, rfl⟩)
      rw [pair]
      rfl
    | _ => rfl

end Compilation

end StepShell

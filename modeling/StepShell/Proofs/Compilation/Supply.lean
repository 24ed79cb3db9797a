import StepShell.Proofs.Compilation.Balance
import StepShell.Proofs.Compilation.Parts
import StepShell.Proofs.Word.Splicing

/-! Whatever an action will look for is there when the action is compiled: the slot it names, the
redirect in it, the substitution that is still to be resolved. Each substitution is resolved
once. -/

namespace StepShell

/-- An assignment has an equals sign, and no dollar sign before it. -/
def Node.Assigns : Node → Prop
  | .assignment text _ _ => ∃ name value, text.toList = name ++ '=' :: value ∧ '$' ∉ name
  | _ => True

theorem Node.Assigns.split {text : String} {parts : List Node} {span : Span}
    (assigns : (Node.assignment text parts span).Assigns) :
    ∃ halves, Text.splitOnce '=' text = some halves := by
  obtain ⟨name, value, written, _⟩ := assigns
  have cut : ∀ name, ∃ halves, Text.cutOnce '=' (name ++ '=' :: value) = some halves := by
    intro name
    induction name with
    | nil => exact ⟨_, if_pos rfl⟩
    | cons c rest ih =>
      rw [List.cons_append, Text.cutOnce]
      split
      · exact ⟨_, rfl⟩
      · obtain ⟨halves, later⟩ := ih
        rw [later]
        exact ⟨_, rfl⟩
  obtain ⟨halves, found⟩ := cut name
  rw [Text.splitOnce, written, found]
  exact ⟨_, rfl⟩

/-- The command of a substitution that is still to be resolved in a slot. -/
def substitutedIn? (slots : Array (List Node)) (slot word : Nat) (place : Span) : Option Node :=
  ((slots[slot]?.bind (·[word]?)).bind fun node => node.owner.ownParts?).bind
    (Node.substitutedAt? place)

namespace Operation

/-- The slot, word and place of the substitution that an operation enters or leaves. -/
def resolves? : Operation → Option (Nat × Nat × Span)
  | .enterSubstitution slot word place | .leaveSubstitution slot word place =>
    some (slot, word, place)
  | _ => none

/-- The slots and trees hold what the operation will look for. -/
def Supplied (slots : Array (List Node)) : Operation → Prop
  | .readRedirect slot index | .writeRedirect slot index _ =>
    ∃ parts kind text inner quoted span whole, slots[slot]? = some parts ∧
      parts[index]? = some (.redirect kind (.word text inner quoted span) whole)
  | .run slot => ∃ parts, slots[slot]? = some parts
  | .assign slot => ∃ parts, slots[slot]? = some parts ∧ ∀ part ∈ parts, part.Assigns
  | .enterSubstitution slot word place | .leaveSubstitution slot word place =>
    ∃ inner, substitutedIn? slots slot word place = some inner ∧ Formed .command inner
  | .separator op => op ∈ Grammar.separators
  | .decide _ node | .choose _ _ node => Formed .command node
  | _ => True

/-- A substitution that the first operation leaves is none of the later one's. -/
def Before (first later : Operation) : Prop :=
  ∀ slot word place, first = .leaveSubstitution slot word place →
    later.resolves? ≠ some (slot, word, place)

theorem before_of_later {first later : Operation} (none : later.resolves? = none) :
    first.Before later := by
  intro slot word place _
  rw [none]
  nofun

theorem before_of_first {first later : Operation} (none : first.resolves? = none) :
    first.Before later := by
  rintro slot word place rfl
  cases none

theorem before_of_ne {first later : Operation}
    (apart : ∀ target, first.resolves? = some target → later.resolves? ≠ some target) :
    first.Before later := by
  rintro slot word place rfl
  exact apart _ rfl

end Operation

/-- What the action will look for is there, and it resolves no substitution. -/
def Action.Idle (slots : Array (List Node)) (action : Action) : Prop :=
  action.operation.Supplied slots ∧ action.operation.resolves? = none

/-- Every substitution is left at most once, and after it was entered. -/
def InTurn (actions : List Action) : Prop :=
  actions.Pairwise fun first later => first.operation.Before later.operation

/-- The later array has further slots behind those of the first one. -/
def Extends (before after : Array (List Node)) : Prop :=
  ∃ added, after = before ++ added

namespace Extends

theorem refl (slots : Array (List Node)) : Extends slots slots :=
  ⟨#[], by simp⟩

theorem ofEmpty (slots : Array (List Node)) : Extends #[] slots :=
  ⟨slots, by simp⟩

theorem trans {before middle after : Array (List Node)} (first : Extends before middle)
    (second : Extends middle after) : Extends before after := by
  obtain ⟨early, rfl⟩ := first
  obtain ⟨late, rfl⟩ := second
  exact ⟨early ++ late, by rw [Array.append_assoc]⟩

theorem push (slots : Array (List Node)) (parts : List Node) : Extends slots (slots.push parts) :=
  ⟨#[parts], by simp⟩

theorem held {before after : Array (List Node)} (grown : Extends before after) {slot : Nat}
    {parts : List Node} (found : before[slot]? = some parts) : after[slot]? = some parts := by
  obtain ⟨added, rfl⟩ := grown
  obtain ⟨below, _⟩ := Array.getElem?_eq_some_iff.mp found
  rw [Array.getElem?_append_left below]
  exact found

theorem size_le {before after : Array (List Node)} (grown : Extends before after) :
    before.size ≤ after.size := by
  obtain ⟨added, rfl⟩ := grown
  rw [Array.size_append]
  exact Nat.le_add_right _ _

end Extends

section
variable {slots : Array (List Node)} {slot other index : Nat} {parts found : List Node} {old : Node}

/-- What the slots hold when a node of one of them is replaced, where they held something before. -/
theorem held_replaced (held : slots[slot]? = some parts) (there : slots[other]? = some found)
    (word : Nat) (node : Node) : (slots.setIfInBounds slot (parts.set word node))[other]? =
      some (if slot = other then found.set word node else found) := by
  obtain ⟨inside, _⟩ := Array.getElem?_eq_some_iff.mp held
  rw [Array.getElem?_setIfInBounds]
  by_cases here : slot = other
  · subst here
    cases held.symm.trans there
    rw [if_pos rfl, if_pos inside, if_pos rfl]
  · rw [if_neg here, if_neg here, there]

theorem picked_replaced (held : slots[slot]? = some parts) (there : slots[other]? = some found)
    (stands : found[index]? = some old) (word : Nat) (node : Node) :
    ∃ others, (slots.setIfInBounds slot (parts.set word node))[other]? = some others ∧
      others[index]? = some (if slot = other ∧ word = index then node else old) := by
  refine ⟨_, held_replaced held there word node, ?_⟩
  obtain ⟨within, _⟩ := List.getElem?_eq_some_iff.mp stands
  by_cases here : slot = other
  · rw [if_pos here, List.getElem?_set]
    by_cases same : word = index
    · rw [if_pos same, if_pos (same ▸ within), if_pos ⟨here, same⟩]
    · rw [if_neg same, if_neg fun both => same both.2, stands]
  · rw [if_neg here, if_neg fun both => here both.1, stands]

end

theorem substitutedIn?_eq_some {slots : Array (List Node)} {slot word : Nat} {place : Span}
    {inner : Node} : substitutedIn? slots slot word place = some inner ↔
      ∃ parts node own, slots[slot]? = some parts ∧ parts[word]? = some node ∧
        node.owner.ownParts? = some own ∧ Node.substitutedAt? place own = some inner := by
  simp only [substitutedIn?, Option.bind_eq_some_iff]
  constructor
  · rintro ⟨own, ⟨node, ⟨parts, held, picked⟩, owned⟩, found⟩
    exact ⟨parts, node, own, held, picked, owned, found⟩
  · rintro ⟨parts, node, own, held, picked, owned, found⟩
    exact ⟨own, ⟨node, ⟨parts, held, picked⟩, owned⟩, found⟩

namespace Operation

theorem Supplied.extended {operation : Operation} {before after : Array (List Node)}
    (supplied : operation.Supplied before) (grown : Extends before after) :
    operation.Supplied after := by
  cases operation with
  | readRedirect slot index | writeRedirect slot index append =>
    obtain ⟨parts, kind, text, inner, quoted, span, whole, held, found⟩ := supplied
    exact ⟨parts, kind, text, inner, quoted, span, whole, grown.held held, found⟩
  | run slot =>
    obtain ⟨parts, held⟩ := supplied
    exact ⟨parts, grown.held held⟩
  | assign slot =>
    obtain ⟨parts, held, each⟩ := supplied
    exact ⟨parts, grown.held held, each⟩
  | enterSubstitution slot word place | leaveSubstitution slot word place =>
    obtain ⟨inner, found, formed⟩ := supplied
    obtain ⟨parts, node, own, held, picked, owned, found⟩ := substitutedIn?_eq_some.mp found
    exact ⟨inner, substitutedIn?_eq_some.mpr
      ⟨parts, node, own, grown.held held, picked, owned, found⟩, formed⟩
  | _ => exact supplied

/-- A substitution stands in a slot that there is. -/
theorem Supplied.resolves_lt {operation : Operation} {slots : Array (List Node)}
    (supplied : operation.Supplied slots) {target : Nat × Nat × Span}
    (resolves : operation.resolves? = some target) : target.1 < slots.size := by
  cases operation with
  | enterSubstitution slot word place | leaveSubstitution slot word place =>
    cases resolves
    obtain ⟨inner, found, _⟩ := supplied
    obtain ⟨parts, _, _, held, _⟩ := substitutedIn?_eq_some.mp found
    exact (Array.getElem?_eq_some_iff.mp held).1
  | _ => cases resolves

end Operation

/-- The actions find what they need in the later slots, and resolve only substitutions of slots that
the first ones do not have. -/
structure Supplies (before after : Array (List Node)) (actions : List Action) : Prop where
  each : ∀ action ∈ actions, action.operation.Supplied after
  turns : InTurn actions
  fresh : ∀ action ∈ actions, ∀ target, action.operation.resolves? = some target →
    before.size ≤ target.1

namespace Supplies

variable {before middle after : Array (List Node)} {first second actions : List Action}

/-- Actions that need no slots. -/
theorem idle (each : ∀ action ∈ actions, action.Idle after) :
    Supplies before after actions where
  each action member := (each action member).1
  turns := List.pairwise_of_forall_mem_list fun _ _ other member =>
    Operation.before_of_later (each other member).2
  fresh action member target resolves := by
    rw [(each action member).2] at resolves
    cases resolves

theorem nil : Supplies before after [] :=
  idle (by simp)

theorem append (early : Supplies before after first) (late : Supplies before after second)
    (apart : ∀ action ∈ first, ∀ other ∈ second, action.operation.Before other.operation) :
    Supplies before after (first ++ second) where
  each := List.forall_mem_append.mpr ⟨early.each, late.each⟩
  turns := List.pairwise_append.mpr ⟨early.turns, late.turns, apart⟩
  fresh := List.forall_mem_append.mpr ⟨early.fresh, late.fresh⟩

/-- What is compiled later resolves substitutions of later slots. -/
theorem apart (early : Supplies before middle first) (late : Supplies middle after second)
    {action other : Action} (member : action ∈ first) (present : other ∈ second) :
    ∀ target, action.operation.resolves? = some target →
      other.operation.resolves? ≠ some target := by
  intro target left again
  have below := (early.each action member).resolves_lt left
  have above := late.fresh other present target again
  omega

theorem grow (early : Supplies before middle actions) (growing : Extends middle after) :
    Supplies before after actions :=
  ⟨fun action member => (early.each action member).extended growing, early.turns, early.fresh⟩

theorem deepen (late : Supplies middle after actions) (grown : Extends before middle) :
    Supplies before after actions :=
  ⟨late.each, late.turns, fun action member target resolves =>
    Nat.le_trans grown.size_le (late.fresh action member target resolves)⟩

theorem trans (early : Supplies before middle first) (late : Supplies middle after second)
    (grown : Extends before middle) (growing : Extends middle after) :
    Supplies before after (first ++ second) :=
  (early.grow growing).append (late.deepen grown) fun _ member _ present =>
    Operation.before_of_ne (early.apart late member present)

/-- What is compiled later may also come first. -/
theorem behind (early : Supplies before middle first) (late : Supplies middle after second)
    (grown : Extends before middle) (growing : Extends middle after) :
    Supplies before after (second ++ first) :=
  (late.deepen grown).append (early.grow growing) fun _ member _ present =>
    Operation.before_of_ne fun target left again =>
      early.apart late present member target again left

theorem led {lead : List Action} (inside : Supplies before after actions)
    (leads : ∀ action ∈ lead, action.Idle after) :
    Supplies before after (lead ++ actions) :=
  append (idle leads) inside fun action member _ _ =>
    Operation.before_of_first (leads action member).2

theorem cons {action : Action} (idle : action.Idle after)
    (inside : Supplies before after actions) : Supplies before after (action :: actions) :=
  inside.led (List.forall_mem_singleton.mpr idle)

theorem followed {trail : List Action} (inside : Supplies before after actions)
    (trails : ∀ action ∈ trail, action.Idle after) :
    Supplies before after (actions ++ trail) :=
  append inside (idle trails) fun _ _ action member =>
    Operation.before_of_later (trails action member).2

theorem amid {between : List Action} (supplies : Supplies before after (first ++ second))
    (idle : ∀ action ∈ between, action.Idle after) :
    Supplies before after (first ++ between ++ second) := by
  obtain ⟨each, turns, fresh⟩ := supplies
  obtain ⟨eachFirst, eachSecond⟩ := List.forall_mem_append.mp each
  obtain ⟨early, late, apart⟩ := List.pairwise_append.mp turns
  obtain ⟨freshFirst, freshSecond⟩ := List.forall_mem_append.mp fresh
  have opening : Supplies before after first := ⟨eachFirst, early, freshFirst⟩
  refine (opening.followed idle).append ⟨eachSecond, late, freshSecond⟩ ?_
  intro action member other present
  rcases List.mem_append.mp member with early | between
  · exact apart action early other present
  · exact Operation.before_of_first (idle action between).2

theorem tail {action : Action} (supplies : Supplies before after (action :: actions)) :
    Supplies before after actions :=
  ⟨(List.forall_mem_cons.mp supplies.each).2, (List.pairwise_cons.mp supplies.turns).2,
    (List.forall_mem_cons.mp supplies.fresh).2⟩

end Supplies

namespace Redirects

/-- Each redirect that counts stands among the parts, and leads to a word. -/
def Leads (parts : List Node) (redirects : Redirects) : Prop :=
  ∀ index, redirects.input = some index ∨ redirects.output.map Prod.fst = some index →
    ∃ kind text inner quoted span whole,
      parts[index]? = some (.redirect kind (.word text inner quoted span) whole)

theorem foldlM_add_leads {parts : List Node} {pairs : List (Node × Nat)} {before : Redirects}
    (each : ∀ pair ∈ pairs, Formed .part pair.1 ∧ parts[pair.2]? = some pair.1)
    (leads : before.Leads parts) :
    ∃ after, pairs.foldlM add before = .ok after ∧ after.Leads parts := by
  induction pairs generalizing before with
  | nil => exact ⟨before, rfl, leads⟩
  | cons pair rest ih =>
    obtain ⟨⟨formed, stands⟩, later⟩ := List.forall_mem_cons.mp each
    obtain ⟨middle, added, middleLeads⟩ : ∃ middle, add before pair = .ok middle ∧
        middle.Leads parts := by
      obtain ⟨node, index⟩ := pair
      cases formed with
      | argument word => cases word <;> exact ⟨before, rfl, leads⟩
      | assignment => exact ⟨before, rfl, leads⟩
      | redirection redirect =>
        cases redirect with
        | @redirect kind _ _ word =>
          -- the new redirect takes the place of an earlier one in its direction
          cases word <;> cases kind <;> refine ⟨_, rfl, fun other counts => ?_⟩ <;>
            rcases counts with input | output
          all_goals first
            | (cases input; exact ⟨_, _, _, _, _, _, stands⟩)
            | (cases output; exact ⟨_, _, _, _, _, _, stands⟩)
            | exact leads other (.inl input)
            | exact leads other (.inr output)
    obtain ⟨after, folded, afterLeads⟩ := ih later middleLeads
    refine ⟨after, ?_, afterLeads⟩
    rw [List.foldlM_cons, added]
    exact folded

/-- Without parts there are no redirects. -/
theorem Leads.none {redirects : Redirects} (leads : redirects.Leads []) : redirects = none := by
  obtain ⟨input, output⟩ := redirects
  cases input with
  | some index =>
    obtain ⟨_, _, _, _, _, _, found⟩ := leads index (.inl rfl)
    cases found
  | none =>
    cases output with
    | some place =>
      obtain ⟨_, _, _, _, _, _, found⟩ := leads place.1 (.inr rfl)
      cases found
    | none => rfl

theorem collect_eq_ok {parts : List Node} (each : ∀ part ∈ parts, Formed .part part) :
    ∃ redirects, collect parts = .ok redirects ∧ redirects.Leads parts := by
  refine foldlM_add_leads (fun pair member => ?_) (by simp [Leads, none])
  have stands := List.mk_mem_zipIdx_iff_getElem?.mp member
  exact ⟨each _ (List.mem_of_getElem? stands), stands⟩

end Redirects

/-- An assignment of a script has an equals sign behind its name. -/
theorem Formed.assigns {node : Node} (formed : Formed .part node) : node.Assigns := by
  cases formed with
  | argument word => cases word <;> trivial
  | redirection redirect => cases redirect; trivial
  | @assignment read _ _ _ _ _ _ form =>
    unfold Grammar.isAssignment at form
    split at form
    · rename_i name value halves
      obtain ⟨⟨before, after⟩, cut, same⟩ := Option.map_eq_some_iff.mp halves
      obtain ⟨written, _⟩ := Text.eq_append_of_cutOnce cut
      cases same
      refine ⟨before, after, written, fun dollar => ?_⟩
      unfold Grammar.isName at form
      rw [String.toList_ofList] at form
      cases before with
      | nil => cases dollar
      | cons first rest =>
        obtain ⟨start, others⟩ := Bool.and_eq_true_iff.mp form
        rcases List.mem_cons.mp dollar with rfl | later
        · exact absurd start (by decide)
        · exact absurd (List.all_eq_true.mp others _ later) (by decide)
    · cases form

/-- No two substitutions of one part of a command stand at one place. -/
theorem Formed.places_nodup {node : Node} (formed : Formed .part node) (pass : Compilation.Pass) :
    ((pass.parts node).filterMap Node.place?).Nodup := by
  rcases Node.spelled_of_formed formed with
    ⟨read, parts, span, inner, lexed, made, spelled⟩ | ⟨span, own⟩
  · have nodup : (parts.filterMap Node.place?).Nodup := by
      rw [Node.place?_partsOf made]
      exact lexed.laid.places_nodup
    cases spelled <;> cases pass <;> first | exact nodup | exact List.nodup_nil
  · cases node <;> cases own <;> cases pass <;> exact List.nodup_nil

namespace Compilation

/-- A pass goes over the parts of the word that a part of a command is or leads to. -/
theorem Pass.parts_own {pass : Pass} {node part : Node} (member : part ∈ pass.parts node) :
    node.owner.ownParts? = some (pass.parts node) := by
  unfold Pass.parts at member ⊢
  split at member <;> first | rfl | cases member

theorem Pass.apart {node part other : Node} (target : part ∈ Pass.targets.parts node) :
    other ∉ Pass.words.parts node := by
  intro word
  cases node <;> first | cases target | cases word

section
variable {slots before : Array (List Node)} {slot : Nat} {parts : List Node} {pass : Pass}

/-- What the actions of a pass resolve are the substitutions that it goes over. -/
theorem mem_substitutions {action : Action} (member : action ∈ substitutions slot parts pass) :
    ∃ part index inner place, parts[index]? = some part ∧
      .substitution inner place ∈ pass.parts part ∧
      (action.operation = .enterSubstitution slot index place ∨
        action.operation = .leaveSubstitution slot index place) := by
  obtain ⟨⟨part, index⟩, stands, member⟩ := List.mem_flatMap.mp member
  obtain ⟨piece, within, member⟩ := List.mem_flatMap.mp member
  have inside := List.mem_reverse.mp within
  unfold substitutionPair at member
  split at member
  · rename_i inner place
    refine ⟨part, index, inner, place, List.mk_mem_zipIdx_iff_getElem?.mp stands, inside, ?_⟩
    simp only [List.mem_cons, List.not_mem_nil, or_false] at member
    rcases member with rfl | rfl
    · exact .inl rfl
    · exact .inr rfl
  · cases member

theorem resolves?_of_mem {action : Action} {target : Nat × Nat × Span}
    (member : action ∈ substitutions slot parts pass)
    (resolves : action.operation.resolves? = some target) :
    target.1 = slot ∧ ∃ part inner, parts[target.2.1]? = some part ∧
      .substitution inner target.2.2 ∈ pass.parts part := by
  obtain ⟨part, index, inner, place, stands, inside, enters | leaves⟩ := mem_substitutions member
  · rw [enters] at resolves
    cases resolves
    exact ⟨rfl, part, inner, stands, inside⟩
  · rw [leaves] at resolves
    cases resolves
    exact ⟨rfl, part, inner, stands, inside⟩

theorem substitutionPair_place {index : Nat} {piece : Node} {action : Action}
    {target : Nat × Nat × Span} (member : action ∈ substitutionPair slot index piece)
    (resolves : action.operation.resolves? = some target) :
    piece.place? = some target.2.2 ∧ target.2.1 = index := by
  unfold substitutionPair at member
  split at member
  · simp only [List.mem_cons, List.not_mem_nil, or_false] at member
    rcases member with rfl | rfl <;> cases resolves <;> exact ⟨rfl, rfl⟩
  · cases member

/-- In a slot of a parsed command all substitutions of a pass are there, and each is resolved
once. -/
theorem substitutions_supplies (pass : Pass) (each : ∀ part ∈ parts, Formed .part part)
    (held : slots[slot]? = some parts) (added : before.size ≤ slot) :
    Supplies before slots (substitutions slot parts pass) where
  each action member := by
    obtain ⟨part, index, inner, place, stands, inside, operation⟩ := mem_substitutions member
    have formed := each part (List.mem_of_getElem? stands)
    have own := Pass.parts_own inside
    have found : ∃ inner, Node.substitutedAt? place (pass.parts part) = some inner := by
      refine Option.isSome_iff_exists.mp (List.findSome?_isSome_iff.mpr ⟨_, inside, ?_⟩)
      exact (congrArg Option.isSome (if_pos rfl)).trans rfl
    obtain ⟨inner, found⟩ := found
    obtain ⟨piece, member, same⟩ := List.exists_of_findSome?_eq_some found
    have command : Formed .command inner := by
      refine formed.resolvable _ own inner place ?_
      split at same
      · split at same
        · rename_i span here
          cases same
          exact here ▸ member
        · cases same
      · cases same
    have supplied : ∃ inner, substitutedIn? slots slot index place = some inner ∧
        Formed .command inner :=
      ⟨inner, substitutedIn?_eq_some.mpr ⟨parts, part, _, held, stands, own, found⟩, command⟩
    rcases operation with enters | leaves
    · rw [enters]
      exact supplied
    · rw [leaves]
      exact supplied
  turns := by
    have indexes : (parts.zipIdx.map Prod.snd).Nodup := by
      rw [List.zipIdx_map_snd]
      exact List.nodup_range'
    refine List.pairwise_flatMap.mpr ⟨fun pair member => ?_, ?_⟩
    · -- the places in one part
      have stands := List.mk_mem_zipIdx_iff_getElem?.mp member
      have nodup := (each _ (List.mem_of_getElem? stands)).places_nodup pass
      refine List.pairwise_flatMap.mpr ⟨fun piece _ => ?_, List.pairwise_reverse.mpr ?_⟩
      · unfold substitutionPair
        split
        · refine List.pairwise_cons.mpr ⟨?_, List.pairwise_singleton _ _⟩
          intro _ _ slot word place leaving
          cases leaving
        · exact List.Pairwise.nil
      · refine (List.pairwise_filterMap.mp nodup).imp fun different => ?_
        intro first early second late
        refine Operation.before_of_ne fun target left again => ?_
        exact different _ (substitutionPair_place late again).1 _
          (substitutionPair_place early left).1 rfl
    · refine (List.pairwise_map.mp indexes).imp fun different first early second late => ?_
      obtain ⟨_, _, early⟩ := List.mem_flatMap.mp early
      obtain ⟨_, _, late⟩ := List.mem_flatMap.mp late
      refine Operation.before_of_ne fun target left again => different ?_
      exact (substitutionPair_place early left).2.symm.trans (substitutionPair_place late again).2
  fresh action member target resolves := by
    rw [(resolves?_of_mem member resolves).1]
    exact added

theorem opening_supplied {redirects : Redirects} (kind : String) (leads : redirects.Leads parts)
    (held : slots[slot]? = some parts) :
    ∀ action ∈ redirects.opening slot kind, action.Idle slots := by
  obtain ⟨input, output⟩ := redirects
  have read : ∀ action ∈ Redirects.opening ⟨input, none⟩ slot kind, action.Idle slots := by
    cases input with
    | none => nofun
    | some index =>
      obtain ⟨way, text, inner, quoted, span, whole, found⟩ := leads index (.inl rfl)
      intro action member
      obtain rfl := List.mem_singleton.mp member
      exact ⟨⟨parts, way, text, inner, quoted, span, whole, held, found⟩, rfl⟩
  cases output with
  | none => exact read
  | some place => exact List.forall_mem_cons.mpr ⟨⟨trivial, rfl⟩, read⟩

theorem closing_supplied {redirects : Redirects} (kind : String) (leads : redirects.Leads parts)
    (held : slots[slot]? = some parts) :
    ∀ action ∈ redirects.closing slot kind, action.Idle slots := by
  obtain ⟨input, output⟩ := redirects
  cases output with
  | none => nofun
  | some place =>
    obtain ⟨way, text, inner, quoted, span, whole, found⟩ := leads place.1 (.inr rfl)
    intro action member
    simp only [Redirects.closing, List.mem_cons, List.not_mem_nil, or_false] at member
    rcases member with rfl | rfl | rfl
    · exact ⟨trivial, rfl⟩
    · exact ⟨⟨parts, way, text, inner, quoted, span, whole, held, found⟩, rfl⟩
    · exact ⟨trivial, rfl⟩

/-- The actions of a command find its parts in its slot. -/
theorem commandActions_supplies {redirects : Redirects} {source : String}
    (each : ∀ part ∈ parts, Formed .part part) (leads : redirects.Leads parts)
    (held : slots[slot]? = some parts) (added : before.size ≤ slot) :
    Supplies before slots (commandActions slot redirects source parts) := by
  have opening := opening_supplied "command" leads held
  have closing := closing_supplied "command" leads held
  have announced : ∀ action ∈ (if parts.any isAssignment
      then [.plain .flush ("Entering Assignment Node: " ++ source)] else [] : List Action),
      action.Idle slots := by
    intro action member
    split at member
    · obtain rfl := List.mem_singleton.mp member
      exact ⟨trivial, rfl⟩
    · cases member
  have assigned : ∀ action ∈ (if parts.any isAssignment
      then [⟨.assign slot, "Variable Assignment", some source⟩] else [] : List Action),
      action.Idle slots := by
    intro action member
    split at member
    · obtain rfl := List.mem_singleton.mp member
      exact ⟨⟨parts, held, fun part member => (each part member).assigns⟩, rfl⟩
    · cases member
  have ran : ∀ action ∈ (if parts.any isWord || !parts.any isAssignment then
      [⟨.run slot, "Command node: " ++ commandName parts, some source⟩] else [] : List Action),
      action.Idle slots := by
    intro action member
    split at member
    · obtain rfl := List.mem_singleton.mp member
      exact ⟨⟨parts, held⟩, rfl⟩
    · cases member
  have targets := ((substitutions_supplies .targets each held added).followed
    opening).followed announced
  have both := targets.append (substitutions_supplies .words each held added) ?_
  · exact ((both.followed assigned).followed ran).followed closing
  · -- a target of a redirect is no word of the command
    intro action member other present
    refine Operation.before_of_ne fun target left again => ?_
    obtain ⟨_, word, _, stands, inside⟩ := resolves?_of_mem present again
    rcases List.mem_append.mp member with member | idle
    · rcases List.mem_append.mp member with member | idle
      · obtain ⟨_, part, _, there, within⟩ := resolves?_of_mem member left
        cases there.symm.trans stands
        exact Pass.apart within inside
      · cases (opening action idle).2.symm.trans left
    · cases (announced action idle).2.symm.trans left

end

theorem clauseActions_supplies {slots before : Array (List Node)} {clauses : List Clause}
    (earlier : List String) (conditions : ∀ keyword condition body,
      Clause.mk keyword (some condition) body ∈ clauses → Formed .command condition)
    (bodies : ∀ clause ∈ clauses, Formed .command clause.body) :
    Supplies before slots (clauseActions earlier clauses) := by
  induction clauses generalizing earlier with
  | nil => exact .nil
  | cons clause rest ih =>
    obtain ⟨body, later⟩ := List.forall_mem_cons.mp bodies
    have after := fun earlier => ih earlier
      (fun keyword condition body member => conditions _ _ _ (List.mem_cons_of_mem _ member)) later
    rcases clause with ⟨keyword, _ | condition, inside⟩
    · exact ((after _).cons (by exact ⟨body, rfl⟩)).cons (by exact ⟨trivial, rfl⟩)
    · have condition := conditions _ _ _ List.mem_cons_self
      exact ((after _).cons (by exact ⟨body, rfl⟩)).cons (by exact ⟨condition, rfl⟩)

end Compilation

end StepShell

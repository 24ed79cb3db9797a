import StepShell.Proofs.Compilation.Supply

/-! Resolving a substitution changes one part of one command. Whatever other actions will look for
is still there, and only the text of the word can stop it. -/

namespace StepShell

namespace Word

/-- A substitution is found where a dollar sign stands. -/
theorem dollar_of_nearestMarker? {text : List Char} {hint start : Nat}
    (found : nearestMarker? text hint = some start) : text[start]? = some '$' := by
  obtain ⟨distance, _, here⟩ := List.exists_of_findSome?_eq_some found
  have marker : isMarker text start = true := by
    unfold markerAt? at here
    dsimp only at here
    split at here
    · rename_i below
      cases here
      exact below.2
    · split at here
      · rename_i above
        cases here
        exact above.2
      · cases here
  unfold isMarker at marker
  split at marker
  · rename_i rest same
    rw [← Nat.add_zero start, ← List.getElem?_drop, same]
    rfl
  · cases marker

/-- What stands before the first dollar sign stays when a substitution is resolved. -/
theorem replaceMarked_front {front rest : List Char} {text replaced output : String} {hint : Nat}
    (written : text.toList = front ++ rest) (plain : '$' ∉ front)
    (done : replaceMarked text hint output = .ok replaced) :
    ∃ more, replaced.toList = front ++ more := by
  unfold replaceMarked at done
  dsimp only at done
  split at done
  · cases done
  · rename_i start found
    split at done
    · cases done
    · cases done
      have dollar := dollar_of_nearestMarker? found
      rw [written] at dollar
      have behind : front.length ≤ start := by
        refine Nat.le_of_not_lt fun before => ?_
        rw [List.getElem?_append_left before] at dollar
        exact plain (List.mem_of_getElem? dollar)
      rw [String.toList_ofList, written, List.take_append, List.take_of_length_le behind,
        List.append_assoc, List.append_assoc]
      exact ⟨_, rfl⟩

end Word

namespace Node

/-- Another substitution of a word is still there when one is resolved. -/
theorem substitutedAt?_eraseIdx {place other : Span} {parts : List Node} {index : Nat}
    (found : parts.findIdx? (isSubstitution place) = some index) (different : other ≠ place) :
    substitutedAt? other (parts.eraseIdx index) = substitutedAt? other parts := by
  induction parts generalizing index with
  | nil => cases found
  | cons part rest ih =>
    rw [List.findIdx?_cons] at found
    split at found
    · rename_i here
      cases found
      rw [List.eraseIdx_cons_zero, substitutedAt?, substitutedAt?, List.findSome?_cons]
      split
      · rename_i picked
        split at picked
        · have apart : isSubstitution place _ = true := here
          simp only [isSubstitution, beq_iff_eq] at apart
          split at picked
          · exact absurd (‹_ = other›.symm.trans apart) different
          · cases picked
        · cases picked
      · rfl
    · obtain ⟨later, below, rfl⟩ := Option.map_eq_some_iff.mp found
      rw [List.eraseIdx_cons_succ]
      have same := ih below
      unfold substitutedAt? at same ⊢
      rw [List.findSome?_cons, List.findSome?_cons, same]

theorem findIdx?_of_substitutedAt? {place : Span} {parts : List Node} {inner : Node}
    (found : substitutedAt? place parts = some inner) :
    ∃ index, parts.findIdx? (isSubstitution place) = some index := by
  obtain ⟨part, member, here⟩ := List.exists_of_findSome?_eq_some found
  refine Option.isSome_iff_exists.mp ?_
  rw [List.findIdx?_isSome, List.any_eq_true]
  refine ⟨part, member, ?_⟩
  split at here
  · split at here
    · exact beq_iff_eq.mpr ‹_›
    · cases here
  · cases here

/-- A part of a command with one of its substitutions resolved. -/
inductive Spliced (place : Span) : Node → Node → Prop where
  | word {text replaced output : String} {parts : List Node} {index hint : Nat} {quoted : Bool}
      {span : Span} (found : parts.findIdx? (isSubstitution place) = some index)
      (filled : Word.replaceMarked text hint output = .ok replaced) :
      Spliced place (.word text parts quoted span)
        (.word replaced (parts.eraseIdx index) quoted span)
  | assignment {text replaced output : String} {parts : List Node} {index hint : Nat} {span : Span}
      (found : parts.findIdx? (isSubstitution place) = some index)
      (filled : Word.replaceMarked text hint output = .ok replaced) :
      Spliced place (.assignment text parts span)
        (.assignment replaced (parts.eraseIdx index) span)
  | redirect {kind : RedirectKind} {target spliced : Node} {span : Span}
      (leads : Spliced place target spliced) :
      Spliced place (.redirect kind target span) (.redirect kind spliced span)

theorem resolved_spliced {place : Span} {output text replaced : String} {parts left : List Node}
    {start : Nat} (done : resolved place output text parts start = .ok (replaced, left)) :
    ∃ index, parts.findIdx? (isSubstitution place) = some index ∧
      Word.replaceMarked text (place.start - start) output = .ok replaced ∧
        left = parts.eraseIdx index := by
  unfold resolved at done
  split at done
  · cases done
  · obtain ⟨filled, marked, same⟩ := except_bind_eq_ok.mp done
    cases same
    exact ⟨_, ‹_›, marked, rfl⟩

theorem splice_spliced {place : Span} {output : String} {node spliced : Node}
    (done : node.splice place output = .ok spliced) : Spliced place node spliced := by
  unfold splice at done
  split at done
  · obtain ⟨⟨replaced, left⟩, made, same⟩ := except_bind_eq_ok.mp done
    cases same
    obtain ⟨index, found, filled, rfl⟩ := resolved_spliced made
    exact .word found filled
  · obtain ⟨⟨replaced, left⟩, made, same⟩ := except_bind_eq_ok.mp done
    cases same
    obtain ⟨index, found, filled, rfl⟩ := resolved_spliced made
    exact .assignment found filled
  · cases done

theorem spliceTarget_spliced {place : Span} {output : String} {node spliced : Node}
    (done : node.spliceTarget place output = .ok spliced) : Spliced place node spliced := by
  unfold spliceTarget at done
  split at done
  · obtain ⟨target, made, same⟩ := except_bind_eq_ok.mp done
    cases same
    exact .redirect (splice_spliced made)
  · exact splice_spliced done

namespace Spliced

variable {place : Span} {node spliced : Node}

/-- Resolving one substitution of a word leaves the others. -/
theorem substitutedAt? {parts : List Node} {other : Span} (done : Spliced place node spliced)
    (own : node.owner.ownParts? = some parts) (different : other ≠ place) :
    ∃ left, spliced.owner.ownParts? = some left ∧
      Node.substitutedAt? other left = Node.substitutedAt? other parts := by
  cases done with
  | word found | assignment found =>
    cases own
    exact ⟨_, rfl, substitutedAt?_eraseIdx found different⟩
  | redirect leads =>
    cases leads with
    | word found | assignment found =>
      cases own
      exact ⟨_, rfl, substitutedAt?_eraseIdx found different⟩
    | redirect => cases own

theorem assigns (done : Spliced place node spliced) (assigns : node.Assigns) :
    spliced.Assigns := by
  cases done with
  | word | redirect => trivial
  | @assignment text _ _ _ _ _ _ _ filled =>
    obtain ⟨name, value, written, plain⟩ := assigns
    have front : '$' ∉ name ++ ['='] := by simpa using plain
    have split : text.toList = (name ++ ['=']) ++ value := by rw [written, List.append_assoc]; rfl
    obtain ⟨more, same⟩ := Word.replaceMarked_front split front filled
    exact ⟨name, more, by rw [same, List.append_assoc]; rfl, plain⟩

/-- A redirect that leads to a word still does. -/
theorem leads {kind : RedirectKind} {text : String} {parts : List Node} {quoted : Bool}
    {inner span : Span}
    (done : Spliced place (.redirect kind (.word text parts quoted inner) span) spliced) :
    ∃ replaced left, spliced = .redirect kind (.word replaced left quoted inner) span := by
  cases done with
  | redirect leads =>
    cases leads
    exact ⟨_, _, rfl⟩

end Spliced

/-- A substitution that is there can fail to be resolved only by the text of its word. -/
theorem resolved_eq_error {place : Span} {output text : String} {inner : Node} {parts : List Node}
    {start : Nat} {error : ExecutionError} (found : substitutedAt? place parts = some inner)
    (failed : resolved place output text parts start = .error error) :
    ∃ text, error = .substitutionUnmarked text ∨ error = .substitutionUnbalanced text := by
  obtain ⟨index, there⟩ := findIdx?_of_substitutedAt? found
  unfold resolved at failed
  rw [there] at failed
  dsimp only at failed
  unfold Word.replaceMarked at failed
  dsimp only at failed
  split at failed
  · cases failed
    exact ⟨_, .inl rfl⟩
  · split at failed
    · cases failed
      exact ⟨_, .inr rfl⟩
    · cases failed

theorem splice_eq_error {place : Span} {output : String} {node inner : Node} {parts : List Node}
    {error : ExecutionError} (own : node.ownParts? = some parts)
    (found : substitutedAt? place parts = some inner)
    (failed : node.splice place output = .error error) :
    ∃ text, error = .substitutionUnmarked text ∨ error = .substitutionUnbalanced text := by
  cases node with
  | word text | assignment text =>
    cases own
    rw [splice] at failed
    rcases made : resolved _ _ _ _ _ with unresolved | pair
    · rw [made] at failed
      cases failed
      exact resolved_eq_error found made
    · rw [made] at failed
      cases failed
  | _ => cases own

theorem spliceTarget_eq_error {place : Span} {output : String} {node inner : Node}
    {parts : List Node} {error : ExecutionError} (own : node.owner.ownParts? = some parts)
    (found : substitutedAt? place parts = some inner)
    (failed : node.spliceTarget place output = .error error) :
    ∃ text, error = .substitutionUnmarked text ∨ error = .substitutionUnbalanced text := by
  cases node with
  | redirect kind target span =>
    rw [spliceTarget] at failed
    rcases made : target.splice place output with unresolved | spliced
    · rw [made] at failed
      cases failed
      exact splice_eq_error own found made
    · rw [made] at failed
      cases failed
  | _ =>
    rw [spliceTarget] at failed
    · exact splice_eq_error own found failed
    · exact nofun

end Node

namespace Operation

/-- What other operations will look for is still there when one substitution is resolved. -/
theorem Supplied.spliced {operation : Operation} {slots : Array (List Node)} {slot word : Nat}
    {place : Span} {parts : List Node} {target node : Node}
    (supplied : operation.Supplied slots) (held : slots[slot]? = some parts)
    (picked : parts[word]? = some target) (spliced : Node.Spliced place target node)
    (apart : operation.resolves? ≠ some (slot, word, place)) :
    operation.Supplied (slots.setIfInBounds slot (parts.set word node)) := by
  cases operation with
  | readRedirect other index | writeRedirect other index append =>
    obtain ⟨found, kind, text, inner, quoted, span, whole, there, leads⟩ := supplied
    obtain ⟨others, now, stands⟩ := picked_replaced held there leads word node
    by_cases here : slot = other ∧ word = index
    · obtain ⟨rfl, rfl⟩ := here
      cases held.symm.trans there
      cases picked.symm.trans leads
      obtain ⟨replaced, left, rfl⟩ := spliced.leads
      rw [if_pos ⟨rfl, rfl⟩] at stands
      exact ⟨_, kind, replaced, left, quoted, span, whole, now, stands⟩
    · rw [if_neg here] at stands
      exact ⟨_, kind, text, inner, quoted, span, whole, now, stands⟩
  | run other =>
    obtain ⟨found, there⟩ := supplied
    exact ⟨_, held_replaced held there word node⟩
  | assign other =>
    obtain ⟨found, there, each⟩ := supplied
    refine ⟨_, held_replaced held there word node, fun part member => ?_⟩
    split at member
    · rename_i same
      subst same
      cases held.symm.trans there
      rcases List.mem_or_eq_of_mem_set member with old | rfl
      · exact each part old
      · exact spliced.assigns (each target (List.mem_of_getElem? picked))
    · exact each part member
  | enterSubstitution other index mark | leaveSubstitution other index mark =>
    obtain ⟨inner, picks, formed⟩ := supplied
    obtain ⟨_, owner, own, there, leads, owned, found⟩ := substitutedIn?_eq_some.mp picks
    obtain ⟨others, now, stands⟩ := picked_replaced held there leads word node
    refine ⟨inner, substitutedIn?_eq_some.mpr ?_, formed⟩
    by_cases here : slot = other ∧ word = index
    · obtain ⟨rfl, rfl⟩ := here
      cases held.symm.trans there
      cases picked.symm.trans leads
      have different : mark ≠ place := by
        rintro rfl
        exact apart rfl
      obtain ⟨left, still, same⟩ := spliced.substitutedAt? owned different
      rw [if_pos ⟨rfl, rfl⟩] at stands
      exact ⟨_, node, left, now, stands, still, same.trans found⟩
    · rw [if_neg here] at stands
      exact ⟨_, owner, own, now, stands, owned, found⟩
  | _ => exact supplied

end Operation

end StepShell

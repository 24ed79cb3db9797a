import StepShell.Proofs.Compilation.Supply

/-! Compiling a parsed command provides for its actions: what they will look for is in the slots,
and only a loop with too many values stops it. -/

namespace StepShell

namespace Compilation

/-- A result that is good, or says that a loop has too many values. -/
def Fares {α : Type} (good : α → Prop) : Except Failure α → Prop
  | .ok value => good value
  | .error failure => ∃ limit, failure = .limit (.loop limit)

/-- Compiling from here only adds slots, and functions that scripts define. What it makes is good
for the slots that there are then; it fails only at a loop with too many values. -/
def Provides {ω α : Type} (before : Compilation ω) (compile : Compile ω α)
    (good : Array (List Node) → α → Prop) : Prop :=
  before.functions.Sound → ∀ result after, compile.run before = (result, after) →
    after.functions.Sound ∧ Extends before.slots after.slots ∧ Fares (good after.slots) result

namespace Provides

variable {ω α β : Type} {before : Compilation ω} {good : Array (List Node) → α → Prop}
  {better : Array (List Node) → β → Prop}

theorem bind {first : Compile ω α} {next : α → Compile ω β} (start : Provides before first good)
    (rest : ∀ value middle, Extends before.slots middle.slots → good middle.slots value →
      Provides middle (next value) better) : Provides before (first >>= next) better := by
  intro sound result after done
  rcases made : first.run before with ⟨failure | value, middle⟩
  · rw [run_bind_of_error made] at done
    cases done
    exact start sound _ _ made
  · rw [run_bind_of_ok made] at done
    obtain ⟨known, grown, holds⟩ := start sound _ _ made
    obtain ⟨known, growing, holds⟩ := rest value middle grown holds known result after done
    exact ⟨known, grown.trans growing, holds⟩

theorem pure {value : α} (holds : good before.slots value) :
    Provides before (pure value : Compile ω α) good := by
  intro sound result after done
  cases done
  exact ⟨sound, .refl _, holds⟩

theorem lift {result : Except Failure α} (holds : Fares (good before.slots) result) :
    Provides before (liftM result : Compile ω α) good := by
  intro sound result after done
  cases done
  exact ⟨sound, .refl _, holds⟩

end Provides

section
variable {ω : Type} {before : Compilation ω}

theorem newSlot_provides (parts : List Node) :
    Provides before (newSlot parts : Compile ω Nat) fun slots slot =>
      slots[slot]? = some parts ∧ before.slots.size ≤ slot := by
  intro sound result after done
  cases done
  exact ⟨sound, .push _ _, Array.getElem?_push_size, Nat.le_refl _⟩

theorem define_provides {name : String} {body : Node} (formed : Formed .command body) :
    Provides before (define name body : Compile ω Unit) fun _ _ => True := by
  intro sound result after done
  cases done
  exact ⟨sound.insert formed, .refl _, trivial⟩

theorem collect_provides {parts : List Node} (each : ∀ part ∈ parts, Formed .part part) :
    Provides before (liftM (Redirects.collect parts) : Compile ω Redirects)
      fun _ redirects => redirects.Leads parts := by
  obtain ⟨redirects, collected, leads⟩ := Redirects.collect_eq_ok each
  rw [collected]
  exact .lift leads

/-- Only the values of a loop can be too many. -/
theorem checkValues_provides {limits : Limits} (values : Nat) :
    Provides before (liftM (Failure.ofLimit (limits.checkValues values)) : Compile ω Unit)
      fun _ _ => True := by
  refine .lift ?_
  unfold Limits.checkValues
  split
  · exact ⟨_, rfl⟩
  · trivial

theorem mapM_provides {α : Type} {items : List α} {compile : α → Compile ω (List Action)}
    (each : ∀ item ∈ items, ∀ before, Provides before (compile item) fun slots actions =>
      Supplies before.slots slots actions) :
    Provides before (items.mapM compile) fun slots blocks =>
      Supplies before.slots slots blocks.flatten := by
  induction items generalizing before with
  | nil =>
    rw [List.mapM_nil]
    exact .pure .nil
  | cons first rest ih =>
    obtain ⟨start, later⟩ := List.forall_mem_cons.mp each
    rw [List.mapM_cons]
    refine (start before).bind fun actions middle grown early => ?_
    refine (ih later).bind fun blocks last growing late => .pure ?_
    rw [List.flatten_cons]
    exact early.trans late grown growing

variable [Operator ω] {setting : Setting}

theorem itemValues_provides {item : Node} :
    Provides before (itemValues setting item : Compile ω (List String)) fun _ _ => True := by
  intro sound result after done
  unfold itemValues at done
  split at done
  · split at done
    · rw [run_get_bind] at done
      dsimp only at done
      split at done <;> cases done <;> exact ⟨sound, .refl _, trivial⟩
    · split at done <;> cases done <;> exact ⟨sound, .refl _, trivial⟩
  · cases done
    exact ⟨sound, .refl _, trivial⟩

theorem valuesOfItems_provides {items : List Node} :
    Provides before (valuesOfItems setting items : Compile ω (List String)) fun _ _ => True := by
  induction items generalizing before with
  | nil => exact .pure trivial
  | cons first rest ih =>
    exact itemValues_provides.bind fun _ _ _ _ => ih.bind fun _ _ _ _ => .pure trivial

/-- Compiling the node provides for the actions that it makes. -/
def Provided (ω : Type) [Operator ω] (node : Node) : Prop :=
  ∀ setting (before : Compilation ω), Provides before (node.compile setting) fun slots actions =>
    Supplies before.slots slots actions

/-- The same of a part, which may be a sign that needs nothing. -/
def ProvidedPart (ω : Type) [Operator ω] (sign : Node → Option Action) (part : Node) : Prop :=
  match sign part with
  | some action => ∀ slots, action.Idle slots
  | none => Provided ω part

theorem compileEach_provides {sign : Node → Option Action} {lead : List Action}
    {parts : List Node} (each : ∀ part ∈ parts, ProvidedPart ω sign part)
    (leads : ∀ slots, ∀ action ∈ lead, action.Idle slots) :
    Provides before (Node.compileEach sign lead setting parts : Compile ω (List Action))
      fun slots actions => Supplies before.slots slots actions := by
  induction parts generalizing before with
  | nil => exact .pure .nil
  | cons part rest ih =>
    obtain ⟨first, later⟩ := List.forall_mem_cons.mp each
    rw [Node.compileEach]
    unfold ProvidedPart at first
    split
    · rename_i action signed
      rw [signed] at first
      refine (ih later).bind fun actions last grown supplies => .pure ?_
      exact supplies.led (List.forall_mem_singleton.mpr (first _))
    · rename_i unsigned
      rw [unsigned] at first
      refine (first setting before).bind fun actions middle grown early => ?_
      refine (ih later).bind fun actions last growing late => .pure ?_
      exact (early.led (leads _)).trans late grown growing

/-- What compiling provides for, by the place of the node. -/
def Provisions (ω : Type) [Operator ω] : Place → Node → Prop
  | .command, node => Provided ω node
  | .stage, node => ProvidedPart ω Node.pipeSign node
  | .entry, node => ProvidedPart ω Node.operatorSign node
  | _, _ => True

theorem reserved_provided {text : String} {span : Span} {actions : List Action}
    (known : reservedActions text = .ok actions)
    (idle : ∀ slots, ∀ action ∈ actions, action.Idle slots) :
    Provided ω (.reserved text span) := by
  intro setting before
  rw [Node.compile, known]
  exact .lift (Supplies.idle (idle _))

/-- The parentheses or braces of a group need nothing. -/
theorem compileGroup_provides {opening closing : String} {body : Node}
    {openSpan closeSpan : Span}
    (pair : opening = "(" ∧ closing = ")" ∨ opening = "\x7b" ∧ closing = "\x7d")
    (inside : Provided ω body) :
    Provides before (Node.compileAll setting [.reserved opening openSpan, body,
        .reserved closing closeSpan] : Compile ω (List Action))
      fun slots actions => Supplies before.slots slots actions := by
  have first : Provided ω (.reserved opening openSpan) := by
    rcases pair with ⟨rfl, _⟩ | ⟨rfl, _⟩
    · exact reserved_provided rfl fun _ => List.forall_mem_singleton.mpr ⟨trivial, rfl⟩
    · exact reserved_provided rfl fun _ => nofun
  have last : Provided ω (.reserved closing closeSpan) := by
    rcases pair with ⟨_, rfl⟩ | ⟨_, rfl⟩
    · exact reserved_provided rfl fun _ => List.forall_mem_singleton.mpr ⟨trivial, rfl⟩
    · exact reserved_provided rfl fun _ => nofun
  rw [Node.compileAll_eq]
  refine compileEach_provides (fun part member => ?_) fun _ => nofun
  simp only [List.mem_cons, List.not_mem_nil, or_false] at member
  rcases member with rfl | rfl | rfl
  · exact first
  · exact inside
  · exact last

theorem provisions_of_formed {place : Place} {node : Node} (formed : Formed place node) :
    Provisions ω place node := by
  induction formed with
  | parameter | substitution | word | positionals | redirect | argument | redirection
  | assignment => trivial
  | stage command ih => cases command <;> exact ih
  | entry command ih => cases command <;> exact ih
  | pipe => exact fun _ => ⟨trivial, rfl⟩
  | operator known => exact fun _ => ⟨known, rfl⟩
  | @command parts span each =>
    intro setting before
    rw [Node.compile]
    refine (collect_provides each).bind fun redirects middle grown leads => ?_
    refine (newSlot_provides parts).bind fun slot last growing placed => .pure ?_
    obtain ⟨held, added⟩ := placed
    exact commandActions_supplies each leads held (Nat.le_trans grown.size_le added)
  | pipeline each ih =>
    intro setting before
    rw [Node.compile, Node.compilePipeline_eq]
    exact compileEach_provides ih fun _ => List.forall_mem_nil _
  | list each ih =>
    intro setting before
    rw [Node.compile, Node.compileSequence_eq]
    have flushed : ∀ slots : Array (List Node), ∀ action ∈
        [Action.plain .flush "Resetting for new command"], action.Idle slots :=
      fun _ => List.forall_mem_singleton.mpr ⟨trivial, rfl⟩
    refine (compileEach_provides ih flushed).bind fun actions last _ supplies => .pure ?_
    exact supplies.cons ⟨trivial, rfl⟩
  | @group opening closing body redirected _ _ span pair inside each body_ih each_ih =>
    intro setting before
    have parts : ∀ part ∈ redirected, Formed .part part :=
      fun part member => .redirection (each part member)
    rw [Node.compile]
    refine (collect_provides parts).bind fun redirects start grown leads => ?_
    extract_lets onward
    have finish : ∀ slot middle, Extends start.slots middle.slots →
        (redirected = [] ∨ middle.slots[slot]? = some redirected ∧ start.slots.size ≤ slot) →
        Provides middle (onward slot) fun slots actions => Supplies before.slots slots actions := by
      intro slot middle growing held
      refine (compileGroup_provides pair body_ih).bind fun actions last growth group => .pure ?_
      rcases held with rfl | ⟨held, added⟩
      · obtain rfl := leads.none
        have whole := Supplies.nil.trans group (grown.trans growing) growth
        simpa [substitutions, Redirects.opening, Redirects.closing, Redirects.none] using whole
      · have added := Nat.le_trans grown.size_le added
        have lead := (substitutions_supplies .targets parts held added).followed
          (opening_supplied "compound" leads held)
        exact (lead.trans group (grown.trans growing) growth).followed
          (closing_supplied _ leads (growth.held held))
    split
    · rename_i empty
      have nowhere : Provides start (pure 0 : Compile ω Nat) fun _ _ => True := .pure trivial
      exact nowhere.bind fun slot middle growing _ =>
        finish slot middle growing (.inl (List.isEmpty_iff.mp empty))
    · exact (newSlot_provides redirected).bind fun slot middle growing held =>
        finish slot middle growing (.inr held)
  | @forLoop name items body span each inside each_ih body_ih =>
    intro setting before
    rw [Node.compile]
    refine valuesOfItems_provides.bind fun values first grown _ =>
      (checkValues_provides values.length).bind fun _ second growing _ => ?_
    have round : ∀ value ∈ values, ∀ middle, Provides middle (do
        let actions ← body.compile setting
        return .plain (.bindLoop name value) "Set loop iterator value for next itr" :: actions ++
          [.plain .flush "iterate for loop"] : Compile ω (List Action))
        fun slots actions => Supplies middle.slots slots actions :=
      fun value _ middle => (body_ih setting middle).bind fun actions last _ supplies =>
        .pure ((supplies.cons (by exact ⟨trivial, rfl⟩)).followed
          (List.forall_mem_singleton.mpr ⟨trivial, rfl⟩))
    refine (mapM_provides round).bind fun rounds last growth supplies => .pure ?_
    have rounds := Supplies.nil.trans supplies (grown.trans growing) growth
    refine (rounds.cons (by exact ⟨trivial, rfl⟩)).followed ?_
    exact List.forall_mem_cons.mpr ⟨⟨trivial, rfl⟩, List.forall_mem_singleton.mpr ⟨trivial, rfl⟩⟩
  | conditional conditions bodies =>
    intro setting before
    rw [Node.compile]
    exact .pure (clauseActions_supplies [] conditions bodies)
  | function inside =>
    intro setting before
    rw [Node.compile]
    exact (define_provides inside).bind fun _ _ _ _ => .pure .nil

/-- A command of a parsed script is compiled to actions that find what they need. -/
theorem compile_provides {node : Node} (formed : Formed .command node) (setting : Setting)
    (before : Compilation ω) :
    Provides before (node.compile setting : Compile ω (List Action)) fun slots actions =>
      Supplies before.slots slots actions :=
  provisions_of_formed formed setting before

end

end Compilation

end StepShell

import StepShell.Proofs.Machine.Bindings
import StepShell.Proofs.Machine.Loop
import StepShell.Proofs.Script.Nesting
import StepShell.Proofs.Word.Marker

/-! What commands come to that are nested in substitutions. Between entering a substitution and
leaving it stand the actions of the inner command, which write the word and leave the scopes as they
are; then the word takes the place of the substitution, and the outer command prints it. -/

namespace StepShell

section
variable {word : String}

theorem Command.echo_name (form : Grammar.isName word = true) : echo [word] = .ok word := by
  have other (option : String) (hyphen : '-' ∈ option.toList) : word ≠ option := by
    rintro rfl
    exact absurd (Lexer.isNameChar_of_isName form _ hyphen) (by decide)
  simp [echo, Echo.options, other "-n" (by decide), other "-e" (by decide),
    other "-E" (by decide)]

theorem Command.standard_echo {ω : Type} [Operator ω] :
    (standard : Table (Command ω)).get? "echo" = some (ofPrinted echo) := by
  simp [standard, standardList, Table.ofList, Table.get?_insert]

/-- A substitution that is all of its word leaves nothing of it. -/
theorem Node.splice_whole {body : List Char} {inner : Node} {place span : Span} {quoted : Bool}
    (balanced : Word.Balanced body) (starts : place.start = span.start) (output : String) :
    (Node.word (String.ofList ('$' :: '(' :: (body ++ [')']))) [.substitution inner place] quoted
        span).spliceTarget place output =
      .ok (.word (Word.protect output) [] quoted span) := by
  have marker : Word.isMarker ('$' :: '(' :: (body ++ [')'])) 0 = true := rfl
  have replaced : Word.replaceMarked (String.ofList ([] ++ '$' :: '(' :: (body ++ ')' :: []))) 0
      output = .ok (String.ofList ([] ++ Expansion.protectChars output.toList ++ [])) :=
    Word.replaceMarked_iff.mpr ⟨Word.nearestMarker?_self marker, balanced⟩ output
  rw [List.nil_append, List.nil_append, List.append_nil] at replaced
  have whole : Node.resolved place output (String.ofList ('$' :: '(' :: (body ++ [')'])))
      [.substitution inner place] span.start = .ok (Word.protect output, []) := by
    have found : [Node.substitution inner place].findIdx? (Node.isSubstitution place) =
        some 0 := by
      simp [Node.isSubstitution]
    rw [Node.resolved, found, starts, Nat.sub_self]
    dsimp only
    rw [replaced]
    rfl
  rw [Node.spliceTarget, Node.splice, whole]
  · rfl
  · intro _ _ _ wrong
    cases wrong

/-- The sandbox after a command that printed a line. -/
def Sandbox.printed (sandbox : Sandbox) (line : String) : Sandbox :=
  { sandbox with
    io := { sandbox.io with input := "", output := "" }
    screen := sandbox.screen ++ line ++ "\n" }

theorem Sandbox.flush_printed (form : Grammar.isName word = true) (sandbox : Sandbox) :
    (sandbox.clearOutput.clearInput.write word).flush.clearInput = sandbox.printed word := by
  have some : word ≠ "" := by
    rintro rfl
    cases form
  simp [printed, flush, clearInput, clearOutput, write, Socket.write, some]

theorem Node.Echoes.command {depth : Nat} {node : Node} (echoes : node.Echoes word depth) :
    ∃ parts span, node = .command parts span ∧ Redirects.collect parts = .ok .none := by
  cases echoes <;> exact ⟨_, _, rfl, rfl⟩

namespace Machine

variable {ω η : Type}

theorem substitutedText_name (form : Grammar.isName word = true) :
    substitutedText word = word := by
  have inline : ∀ c ∈ word.toList, c ≠ '\n' := by
    rintro c member rfl
    exact absurd (Lexer.isNameChar_of_isName form _ member) (by decide)
  have kept : Text.dropEndWhile (· == '\n') word.toList = word.toList := by
    rw [Text.dropEndWhile, List.dropWhile_eq_self_iff.mpr, List.reverse_reverse]
    intro some
    have member := List.mem_reverse.mp (List.get_mem _ ⟨0, some⟩)
    simpa using inline _ member
  have same : (word.toList.map fun c => if c = '\n' then ' ' else c) = word.toList :=
    (List.map_congr_left fun c member => if_neg (inline c member)).trans (List.map_id' _)
  rw [substitutedText, kept, same, String.ofList_toList]

section
variable [Operator ω] [Host η] {machine executed : Machine ω η} {action : Action}
  {rest : List Action} {index : Nat}

/-- An action that is counted and succeeds, where others are left. -/
theorem inch_of_executed (pending : machine.pending = action :: rest)
    (allowed : machine.ticks < machine.limits.actions)
    (ran : (execute action.operation).run { machine with
      pending := rest, ticks := machine.ticks + 1 } = (.ok (), executed))
    (left : executed.pending ≠ []) : inch.run machine = (.ok true, executed) := by
  rw [inch_of_allowed pending allowed, ran]
  dsimp only
  rw [settle_of_pending left]
  rfl

omit [Operator ω] [Host η] in
theorem slot_of_held {parts : List Node} (held : machine.slots[index]? = some parts) :
    (slot index : Step ω η (List Node)).run machine = (.ok parts, machine) := by
  rw [slot, run_get_bind, held]
  rfl

omit [Host η] in
/-- A command without redirects is compiled to its actions in a slot of its own. -/
theorem compiling_command {parts : List Node} (plain : Redirects.collect parts = .ok .none)
    (span : Span) (machine : Machine ω η) :
    (compiling (Node.command parts span).compile : Step ω η (List Action)).run machine =
      (.ok (Compilation.commandActions machine.slots.size .none (Node.command parts span).shell
        parts), { machine with slots := machine.slots.push parts }) := by
  refine compiling_eq.mpr ⟨⟨machine.sandbox.functions, machine.slots.push parts,
    machine.operator⟩, ?_, rfl⟩
  rw [Node.compile, plain]
  rfl

/-- Printing a word adds it to what is written. -/
theorem execute_echo {name argument : Span} {text : String} {parts : List Node}
    (form : Grammar.isName word = true) (standard : machine.commands = Command.standard)
    (bare : machine.sandbox.functions.get? "echo" = none)
    (held : machine.slots[index]? =
      some [.word "echo" [] false name, .word text parts false argument])
    (shown : machine.sandbox.vars.expand text = word) :
    (execute (.run index)).run machine =
      (.ok (), { machine with sandbox := machine.sandbox.write word }) := by
  have named : words machine.sandbox.vars
      [.word "echo" [] false name, .word text parts false argument] = ["echo", word] := by
    have command : machine.sandbox.vars.expand "echo" = "echo" :=
      Variables.expand_name (by decide) _
    simp [words, command, shown]
  have known : machine.commands.get? "echo" = some (Command.ofPrinted Command.echo) := by
    rw [standard, Command.standard_echo]
  have printed : Command.ofPrinted Command.echo [word] machine.sandbox machine.operator =
      (.ok (.ok word), machine.sandbox, machine.operator) := by
    rw [Command.ofPrinted, Command.echo_name form]
  change (slot index >>= runParts).run machine = _
  rw [run_bind_of_ok (slot_of_held held), runParts_known named bare (by decide) known,
    runKnown_of_ok printed]
  simp [Printed.ok, Sandbox.write, Socket.write]

omit [Operator ω] [Host η] in
/-- The machine inside a substitution: the actions of its command come before the rest. -/
def entered (machine : Machine ω η) (parts : List Node) (span : Span) (rest : List Action) :
    Machine ω η :=
  { machine with
    sandbox := machine.sandbox.lower.clearOutput
    slots := machine.slots.push parts
    pending := Compilation.commandActions machine.slots.size .none
      (Node.command parts span).shell parts ++ rest
    ticks := machine.ticks + 1 }

/-- Entering a substitution lowers a scope for its command. -/
theorem execute_enter {name argument span place : Span} {text : String} {parts : List Node}
    (held : machine.slots[index]? = some [.word "echo" [] false name,
      .word text [.substitution (.command parts span) place] false argument])
    (plain : Redirects.collect parts = .ok .none)
    (deep : machine.sandbox.depth < machine.limits.depth) (rest : List Action) :
    (execute (.enterSubstitution index 1 place)).run { machine with
        pending := rest, ticks := machine.ticks + 1 } =
      (.ok (), machine.entered parts span rest) := by
  let started : Machine ω η := { machine with pending := rest, ticks := machine.ticks + 1 }
  have found : (slot index : Step ω η (List Node)).run started = _ := slot_of_held held
  have inside : Node.substitutedAt? place [.substitution (.command parts span) place] =
      some (.command parts span) := by
    simp [Node.substitutedAt?]
  have allowed : machine.limits.checkDepth machine.sandbox.depth = .ok () :=
    if_neg (Nat.not_le.mpr deep)
  change (enterSubstitution index 1 place).run started = _
  rw [enterSubstitution, run_bind_of_ok found]
  dsimp only [List.getElem?_cons_succ, List.getElem?_cons_zero, Option.bind_some, Node.owner,
    Node.ownParts?]
  rw [inside]
  dsimp only
  rw [run_bind_of_ok (compiling_command plain span started), checkDepth, bind_assoc, run_get_bind]
  dsimp only [started]
  rw [allowed]
  rfl

/-- Leaving a substitution whose command wrote a word. -/
theorem execute_leave {name argument place : Span} {inner : Node} {body : List Char}
    {sandbox : Sandbox}
    (form : Grammar.isName word = true) (balanced : Word.Balanced body)
    (starts : place.start = argument.start)
    (held : machine.slots[index]? = some [.word "echo" [] false name,
      .word (String.ofList ('$' :: '(' :: (body ++ [')']))) [.substitution inner place] false
        argument])
    (written : machine.sandbox = sandbox.lower.clearOutput.write word) :
    (execute (.leaveSubstitution index 1 place)).run machine =
      (.ok (), { machine with
        sandbox
        slots := machine.slots.setIfInBounds index [.word "echo" [] false name,
          .word (Word.protect word) [] false argument] }) := by
  have captured : substitutedText machine.sandbox.captured = word := by
    have same : machine.sandbox.captured = word := by
      rw [written]
      simp [Sandbox.captured, Sandbox.lower, Sandbox.clearOutput, Sandbox.write, Socket.write]
    rw [same, substitutedText_name form]
  have raised : Sandbox.raise { machine.sandbox.clearOutput with screen := "" } = sandbox := by
    rw [written]
    simp [Sandbox.lower, Sandbox.clearOutput, Sandbox.write, Socket.write, Sandbox.raise,
      Sandbox.saved]
  change (leaveSubstitution index 1 place).run machine = _
  rw [leaveSubstitution, run_get_bind, captured]
  dsimp only
  rw [Machine.change, run_modify_bind, run_get_bind]
  dsimp only [withSandbox]
  rw [held, raised]
  dsimp only [List.getElem?_cons_succ, List.getElem?_cons_zero, Option.bind_some]
  rw [Node.splice_whole balanced starts]
  rfl

omit [Operator ω] [Host η] in
/-- A command with a substitution as its argument enters it, leaves it and then runs. -/
theorem commandActions_substituted (index : Nat) (source : String) (name argument place : Span)
    (inner : Node) (text : String) : ∃ enter leave print : Action,
      Compilation.commandActions index .none source [.word "echo" [] false name,
        .word text [.substitution inner place] false argument] = [enter, leave, print] ∧
      enter.operation = .enterSubstitution index 1 place ∧
      leave.operation = .leaveSubstitution index 1 place ∧ print.operation = .run index :=
  ⟨_, _, _, rfl, rfl, rfl, rfl⟩

/-- The actions of a command with an echo's parts are all that is pending before the rest, and the
limits leave room for what they take. -/
structure Awaits (depth index : Nat) (parts : List Node) (rest : List Action)
    (machine : Machine ω η) : Prop where
  pending : ∃ source, machine.pending =
    Compilation.commandActions index .none source parts ++ rest
  left : rest ≠ []
  held : machine.slots[index]? = some parts
  commands : machine.commands = Command.standard
  bare : machine.sandbox.functions.get? "echo" = none
  deep : machine.sandbox.depth + depth ≤ machine.limits.depth
  allowed : machine.ticks + (3 * depth + 1) ≤ machine.limits.actions

/-- A command with a substitution goes on with the inner command, and then with what leaves the
substitution and prints the word. -/
theorem Awaits.enters {depth : Nat} {name argument place span : Span} {text : String}
    {parts : List Node} (plain : Redirects.collect parts = .ok .none)
    (awaits : Awaits (depth + 1) index [.word "echo" [] false name,
      .word text [.substitution (.command parts span) place] false argument] rest machine) :
    ∃ enter leave print, leave.operation = .leaveSubstitution index 1 place ∧
      print.operation = .run index ∧ machine.pending = enter :: leave :: print :: rest ∧
      inch.run machine = (.ok true, machine.entered parts span (leave :: print :: rest)) ∧
      Awaits depth machine.slots.size parts (leave :: print :: rest)
        (machine.entered parts span (leave :: print :: rest)) := by
  obtain ⟨source, pending⟩ := awaits.pending
  obtain ⟨enter, leave, print, same, enters, leaves, prints⟩ :=
    commandActions_substituted index source name argument place (.command parts span) text
  rw [same] at pending
  have allowed := awaits.allowed
  have deep : machine.sandbox.depth + (depth + 1) ≤ machine.limits.depth := awaits.deep
  have entered : inch.run machine =
      (.ok true, machine.entered parts span (leave :: print :: rest)) := by
    refine inch_of_executed pending (by omega) ?_ (by simp [Machine.entered])
    rw [enters]
    exact execute_enter awaits.held plain (by omega) _
  refine ⟨enter, leave, print, leaves, prints, pending, entered, ⟨_, rfl⟩, List.cons_ne_nil _ _,
    Array.getElem?_push_size, awaits.commands, awaits.bare, ?_, ?_⟩
  · change machine.sandbox.depth + 1 + depth ≤ machine.limits.depth
    omega
  · change machine.ticks + 1 + (3 * depth + 1) ≤ machine.limits.actions
    omega

/-- Behind the actions of the inner command the word takes the place of the substitution and is
printed. -/
theorem runs_leaving {name argument place : Span} {inner : Node} {body : List Char}
    {sandbox : Sandbox} {leave print : Action} (form : Grammar.isName word = true)
    (balanced : Word.Balanced body) (starts : place.start = argument.start)
    (leaves : leave.operation = .leaveSubstitution index 1 place)
    (prints : print.operation = .run index) (onward : rest ≠ [])
    (pending : machine.pending = leave :: print :: rest)
    (held : machine.slots[index]? = some [.word "echo" [] false name,
      .word (String.ofList ('$' :: '(' :: (body ++ [')']))) [.substitution inner place] false
        argument])
    (standard : machine.commands = Command.standard)
    (bare : sandbox.functions.get? "echo" = none)
    (written : machine.sandbox = sandbox.lower.clearOutput.write word)
    (allowed : machine.ticks + 2 ≤ machine.limits.actions) :
    Runs rest machine { machine with
      sandbox := sandbox.write word
      slots := machine.slots.setIfInBounds index
        [.word "echo" [] false name, .word (Word.protect word) [] false argument]
      pending := rest
      ticks := machine.ticks + 2 } := by
  have within : index < machine.slots.size := (Array.getElem?_eq_some_iff.mp held).1
  let left : Machine ω η := { machine with
    sandbox
    slots := machine.slots.setIfInBounds index
      [.word "echo" [] false name, .word (Word.protect word) [] false argument]
    pending := print :: rest
    ticks := machine.ticks + 1 }
  have raised : inch.run machine = (.ok true, left) := by
    refine inch_of_executed pending (by omega) ?_ (List.cons_ne_nil _ _)
    rw [leaves]
    exact execute_leave form balanced starts held written
  have spoken : left.slots[index]? = .some
      [.word "echo" [] false name, .word (Word.protect word) [] false argument] := by
    rw [Array.getElem?_setIfInBounds_self_of_lt within]
  have printed : inch.run left = (.ok true, { left with
      sandbox := sandbox.write word
      pending := rest
      ticks := left.ticks + 1 }) := by
    refine inch_of_executed rfl (by dsimp only [left]; omega) ?_ onward
    rw [prints]
    exact execute_echo form standard bare spoken (Variables.expand_protect _ _)
  have here : machine.pending = leave :: [print] ++ rest := pending
  have later : left.pending = print :: [] ++ rest := rfl
  exact .inch here raised (.inch later printed (.done rfl))

/-- The actions of such a command write the word. Nothing else is changed but the slots of the
commands themselves. -/
theorem Awaits.runs {depth : Nat} {parts : List Node} {span : Span}
    (form : Grammar.isName word = true) (echoes : (Node.command parts span).Echoes word depth)
    (awaits : Awaits depth index parts rest machine) :
    ∃ slots, Runs rest machine { machine with
        sandbox := machine.sandbox.write word
        pending := rest
        slots
        ticks := machine.ticks + (3 * depth + 1) } ∧
      ∀ other < machine.slots.size, other ≠ index → slots[other]? = machine.slots[other]? := by
  induction depth generalizing index parts span rest machine with
  | zero =>
    cases echoes
    obtain ⟨source, pending⟩ := awaits.pending
    have ran : (execute (.run index)).run { machine with
          pending := rest, ticks := machine.ticks + 1 } =
        (.ok (), { machine with
          sandbox := machine.sandbox.write word, pending := rest, ticks := machine.ticks + 1 }) :=
      execute_echo form awaits.commands awaits.bare awaits.held (Variables.expand_name form _)
    exact ⟨machine.slots, .inch pending (inch_of_executed pending awaits.allowed ran awaits.left)
      (.done rfl), fun _ _ _ => rfl⟩
  | succ depth ih =>
    cases echoes with
    | @substitution _ inner body place name argument _ deeper balanced starts =>
    obtain ⟨parts, span, rfl, plain⟩ := deeper.command
    obtain ⟨enter, leave, print, leaves, prints, pending, entered, inside⟩ := awaits.enters plain
    obtain ⟨slots, runs, others⟩ := ih deeper inside
    -- the slots that were there before are those from before, the command's own included
    have kept (other : Nat) (bound : other < machine.slots.size) :
        slots[other]? = machine.slots[other]? := by
      have room : other < (machine.entered parts span (leave :: print :: rest)).slots.size := by
        simp only [Machine.entered, Array.size_push]
        omega
      rw [others other room (Nat.ne_of_lt bound), Array.getElem?_eq_getElem bound]
      exact Array.getElem?_push_lt bound
    have within : index < machine.slots.size := (Array.getElem?_eq_some_iff.mp awaits.held).1
    have held := (kept index within).trans awaits.held
    have allowed := awaits.allowed
    let written : Machine ω η := { machine with
      sandbox := machine.sandbox.lower.clearOutput.write word
      pending := leave :: print :: rest
      slots
      ticks := machine.ticks + 1 + (3 * depth + 1) }
    have early : Runs ([leave, print] ++ rest) (machine.entered parts span
        (leave :: print :: rest)) written := runs
    have late : Runs rest written _ := runs_leaving form balanced starts leaves prints awaits.left
      rfl held awaits.commands awaits.bare rfl (by dsimp only [written]; omega)
    have count : written.ticks + 2 = machine.ticks + (3 * (depth + 1) + 1) := by
      dsimp only [written]
      omega
    rw [count] at late
    have first : machine.pending = enter :: [leave, print] ++ rest := pending
    refine ⟨_, .inch first entered (early.trans late), fun other bound different => ?_⟩
    rw [Array.getElem?_setIfInBounds_ne different.symm]
    exact kept other bound

omit [Host η] in
/-- A command without redirects is built in place of what is pending. -/
theorem build_command {parts : List Node} (plain : Redirects.collect parts = .ok .none)
    (span : Span) (machine : Machine ω η) :
    (build (.command parts span) false).run machine = (.ok (), { machine with
      slots := #[parts]
      pending := wrapped (Compilation.commandActions 0 .none (Node.command parts span).shell parts)
      ticks := 0 }) := by
  unfold build
  rw [ExceptT.run_mk]
  dsimp only
  rw [if_neg (by decide), compiling_command plain]
  rfl

/-- The whole run of such a command: its actions, with those that start it and end it. -/
theorem runs_echoes {depth : Nat} {parts : List Node} {span : Span} (source : String)
    (form : Grammar.isName word = true) (echoes : (Node.command parts span).Echoes word depth)
    (commands : machine.commands = Command.standard)
    (bare : machine.sandbox.functions.get? "echo" = none)
    (deep : machine.sandbox.depth + depth ≤ machine.limits.depth)
    (allowed : 3 * depth + 3 ≤ machine.limits.actions) :
    Runs [] { machine with
        slots := #[parts]
        pending := wrapped (Compilation.commandActions 0 .none source parts)
        ticks := 0 }
      { machine with
        sandbox := machine.sandbox.printed word
        pending := []
        slots := #[]
        ticks := 3 * depth + 3 } := by
  let actions := Compilation.commandActions 0 .none source parts
  let resetIo := Action.plain .resetIo "Initialize state for command"
  let cleanUp := Action.plain .cleanUp "Exit Node Cleanup"
  let started : Machine ω η := { machine with
    sandbox := machine.sandbox.clearOutput.clearInput
    slots := #[parts]
    pending := actions ++ [cleanUp]
    ticks := 1 }
  have first : inch.run { machine with slots := #[parts], pending := wrapped actions, ticks := 0 } =
      (.ok true, started) :=
    inch_of_executed rfl (by dsimp only; omega) rfl (by simp [started])
  have awaits : Awaits depth 0 parts [cleanUp] started :=
    ⟨⟨source, rfl⟩, List.cons_ne_nil _ _, rfl, commands, bare, deep, by dsimp only [started]; omega⟩
  obtain ⟨slots, runs, -⟩ := awaits.runs form echoes
  let written : Machine ω η := { started with
    sandbox := started.sandbox.write word
    pending := [cleanUp]
    slots
    ticks := 1 + (3 * depth + 1) }
  have last : inch.run written = (.ok true, { machine with
      sandbox := machine.sandbox.printed word
      pending := []
      slots := #[]
      ticks := 3 * depth + 3 }) := by
    have room : written.ticks < written.limits.actions := by
      dsimp only [written, started]
      omega
    have count : 1 + (3 * depth + 1) + 1 = 3 * depth + 3 := by omega
    rw [inch_of_allowed rfl room]
    change (Except.ok true, settle { written with
      sandbox := (machine.sandbox.clearOutput.clearInput.write word).flush.clearInput
      pending := []
      ticks := 1 + (3 * depth + 1) + 1 }) = _
    rw [Sandbox.flush_printed form, count]
    rfl
  have whole : wrapped actions = resetIo :: (actions ++ [cleanUp]) ++ [] := by
    simp [wrapped, resetIo, cleanUp]
  have early : Runs ([cleanUp] ++ []) started written := runs
  have left : written.pending = cleanUp :: [] ++ [] := rfl
  exact .inch whole first (early.trans (.inch left last (.done rfl)))

/-- A word of letters, digits and underscores that no digit begins comes out of as many nested
substitutions as there is depth for, each of them taking three actions. -/
theorem nested_substitutions_unwind {depth : Nat} (form : Grammar.isName word = true)
    (commands : machine.commands = Command.standard)
    (bare : machine.sandbox.functions.get? "echo" = none)
    (deep : machine.sandbox.depth + depth ≤ machine.limits.depth)
    (allowed : 3 * depth + 3 ≤ machine.limits.actions) :
    (runText (Script.wrapped word depth)).run machine = (.ok (), { machine with
      sandbox := { machine.sandbox with
        io := { machine.sandbox.io with input := "", output := "" }
        screen := machine.sandbox.screen ++ word ++ "\n" }
      pending := []
      slots := #[]
      ticks := 3 * depth + 3 }) := by
  obtain ⟨node, parsed, echoes⟩ := Script.parseAt_wrapped form depth 0
  obtain ⟨parts, span, rfl, plain⟩ := echoes.command
  have text : Script.parse (Script.wrapped word depth) = .ok [.command parts span] := parsed
  have runs := runs_echoes (Node.command parts span).shell form echoes commands bare deep allowed
  rw [runText, text]
  change (runAll [.command parts span]).run machine = _
  rw [runAll, run, bind_assoc, run_bind_of_ok (build_command plain span machine),
    run_bind_of_ok (Runs.drain runs)]
  rfl

end

/-- Two substitutions use up a depth of two and nine actions. -/
theorem nested_substitutions_unwind_twice :
    let start : Machine Absent Disabled := create .empty Command.standard ⟨9, 2, 0⟩ {} {}
    Script.wrapped "b2" 2 = "echo $(echo $(echo b2))" ∧ Grammar.isName "b2" = true ∧
      start.commands = Command.standard ∧ start.sandbox.functions.get? "echo" = none ∧
      start.sandbox.depth + 2 ≤ start.limits.depth ∧ 3 * 2 + 3 ≤ start.limits.actions ∧
      (runText "echo $(echo $(echo b2))").run start = (.ok (), { start with
        sandbox := { start.sandbox with screen := "b2\n" }
        ticks := 9 }) := by
  intro start
  have text : Script.wrapped "b2" 2 = "echo $(echo $(echo b2))" := by decide +kernel
  have form : Grammar.isName "b2" = true := by decide
  have unwound : (runText (Script.wrapped "b2" 2)).run start = _ :=
    nested_substitutions_unwind form rfl rfl (Nat.le_refl 2) (Nat.le_refl 9)
  rw [text] at unwound
  exact ⟨text, form, rfl, rfl, Nat.le_refl 2, Nat.le_refl 9, unwound⟩

end Machine

end

end StepShell

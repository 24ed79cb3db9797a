import StepShell.Proofs.Machine.Bindings
import StepShell.Proofs.Machine.Dispatch
import StepShell.Proofs.Machine.Pipeline
import StepShell.Proofs.Script.Copying

/-! Copying a file with `cat`. Printing drops a newline, and so does writing; the flush of what was
captured puts one back, unless there is nothing to put it behind. -/

namespace StepShell

namespace Sandbox

theorem flush_eq (sandbox : Sandbox) : sandbox.flush = { sandbox with
    screen := sandbox.screen ++ line sandbox.io.output
    io := { sandbox.io with output := "" } } := by
  unfold flush line
  split
  · rename_i nothing
    obtain ⟨⟨_, _, output⟩, _⟩ := sandbox
    obtain rfl : output = "" := String.isEmpty_iff.mp nothing
    simp
  · simp [String.append_assoc]

/-- Inside a capture, with this to be read. -/
def capturing (sandbox : Sandbox) (input : String) : Sandbox :=
  { sandbox.beginCapture with io := { sandbox.io with input } }

/-- Nothing is left to be read or printed, and a file has these contents. -/
def filed (sandbox : Sandbox) (path contents : String) : Sandbox :=
  { sandbox.clearOutput.clearInput with files := sandbox.files.write path contents }

end Sandbox

namespace Command

/-- A file that is there is printed. -/
theorem cat_file {sandbox : Sandbox} {path : String} {file : File}
    (absolute : path.toList.head? = some '/')
    (there : sandbox.files.get? (sandbox.resolve path) = some file) :
    cat [path] sandbox = (.ok (withoutNewline file.text), sandbox) := by
  obtain ⟨rest, chars⟩ := List.head?_eq_some_iff.mp absolute
  have operand : isOption path = false := by
    rw [isOption, chars]
    simp
  have named : path ≠ "-" := by
    rintro rfl
    cases absolute
  simp [cat, operands, operand, catFiles, named, there]

/-- Without operands all that there is to read is printed. -/
theorem cat_input (sandbox : Sandbox) : cat [] sandbox =
    (.ok (withoutNewline sandbox.io.input), { sandbox with io := sandbox.io.read.2 }) := by
  simp [cat, operands, catFiles, Socket.read]

end Command

theorem Command.standard_cat {ω : Type} [Operator ω] :
    (standard : Table (Command ω)).get? "cat" = some (ofSandbox cat) := by
  simp [standard, standardList, Table.ofList, Table.get?_insert]

namespace Compilation

/-- A word that stands for a text, or a redirect to such a word. -/
def Plain (part : Node) : Prop :=
  (∃ text, part.Means text) ∨ ∃ kind target span text, part = .redirect kind target span ∧
    target.Means text

section
variable {slot : Nat} {parts : List Node} {redirects : Redirects} {source : String}

theorem substitutions_none (each : ∀ part ∈ parts, Plain part) (pass : Pass) :
    substitutions slot parts pass = [] := by
  refine List.flatMap_eq_nil_iff.mpr fun pair member => List.flatMap_eq_nil_iff.mpr
    fun inner within => ?_
  have here := each pair.1 (List.mem_of_getElem? (List.mk_mem_zipIdx_iff_getElem?.mp member))
  have inside : inner ∈ pass.parts pair.1 := List.mem_reverse.mp within
  have simple : isSubstitution inner = false := by
    rcases here with ⟨_, _, shown, _, _, same, none, _⟩ |
      ⟨_, _, _, _, same, _, _, _, _, rfl, none, _⟩
    all_goals
      rw [same] at inside
      cases pass with
      | words => first | exact none _ inside | cases inside
      | targets => first | exact none _ inside | cases inside
  cases inner with
  | substitution => cases simple
  | _ => rfl

theorem not_assignment {part : Node} (plain : Plain part) : isAssignment part = false := by
  rcases plain with ⟨_, _, _, _, _, rfl, _⟩ | ⟨_, _, _, _, rfl, _⟩ <;> rfl

theorem isWord_of_means {part : Node} {text : String} (means : part.Means text) :
    isWord part = true := by
  obtain ⟨_, _, _, _, rfl, _⟩ := means
  rfl

/-- The action that runs a command. -/
def calling (slot : Nat) (parts : List Node) (span : Span) : Action :=
  ⟨.run slot, "Command node: " ++ commandName parts, some (Node.command parts span).shell⟩

/-- A command of plain parts, the first of them a word, is only run, inside its redirects. -/
theorem compile_plain {ω : Type} [Operator ω] (setting : Setting) {name : Node} {text : String}
    (span : Span) (named : name.Means text) (each : ∀ part ∈ parts, Plain part)
    (collected : Redirects.collect (name :: parts) = .ok redirects) (before : Compilation ω) :
    ((Node.command (name :: parts) span).compile setting).run before =
      (.ok (redirects.opening before.slots.size "command" ++
        calling before.slots.size (name :: parts) span ::
          redirects.closing before.slots.size "command"),
        { before with slots := before.slots.push (name :: parts) }) := by
  have all : ∀ part ∈ name :: parts, Plain part :=
    List.forall_mem_cons.mpr ⟨.inl ⟨text, named⟩, each⟩
  have assigns : (name :: parts).any isAssignment = false :=
    List.any_eq_false.mpr fun part member => by simp [not_assignment (all part member)]
  have called : (name :: parts).any isWord = true :=
    List.any_eq_true.mpr ⟨name, List.mem_cons_self, isWord_of_means named⟩
  have actions : commandActions before.slots.size redirects
      (Node.command (name :: parts) span).shell (name :: parts) = _ := commandActions_eq _ _ _ _
  rw [innerActions, substitutions_none all, substitutions_none all, assigns, called] at actions
  rw [Node.compile, collected]
  exact congrArg (fun actions => (Except.ok actions, _)) actions

end

end Compilation

namespace Machine

section
variable (ω η : Type) [Operator ω] [Host η]

/-- With these slots the action comes to success, and makes this of the sandbox and of nothing
else. -/
def Alters (slots : Array (List Node)) (action : Action) (before after : Sandbox) : Prop :=
  ∀ machine : Machine ω η, machine.slots = slots → machine.commands = Command.standard →
    machine.sandbox = before → (execute action.operation).run machine =
      (.ok (), { machine with sandbox := after })

/-- So do the actions, one after the other. -/
inductive Walks (slots : Array (List Node)) : List Action → Sandbox → Sandbox → Prop where
  | nil {sandbox : Sandbox} : Walks slots [] sandbox sandbox
  | cons {action : Action} {rest : List Action} {before middle after : Sandbox}
      (here : Alters ω η slots action before middle) (later : Walks slots rest middle after) :
      Walks slots (action :: rest) before after

end

variable {ω η : Type} [Operator ω] [Host η] {slots : Array (List Node)} {actions : List Action}
  {before after : Sandbox}

theorem Alters.change {action : Action} {alter : Sandbox → Sandbox}
    (does : (execute action.operation : Step ω η Unit) = Machine.change alter)
    (makes : alter before = after) : Alters ω η slots action before after := by
  intro machine _ _ start
  rw [does, ← makes, ← start]
  rfl

/-- The actions run through, each of them in one inch, if there is room for them. -/
theorem Walks.runs {rest : List Action} (walks : Walks ω η slots actions before after)
    (machine : Machine ω η) (same : machine.slots = slots)
    (start : machine.sandbox = before) (commands : machine.commands = Command.standard)
    (pending : machine.pending = actions ++ rest) (behind : rest ≠ [])
    (room : machine.ticks + actions.length ≤ machine.limits.actions) :
    Runs rest machine { machine with
      sandbox := after
      pending := rest
      ticks := machine.ticks + actions.length } := by
  induction walks generalizing machine with
  | nil =>
    have ended : machine.pending = rest := pending
    rw [← start, ← ended]
    exact .done rfl
  | @cons action others before middle after here later ih =>
    rw [List.length_cons] at room
    have left : others ++ rest ≠ [] := List.append_ne_nil_of_right_ne_nil others behind
    have first : machine.pending = action :: (others ++ rest) := pending
    let next : Machine ω η := { machine with
      sandbox := middle
      pending := others ++ rest
      ticks := machine.ticks + 1 }
    have inched : inch.run machine = (.ok true, next) := by
      rw [inch_of_allowed first (by omega)]
      dsimp only
      rw [here { machine with pending := others ++ rest, ticks := machine.ticks + 1 } same commands
        start]
      exact congrArg (Prod.mk _) (settle_of_pending left)
    have counted : machine.ticks + (others.length + 1) = next.ticks + others.length :=
      (Nat.add_right_comm _ 1 _).symm
    rw [List.length_cons, counted]
    refine .inch pending inched (ih next same rfl commands rfl ?_)
    rw [← counted]
    exact room

theorem Walks.append {first second : List Action} {middle : Sandbox}
    (early : Walks ω η slots first before middle) (late : Walks ω η slots second middle after) :
    Walks ω η slots (first ++ second) before after := by
  induction early with
  | nil => exact late
  | cons here _ ih => exact .cons here (ih late)

/-- When nothing is left, with this sandbox after so many actions. -/
def finished (machine : Machine ω η) (sandbox : Sandbox) (ticks : Nat) : Machine ω η :=
  { machine with sandbox, pending := [], slots := #[], ticks }

/-- A node that is compiled to such actions is run, and nothing but the sandbox is different. -/
theorem Walks.run {node : Node} {machine : Machine ω η}
    (compiles : (node.compile machine.setting).run
      ⟨machine.sandbox.functions, #[], machine.operator⟩ =
        (.ok actions, ⟨machine.sandbox.functions, slots, machine.operator⟩))
    (walks : Walks ω η slots actions machine.sandbox.clearOutput.clearInput after)
    (commands : machine.commands = Command.standard)
    (room : actions.length + 2 ≤ machine.limits.actions) :
    (Machine.run node).run machine =
      (.ok (), machine.finished after.flush.clearInput (actions.length + 2)) := by
  let built : Machine ω η := { machine with pending := wrapped actions, slots, ticks := 0 }
  have build : (Machine.build node false).run machine = (.ok (), built) := by
    have compiled : (compiling node.compile : Step ω η (List Action)).run
        { machine with slots := #[] } = (.ok actions, { machine with slots }) := by
      have setting : Machine.setting { machine with slots := #[] } = machine.setting := rfl
      rw [compiling, ExceptT.run_mk, setting, compiles]
    unfold Machine.build
    rw [ExceptT.run_mk]
    dsimp only
    simp only [Bool.false_eq_true, if_false]
    rw [compiled]
    rfl
  have starts : Alters ω η slots (.plain .resetIo "Initialize state for command") machine.sandbox
      machine.sandbox.clearOutput.clearInput := .change rfl rfl
  let tidied : Machine ω η := { built with
    sandbox := after
    pending := closing
    ticks := actions.length + 1 }
  have through : Runs (closing ++ []) built tidied := by
    have room : 0 + (actions.length + 1) ≤ machine.limits.actions := by omega
    have runs := (Walks.cons starts walks).runs built rfl rfl commands rfl
      (List.cons_ne_nil _ _ : closing ≠ []) room
    rwa [Nat.zero_add] at runs
  have allowed : tidied.ticks < tidied.limits.actions := room
  have pending : tidied.pending = .plain .cleanUp "Exit Node Cleanup" :: [] ++ [] := rfl
  have last : inch.run tidied =
      (.ok true, machine.finished after.flush.clearInput (actions.length + 2)) :=
    inch_of_allowed pending allowed
  rw [Machine.run, run_bind_of_ok build]
  exact (through.trans (.inch pending last (.done rfl))).drain

section
variable {index place : Nat} {parts : List Node} {text : String} {target : Node} {span : Span}
  {description : String}

omit [Operator ω] [Host η] in
theorem redirectPath_of_means {machine : Machine ω η} {kind : RedirectKind}
    (held : machine.slots[index]? = some parts)
    (leads : parts[place]? = some (.redirect kind target span)) (means : target.Means text) :
    (redirectPath index place : Step ω η String).run machine =
      (.ok (machine.sandbox.resolve text), machine) := by
  obtain ⟨shown, inner, quoted, at_, rfl, -, expands⟩ := means
  rw [redirectPath, run_bind_of_ok (slot_of_held held), leads]
  dsimp only
  rw [run_get_bind, expands]
  rfl

/-- Reading from a file that is there. -/
theorem Alters.read {file : File} (held : slots[index]? = some parts)
    (leads : parts[place]? = some (.redirect .input target span)) (means : target.Means text)
    (there : before.files.get? (before.resolve text) = some file)
    (makes : { before with io := { before.io with input := file.text } } = after) :
    Alters ω η slots (.plain (.readRedirect index place) description) before after := by
  rintro machine rfl _ rfl
  have path := redirectPath_of_means held leads means
  change (redirectPath index place >>= readRedirect : Step ω η Unit).run machine = _
  rw [run_bind_of_ok path, readRedirect, run_get_bind, there, ← makes]
  rfl

/-- Writing what was captured to a path. -/
theorem Alters.write (held : slots[index]? = some parts)
    (leads : parts[place]? = some (.redirect .output target span)) (means : target.Means text)
    (makes : { before with files := before.files.write (before.resolve text) before.captured } =
      after) :
    Alters ω η slots (.plain (.writeRedirect index place false) description) before after := by
  rintro machine rfl _ rfl
  have path := redirectPath_of_means held leads means
  change (redirectPath index place >>= (writeRedirect · false) : Step ω η Unit).run machine = _
  rw [run_bind_of_ok path, ← makes]
  rfl

/-- Running `cat`. -/
theorem Alters.cat {called : List Node} {args : List String} {printed : Printed}
    {sandbox : Sandbox} (held : slots[index]? = some parts)
    (named : words before.vars parts = "cat" :: args)
    (undefined : before.functions.get? "cat" = none)
    (prints : Command.cat args before = (printed, sandbox))
    (makes : (sandbox.write printed.output).write printed.errors = after) :
    Alters ω η slots (Compilation.calling index called span) before after := by
  rintro machine rfl commands rfl
  have known : machine.commands.get? "cat" = some (Command.ofSandbox Command.cat) := by
    rw [commands, Command.standard_cat]
  have answers : Command.ofSandbox Command.cat args machine.sandbox machine.operator =
      (.ok printed, sandbox, machine.operator) := by
    rw [Command.ofSandbox, prints]
  have ran := runParts_known named undefined (by decide) known
  rw [runKnown_of_ok answers, makes] at ran
  exact (execute_run held).trans ran

end

section
variable {index place : Nat} {parts : List Node} {copy : String} {target : Node} {span : Span}
  {caught : Sandbox} {screen : String} {captures : List String}

/-- A command whose output goes to a file, which is all that is left of it. -/
theorem Walks.captured (redirects : Redirects) (index place : Nat) {start begun : Sandbox}
    {called : List Node} {whole : Span} {args : List String} {text input : String}
    (writes : redirects.output = some (place, false)) (held : slots[index]? = some parts)
    (leads : parts[place]? = some (.redirect .output target span)) (means : target.Means copy)
    (opens : Walks ω η slots (redirects.opening index "command") start begun)
    (named : words begun.vars parts = "cat" :: args)
    (undefined : begun.functions.get? "cat" = none)
    (prints : Command.cat args begun = (.ok text, start.capturing input))
    (unwritten : start.io.output = "") :
    ∃ after, Walks ω η slots (redirects.opening index "command" ++
        Compilation.calling index called whole :: redirects.closing index "command") start after ∧
      after.flush.clearInput = { start.clearInput with
        files := start.files.write (start.resolve copy) (Sandbox.line text) } := by
  obtain ⟨_, _⟩ := redirects
  obtain rfl := writes
  -- before the capture is flushed nothing but the text is written
  let caught := ((start.capturing input).write text).write ""
  have written : caught.io = { start.io with input, output := text } := by
    simp [caught, Sandbox.capturing, Sandbox.write, Socket.write, unwritten]
  have closes : Walks ω η slots (Redirects.closing ⟨.none, some (place, false)⟩ index "command")
      caught { start with
        files := start.files.write (start.resolve copy) (Sandbox.line text)
        io := { start.io with input, output := "" } } := by
    refine .cons (.change rfl caught.flush_eq) (.cons (.write held leads means rfl)
      (.cons (.change rfl ?_) .nil))
    rw [written]
    simp [Sandbox.endCapture, Sandbox.captured, Sandbox.resolve, caught, Sandbox.capturing,
      Sandbox.beginCapture, Sandbox.write]
  refine ⟨_, opens.append (.cons (.cat held named undefined prints rfl) closes), ?_⟩
  rw [Sandbox.flush_of_unwritten _ rfl, ← unwritten]
  rfl

end

end Machine

namespace Command

theorem withoutNewline_line (text : String) : withoutNewline (text ++ "\n") = text := by
  simp [withoutNewline]

theorem withoutNewline_of_last {text : String} (last : text.toList.getLast? ≠ some '\n') :
    withoutNewline text = text :=
  if_neg last

end Command

theorem Sandbox.line_eq_iff (text : String) : line text = text ++ "\n" ↔ text ≠ "" := by
  by_cases nothing : text = ""
  · subst nothing
    decide
  · simp [line, nothing]

namespace Copying

/-- What comes of the contents: each `cat` drops a newline, and the file is given one. -/
def copied (contents : String) : Copying → String
  | .pipe => Sandbox.line (Command.withoutNewline (Command.withoutNewline contents))
  | _ => Sandbox.line (Command.withoutNewline contents)

/-- Something stands before the last newline, and no further newline if there are two calls. -/
def Keeps (text : String) : Copying → Prop
  | .pipe => text ≠ "" ∧ text.toList.getLast? ≠ some '\n'
  | _ => text ≠ ""

theorem copied_eq_iff (way : Copying) (text : String) :
    way.copied (text ++ "\n") = text ++ "\n" ↔ way.Keeps text := by
  cases way with
  | pipe =>
    rw [copied, Command.withoutNewline_line, Keeps]
    by_cases last : text.toList.getLast? = some '\n'
    · -- the second call drops a newline of its own, and only one is put back
      obtain ⟨front, chars⟩ := List.getLast?_eq_some_iff.mp last
      obtain rfl : text = String.ofList front ++ "\n" :=
        String.toList_injective (by simpa using chars)
      rw [Command.withoutNewline_line]
      refine iff_of_false (fun same => ?_) fun keeps => keeps.2 last
      have long := congrArg String.length same
      have newline : "\n".length = 1 := rfl
      unfold Sandbox.line at long
      split at long <;> simp [newline] at long
    · rw [Command.withoutNewline_of_last last, Sandbox.line_eq_iff]
      exact (and_iff_left last).symm
  | _ =>
    change Sandbox.line (Command.withoutNewline (text ++ "\n")) = text ++ "\n" ↔ text ≠ ""
    rw [Command.withoutNewline_line, Sandbox.line_eq_iff]

end Copying

namespace Machine

variable {ω η : Type} [Operator ω] [Host η] {file copy : String} {node : Node}
  {machine : Machine ω η}

omit [Operator ω] [Host η] in
theorem words_means {vars : Variables} {text : String} {rest : List Node}
    (means : node.Means text) : words vars (node :: rest) = text :: words vars rest := by
  obtain ⟨_, _, _, _, rfl, _, expands⟩ := means
  simp [words, expands]

section
variable {name source again target : Node} {read at_ first sign second span : Span} {stored : File}

/-- A copy of a file that `cat` is called with. -/
theorem run_argument (named : name.Means "cat") (reads : source.Means file)
    (writes : target.Means copy) (absolute : file.toList.head? = some '/')
    (there : machine.sandbox.files.get? (machine.sandbox.resolve file) = some stored)
    (undefined : machine.sandbox.functions.get? "cat" = none)
    (commands : machine.commands = Command.standard) (room : 9 ≤ machine.limits.actions) :
    (run (.command [name, source, .redirect .output target at_] span)).run machine =
      (.ok (), machine.finished (machine.sandbox.filed (machine.sandbox.resolve copy)
        (Sandbox.line (Command.withoutNewline stored.text))) 7) := by
  have collected : Redirects.collect [name, source, .redirect .output target at_] =
      .ok ⟨.none, some (2, false)⟩ := by
    obtain ⟨_, _, _, _, rfl, _⟩ := named
    obtain ⟨_, _, _, _, rfl, _⟩ := reads
    obtain ⟨_, _, _, _, rfl, _⟩ := writes
    rfl
  have plain : ∀ part ∈ [source, .redirect .output target at_], Compilation.Plain part := by
    simp only [List.forall_mem_cons]
    exact ⟨.inl ⟨_, reads⟩, .inr ⟨_, _, _, _, rfl, writes⟩, nofun⟩
  have compiled := Compilation.compile_plain machine.setting span named plain collected
    ⟨machine.sandbox.functions, #[], machine.operator⟩
  let start := machine.sandbox.clearOutput.clearInput
  have words : words start.beginCapture.vars [name, source, .redirect .output target at_] =
      ["cat", file] := by
    rw [words_means named, words_means reads]
    rfl
  have held : #[[name, source, .redirect .output target at_]][0]? =
      some [name, source, .redirect .output target at_] := rfl
  have opens : Walks ω η #[[name, source, .redirect .output target at_]]
      (Redirects.opening ⟨.none, some (2, false)⟩ 0 "command") start start.beginCapture :=
    .cons (.change rfl rfl) .nil
  obtain ⟨after, walks, left⟩ := Walks.captured _ 0 2 rfl held rfl writes opens words undefined
    (Command.cat_file absolute there) rfl
  have few : 7 ≤ machine.limits.actions := by omega
  have ran := walks.run compiled commands few
  rw [left] at ran
  exact ran

/-- A copy of a file that `cat` is given to read. -/
theorem run_input (named : name.Means "cat") (reads : source.Means file)
    (writes : target.Means copy)
    (there : machine.sandbox.files.get? (machine.sandbox.resolve file) = some stored)
    (undefined : machine.sandbox.functions.get? "cat" = none)
    (commands : machine.commands = Command.standard) (room : 9 ≤ machine.limits.actions) :
    (run (.command [name, .redirect .input source read, .redirect .output target at_] span)).run
        machine =
      (.ok (), machine.finished (machine.sandbox.filed (machine.sandbox.resolve copy)
        (Sandbox.line (Command.withoutNewline stored.text))) 8) := by
  have collected : Redirects.collect [name, .redirect .input source read,
      .redirect .output target at_] = .ok ⟨some 1, some (2, false)⟩ := by
    obtain ⟨_, _, _, _, rfl, _⟩ := named
    obtain ⟨_, _, _, _, rfl, _⟩ := reads
    obtain ⟨_, _, _, _, rfl, _⟩ := writes
    rfl
  have plain : ∀ part ∈ [.redirect .input source read, .redirect .output target at_],
      Compilation.Plain part := by
    simp only [List.forall_mem_cons]
    exact ⟨.inr ⟨_, _, _, _, rfl, reads⟩, .inr ⟨_, _, _, _, rfl, writes⟩, nofun⟩
  have compiled := Compilation.compile_plain machine.setting span named plain collected
    ⟨machine.sandbox.functions, #[], machine.operator⟩
  let start := machine.sandbox.clearOutput.clearInput
  have words : words (start.capturing stored.text).vars [name, .redirect .input source read,
      .redirect .output target at_] = ["cat"] := by
    rw [words_means named]
    rfl
  have held : #[[name, .redirect .input source read, .redirect .output target at_]][0]? =
      some [name, .redirect .input source read, .redirect .output target at_] := rfl
  have opens : Walks ω η #[[name, .redirect .input source read, .redirect .output target at_]]
      (Redirects.opening ⟨some 1, some (2, false)⟩ 0 "command") start
      (start.capturing stored.text) :=
    .cons (.change rfl rfl) (.cons (.read held rfl reads there rfl) .nil)
  obtain ⟨after, walks, left⟩ := Walks.captured _ 0 2 rfl held rfl writes opens words undefined
    (Command.cat_input _) rfl
  have few : 8 ≤ machine.limits.actions := by omega
  have ran := walks.run compiled commands few
  rw [left] at ran
  exact ran

omit [Host η] in
/-- Two commands with a pipe between them. -/
theorem compile_piped {setting : Compilation.Setting} {one two : Node} (sign span : Span)
    {before between after : Compilation ω} {early late : List Action}
    (ordinary : one.pipeSign = none)
    (other : two.pipeSign = none)
    (compiled : (one.compile setting).run before = (.ok early, between))
    (behind : (two.compile setting).run between = (.ok late, after)) :
    ((Node.pipeline [one, .pipe "|" sign, two] span).compile setting).run before =
      (.ok (early ++ .plain .pipe "pipeline transfer" :: late), after) := by
  rw [Node.compile, Node.compilePipeline_eq, Node.compileEach, ordinary]
  dsimp only
  rw [run_bind_of_ok compiled, Node.compileEach, Node.pipeSign, Node.compileEach, other]
  simp only [Node.compileEach, bind_assoc, pure_bind, List.nil_append, List.append_nil]
  rw [run_bind_of_ok behind]
  rfl

/-- A copy of a file that one `cat` hands to another. -/
theorem run_piped (named : name.Means "cat") (reads : source.Means file)
    (renamed : again.Means "cat") (writes : target.Means copy)
    (absolute : file.toList.head? = some '/')
    (there : machine.sandbox.files.get? (machine.sandbox.resolve file) = some stored)
    (undefined : machine.sandbox.functions.get? "cat" = none)
    (commands : machine.commands = Command.standard) (room : 9 ≤ machine.limits.actions) :
    (run (.pipeline [.command [name, source] first, .pipe "|" sign,
        .command [again, .redirect .output target at_] second] span)).run machine =
      (.ok (), machine.finished (machine.sandbox.filed (machine.sandbox.resolve copy)
        (Sandbox.line (Command.withoutNewline (Command.withoutNewline stored.text)))) 9) := by
  have collected : Redirects.collect [name, source] = .ok .none := by
    obtain ⟨_, _, _, _, rfl, _⟩ := named
    obtain ⟨_, _, _, _, rfl, _⟩ := reads
    rfl
  have recollected : Redirects.collect [again, .redirect .output target at_] =
      .ok ⟨.none, some (1, false)⟩ := by
    obtain ⟨_, _, _, _, rfl, _⟩ := renamed
    obtain ⟨_, _, _, _, rfl, _⟩ := writes
    rfl
  have plain : ∀ part ∈ [source], Compilation.Plain part :=
    List.forall_mem_singleton.mpr (.inl ⟨_, reads⟩)
  have simple : ∀ part ∈ [.redirect .output target at_], Compilation.Plain part :=
    List.forall_mem_singleton.mpr (.inr ⟨_, _, _, _, rfl, writes⟩)
  have compiled := compile_piped sign span rfl rfl
    (Compilation.compile_plain machine.setting first named plain collected
      ⟨machine.sandbox.functions, #[], machine.operator⟩)
    (Compilation.compile_plain machine.setting second renamed simple recollected _)
  let start := machine.sandbox.clearOutput.clearInput
  let text := Command.withoutNewline stored.text
  let piped : Sandbox := { start with io := { start.io with input := text } }
  have words : words start.vars [name, source] = ["cat", file] := by
    rw [words_means named, words_means reads]
    rfl
  have rewords : Machine.words piped.beginCapture.vars [again, .redirect .output target at_] =
      ["cat"] := by
    rw [words_means renamed]
    rfl
  have written : { (start.write text).write "" with
      io := ((start.write text).write "").io.transfer } = piped := by
    simp [Sandbox.write, Socket.write, Socket.transfer, piped, start, Sandbox.clearOutput,
      Sandbox.clearInput]
  have early : Walks ω η #[[name, source], [again, .redirect .output target at_]]
      [Compilation.calling 0 [name, source] first, .plain .pipe "pipeline transfer"] start piped :=
    .cons (.cat rfl words undefined (Command.cat_file absolute there) rfl)
      (.cons (.change rfl written) .nil)
  have held : #[[name, source], [again, .redirect .output target at_]][1]? =
      some [again, .redirect .output target at_] := rfl
  have opens : Walks ω η #[[name, source], [again, .redirect .output target at_]]
      (Redirects.opening ⟨.none, some (1, false)⟩ 1 "command") piped piped.beginCapture :=
    .cons (.change rfl rfl) .nil
  obtain ⟨after, late, left⟩ := Walks.captured _ 1 1 rfl held rfl writes opens rewords undefined
    (Command.cat_input _) rfl
  have ran := (early.append late).run compiled commands room
  rw [left] at ran
  exact ran

end

/-- A copy comes to success, and leaves nothing different but a file. -/
theorem run_copy {contents : String} {node : Node} {way : Copying}
    (form : way.Form file copy node) (absolute : file.toList.head? = some '/')
    (held : machine.sandbox.files.text? (machine.sandbox.resolve file) = some contents)
    (undefined : machine.sandbox.functions.get? "cat" = none)
    (commands : machine.commands = Command.standard) (room : 9 ≤ machine.limits.actions) :
    ∃ ticks, (run node).run machine = (.ok (), machine.finished
      (machine.sandbox.filed (machine.sandbox.resolve copy) (way.copied contents)) ticks) := by
  obtain ⟨stored, there, text⟩ := Option.bind_eq_some_iff.mp held
  obtain rfl : stored.text = contents := by rw [File.text, text, Option.getD_some]
  cases form with
  | argument named reads writes =>
    exact ⟨7, run_argument named reads writes absolute there undefined commands room⟩
  | input named reads writes =>
    exact ⟨8, run_input named reads writes there undefined commands room⟩
  | pipe named reads called writes =>
    exact ⟨9, run_piped named reads called writes absolute there undefined commands room⟩

theorem runText_single {script : String} {node : Node} {after : Machine ω η}
    (parsed : Script.parse script = .ok [node]) (ran : (run node).run machine = (.ok (), after)) :
    (runText script).run machine = (.ok (), after) := by
  rw [runText, parsed]
  dsimp only
  rw [runAll, run_bind_of_ok ran]
  rfl

/-- The copy of a file: it has these contents, and nothing else is different. -/
structure Copied (before after : Sandbox) (path contents : String) : Prop where
  contents : after.files.text? path = some contents
  others : ∀ other, other ≠ path → after.files.get? other = before.files.get? other
  vars : after.vars = before.vars
  screen : after.screen = before.screen

theorem filed_copied (sandbox : Sandbox) (path contents : String) :
    Copied sandbox (sandbox.filed path contents) path contents := by
  refine ⟨?_, fun other apart => ?_, rfl, rfl⟩
  · change ((sandbox.files.write path contents).get? path).bind File.contents = some contents
    rw [FileTable.get?_write, if_pos rfl]
    rfl
  · change (sandbox.files.write path contents).get? other = sandbox.files.get? other
    rw [FileTable.get?_write, if_neg apart]

/-- Whichever way a text is copied that ends in a newline, the copy comes to success and touches
nothing but the target. The target has the text exactly if something stands before the newline, and
no second newline where two calls of `cat` each drop one. -/
theorem copies_exactly_iff (way : Copying) {source target text : String}
    (reads : Denotes source file) (writes : Denotes target copy)
    (absolute : file.toList.head? = some '/')
    (held : machine.sandbox.files.text? (machine.sandbox.resolve file) = some (text ++ "\n"))
    (undefined : machine.sandbox.functions.get? "cat" = none)
    (commands : machine.commands = Command.standard) (room : 9 ≤ machine.limits.actions) :
    ∃ last, (runText (way.script source target)).run machine = (.ok (), last) ∧
      Copied machine.sandbox last.sandbox (machine.sandbox.resolve copy)
        (way.copied (text ++ "\n")) ∧
      (Copied machine.sandbox last.sandbox (machine.sandbox.resolve copy) (text ++ "\n") ↔
        way.Keeps text) := by
  obtain ⟨node, parsed, form⟩ := way.parse_script reads writes
  obtain ⟨ticks, ran⟩ := run_copy form absolute held undefined commands room
  have copied := filed_copied machine.sandbox (machine.sandbox.resolve copy)
    (way.copied (text ++ "\n"))
  refine ⟨_, runText_single parsed ran, copied, ?_⟩
  rw [← way.copied_eq_iff]
  constructor
  · intro whole
    exact Option.some.inj (copied.contents.symm.trans whole.contents)
  · intro same
    rw [same] at copied ⊢
    exact copied

/-- A text of two lines, the path of which has to be quoted. -/
theorem copies_exactly_iff_lines :
    let machine : Machine Absent Disabled := { fresh with
      sandbox := fresh.sandbox.createFile "/my notes" "a\nb\n" standardPermissions }
    ∃ last, (runText "cat \"/my notes\" | cat > /copy").run machine = (.ok (), last) ∧
      Copied machine.sandbox last.sandbox "/copy" (Copying.pipe.copied "a\nb\n") ∧
      (Copied machine.sandbox last.sandbox "/copy" "a\nb\n" ↔ Copying.pipe.Keeps "a\nb") := by
  intro machine
  have quoted : Word.quote (Word.protect "/my notes") = "\"/my notes\"" := by decide +kernel
  have bare : Word.quote (Word.protect "/copy") = "/copy" := by decide +kernel
  have reads : Denotes "\"/my notes\"" "/my notes" := quoted ▸ denotes_quote "/my notes"
  have writes : Denotes "/copy" "/copy" := bare ▸ denotes_quote "/copy"
  have held : machine.sandbox.files.text? (machine.sandbox.resolve "/my notes") =
      some ("a\nb" ++ "\n") := by decide +kernel
  have place : machine.sandbox.resolve "/copy" = "/copy" := by decide +kernel
  have undefined : machine.sandbox.functions.get? "cat" = none := by decide +kernel
  have copies := copies_exactly_iff .pipe reads writes (by decide) held undefined rfl (by decide)
  rwa [place] at copies

/-- A file with nothing but a newline is copied as an empty one. -/
theorem newline_not_copied :
    let machine : Machine Absent Disabled := { fresh with
      sandbox := fresh.sandbox.createFile "/f" "\n" standardPermissions }
    ∃ last, (runText "cat /f > /g").run machine = (.ok (), last) ∧
      last.sandbox.files.text? "/f" = some "\n" ∧ last.sandbox.files.text? "/g" = some "" ∧
      ¬ Copied machine.sandbox last.sandbox "/g" "\n" := by
  intro machine
  have empty : ((runText "cat /f > /g").run machine).2.sandbox.files.text? "/g" = some "" := by
    decide +kernel
  refine ⟨_, run_eq_of_isOk (by decide +kernel), by decide +kernel, empty, fun copied => ?_⟩
  exact absurd (Option.some.inj (empty.symm.trans copied.contents)) (by decide)

end Machine

end StepShell

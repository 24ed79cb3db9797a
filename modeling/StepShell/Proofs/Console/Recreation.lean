import StepShell.Command.Standard
import StepShell.Proofs.Console.Settings

/-! The lines of settings that a session writes, imported by another console. They bring back what
they say as long as every part of them is read as it was meant. -/

namespace StepShell

theorem Settable.Stored.createFile {sandbox : Sandbox} {file : File}
    (stored : Settable.Stored sandbox.workingDir file) :
    sandbox.createFile file.name file.text file.permissions =
      { sandbox with files := sandbox.files.store file } := by
  obtain ⟨contents, held⟩ := Option.isSome_iff_exists.mp stored.held
  rw [Sandbox.createFile, Sandbox.resolve, stored.resolved, File.text, held, Option.getD_some,
    ← held]

namespace Session

variable {ω η : Type}

/-- A session whose settings can all be said by lines. -/
structure Expressible (session : Session ω η) : Prop where
  aliases : ∀ entry ∈ session.aliases.entries, Settable.Alias entry.1 entry.2
  input : Settable.Verbatim session.sandbox.io.input
  output : Settable.Verbatim session.sandbox.io.output
  directory : Settable.Directory session.sandbox.workingDir
  vars : ∀ entry ∈ session.sandbox.vars.entries, Settable.Variable entry.1 entry.2
  files : ∀ file ∈ session.sandbox.files.list,
    Settable.Stored session.sandbox.workingDir file
  truths : ∀ entry ∈ session.sandbox.truths.entries, Settable.Decided entry.1 entry.2

instance (session : Session ω η) : Decidable session.Expressible :=
  decidable_of_iff ((∀ entry ∈ session.aliases.entries, Settable.Alias entry.1 entry.2) ∧
    Settable.Verbatim session.sandbox.io.input ∧ Settable.Verbatim session.sandbox.io.output ∧
    Settable.Directory session.sandbox.workingDir ∧
    (∀ entry ∈ session.sandbox.vars.entries, Settable.Variable entry.1 entry.2) ∧
    (∀ file ∈ session.sandbox.files.list, Settable.Stored session.sandbox.workingDir file) ∧
    ∀ entry ∈ session.sandbox.truths.entries, Settable.Decided entry.1 entry.2)
    ⟨fun all => ⟨all.1, all.2.1, all.2.2.1, all.2.2.2.1, all.2.2.2.2.1, all.2.2.2.2.2.1,
        all.2.2.2.2.2.2⟩,
      fun expressible => ⟨expressible.aliases, expressible.input, expressible.output,
        expressible.directory, expressible.vars, expressible.files, expressible.truths⟩⟩

/-- The lines of another session leave nothing of this one: there is nothing to read or written, no
alias, variable, file or decided condition that the other does not have. -/
structure Within (session other : Session ω η) : Prop where
  aliases : ∀ name, session.aliases.contains name → other.aliases.contains name
  input : other.sandbox.io.input = "" → session.sandbox.io.input = ""
  output : other.sandbox.io.output = "" → session.sandbox.io.output = ""
  vars : ∀ name, session.sandbox.vars.contains name → other.sandbox.vars.contains name
  files : ∀ path, session.sandbox.files.contains path → other.sandbox.files.contains path
  truths : ∀ condition, session.sandbox.truths.contains condition →
    other.sandbox.truths.contains condition

/-- A session that was just created with nothing in its sandbox. -/
theorem Within.of_empty {session other : Session ω η} {directory : String}
    (aliases : session.aliases = Table.empty)
    (sandbox : session.sandbox = Sandbox.startingIn directory) : session.Within other where
  aliases _ bound := by
    rw [aliases] at bound
    cases bound
  input _ := by
    rw [sandbox]
    rfl
  output _ := by
    rw [sandbox]
    rfl
  vars _ bound := by
    rw [sandbox] at bound
    cases bound
  files _ there := by
    rw [sandbox] at there
    cases there
  truths _ bound := by
    rw [sandbox] at bound
    cases bound

/-- The session with the settings of another one. -/
def withSettings (session other : Session ω η) : Session ω η :=
  { session.withSandbox fun sandbox =>
      { sandbox with
        io := { sandbox.io with
          input := other.sandbox.io.input
          output := other.sandbox.io.output }
        workingDir := other.sandbox.workingDir
        vars := other.sandbox.vars
        files := other.sandbox.files
        truths := other.sandbox.truths } with
    aliases := other.aliases
    recording := other.recording }

/-- If a change for each entry of a table puts it into the table that a session holds, the session
holds the table in the end. -/
theorem foldl_entries {α : Type} (table : Table α) {before : Table α}
    (bound : ∀ key, before.contains key → table.contains key) (holding : Table α → Session ω η)
    {change : String × α → Session ω η → Session ω η}
    (put : ∀ table entry, change entry (holding table) = holding (table.insert entry.1 entry.2)) :
    table.entries.foldl (fun session entry => change entry session) (holding before) =
      holding table := by
  have filled := congrArg holding (table.foldl_insert_entries bound)
  rw [← filled]
  exact List.foldl_hom holding fun table entry => put table entry

theorem foldl_aliases {session : Session ω η} {aliases : Table String}
    (bound : ∀ name, session.aliases.contains name → aliases.contains name) :
    aliases.entries.foldl (fun session entry =>
      { session with aliases := session.aliases.insert entry.1 entry.2 }) session =
      { session with aliases } :=
  foldl_entries aliases bound (fun aliases => { session with aliases }) fun _ _ => rfl

theorem foldl_vars {session : Session ω η} {vars : Variables}
    (bound : ∀ name, session.sandbox.vars.contains name → vars.contains name) :
    vars.entries.foldl (fun session entry => session.withSandbox fun sandbox =>
      { sandbox with vars := sandbox.vars.insert entry.1 entry.2 }) session =
      session.withSandbox fun sandbox => { sandbox with vars } :=
  foldl_entries vars bound (fun vars => session.withSandbox fun sandbox => { sandbox with vars })
    fun _ _ => rfl

theorem foldl_truths {session : Session ω η} {truths : Table Bool}
    (bound : ∀ condition, session.sandbox.truths.contains condition →
      truths.contains condition) :
    truths.entries.foldl (fun session entry =>
      session.withSandbox (·.withTruth entry.1 entry.2)) session =
      session.withSandbox fun sandbox => { sandbox with truths } :=
  foldl_entries truths bound
    (fun truths => session.withSandbox fun sandbox => { sandbox with truths }) fun _ _ => rfl

/-- Nothing is missing where an empty text would change nothing. -/
theorem unless_empty {before after : Session ω η} {text : String}
    (empty : text = "" → after = before) : (if text.isEmpty then before else after) = after := by
  split
  · rename_i none
    exact (empty (String.isEmpty_iff.mp none)).symm
  · rfl

theorem stdin_same {session : Session ω η} {text : String}
    (same : session.sandbox.io.input = text) : (stdin (some text) session).2 = session := by
  subst same
  rfl

theorem stdout_same {session : Session ω η} {text : String}
    (same : session.sandbox.io.output = text) : (stdout (some text) session).2 = session := by
  subst same
  rfl

/-- Files that are named in full in the directory they are created in. -/
theorem foldl_createFile {session : Session ω η} {list : List File}
    (stored : ∀ file ∈ list, Settable.Stored session.sandbox.workingDir file) :
    list.foldl (fun session file => session.withSandbox fun sandbox =>
      sandbox.createFile file.name file.text file.permissions) session =
      session.withSandbox fun sandbox =>
        { sandbox with files := list.foldl FileTable.store sandbox.files } := by
  induction list generalizing session with
  | nil => rfl
  | cons file list ih =>
    obtain ⟨first, later⟩ := List.forall_mem_cons.mp stored
    have created : (session.withSandbox fun sandbox =>
        sandbox.createFile file.name file.text file.permissions) =
        session.withSandbox fun sandbox =>
          { sandbox with files := sandbox.files.store file } :=
      congrArg (fun sandbox => session.withSandbox fun _ => sandbox) first.createFile
    rw [List.foldl_cons, created]
    exact ih later

theorem foldl_files {session : Session ω η} {files : FileTable}
    (stored : ∀ file ∈ files.list, Settable.Stored session.sandbox.workingDir file)
    (there : ∀ path, session.sandbox.files.contains path → files.contains path) :
    files.list.foldl (fun session file => session.withSandbox fun sandbox =>
      sandbox.createFile file.name file.text file.permissions) session =
      session.withSandbox fun sandbox => { sandbox with files } := by
  rw [foldl_createFile stored]
  exact congrArg (fun files => session.withSandbox fun sandbox => { sandbox with files })
    (files.foldl_store_list there)

/-- Every line of settings stays one line. -/
theorem Expressible.isLine {session : Session ω η} (expressible : session.Expressible)
    {line : String} (member : line ∈ session.configLines) :
    Text.IsLine line.toList ∧ line ≠ "" := by
  have colon : Text.IsLine ":".toList := .of_all ":" rfl
  have verbatim : ∀ text, Settable.Verbatim text → Text.IsLine text.toList :=
    fun _ settable => .of_trimmed settable.newline (Text.trim_eq_self_iff.mp settable.trimmed)
  have field : ∀ name, Settable.Field name → Text.IsLine name.toList :=
    fun _ field => Line.isLine_of_bare fun c member => (field c member).1
  simp only [Session.configLines, List.mem_append, List.mem_map, List.mem_ite_nil_left,
    List.mem_singleton] at member
  obtain ((((((⟨entry, among, rfl⟩ | ⟨_, rfl⟩) | ⟨_, rfl⟩) | rfl) | ⟨entry, among, rfl⟩) |
    ⟨file, among, rfl⟩) | ⟨entry, among, rfl⟩) | rfl := member
  · obtain ⟨bare, _, _, spaced⟩ := expressible.aliases entry among
    refine ⟨?_, by simp⟩
    exact (((Text.IsLine.of_all "alias " rfl).join (Line.isLine_of_bare bare.2)).join
      (Text.IsLine.of_all " " rfl)).join spaced.isLine
  · exact ⟨(Text.IsLine.of_all "stdin " rfl).join (verbatim _ expressible.input), by simp⟩
  · exact ⟨(Text.IsLine.of_all "stdout " rfl).join (verbatim _ expressible.output), by simp⟩
  · exact ⟨(Text.IsLine.of_all "dir " rfl).join expressible.directory.spaced.isLine, by simp⟩
  · obtain ⟨named, _, newline⟩ := expressible.vars entry among
    refine ⟨?_, by simp⟩
    exact (((Text.IsLine.of_all "var " rfl).join (field _ named)).join colon).join
      (Line.isLine_quote newline)
  · obtain ⟨named, _, _, newline, _, permissions⟩ := expressible.files file among
    refine ⟨?_, by simp⟩
    exact (((((Text.IsLine.of_all "fs " rfl).join (field _ named)).join colon).join
      (Line.isLine_quote newline)).join colon).join (Line.isLine_of_bare permissions)
  · obtain ⟨newline, trimmed, _⟩ := expressible.truths entry among
    have condition := Text.IsLine.of_trimmed newline (Text.trim_eq_self_iff.mp trimmed)
    have value : Text.IsLine (Session.truthName entry.2).toList := by
      cases entry.2 <;> exact .of_all _ rfl
    exact ⟨(((Text.IsLine.of_all "truth " rfl).join condition).join colon).join value, by simp⟩
  · refine ⟨(Text.IsLine.of_all "history " rfl).join ?_, by simp⟩
    cases session.recording <;> exact .of_all _ rfl

/-- The lines of settings are read back from their text, whether or not a newline ends it. -/
theorem Expressible.lines {session : Session ω η} (expressible : session.Expressible)
    {ending : String} (ended : ending = "" ∨ ending = "\n") :
    Text.lines (session.configText ++ ending) = session.configLines :=
  Text.lines_intercalate (List.append_ne_nil_of_right_ne_nil _ (List.cons_ne_nil _ _))
    (fun _ member => expressible.isLine member) ended

end Session

namespace Console

variable {ω η : Type} {m : Type → Type} [Monad m] [LawfulMonad m] [Operator ω] [Host η]
  [HostFiles m]

/-- The lines that a session writes, if they can say what they mean. -/
theorem run_configLines {session : Session ω η} (expressible : session.Expressible)
    (importing : String → ConsoleStep ω η m Unit) {console : Console ω η}
    (within : console.session.Within session) :
    (importLines importing session.configLines).run.run console =
      pure (.ok (), { console with session := console.session.withSettings session }) := by
  have aliases : Carries m _ fun receiver : Session ω η => _ :=
    .map fun entry member => carries_alias (expressible.aliases entry member)
  have vars : Carries m _ fun receiver : Session ω η => _ :=
    .map fun entry member => carries_variable (expressible.vars entry member)
  have files : Carries m _ fun receiver : Session ω η => _ :=
    .map fun file member => carries_file (expressible.files file member)
  have truths : Carries m _ fun receiver : Session ω η => _ :=
    .map fun entry member => carries_truth (expressible.truths entry member)
  simp only [Session.configLines, List.append_assoc]
  refine (aliases.next (Session.foldl_aliases within.aliases) importing console).trans ?_
  refine ((carries_stdin expressible.input).next (Session.unless_empty fun none =>
    Session.stdin_same (by exact (within.input none).trans none.symm)) importing console).trans ?_
  refine ((carries_stdout expressible.output).next (Session.unless_empty fun none =>
    Session.stdout_same (by exact (within.output none).trans none.symm)) importing console).trans ?_
  refine ((carries_dir expressible.directory).next rfl importing console).trans ?_
  refine (vars.next (Session.foldl_vars (by exact within.vars)) importing console).trans ?_
  refine (files.next (Session.foldl_files (by exact expressible.files) (by exact within.files))
    importing console).trans ?_
  refine (truths.next (Session.foldl_truths (by exact within.truths)) importing console).trans ?_
  exact carries_history session.recording importing _

variable {session : Session ω η}

/-- Importing the settings that a session wrote to a file gives another console the settings of the
session. -/
theorem importFile_recreates {console : Console ω η} {disk : Disk} {path ending : String}
    (expressible : session.Expressible) (within : console.session.Within session)
    (ended : ending = "" ∨ ending = "\n")
    (held : disk.read? path = some (session.configText ++ ending)) (depth : Nat) :
    ((importFile (depth + 1) path : ConsoleStep ω η (StateM Disk) Unit).run.run console).run disk =
      ((.ok (), { console with session := console.session.withSettings session }), disk) := by
  have found : (HostFiles.isFile path : StateM Disk Bool).run disk = pure (true, disk) := by
    change ((disk.read? path).isSome, disk) = (true, disk)
    rw [held]
    rfl
  have read : (HostFiles.read path : StateM Disk (Option String)).run disk =
      pure (some (session.configText ++ ending), disk) :=
    congrArg (fun file => ((file, disk) : Option String × Disk)) held
  have lines := expressible.lines ended
  have mode : session.configLines.any setsHistory = true :=
    List.any_eq_true.mpr ⟨_, List.mem_append_right _ (.head _), setsHistory_mode _⟩
  have imported : ((importLines (importFile depth) session.configLines :
      ConsoleStep ω η (StateM Disk) Unit).run.run
        { console with session := { console.session with recording := false } }) = _ :=
    run_configLines expressible (importFile depth) { within with }
  rw [importFile]
  simp only [run_bind, run_lift, readOrFail, run_get, run_tryCatch, setRecording, run_modify,
    run_pure, StateT.run_bind, StateT.run_pure, found, read, pure_bind, lines, imported, mode,
    Bool.not_true, Bool.false_eq_true, if_false]
  rfl

/-- A console that imports the settings of a session has them from then on, if the settings can all
be said by lines and leave nothing of its own. -/
theorem settings_recreated {console : Console ω η} {disk : Disk} {path ending : String}
    (expressible : session.Expressible) (within : console.session.Within session)
    (ended : ending = "" ∨ ending = "\n")
    (held : disk.read? path = some (session.configText ++ ending)) (depth : Nat) :
    ∃ recreated : Session ω η,
      ((importFile (depth + 1) path : ConsoleStep ω η (StateM Disk) Unit).run.run console).run
        disk = ((.ok (), { console with session := recreated }), disk) ∧
      recreated.aliases = session.aliases ∧
      recreated.sandbox.io.input = session.sandbox.io.input ∧
      recreated.sandbox.io.output = session.sandbox.io.output ∧
      recreated.sandbox.workingDir = session.sandbox.workingDir ∧
      (∀ name, recreated.sandbox.value? name = session.sandbox.value? name) ∧
      recreated.sandbox.files = session.sandbox.files ∧
      recreated.sandbox.truths = session.sandbox.truths ∧
      recreated.recording = session.recording :=
  ⟨console.session.withSettings session,
    importFile_recreates expressible within ended held depth,
    rfl, rfl, rfl, rfl, fun _ => rfl, rfl, rfl, rfl⟩

/-- A console that was just started, without settings. -/
def opened : Console Absent Disabled :=
  create (.create (.create Sandbox.empty Command.standard {} {} {})) none none

/-- A console and its disk after lines, whatever came of each. -/
def afterLines (lines : List String) (before : Console Absent Disabled × Disk) :
    Console Absent Disabled × Disk :=
  lines.foldl (fun before line =>
    let done := ((execute line : ConsoleStep Absent Disabled (StateM Disk) Outcome).run.run
      before.1).run before.2
    (done.1.2, done.2)) before

/-- A console with settings of every kind that were written to a file. -/
def settled : Console Absent Disabled × Disk :=
  afterLines ["alias n next -p", "stdin some input", "stdout some: output", "dir /srv/in",
    "var greeting:'it is  \"so\"' q:it\\'s", "fs motd:'be nice, #1':r--r--r-- /e:",
    "truth [ -d /tmp ]:true", "history off", "env -e exported"] (opened, default)

theorem settings_recreated_settled :
    settled.1.session.sandbox.vars.size = 2 ∧
      let imported := ((importFile 1 "exported" :
        ConsoleStep Absent Disabled (StateM Disk) Unit).run.run opened).run settled.2
      imported.1.2.session.sandbox.files = settled.1.session.sandbox.files ∧
        imported.1.2.session.recording = false := by
  have expressible : settled.1.session.Expressible := by decide +kernel
  have held : settled.2.read? "exported" = some (settled.1.session.configText ++ "\n") := by
    decide +kernel
  have within : opened.session.Within settled.1.session := .of_empty rfl rfl
  obtain ⟨recreated, imported, _, _, _, _, _, files, _, recording⟩ :=
    settings_recreated expressible within (.inr rfl) held 0
  rw [imported]
  exact ⟨by decide +kernel, files, recording.trans (by decide +kernel)⟩

/-- What a script writes ends with a newline, which its line of settings does not keep. -/
theorem newline_not_recreated :
    let written := afterLines ["run echo hi > notes", "env -e exported"] (opened, default)
    let recreated := afterLines ["env exported"] (opened, written.2)
    written.2.read? "exported" = some (written.1.session.configText ++ "\n") ∧
      written.1.session.sandbox.files.text? "~/notes" = some "hi\n" ∧
      recreated.1.session.sandbox.files.text? "~/notes" = some "hi" := by
  decide +kernel

end Console

end StepShell

import StepShell.Proofs.Console.Runs
import StepShell.Proofs.Console.Words
import StepShell.Proofs.Text.Lines

/-! What a line of settings can say of a session, and what it does when it is carried out. A line is
read like any other, so what it says must not be taken for flags, for blanks that only keep words
apart, for quotes, for colons or for the end of the line. -/

namespace StepShell

namespace Settable

/-- An alias that is defined by a line. -/
structure Alias (name text : String) : Prop where
  bare : Line.IsBareWord name
  unflagged : Line.isFlags name.toList = false
  free : name ∉ Console.requests
  spaced : Line.Spaced text

instance (name text : String) : Decidable (Alias name text) :=
  decidable_of_iff (Line.IsBareWord name ∧ Line.isFlags name.toList = false ∧
    name ∉ Console.requests ∧ Line.Spaced text)
    ⟨fun all => ⟨all.1, all.2.1, all.2.2.1, all.2.2.2⟩,
      fun settable => ⟨settable.bare, settable.unflagged, settable.free, settable.spaced⟩⟩

/-- A text that a line takes as it is. -/
structure Verbatim (text : String) : Prop where
  newline : '\n' ∉ text.toList
  trimmed : Text.trim text = text
  unflagged : Line.Unflagged text

instance (text : String) : Decidable (Verbatim text) :=
  decidable_of_iff ('\n' ∉ text.toList ∧ Text.trim text = text ∧ Line.Unflagged text)
    ⟨fun all => ⟨all.1, all.2.1, all.2.2⟩,
      fun settable => ⟨settable.newline, settable.trimmed, settable.unflagged⟩⟩

/-- A directory that a line names. -/
structure Directory (path : String) : Prop where
  spaced : Line.Spaced path
  unflagged : Line.Unflagged path

instance (path : String) : Decidable (Directory path) :=
  decidable_of_iff (Line.Spaced path ∧ Line.Unflagged path)
    ⟨fun all => ⟨all.1, all.2⟩, fun settable => ⟨settable.spaced, settable.unflagged⟩⟩

/-- A name that a colon follows. -/
def Field (name : String) : Prop :=
  ∀ c ∈ name.toList, Line.isBare c ∧ c ≠ ':'

instance (name : String) : Decidable (Field name) :=
  decidable_of_iff (name.toList.all fun c => Line.isBare c && c != ':') (by simp [Field])

/-- A variable that a line binds. -/
structure Variable (name : String) (values : List String) : Prop where
  field : Field name
  single : values.length = 1
  newline : '\n' ∉ (" ".intercalate values).toList

instance (name : String) (values : List String) : Decidable (Variable name values) :=
  decidable_of_iff (Field name ∧ values.length = 1 ∧ '\n' ∉ (" ".intercalate values).toList)
    ⟨fun all => ⟨all.1, all.2.1, all.2.2⟩,
      fun settable => ⟨settable.field, settable.single, settable.newline⟩⟩

/-- A file that a line creates in a directory. -/
structure Stored (directory : String) (file : File) : Prop where
  field : Field file.name
  resolved : Path.resolve directory file.name = file.name
  held : file.contents.isSome
  newline : '\n' ∉ file.text.toList
  colon : ':' ∉ file.text.toList
  permissions : ∀ c ∈ file.permissions.toList, Line.isBare c

instance (directory : String) (file : File) : Decidable (Stored directory file) :=
  decidable_of_iff (Field file.name ∧ Path.resolve directory file.name = file.name ∧
    file.contents.isSome ∧ '\n' ∉ file.text.toList ∧ ':' ∉ file.text.toList ∧
    file.permissions.toList.all Line.isBare)
    ⟨fun all => ⟨all.1, all.2.1, all.2.2.1, all.2.2.2.1, all.2.2.2.2.1,
        List.all_eq_true.mp all.2.2.2.2.2⟩,
      fun settable => ⟨settable.field, settable.resolved, settable.held, settable.newline,
        settable.colon, List.all_eq_true.mpr settable.permissions⟩⟩

/-- A condition that a line decides. -/
structure Decided (condition : String) (value : Bool) : Prop where
  newline : '\n' ∉ condition.toList
  trimmed : Text.trim condition = condition
  unflagged : Line.Unflagged (condition ++ ":" ++ Session.truthName value)

instance (condition : String) (value : Bool) : Decidable (Decided condition value) :=
  decidable_of_iff ('\n' ∉ condition.toList ∧ Text.trim condition = condition ∧
    Line.Unflagged (condition ++ ":" ++ Session.truthName value))
    ⟨fun all => ⟨all.1, all.2.1, all.2.2⟩,
      fun settable => ⟨settable.newline, settable.trimmed, settable.unflagged⟩⟩

end Settable

namespace Console

variable {ω η : Type} {m : Type → Type} [Monad m] [LawfulMonad m] [Operator ω] [Host η]
  [HostFiles m]

theorem bare_of_mem_requests {name : String} (known : name ∈ requests) :
    Line.IsBareWord name ∧ name.toList.head? ≠ some '#' := by
  have all : ∀ name ∈ requests, Line.IsBareWord name ∧ name.toList.head? ≠ some '#' := by
    decide
  exact all name known

/-- A line of a request and a text without flags. -/
theorem Carries.of_request (name text : String) {line : String}
    {change : Session ω η → Session ω η} (written : line = name ++ " " ++ text)
    (known : name ∈ requests) (unflagged : Line.Unflagged text)
    (requested : ∀ (importing : String → ConsoleStep ω η m Unit) (console : Console ω η),
      ∃ outcome, (request importing ⟨name, [], Line.readWords text, Text.trim text,
        " " ++ text⟩).run.run console =
          pure (.ok outcome, { console with session := change console.session })) :
    Carries m [line] change := by
  obtain ⟨bare, solid⟩ := bare_of_mem_requests known
  rw [written]
  exact .one (Line.parse?_append bare solid unflagged) (List.contains_iff_mem.mpr known) requested

/-- A line of a request that cannot fail. -/
theorem Carries.of_telling (name text : String) {line : String}
    (told : Session ω η → Outcome × Session ω η) (written : line = name ++ " " ++ text)
    (known : name ∈ requests) (unflagged : Line.Unflagged text)
    (requested : ∀ importing : String → ConsoleStep ω η m Unit,
      request importing ⟨name, [], Line.readWords text, Text.trim text, " " ++ text⟩ =
        telling told) :
    Carries m [line] fun session => (told session).2 :=
  .of_request name text written known unflagged fun importing console =>
    ⟨_, (congrArg (fun step => step.run.run console) (requested importing)).trans
      (run_telling told console)⟩

theorem carries_alias {name text : String} (settable : Settable.Alias name text) :
    Carries m ["alias " ++ name ++ " " ++ text] fun session : Session ω η =>
      { session with aliases := session.aliases.insert name text } := by
  obtain ⟨bare, unflagged, free, spaced⟩ := settable
  obtain ⟨word, words, each, rfl⟩ := spaced.exists_words
  have read : Line.readWords (" ".intercalate (name :: word :: words)) = name :: word :: words :=
    Line.readWords_spaced (List.forall_mem_cons.mpr ⟨bare, each⟩)
  have written : "alias " ++ name ++ " " ++ " ".intercalate (word :: words) =
      "alias" ++ " " ++ " ".intercalate (name :: word :: words) := by
    rw [String.intercalate_cons_cons, ← String.append_assoc, ← String.append_assoc]
    rfl
  refine .of_telling "alias" _ (Session.setAlias name (" ".intercalate (word :: words)))
    written (by decide) (.of_readWords read unflagged) fun importing => ?_
  rw [read]
  exact if_neg (by simpa using free)

/-- A request that takes a text as it is has a line, unless the text is empty. -/
theorem carries_text (name : String) {text : String}
    {told : Option String → Session ω η → Outcome × Session ω η} (known : name ∈ requests)
    (requested : ∀ (importing : String → ConsoleStep ω η m Unit) args rest tail,
      request importing ⟨name, [], args, rest, tail⟩ = telling (told (given rest)))
    (settable : Settable.Verbatim text) :
    Carries m (if text.isEmpty then [] else [name ++ " " ++ text]) fun session =>
      if text.isEmpty then session else (told (some text) session).2 := by
  cases empty : text.isEmpty with
  | true => exact fun _ _ => rfl
  | false =>
    refine .of_telling name text (told (some text)) rfl known settable.unflagged
      fun importing => ?_
    rw [requested, settable.trimmed, given, empty]
    rfl

theorem carries_stdin {text : String} (settable : Settable.Verbatim text) :
    Carries m (if text.isEmpty then [] else ["stdin " ++ text]) fun session : Session ω η =>
      if text.isEmpty then session else (Session.stdin (some text) session).2 :=
  carries_text "stdin" (by decide) (fun _ _ _ _ => rfl) settable

theorem carries_stdout {text : String} (settable : Settable.Verbatim text) :
    Carries m (if text.isEmpty then [] else ["stdout " ++ text]) fun session : Session ω η =>
      if text.isEmpty then session else (Session.stdout (some text) session).2 :=
  carries_text "stdout" (by decide) (fun _ _ _ _ => rfl) settable

theorem carries_dir {path : String} (settable : Settable.Directory path) :
    Carries m ["dir " ++ path] fun session : Session ω η =>
      session.withSandbox fun sandbox => { sandbox with workingDir := path } := by
  refine .of_telling "dir" path (Session.dir (some path)) rfl (by decide) settable.unflagged
    fun importing => congrArg (fun path => telling (Session.dir path)) ?_
  have written := settable.spaced.ne_empty
  obtain ⟨word, words, each, rfl⟩ := settable.spaced.exists_words
  change given (" ".intercalate (Line.readWords (" ".intercalate (word :: words)))) = _
  rw [Line.readWords_spaced each, given, if_neg (by simpa using written)]

/-- A name and a value after a colon. -/
theorem spells_field {name : String} (field : Settable.Field name) (value : String) :
    Line.SpellsWord (name ++ ":" ++ Config.quote value).toList (name ++ ":" ++ value).toList := by
  have parts : (name ++ ":" ++ Config.quote value).toList =
      name.toList ++ ([':'] ++ Config.quoteChars value.toList) := by
    simp [Config.quote]
  have colon : Line.Spells [':'] [':'] := .bare (List.forall_mem_singleton.mpr rfl)
  rw [parts]
  refine ⟨?_, by simp, fun c first => ?_⟩
  · rw [String.toList_append, String.toList_append, List.append_assoc]
    exact Line.Spells.append (.bare fun c member => (field c member).1)
      (colon.append (.quoteChars _))
  · rw [List.head?_append, Option.mem_def, Option.or_eq_some_iff] at first
    obtain found | ⟨_, found⟩ := first
    · exact (Line.isBare_iff.mp (field c (List.mem_of_mem_head? found)).1).1
    · cases found
      rfl

theorem readWords_field {name : String} (field : Settable.Field name) (value : String) :
    Line.readWords (name ++ ":" ++ Config.quote value) = [name ++ ":" ++ value] :=
  Line.readWords_one (spells_field field value)

/-- A name and a value after a colon are no flags, whatever the name begins with. -/
theorem unflagged_field {name : String} (field : Settable.Field name) (value : String) :
    Line.Unflagged (name ++ ":" ++ Config.quote value) :=
  .of_readWords (readWords_field field value) (Line.isFlags_of_colon (by simp))

theorem splitOnce_field {name : String} (field : Settable.Field name) (value : String) :
    Text.splitOnce ':' (name ++ ":" ++ value) = some (name, value) :=
  Text.splitOnce_eq (by simp) fun colon => (field _ colon).2 rfl

theorem variable_line_eq (name value : String) :
    "var " ++ name ++ ":" ++ Config.quote value =
      "var" ++ " " ++ (name ++ ":" ++ Config.quote value) := by
  rw [← String.append_assoc, ← String.append_assoc]
  rfl

/-- The line that sets a variable has one argument, whatever the value is, and it is a pair
of the name and the value. -/
theorem variable_line_read {name : String} (field : Settable.Field name) (value : String) :
    ∃ line, Line.parse? ("var " ++ name ++ ":" ++ Config.quote value) = some line ∧
      line.name = "var" ∧ line.flags = [] ∧ line.args.length = 1 ∧
      line.args.mapM (Text.splitOnce ':') = some [(name, value)] := by
  obtain ⟨bare, solid⟩ := bare_of_mem_requests (by decide : "var" ∈ requests)
  have parsed := Line.parse?_append bare solid (unflagged_field field value)
  rw [← variable_line_eq, readWords_field field] at parsed
  refine ⟨_, parsed, rfl, rfl, rfl, ?_⟩
  rw [List.mapM_cons, splitOnce_field field]
  rfl

/-- A value of two lines with quotes, blanks, backslashes and colons. -/
theorem variable_line_read_quoted :
    Settable.Field "-#a" ∧
      Config.quote "it's \\\n\"b:c\" '" = "'it'\\''s \\\n\"b:c\" '\\'''" ∧
      ∃ line, Line.parse? "var -#a:'it'\\''s \\\n\"b:c\" '\\'''" = some line ∧
        line.name = "var" ∧ line.flags = [] ∧ line.args.length = 1 ∧
        line.args.mapM (Text.splitOnce ':') = some [("-#a", "it's \\\n\"b:c\" '")] := by
  have field : Settable.Field "-#a" := by decide
  have quoted : Config.quote "it's \\\n\"b:c\" '" = "'it'\\''s \\\n\"b:c\" '\\'''" := by decide
  have read := variable_line_read field "it's \\\n\"b:c\" '"
  rw [show "var " ++ "-#a" ++ ":" ++ Config.quote "it's \\\n\"b:c\" '" =
    "var -#a:'it'\\''s \\\n\"b:c\" '\\'''" by rw [quoted]; rfl] at read
  exact ⟨field, quoted, read⟩

theorem carries_variable {name : String} {values : List String}
    (settable : Settable.Variable name values) :
    Carries m ["var " ++ name ++ ":" ++ Config.quote (" ".intercalate values)]
      fun session : Session ω η =>
        session.withSandbox fun sandbox =>
          { sandbox with vars := sandbox.vars.insert name values } := by
  obtain ⟨field, single, _⟩ := settable
  obtain ⟨value, rfl⟩ := List.length_eq_one_iff.mp single
  rw [String.intercalate_singleton]
  refine .of_telling "var" _ (Session.var [(name, value)] false) (variable_line_eq name value)
    (by decide) (unflagged_field field value) fun importing => ?_
  rw [readWords_field field]
  change var _ = _
  rw [var, List.mapM_cons, splitOnce_field field]
  rfl

/-- A file is written with its name and its contents before a colon each. -/
theorem parse?_fields {name contents : String} (named : ':' ∉ name.toList)
    (uncut : ':' ∉ contents.toList) (permissions : String) :
    NewFile.parse? (name ++ ":" ++ contents ++ ":" ++ permissions) =
      some ⟨name, contents, some permissions⟩ := by
  have first : Text.splitOnce ':' (name ++ ":" ++ contents ++ ":" ++ permissions) =
      some (name, contents ++ ":" ++ permissions) :=
    Text.splitOnce_eq (by simp) named
  have second : Text.splitOnce ':' (contents ++ ":" ++ permissions) =
      some (contents, permissions) :=
    Text.splitOnce_eq (by simp) uncut
  rw [NewFile.parse?, first]
  simp only [Option.bind_eq_bind, Option.bind_some, second]

theorem carries_file {directory : String} {file : File}
    (settable : Settable.Stored directory file) :
    Carries m ["fs " ++ file.name ++ ":" ++ Config.quote file.text ++ ":" ++ file.permissions]
      fun session : Session ω η =>
        session.withSandbox fun sandbox =>
          sandbox.createFile file.name file.text file.permissions := by
  obtain ⟨field, _, _, _, uncut, permissions⟩ := settable
  generalize file.text = contents at uncut ⊢
  have last : Line.Spells (':' :: file.permissions.toList) (':' :: file.permissions.toList) :=
    .bare (List.forall_mem_cons.mpr ⟨by decide, permissions⟩)
  have spelled := (spells_field field contents).append last
  have read : Line.readWords
      (file.name ++ ":" ++ Config.quote contents ++ ":" ++ file.permissions) =
      [file.name ++ ":" ++ contents ++ ":" ++ file.permissions] :=
    Line.readWords_one (by simpa using spelled)
  have plain : Line.isFlags (file.name ++ ":" ++ contents ++ ":" ++ file.permissions).toList =
      false :=
    Line.isFlags_of_colon (by simp)
  have written : "fs " ++ file.name ++ ":" ++ Config.quote contents ++ ":" ++ file.permissions =
      "fs" ++ " " ++ (file.name ++ ":" ++ Config.quote contents ++ ":" ++ file.permissions) := by
    simp only [← String.append_assoc]
    rfl
  have parsed := parse?_fields (fun colon => (field _ colon).2 rfl) uncut file.permissions
  refine .of_telling "fs" _ (Session.fs [⟨file.name, contents, some file.permissions⟩] false)
    written (by decide) (.of_readWords read plain) fun importing => ?_
  rw [read]
  change fs _ = _
  rw [fs, List.mapM_cons, parsed]
  rfl

/-- A condition without blanks at its ends has none before its value either. -/
theorem trim_truth {condition : String} (trimmed : Text.trim condition = condition)
    (value : Bool) :
    Text.trim (condition ++ ":" ++ Session.truthName value) =
      condition ++ ":" ++ Session.truthName value := by
  have solid := Text.solid_of_trimmed (Text.trim_eq_self_iff.mp trimmed)
  refine Text.trim_eq_self_iff.mpr (Text.trimChars_eq_self (fun c first => ?_) fun c last => ?_)
  · rw [String.append_assoc, String.toList_append, List.head?_append, Option.mem_def,
      Option.or_eq_some_iff] at first
    obtain found | ⟨_, found⟩ := first
    · exact solid c found
    · cases value <;> (cases found; rfl)
  · rw [String.toList_append, List.getLast?_append, Option.mem_def,
      Option.or_eq_some_iff] at last
    cases value <;> (cases last.resolve_right fun other => nomatch other.1; rfl)

theorem carries_truth {condition : String} {value : Bool}
    (settable : Settable.Decided condition value) :
    Carries m ["truth " ++ condition ++ ":" ++ Session.truthName value]
      fun session : Session ω η => session.withSandbox (·.withTruth condition value) := by
  obtain ⟨_, trimmed, unflagged⟩ := settable
  have written : "truth " ++ condition ++ ":" ++ Session.truthName value =
      "truth" ++ " " ++ (condition ++ ":" ++ Session.truthName value) := by
    simp only [← String.append_assoc]
    rfl
  have cut : Text.splitLast ':' (condition ++ ":" ++ Session.truthName value) =
      some (condition, Session.truthName value) :=
    Text.splitLast_eq (by simp) (by cases value <;> decide)
  have said : ["t", "true", "f", "false"].contains
      (lower (Text.trim (Session.truthName value))) = true := by
    cases value <;> decide
  have filled : (condition ++ ":" ++ Session.truthName value).isEmpty = false := by
    simp
  have decided : ∀ session : Session ω η,
      Session.decide condition (Text.trim (Session.truthName value)) session =
        (.quiet, session.withSandbox (·.withTruth condition value)) := by
    cases value <;> exact fun _ => rfl
  refine .of_request "truth" _ written (by decide) unflagged
    fun importing console => ⟨.quiet, ?_⟩
  rw [trim_truth trimmed]
  change (truth _).run.run console = _
  rw [truth, run_bind, run_showing, pure_bind]
  simp only [filled, cut, trimmed, said, Bool.not_true, Bool.false_eq_true, if_false, run_bind,
    run_telling, pure_bind, decided]
  rfl

/-- The word for whether a session records. -/
theorem readWords_mode (recording : Bool) :
    Line.readWords (if recording then "on" else "off") = [if recording then "on" else "off"] := by
  have bare : Line.IsBareWord (if recording then "on" else "off") := by
    cases recording <;> decide
  exact Line.readWords_one bare.spellsWord

theorem unflagged_mode (recording : Bool) :
    Line.Unflagged (if recording then "on" else "off") :=
  .of_readWords (readWords_mode recording) (by cases recording <;> decide)

/-- The line for whether a session records is one that a file of settings is searched for. -/
theorem setsHistory_mode (recording : Bool) :
    setsHistory ("history " ++ if recording then "on" else "off") = true := by
  obtain ⟨bare, solid⟩ := bare_of_mem_requests (by decide : "history" ∈ requests)
  have parsed := Line.parse?_append bare solid (unflagged_mode recording)
  have written : "history " ++ (if recording then "on" else "off") =
      "history" ++ " " ++ if recording then "on" else "off" := rfl
  rw [setsHistory, written, parsed, readWords_mode]
  rfl

theorem carries_history (recording : Bool) :
    Carries m ["history " ++ if recording then "on" else "off"]
      fun session : Session ω η => { session with recording } := by
  refine .of_request "history" _ rfl (by decide) (unflagged_mode recording)
    fun importing console => ⟨.ok ("History is " ++ if recording then "on" else "off"), ?_⟩
  rw [readWords_mode]
  have asked : ∀ arg rest tail, request importing ⟨"history", [], [arg], rest, tail⟩ =
      (recordingModes [arg] [] : ConsoleStep ω η m Outcome) := by
    intro arg rest tail
    calc request importing ⟨"history", [], [arg], rest, tail⟩
      _ = history importing ⟨"history", [], [arg], rest, tail⟩ := rfl
      _ = recordingModes [arg] [] := by simp [history, Line.has]
  rw [asked]
  cases recording with
  | true =>
    change (recordingModes ["on"] []).run.run console = _
    simp only [recordingModes, run_bind, run_pure, pure_bind, run_telling]
    rfl
  | false =>
    change (recordingModes ["off"] []).run.run console = _
    simp only [recordingModes, run_bind, run_pure, pure_bind, run_telling]
    rfl

end Console

end StepShell

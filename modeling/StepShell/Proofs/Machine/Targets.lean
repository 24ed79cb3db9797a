import StepShell.Proofs.Machine.Confinement
import StepShell.Proofs.Machine.Redirection

/-! Which file redirected output goes to. The text of the target stands fast when the command starts:
its substitutions are resolved by then, and nothing that runs inside touches it. But it is expanded
and resolved only when the output is written, with the variables and in the directory that the
command has left behind. -/

namespace StepShell

namespace FileTable

/-- Between the two tables just the file at the path was written: it holds what was printed, or has
it behind what it held. -/
def Written (path : String) (append : Bool) (printed : String) (before after : FileTable) : Prop :=
  ∀ other, after.get? other = if other = path then some { before.source path with
      contents := some (if append then (before.source path).text ++ printed else printed) }
    else before.get? other

section
variable {leads named printed : String} {append : Bool} {before after : FileTable}

/-- When one file was written, another one was only if neither is any different for it. -/
theorem Written.other_iff (written : Written leads append printed before after) :
    Written named append printed before after ↔ leads = named ∨
      Written leads append printed before before ∧ Written named append printed before before := by
  constructor
  · intro other
    refine Classical.or_iff_not_imp_left.mpr fun apart => ⟨fun path => ?_, fun path => ?_⟩
    · split
      · rename_i here
        rw [here, ← (written leads).trans (if_pos rfl), other leads, if_neg apart]
      · rfl
    · split
      · rename_i here
        rw [here, ← (other named).trans (if_pos rfl), written named, if_neg (Ne.symm apart)]
      · rfl
  · rintro (rfl | ⟨still, stays⟩)
    · exact written
    · intro path
      rw [written path, ← still path]
      exact stays path

end

end FileTable

theorem Sandbox.put_written (sandbox : Sandbox) (text : String) (append : Bool)
    (printed : String) : FileTable.Written (sandbox.resolve (sandbox.vars.expand text)) append
      printed sandbox.files (sandbox.put text append printed).files := by
  intro other
  cases append with
  | false =>
    refine (congrArg (fun files => FileTable.get? files other) (FileTable.write_eq ..)).trans ?_
    rw [FileTable.get?_insert]
    simp [FileTable.source_name]
  | true =>
    refine (congrArg (fun files => FileTable.get? files other) (FileTable.append_eq ..)).trans ?_
    rw [FileTable.get?_insert]
    simp [FileTable.source_name]

/-- What the text of a target is expanded with, and where it leads from. -/
def Sandbox.whereabouts (sandbox : Sandbox) : Variables × String :=
  (sandbox.vars, sandbox.workingDir)

/-- A group in parentheses. -/
def Node.isSubshell : Node → Bool
  | .compound (.reserved text _ :: _) _ _ => text == "("
  | _ => false

/-- What stands among the redirects of a command or group. -/
theorem Formed.redirectParts {node : Node} {parts : List Node} (formed : Formed .command node)
    (own : node.redirectParts? = some parts) : ∀ part ∈ parts, Formed .part part := by
  cases formed with
  | command each =>
    cases own
    exact each
  | group _ _ each =>
    cases own
    exact fun part member => .redirection (each part member)
  | _ => cases own

/-- For any operation there is a condition that it neither judges nor decides. -/
theorem Operation.exists_apart (operation : Operation) : ∃ condition,
    operation ≠ .judge condition ∧ ∀ node, operation ≠ .decide condition node := by
  have longer : ∀ text : String, text ≠ text ++ "x" := by
    intro text same
    have length := congrArg String.length same
    rw [String.length_append] at length
    exact absurd length (Nat.ne_of_lt (Nat.lt_succ_self _))
  cases operation with
  | judge text => exact ⟨text ++ "x", fun same => longer text (Operation.judge.inj same), nofun⟩
  | decide text node =>
    exact ⟨text ++ "x", nofun, fun _ same => longer text (Operation.decide.inj same).1⟩
  | _ => exact ⟨"", nofun, nofun⟩

namespace Compilation

/-- The action with which the output of a command or group begins to be captured. -/
def capturing (kind : String) : Action :=
  .plain .beginCapture s!"Prepare {kind} node for redirects"

/-- The action that reads what a command or group is given, if anything. -/
def reading (redirects : Redirects) (slot : Nat) : List Action :=
  match redirects.input with
  | some index => [.plain (.readRedirect slot index) "Get information from redirects"]
  | none => []

section
variable {redirects : Redirects} {index : Nat} {append : Bool}

theorem opening_eq (effective : redirects.output = some (index, append)) (slot : Nat)
    (kind : String) : redirects.opening slot kind = capturing kind :: reading redirects slot := by
  rw [Redirects.opening, effective]
  rfl

theorem closing_eq (effective : redirects.output = some (index, append)) (slot : Nat)
    (kind : String) :
    redirects.closing slot kind = Redirects.closing ⟨none, some (index, append)⟩ slot kind := by
  rw [Redirects.closing, effective]
  rfl

theorem reading_place {slot : Nat} {action : Action} (member : action ∈ reading redirects slot) :
    action.operation.place? = none := by
  unfold reading at member
  split at member
  · rw [List.mem_singleton.mp member]
    rfl
  · cases member

/-- What a command does itself resolves no substitution in the target of a redirect. -/
theorem innerActions_place {slot : Nat} {source : String} {parts : List Node}
    {kind : RedirectKind} {target : Node} {span : Span}
    (leads : parts[index]? = some (.redirect kind target span)) {action : Action}
    (member : action ∈ innerActions slot source parts) :
    action.operation.place? ≠ some (slot, index) := by
  have optional : ∀ {choice : Bool} {own : Action}, own.operation.place? = none →
      action ∈ (if choice then [own] else []) → action.operation.place? ≠ some (slot, index) := by
    intro choice own none member
    cases choice with
    | false => cases member
    | true =>
      rw [List.mem_singleton.mp member, none]
      nofun
  rw [innerActions] at member
  rcases List.mem_append.mp member with flush | member
  · exact optional rfl flush
  · rcases List.mem_append.mp member with resolves | member
    · intro place
      obtain ⟨here, resolved, same⟩ := Option.map_eq_some_iff.mp place
      obtain ⟨_, part, inner, stands, inside⟩ := resolves?_of_mem resolves resolved
      rw [(Prod.mk.inj same).2, leads] at stands
      cases stands
      cases inside
    · rcases List.mem_append.mp member with assigns | runs
      · exact optional rfl assigns
      · exact optional rfl runs

end

section
variable {ω : Type} [Operator ω] {redirects : Redirects} {index : Nat} {append : Bool}
  {setting : Setting} {functions : Functions} {operator : ω} {actions : List Action}
  {compiled : Compilation ω}

/-- What a command or group with a redirect for its output is compiled to: the targets are resolved
first, and no more in what comes after that. -/
theorem compile_capturing {node : Node} {parts : List Node} (formed : Formed .command node)
    (known : functions.Sound) (own : node.redirectParts? = some parts)
    (collected : Redirects.collect parts = .ok redirects)
    (effective : redirects.output = some (index, append))
    (made : (node.compile setting).run ⟨functions, #[], operator⟩ = (.ok actions, compiled)) :
    ∃ kind body, actions = substitutions 0 parts .targets ++ (capturing kind :: (body ++
        Redirects.closing ⟨none, some (index, append)⟩ 0 kind)) ∧
      (∃ kind target span, partAt? compiled.slots (0, index) =
        some (.redirect kind target span)) ∧
      (∀ action ∈ body, action.operation.place? ≠ some (0, index)) ∧
      (node.isSubshell = true → ∃ inner, Block inner ∧ body = reading redirects 0 ++
        (.plain .lower "Entering sub-shell env" :: inner ++
          [.plain .raise "Exiting sub-shell env"])) := by
  obtain ⟨_, again, leads⟩ := Redirects.collect_eq_ok (formed.redirectParts own)
  cases collected.symm.trans again
  obtain ⟨_, _, _, _, _, _, stands⟩ := leads index (.inr (congrArg (Option.map Prod.fst) effective))
  have apart : ∀ {body : List Action},
      (∀ action ∈ body, action.operation.place? ≠ some (0, index)) →
      ∀ action ∈ reading redirects 0 ++ body, action.operation.place? ≠ some (0, index) := by
    intro body each action member
    rcases List.mem_append.mp member with reads | inside
    · rw [reading_place reads]
      nofun
    · exact each action inside
  cases node with
  | command parts span =>
    cases own
    obtain ⟨found, again, rfl, rfl⟩ := compile_command_eq_ok made
    cases collected.symm.trans again
    refine ⟨"command", reading redirects 0 ++ innerActions 0 (Node.command parts span).shell parts,
      ?_, ⟨_, _, _, stands⟩, apart fun action member => innerActions_place stands member, nofun⟩
    rw [commandActions_eq]
    change _ ++ (redirects.opening 0 _ ++ (_ ++ redirects.closing 0 _)) = _
    rw [opening_eq effective, closing_eq effective]
    simp
  | compound group parts span =>
    cases own
    have some : parts ≠ [] := by
      rintro rfl
      cases stands
    obtain ⟨found, inner, again, put, rfl⟩ := compile_compound_eq_ok some made
    cases collected.symm.trans again
    obtain ⟨_, fresh⟩ := compileAll_fresh group _ _ _ (Nat.le_refl 1) put
    refine ⟨"compound", reading redirects 0 ++ inner, ?_, ?_, apart fun action member place => ?_,
      fun subshell => ?_⟩
    · change _ ++ redirects.opening 0 _ ++ _ ++ redirects.closing 0 _ = _
      rw [opening_eq effective, closing_eq effective]
      simp
    · have grown : Grown (fun _ => True) ⟨functions, #[].push parts, operator⟩
          ((Node.compileAll setting group).run ⟨functions, #[].push parts, operator⟩).2 := by
        rw [Node.compileAll_eq]
        exact compileEach_preserves
          (fun part _ _ => compile_preserves part (fun _ _ => trivial) _) (.refl _ _)
      rw [put] at grown
      exact ⟨_, _, _, Option.bind_eq_some_iff.mpr ⟨parts, Extends.held grown.slots rfl, stands⟩⟩
    · obtain ⟨target, resolves, same⟩ := Option.map_eq_some_iff.mp place
      have later : 1 ≤ target.1 := (fresh action member).le_of_resolves resolves
      rw [(Prod.mk.inj same).1] at later
      cases later
    · cases formed with
      | group pair inside each =>
        obtain ⟨rfl, rfl⟩ := pair.resolve_right fun braces => by
          rw [braces.1] at subshell
          cases subshell
        have slots : SoundSlots (#[].push parts) :=
          SoundSlots.empty.push fun node member => (each node member).resolvable_redirect
        obtain ⟨⟨actions, block, rfl⟩, _⟩ := compileGroup_makes rfl rfl (compile_makes inside setting)
          _ _ _ ⟨known, slots⟩ put
        exact ⟨actions, block, rfl⟩
  | _ => cases own

end

end Compilation

namespace Machine

variable {ω η : Type} [Operator ω] [Host η]

/-- Wherever a run comes to a rest, a part of a command is still in its place, and it is the same if
nothing that was pending resolves a substitution there. -/
theorem Runs.part {rest : List Action} {machine after : Machine ω η} {place : Nat × Nat}
    {node : Node} (runs : Runs rest machine after) (more : rest ≠ [])
    (standard : machine.commands = Command.standard)
    (found : partAt? machine.slots place = some node) :
    ∃ held, partAt? after.slots place = some held ∧
      ((∀ action ∈ machine.pending, action.operation.place? ≠ place) → held = node) := by
  induction runs generalizing node with
  | done => exact ⟨node, found, fun _ => rfl⟩
  | @inch machine _ _ action first left inched _ ih =>
    have turn : machine.pending = action :: (first ++ rest) := left
    obtain ⟨_, _, executed, ran, rfl⟩ := inch_eq_ok turn inched
    obtain ⟨condition, judges, decides⟩ := action.operation.exists_apart
    have begun : { machine with pending := first ++ rest, ticks := machine.ticks + 1 }.commands =
        Command.standard := standard
    have confined := execute_confined begun judges fun node same => absurd same (decides node)
    rw [ran] at confined
    obtain ⟨held, stands, same⟩ := confined.parts place node found
    obtain ⟨put, added, spares⟩ := confined.pending
    have pending : executed.pending = put ++ (first ++ rest) := added
    rw [settle_of_pending (by simp [pending, more])] at ih
    obtain ⟨last, final, kept⟩ := ih (confined.commands.trans standard) stands
    refine ⟨last, final, fun apart => ?_⟩
    rw [left] at apart
    obtain ⟨here, later⟩ := List.forall_mem_cons.mp apart
    refine (kept fun other member resolved => ?_).trans (same here)
    rw [pending] at member
    rcases List.mem_append.mp member with new | old
    · -- what is put first only resolves in slots that come after those that there are
      obtain ⟨target, resolves, rfl⟩ := Option.map_eq_some_iff.mp resolved
      have beyond := (spares other new).resolves target resolves
      obtain ⟨_, there, _⟩ := Option.bind_eq_some_iff.mp found
      have below := (Array.getElem?_eq_some_iff.mp there).1
      exact absurd beyond (Nat.not_le_of_lt below)
    · exact later other old resolved

omit [Operator ω] [Host η] in
/-- Only a redirect that leads to a word has a path. -/
theorem redirectPath_eq_ok {slot index : Nat} {path : String} {machine after : Machine ω η}
    (done : (redirectPath slot index : Step ω η String).run machine = (.ok path, after)) :
    after = machine ∧ ∃ kind text inside quoted inner outer,
      partAt? machine.slots (slot, index) =
        some (.redirect kind (.word text inside quoted inner) outer) := by
  obtain ⟨parts, middle, looked, picked⟩ := run_bind_eq_ok.mp done
  obtain ⟨held, rfl⟩ := slot_eq_ok looked
  split at picked
  · rename_i found
    rw [run_get_bind] at picked
    exact ⟨(run_pure_eq_ok.mp picked).2,
      _, _, _, _, _, _, Option.bind_eq_some_iff.mpr ⟨parts, held, found⟩⟩
  · exact absurd picked run_throw_eq_ok
  · exact absurd picked run_throw_eq_ok

omit [Host η] in
theorem readRedirect_eq_ok {path : String} {machine after : Machine ω η} {value : Unit}
    (done : (readRedirect path : Step ω η Unit).run machine = (.ok value, after)) :
    ∃ io operator, after = { machine with sandbox := { machine.sandbox with io }, operator } := by
  unfold readRedirect at done
  rw [run_get_bind] at done
  split at done
  · exact ⟨_, machine.operator, run_modify_eq_ok.mp done⟩
  · dsimp only at done
    obtain ⟨_, middle, noted, changed⟩ := run_bind_eq_ok.mp done
    obtain rfl := run_set_eq_ok.mp noted
    exact ⟨_, _, run_modify_eq_ok.mp changed⟩

/-- What runs in a scope of its own gives back the variables and the directory. -/
theorem GivesBack.scoped {opening closing : Action} {inner : List Action}
    (opens : opening.operation.move = .opens .scope) (block : Block inner)
    (closes : closing.operation.move = .closes .scope) :
    GivesBack ω η Sandbox.whereabouts (opening :: inner ++ [closing]) := by
  refine ⟨block.wrap opens closes, fun rest machine after sound runs pending => ?_⟩
  obtain ⟨_, _, vars, workingDir, _⟩ := runs.scoped sound opens block closes (by simpa using pending)
  exact Prod.ext vars workingDir

theorem GivesBack.reading (redirects : Redirects) (slot : Nat) :
    GivesBack ω η Sandbox.whereabouts (Compilation.reading redirects slot) := by
  unfold Compilation.reading
  split
  · refine ⟨.single rfl trivial, fun rest machine after sound runs pending => ?_⟩
    obtain ⟨executed, done, later⟩ := runs.first pending
    obtain ⟨path, middle, led, read⟩ := run_bind_eq_ok.mp done
    obtain ⟨rfl, _⟩ := redirectPath_eq_ok led
    obtain ⟨io, operator, rfl⟩ := readRedirect_eq_ok read
    rw [later.ended (settle_frame _).1, (settle_frame _).2.1]
    rfl
  · exact .nil

/-- Before a command starts, its targets are resolved and nothing else. -/
theorem GivesBack.targets (parts : List Node) : GivesBack ω η Sandbox.whereabouts
    ([.plain .resetIo "Initialize state for command"] ++
      Compilation.substitutions 0 parts .targets) := by
  refine .append (.tidies .resetIo (.single rfl trivial) fun _ => rfl) (.substitutions ?_ ..)
  intro enter leave index word part enters leaves
  exact .scoped (by rw [enters]; rfl) .nil (by rw [leaves]; rfl)

omit [Operator ω] [Host η] in
theorem endCapture_files (sandbox : Sandbox) :
    sandbox.endCapture.flush.clearInput.files = sandbox.files := by
  have ended : sandbox.endCapture.files = sandbox.files := by
    unfold Sandbox.endCapture
    split <;> rfl
  have flushed : ∀ sandbox : Sandbox, sandbox.flush.files = sandbox.files := by
    intro sandbox
    unfold Sandbox.flush
    split <;> rfl
  exact (flushed _).trans ended

/-- When a capture is closed, its redirect leads to a word still, and just the file that this leads
to by now is written. -/
theorem Runs.written {index : Nat} {append : Bool} {name : String} {machine last : Machine ω η}
    (runs : Runs [] machine last)
    (pending : machine.pending = Redirects.closing ⟨none, some (index, append)⟩ 0 name ++
      [.plain .cleanUp "Exit Node Cleanup"]) :
    ∃ kind text inside quoted inner outer,
      partAt? machine.slots (0, index) =
        some (.redirect kind (.word text inside quoted inner) outer) ∧
      FileTable.Written (machine.sandbox.resolve (machine.sandbox.vars.expand text)) append
        machine.sandbox.flush.captured machine.sandbox.files last.sandbox.files := by
  have whole : machine.pending = [.plain .flush s!"Flush {name} output"] ++
      (.plain (.writeRedirect 0 index append) "Move information out to redirects" ::
        ([.plain .endCapture s!"Exit {name} node redirects"] ++
          [.plain .cleanUp "Exit Node Cleanup"])) := pending
  obtain ⟨ready, before, behind⟩ := runs.until whole
  have slots := (Tidies.flush _ _ _ before whole).slots (by simp [before.pending])
  obtain ⟨_, writing, _⟩ := behind.first (before.pending.trans (List.append_nil _).symm)
  obtain ⟨_, _, led, _⟩ := run_bind_eq_ok.mp writing
  obtain ⟨_, kind, text, inside, quoted, inner, outer, found⟩ := redirectPath_eq_ok led
  replace found : partAt? machine.slots (0, index) = _ := slots ▸ found
  obtain ⟨held, stands, leads⟩ := Option.bind_eq_some_iff.mp found
  obtain ⟨diverted, _⟩ := runs.diverted pending stands leads
  refine ⟨kind, text, inside, quoted, inner, outer, found, ?_⟩
  have same : ∀ sandbox : Sandbox, sandbox.flush.files = sandbox.files ∧
      sandbox.flush.resolve (sandbox.flush.vars.expand text) =
        sandbox.resolve (sandbox.vars.expand text) := by
    intro sandbox
    unfold Sandbox.flush
    split <;> exact ⟨rfl, rfl⟩
  obtain ⟨files, path⟩ := same machine.sandbox
  rw [diverted, endCapture_files, ← files, ← path]
  exact machine.sandbox.flush.put_written text append _

/-- A run that ends with the output of a command in the file of its redirect: the targets among the
parts are resolved up to the start, what the command does runs from there until it stops, and then
what was captured is written. -/
inductive Redirecting (parts : List Node) (index : Nat) (append : Bool)
    (built start stop last : Machine ω η) : Prop where
  | mk {kind : String} {body : List Action}
      (pending : built.pending = wrapped (Compilation.substitutions 0 parts .targets ++
        (Compilation.capturing kind :: (body ++
          Redirects.closing ⟨none, some (index, append)⟩ 0 kind))))
      (resolves : Runs (Compilation.capturing kind :: (body ++
        (Redirects.closing ⟨none, some (index, append)⟩ 0 kind ++
          [.plain .cleanUp "Exit Node Cleanup"]))) built start)
      (runs : Runs (Redirects.closing ⟨none, some (index, append)⟩ 0 kind ++
        [.plain .cleanUp "Exit Node Cleanup"]) start stop)
      (writes : Runs [] stop last)

/-- A command or group whose output goes to a redirect, of some script. When it starts, the
variables and the directory are those from before, and the text of its target is the one that leads
to the file when it has stopped: just the file that this text leads to then is written. So the file
that it led to at the start is the one which is written, exactly if the text leads to the same path
both times, or if neither file would be any different for it. The path is the same whatever runs in
a group in parentheses. -/
theorem redirect_written_iff {text : String} {nodes : List Node} {root node : Node}
    {parts : List Node} {redirects : Redirects} {index : Nat} {append : Bool}
    {machine last : Machine ω η}
    (parsed : Script.parse text = .ok nodes) (member : root ∈ nodes) (within : node.Within root)
    (own : node.redirectParts? = some parts) (collected : Redirects.collect parts = .ok redirects)
    (effective : redirects.output = some (index, append))
    (functions : ∀ name body,
      machine.sandbox.functions.get? name = some body → Script.Defines body)
    (commands : machine.commands = Command.standard)
    (ran : (run node).run machine = (.ok (), last)) :
    ∃ (built start stop : Machine ω η) (kind : RedirectKind) (target : String)
        (inside : List Node) (quoted : Bool) (inner outer : Span),
      (build node false).run machine = (.ok (), built) ∧
      Redirecting parts index append built start stop last ∧
      start.sandbox.vars = machine.sandbox.vars ∧
      start.sandbox.workingDir = machine.sandbox.workingDir ∧
      (∀ moment ∈ [start, stop], partAt? moment.slots (0, index) =
        some (.redirect kind (.word target inside quoted inner) outer)) ∧
      let named := start.sandbox.resolve (start.sandbox.vars.expand target)
      let leads := stop.sandbox.resolve (stop.sandbox.vars.expand target)
      let Writes := fun path => FileTable.Written path append stop.sandbox.flush.captured
        stop.sandbox.files
      Writes leads last.sandbox.files ∧
      (Writes named last.sandbox.files ↔ leads = named ∨
        Writes leads stop.sandbox.files ∧ Writes named stop.sandbox.files) ∧
      (node.isSubshell = true → leads = named) := by
  have formed : Formed .command node := by
    rcases (Script.parse_formed parsed root member).within within with ⟨_, formed⟩ | ⟨_, _, rfl⟩
    · exact formed.redirecting own
    · cases own
  have known : machine.sandbox.functions.Sound :=
    fun name body found => (functions name body found).formed
  obtain ⟨_, compiled, made, building, runs⟩ := run_compiles ran
  obtain ⟨sound, _⟩ := build_sound formed known commands (fun again => by cases again) building
  obtain ⟨name, body, rfl, ⟨_, _, _, held⟩, apart, subshell⟩ :=
    Compilation.compile_capturing formed known own collected effective made
  let closing := Redirects.closing ⟨none, some (index, append)⟩ 0 name ++
    [.plain .cleanUp "Exit Node Cleanup"]
  have pending : wrapped (Compilation.substitutions 0 parts .targets ++
      (Compilation.capturing name :: (body ++
        Redirects.closing ⟨none, some (index, append)⟩ 0 name))) =
      ([.plain .resetIo "Initialize state for command"] ++
        Compilation.substitutions 0 parts .targets) ++
          (Compilation.capturing name :: (body ++ closing)) := by
    simp [wrapped, closing]
  obtain ⟨start, resolves, onward⟩ := runs.until pending
  have ready : start.pending = (Compilation.capturing name :: body) ++ closing := resolves.pending
  obtain ⟨stop, through, writes⟩ := onward.until ready
  have standard := resolves.stays.1.trans commands
  obtain ⟨first, early, _⟩ := resolves.part (List.cons_ne_nil _ _) commands held
  obtain ⟨final, late, same⟩ := through.part (by simp [closing, Redirects.closing]) standard early
  obtain rfl : final = first := by
    refine same fun action among => ?_
    rw [ready] at among
    rcases List.mem_append.mp among with begun | after
    · rcases List.mem_cons.mp begun with rfl | inside
      · rintro ⟨⟩
      · exact apart action inside
    · simp only [closing, Redirects.closing, List.cons_append, List.nil_append, List.mem_cons,
        List.not_mem_nil, or_false] at after
      rcases after with rfl | rfl | rfl | rfl <;> rintro ⟨⟩
  obtain ⟨kind, target, inside, quoted, inner, outer, stands, written⟩ :=
    writes.written through.pending
  cases late.symm.trans stands
  have opening : GivesBack ω η Sandbox.whereabouts _ := .targets parts
  have settled := opening.same _ _ _ sound resolves pending
  obtain ⟨vars, workingDir⟩ := Prod.mk.inj settled
  refine ⟨_, start, stop, kind, target, inside, quoted, inner, outer, building,
    .mk rfl resolves through writes, vars, workingDir, ?_, written, written.other_iff,
    fun paren => ?_⟩
  · simp only [List.mem_cons, List.not_mem_nil, or_false]
    rintro moment (rfl | rfl)
    · exact early
    · exact late
  · obtain ⟨block, balanced, rfl⟩ := subshell paren
    obtain ⟨opened, done, _, entered, later⟩ :=
      through.opening (resolves.sound sound opening.block pending) rfl ready
    obtain rfl := run_modify_eq_ok.mp done
    have scope : GivesBack ω η Sandbox.whereabouts
        (.plain .lower "Entering sub-shell env" :: block ++
          [.plain .raise "Exiting sub-shell env"]) := .scoped rfl balanced rfl
    have inside := (GivesBack.reading redirects 0).append scope
    have back := inside.same _ _ _ (settle_sound entered) later (settle_frame _).1
    rw [(settle_frame _).2.1] at back
    obtain ⟨kept, stayed⟩ := Prod.mk.inj back
    rw [Sandbox.resolve, Sandbox.resolve, kept, stayed]
    rfl

/-- A machine with a variable that a target can be named by. -/
def naming : Machine Absent Disabled :=
  create ((Sandbox.startingIn "/root").assign "a" "x") Command.standard {} {} {}

/-- A group in parentheses assigns that variable and goes elsewhere, but what it prints is in the
file that its target named at the start. -/
theorem redirect_written_iff_subshell :
    let text := "( a=y; cd /tmp; echo hi ) >> $(echo $a)"
    let node := (Script.nodes text).headD default
    let redirect := Node.redirect .append (.word "$(echo $a)" [.substitution
      (.command [.word "echo" [] false ⟨31, 35⟩,
        .word "$a" [.parameter "$a" ⟨36, 38⟩] false ⟨36, 38⟩] ⟨31, 38⟩) ⟨29, 39⟩]
      false ⟨29, 39⟩) ⟨26, 39⟩
    ∃ (start stop last : Machine Absent Disabled) (target : String),
      Script.parse text = .ok [node] ∧ node.redirectParts? = some [redirect] ∧
      (run node).run naming = (.ok (), last) ∧ start.sandbox.vars = naming.sandbox.vars ∧
      start.sandbox.workingDir = naming.sandbox.workingDir ∧
      FileTable.Written (start.sandbox.resolve (start.sandbox.vars.expand target)) true
        stop.sandbox.flush.captured stop.sandbox.files last.sandbox.files ∧
      (last.sandbox.files.get? "/root/x").map File.text = some "hi\n" := by
  intro text node redirect
  have parsed : Script.parse text = .ok [node] := by
    rw [Script.parse_eq_nodes (by decide +kernel)]
    exact congrArg _ (by decide +kernel)
  obtain ⟨own, subshell⟩ : node.redirectParts? = some [redirect] ∧ node.isSubshell = true := by
    decide +kernel
  have functions : ∀ name body, naming.sandbox.functions.get? name = some body →
      Script.Defines body := by
    intro name body found
    change Table.empty.get? name = some body at found
    rw [Table.get?_empty] at found
    cases found
  obtain ⟨fine, printed⟩ : ((run node).run naming).1.isOk = true ∧
      (((run node).run naming).2.sandbox.files.get? "/root/x").map File.text = some "hi\n" := by
    decide +kernel
  have ran : (run node).run naming = (.ok (), ((run node).run naming).2) := run_eq_of_isOk fine
  obtain ⟨_, start, stop, _, target, _, _, _, _, _, _, vars, workingDir, _, written, iff, back⟩ :=
    redirect_written_iff parsed (List.mem_singleton_self _) .self own rfl rfl functions rfl ran
  exact ⟨start, stop, _, target, parsed, own, ran, vars, workingDir,
    iff.mpr (.inl (back subshell)), printed⟩

/-- In braces the variable is still assigned when the output is written: it goes to another file
than the one that the target named at the start, which is not even created. -/
theorem redirect_follows_body :
    let text := "\x7b a=y; echo hi; \x7d > $a"
    let node := (Script.nodes text).headD default
    let redirect := Node.redirect .output
      (.word "$a" [.parameter "$a" ⟨20, 22⟩] false ⟨20, 22⟩) ⟨18, 22⟩
    let named := naming.sandbox.resolve (naming.sandbox.vars.expand "$a")
    ∃ last, Script.parse text = .ok [node] ∧ node.redirectParts? = some [redirect] ∧
      (run node).run naming = (.ok (), last) ∧ named = "/root/x" ∧
      last.sandbox.files.get? named = none ∧
      (last.sandbox.files.get? "/root/y").map File.text = some "hi\n" ∧
      ¬ FileTable.Written named false "hi\n" naming.sandbox.files last.sandbox.files := by
  intro text node redirect named
  have parsed : Script.parse text = .ok [node] := by
    rw [Script.parse_eq_nodes (by decide +kernel)]
    exact congrArg _ (by decide +kernel)
  obtain ⟨fine, missing, printed⟩ : ((run node).run naming).1.isOk = true ∧
      ((run node).run naming).2.sandbox.files.get? named = none ∧
      (((run node).run naming).2.sandbox.files.get? "/root/y").map File.text = some "hi\n" := by
    decide +kernel
  refine ⟨_, parsed, by decide +kernel, run_eq_of_isOk fine, by decide +kernel, missing, printed,
    fun written => ?_⟩
  have there := (written named).trans (if_pos rfl)
  rw [missing] at there
  cases there

end Machine

end StepShell

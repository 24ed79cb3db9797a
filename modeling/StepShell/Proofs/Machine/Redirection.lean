import StepShell.Proofs.Compilation.Redirection
import StepShell.Proofs.Expansion.Closure
import StepShell.Proofs.Machine.Sequence
import StepShell.Proofs.Machine.Shadow

/-! Output that goes to a file. A command or group with one more redirect does what it does without
it, but what it would print is in the file instead. -/

namespace StepShell

namespace Path

end Path

namespace Sandbox

theorem raise_screen {sandbox : Sandbox} {scope : Scope} {scopes : List Scope}
    (lowered : sandbox.scopes = scope :: scopes) :
    sandbox.raise.screen = scope.screen ++ sandbox.screen := by
  rw [raise, lowered]

/-- What was captured, put where the text leads. -/
def put (sandbox : Sandbox) (text : String) (append : Bool) (printed : String) : Sandbox :=
  let path := sandbox.resolve (sandbox.vars.expand text)
  { sandbox with
    files := if append then sandbox.files.append path printed
      else sandbox.files.write path printed }

/-- At its end a capture holds what would have been printed, and gives back the screen that it was
begun with. -/
theorem flush_capture {final : Sandbox} {screen printed : String}
    (shown : final.screen = screen ++ printed) (text : String) (append : Bool) :
    let flushed := { final with screen := printed, captures := screen :: final.captures }.flush
    final.flush.clearInput.screen = screen ++ flushed.captured ∧
      (flushed.put text append flushed.captured).endCapture.flush.clearInput =
        { final.flush.clearInput.put text append flushed.captured with screen } := by
  cases written : final.io.output.isEmpty with
  | false =>
    simp [flush, clearInput, endCapture, captured, put, resolve, written, shown,
      String.append_assoc]
  | true =>
    have none := String.isEmpty_iff.mp written
    simp [flush, clearInput, endCapture, captured, put, resolve, none, shown]

end Sandbox

namespace Link

variable {kind : RedirectKind} {target : Node} {span : Span}

end Link

theorem Closes.behind {opened outer : List Bracket} {first second : List Action}
    (early : Closes opened first) (whole : Closes outer (first ++ second)) :
    ∃ rest, outer = opened ++ rest ∧ Closes rest second := by
  induction early generalizing outer with
  | done => exact ⟨outer, rfl, whole⟩
  | stay move _ _ ih =>
    cases whole with
    | stay _ _ later => exact ih later
    | opens same _ => cases move.symm.trans same
    | closes same _ => cases move.symm.trans same
  | opens move _ ih =>
    cases whole with
    | stay same _ _ => cases move.symm.trans same
    | opens same later =>
      cases move.symm.trans same
      obtain ⟨rest, split, closes⟩ := ih later
      exact ⟨rest, (List.cons.inj split).2, closes⟩
    | closes same _ => cases move.symm.trans same
  | closes move _ ih =>
    cases whole with
    | stay same _ _ => cases move.symm.trans same
    | opens same _ => cases move.symm.trans same
    | closes same later =>
      cases move.symm.trans same
      obtain ⟨rest, split, closes⟩ := ih later
      exact ⟨rest, congrArg _ split, closes⟩

namespace Machine

variable {ω η : Type} [Operator ω] [Host η]

theorem Runs.sound {rest actions : List Action} {machine after : Machine ω η}
    (runs : Runs rest machine after) (sound : machine.Sound) (block : Block actions)
    (pending : machine.pending = actions ++ rest) : after.Sound := by
  have inside : Inside machine.sandbox rest machine :=
    ⟨sound, [], actions, pending, block.closes, .here (.refl _)⟩
  exact (runs.keeps sound.functions inside).2

/-- What is read of the sandbox is the same behind the block as before. -/
structure GivesBack (ω η : Type) [Operator ω] [Host η] {α : Type} (read : Sandbox → α)
    (actions : List Action) : Prop where
  block : Block actions
  same : ∀ rest (machine after : Machine ω η), machine.Sound → Runs rest machine after →
    machine.pending = actions ++ rest → read after.sandbox = read machine.sandbox

section
variable {α β : Type} {read : Sandbox → α}

theorem GivesBack.nil : GivesBack ω η read [] := by
  refine ⟨.nil, fun rest machine after _ runs pending => ?_⟩
  rw [runs.ended pending]

theorem GivesBack.append {first second : List Action} (early : GivesBack ω η read first)
    (late : GivesBack ω η read second) : GivesBack ω η read (first ++ second) := by
  refine ⟨early.block.append late.block, fun rest machine after sound runs pending => ?_⟩
  rw [List.append_assoc] at pending
  obtain ⟨middle, before, behind⟩ := runs.split pending
  have between := before.sound sound early.block pending
  exact (late.same _ _ _ between behind before.pending).trans
    (early.same _ _ _ sound before pending)

theorem GivesBack.flatMap {items : List β} {actions : β → List Action}
    (each : ∀ item ∈ items, GivesBack ω η read (actions item)) :
    GivesBack ω η read (items.flatMap actions) := by
  induction items with
  | nil => exact .nil
  | cons item rest ih =>
    obtain ⟨first, later⟩ := List.forall_mem_cons.mp each
    rw [List.flatMap_cons]
    exact first.append (ih later)

/-- A pass gives back what each of its substitutions does. -/
theorem GivesBack.substitutions (pair : ∀ {enter leave : Action} {index word : Nat} {part : Span},
    enter.operation = .enterSubstitution index word part →
    leave.operation = .leaveSubstitution index word part → GivesBack ω η read [enter, leave])
    (slot : Nat) (parts : List Node) (pass : Compilation.Pass) :
    GivesBack ω η read (Compilation.substitutions slot parts pass) := by
  refine .flatMap fun part _ => .flatMap fun node _ => ?_
  unfold Compilation.substitutionPair
  split
  · exact pair rfl rfl
  · exact .nil

/-- An action that does no more than change the sandbox. -/
theorem GivesBack.tidies {action : Action} {alter : Sandbox → Sandbox}
    (tidies : Tidies ω η [action] alter) (block : Block [action])
    (same : ∀ sandbox, read (alter sandbox) = read sandbox) : GivesBack ω η read [action] := by
  refine ⟨block, fun rest machine after _ runs pending => ?_⟩
  rw [(tidies _ _ _ runs pending).sandbox]
  exact same _

end

/-- The block leaves just that on the screen which was there before it. -/
structure Silent (ω η : Type) [Operator ω] [Host η] (actions : List Action) : Prop where
  block : Block actions
  screen : ∀ rest (machine after : Machine ω η), machine.Sound → Runs rest machine after →
    machine.pending = actions ++ rest → after.sandbox.screen = machine.sandbox.screen

theorem silent_iff {actions : List Action} :
    Silent ω η actions ↔ GivesBack ω η Sandbox.screen actions :=
  ⟨fun silent => ⟨silent.block, silent.screen⟩, fun back => ⟨back.block, back.same⟩⟩

theorem Silent.append {first second : List Action} (early : Silent ω η first)
    (late : Silent ω η second) : Silent ω η (first ++ second) :=
  silent_iff.mpr ((silent_iff.mp early).append (silent_iff.mp late))

theorem Silent.resetIo : Silent ω η [.plain .resetIo "Initialize state for command"] :=
  silent_iff.mpr (.tidies .resetIo (.single rfl trivial) fun _ => rfl)

/-- What the command of a substitution prints is taken off the screen with its scope. -/
theorem Silent.substitution {enter leave : Action} {index word : Nat} {part : Span}
    (enters : enter.operation = .enterSubstitution index word part)
    (leaves : leave.operation = .leaveSubstitution index word part) :
    Silent ω η [enter, leave] := by
  have opens : enter.operation.move = .opens .scope := by rw [enters]; rfl
  have closes : leave.operation.move = .closes .scope := by rw [leaves]; rfl
  refine ⟨Block.nil.wrap opens closes, fun rest machine after sound runs pending => ?_⟩
  have left : machine.pending = enter :: [leave] ++ rest := pending
  obtain ⟨lowered, done, step, entered, later⟩ := runs.opening sound opens left
  obtain ⟨put, added, block⟩ := step.pending
  rw [enters] at done
  obtain ⟨_, _, _, _, _, rfl⟩ := enterSubstitution_eq_ok done
  obtain ⟨samePending, sameSandbox, _⟩ := settle_frame _
  obtain ⟨middle, raised, keeps, leaving, _, rfl⟩ :=
    later.closing (settle_sound entered) block closes (samePending.trans added)
  rw [leaves] at leaving
  rw [sameSandbox] at keeps
  obtain ⟨scope, scopes, put, saved⟩ : ∃ scope scopes, middle.sandbox.scopes = scope :: scopes ∧
      scope.screen = machine.sandbox.screen := ⟨_, _, keeps.scopes, rfl⟩
  have emptied : { middle.sandbox.clearOutput with screen := "" }.scopes = scope :: scopes := put
  rw [(settle_frame raised).2.1, leaveSubstitution_sandbox leaving, Sandbox.raise_screen emptied,
    saved, String.append_empty]

theorem Silent.substitutions (slot : Nat) (parts : List Node) (pass : Compilation.Pass) :
    Silent ω η (Compilation.substitutions slot parts pass) :=
  silent_iff.mpr (.substitutions (fun enters leaves => silent_iff.mp (.substitution enters leaves))
    slot parts pass)

omit [Operator ω] [Host η] in
theorem writeRedirect_eq_ok {slot index : Nat} {append : Bool} {held inside : List Node}
    {kind : RedirectKind} {text : String} {quoted : Bool} {inner outer : Span}
    {machine after : Machine ω η} (stands : machine.slots[slot]? = some held)
    (leads : held[index]? = some (.redirect kind (.word text inside quoted inner) outer))
    (done : (do writeRedirect (← redirectPath slot index) append : Step ω η Unit).run machine =
      (.ok (), after)) :
    after = { machine with
      sandbox := machine.sandbox.put text append machine.sandbox.captured } := by
  obtain ⟨path, _, led, written⟩ := run_bind_eq_ok.mp done
  obtain ⟨parts, _, looked, picked⟩ := run_bind_eq_ok.mp led
  obtain ⟨found, rfl⟩ := slot_eq_ok looked
  cases stands.symm.trans found
  rw [leads] at picked
  obtain ⟨current, _, got, resolved⟩ := run_bind_eq_ok.mp picked
  obtain ⟨rfl, rfl⟩ := run_get_eq_ok.mp got
  obtain ⟨rfl, rfl⟩ := run_pure_eq_ok.mp resolved
  exact run_modify_eq_ok.mp written

/-- What is compiled of a command and of the command with one more redirect: the same, but inside a
capture whose output goes to the redirect. -/
structure Diverted (link : Link) (parts : List Node) (redirect : Node) (append : Bool)
    (actions others : List Action) : Prop where
  split : ∃ inside within name, actions = Compilation.substitutions 0 parts .targets ++ inside ∧
    others = Compilation.substitutions 0 parts .targets ++
      (.plain .beginCapture s!"Prepare {name} node for redirects" ::
        (within ++ Redirects.closing ⟨none, some (parts.length, append)⟩ 0 name)) ∧
    Follows link.place inside within
  early : Follows link.place (Compilation.substitutions 0 parts .targets)
    (Compilation.substitutions 0 parts .targets)
  leads : ∀ first second, link.Joins first second →
    ∃ held, second[0]? = some held ∧ held[parts.length]? = some redirect

theorem Diverted.inside {link : Link} {parts : List Node} {redirect : Node} {append : Bool}
    {found finding : Redirects} {inside within actions others : List Action} (name : String)
    (bare : found.output = none)
    (same : finding = { found with output := some (parts.length, append) })
    (made : actions = Compilation.substitutions 0 parts .targets ++
      (found.opening 0 name ++ (inside ++ found.closing 0 name)))
    (making : others = Compilation.substitutions 0 parts .targets ++
      (finding.opening 0 name ++ (within ++ finding.closing 0 name)))
    (fixed : link.place 0 = 0) (follows : Follows link.place inside within)
    (leads : ∀ first second, link.Joins first second →
      ∃ held, second[0]? = some held ∧ held[parts.length]? = some redirect) :
    Diverted link parts redirect append actions others := by
  have early : Follows link.place _ _ := Compilation.substitutions_follows 0 parts .targets
  have opening : Follows link.place _ _ := Compilation.opening_follows found 0 name
  rw [fixed] at early opening
  obtain ⟨input, _⟩ := found
  cases bare
  subst same
  refine ⟨⟨_, _, name, made, ?_, opening.append (follows.append .done)⟩, early, leads⟩
  rw [making]
  simp [Redirects.opening, Redirects.closing]

/-- What closes a capture puts what was captured where the redirect leads. -/
theorem Runs.diverted {slot index : Nat} {append : Bool} {name : String}
    {held inside : List Node} {kind : RedirectKind} {text : String} {quoted : Bool}
    {inner outer : Span} {machine last : Machine ω η} (runs : Runs [] machine last)
    (pending : machine.pending = Redirects.closing ⟨none, some (index, append)⟩ slot name ++
      [.plain .cleanUp "Exit Node Cleanup"])
    (stands : machine.slots[slot]? = some held)
    (leads : held[index]? = some (.redirect kind (.word text inside quoted inner) outer)) :
    let flushed := machine.sandbox.flush
    last.sandbox = (flushed.put text append flushed.captured).endCapture.flush.clearInput ∧
      last.operator = machine.operator ∧ last.host = machine.host := by
  intro flushed
  have whole : machine.pending = [.plain .flush s!"Flush {name} output"] ++
      (.plain (.writeRedirect slot index append) "Move information out to redirects" ::
        ([.plain .endCapture s!"Exit {name} node redirects"] ++
          [.plain .cleanUp "Exit Node Cleanup"])) := pending
  obtain ⟨ready, before, behind⟩ := runs.until whole
  have tidied := Tidies.flush _ _ _ before whole
  have slots := tidied.slots (by simp [before.pending])
  have left := before.pending.trans (List.append_nil _).symm
  obtain ⟨written, done, onward⟩ := behind.first left
  have same := writeRedirect_eq_ok (slots ▸ stands) leads done
  have rest : written.pending = ([.plain .endCapture s!"Exit {name} node redirects"] ++
      [.plain .cleanUp "Exit Node Cleanup"]) ++ [] := by
    rw [same]
  rw [settle_of_pending (by simp [rest])] at onward
  have ends : Tidies ω η [.plain .endCapture s!"Exit {name} node redirects"]
      Sandbox.endCapture := .change rfl
  have ended := (ends.append .cleanUp) _ _ _ onward rest
  refine ⟨?_, ?_, ?_⟩
  · rw [ended.sandbox, same, tidied.sandbox]
    rfl
  · rw [ended.operator, same]
    exact tidied.operator
  · rw [ended.host, same]
    exact tidied.host

/-- Two runs of the same actions, one of them captured, end with the same sandbox but for what was
printed. -/
theorem captured_runs {link : Link} {inside within rest behind : List Action}
    {bare final captured begun last : Machine ω η} (agree : Twins link Eq bare captured)
    (sound : bare.Sound) (closes : Closes [] inside) (follows : Follows link.place inside within)
    (some : rest ≠ []) (more : behind ≠ []) (runs : Runs rest bare final)
    (pending : bare.pending = inside ++ rest) (began : Tidied Sandbox.beginCapture captured begun)
    (others : Runs behind begun last) (twinPending : begun.pending = within ++ behind) :
    link.Joins final.slots last.slots ∧ last.operator = final.operator ∧
      last.host = final.host ∧ ∃ printed,
        final.sandbox.screen = bare.sandbox.screen ++ printed ∧
        last.sandbox = { final.sandbox with
          screen := printed
          captures := bare.sandbox.screen :: final.sandbox.captures } := by
  have slots : begun.slots = captured.slots := began.slots (by simp [twinPending, more])
  have sandbox : begun.sandbox = bare.sandbox.beginCapture := by
    rw [began.sandbox, agree.sandbox.eq]
  have start : Shadows link (View.Put bare.sandbox.screen) bare.sandbox inside [] bare begun := by
    refine ⟨closes, .here (.refl _), sound, ⟨?_, ?_⟩, ?_, began.commands.trans agree.commands,
      began.limits.trans agree.limits, began.operator.trans agree.operator,
      began.host.trans agree.host⟩
    · rw [sandbox]
      rfl
    · rw [sandbox]
      exact .here ⟨String.append_empty.symm, rfl, rfl⟩
    · rw [slots]
      exact agree.slots
  obtain ⟨opened, finish⟩ := (shadow_coupling link (View.put_additive _) sound.functions).runs some
    more runs others pending twinPending follows ⟨[], start⟩
  obtain ⟨closed, _, _, twins⟩ := finish
  cases closed
  refine ⟨twins.slots, twins.operator, twins.host, last.sandbox.screen, ?_⟩
  obtain ⟨same, view⟩ := twins.sandbox
  cases view with
  | here put =>
    refine ⟨put.screens, ?_⟩
    rw [← same, Sandbox.seen, put.scopes, put.captures]
    rfl

/-- Built with one more redirect, the command or group leaves what it prints where that leads, and
everything else as it is. -/
theorem Diverted.runs {link : Link} {parts inside : List Node} {kind : RedirectKind}
    {text : String} {quoted append : Bool} {inner outer : Span} {actions others : List Action}
    (shape : Diverted link parts (.redirect kind (.word text inside quoted inner) outer) append
      actions others)
    {machine twin alone written : Machine ω η} (runs : Runs [] machine alone)
    (captured : Runs [] twin written) (sound : machine.Sound) (block : Block actions)
    (begins : Twins link Eq { machine with sandbox := machine.sandbox.clearOutput.clearInput }
      { twin with sandbox := twin.sandbox.clearOutput.clearInput })
    (pending : machine.pending = wrapped actions) (twinPending : twin.pending = wrapped others) :
    ∃ printed, alone.sandbox.screen = machine.sandbox.screen ++ printed ∧
      written.sandbox =
        { alone.sandbox.put text append printed with screen := machine.sandbox.screen } ∧
      written.operator = alone.operator ∧ written.host = alone.host := by
  obtain ⟨within, behind, name, rfl, rfl, follows⟩ := shape.split
  obtain ⟨_, rfl, closes⟩ :=
    (Compilation.substitutions_block 0 parts .targets).closes.behind block.closes
  have left : machine.pending = [.plain .resetIo "Initialize state for command"] ++
      (Compilation.substitutions 0 parts .targets ++
        (within ++ [.plain .cleanUp "Exit Node Cleanup"])) := by
    rw [pending]
    simp [wrapped]
  have twinLeft : twin.pending = [.plain .resetIo "Initialize state for command"] ++
      (Compilation.substitutions 0 parts .targets ++
        ([.plain .beginCapture s!"Prepare {name} node for redirects"] ++ (behind ++
          (Redirects.closing ⟨none, some (parts.length, append)⟩ 0 name ++
            [.plain .cleanUp "Exit Node Cleanup"])))) := by
    rw [twinPending]
    simp [wrapped]
  obtain ⟨ended, done, agree, early, twinEarly, late, twinLate⟩ :=
    begins.command .resetIo .resetIo (by simp) (by simp) shape.early left twinLeft runs captured
  have silent : Silent ω η _ := Silent.resetIo.append (.substitutions 0 parts .targets)
  have whole := left.trans (List.append_assoc _ _ _).symm
  have screen := silent.screen _ _ _ sound early whole
  obtain ⟨final, through, closing⟩ := late.until early.pending
  obtain ⟨begun, starts, onward⟩ := twinLate.until twinEarly.pending
  obtain ⟨last, going, ending⟩ := onward.until starts.pending
  have begin : Tidies ω η [.plain .beginCapture s!"Prepare {name} node for redirects"]
      Sandbox.beginCapture := .change rfl
  obtain ⟨joins, operator, host, printed, shown, same⟩ := captured_runs agree
    (early.sound sound silent.block whole) closes follows (by simp) (by simp) through early.pending
    (begin _ _ _ starts twinEarly.pending) going starts.pending
  obtain ⟨held, stands, leads⟩ := shape.leads _ _ joins
  obtain ⟨diverted, asked, answered⟩ := ending.diverted going.pending stands leads
  have tidied := Tidies.cleanUp _ _ _ closing through.pending
  rw [screen] at shown same
  obtain ⟨whole, captured⟩ := Sandbox.flush_capture shown text append
  rw [same] at diverted
  rw [tidied.sandbox, tidied.operator, tidied.host, diverted]
  exact ⟨_, whole, captured, asked.trans operator, answered.trans host⟩

end Machine

end StepShell

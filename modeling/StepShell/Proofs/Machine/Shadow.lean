import StepShell.Proofs.Command.Blindness
import StepShell.Proofs.Machine.Lockstep

/-! The same run twice, on screens that differ in what was printed before. It may have been put
aside by a capture, or have been something else. Inside a scope or a capture that was opened since,
both screens are the same. -/

namespace StepShell

theorem Command.Blind.respects {ω : Type} {command : Command ω} (blind : command.Blind)
    (rel : View → View → Prop) : command.Respects rel := by
  intro args sandbox twin operator alike
  have twice := blind args sandbox twin.view operator
  have once : (command args sandbox operator).2.1.view = sandbox.view :=
    congrArg (fun result => result.2.1.view) (blind args sandbox sandbox.view operator)
  rw [alike.same] at twice
  rw [twice]
  exact ⟨rfl, ⟨rfl, once ▸ alike.view⟩, rfl⟩

/-- Inside these brackets both views show the same; outside them the one stands to the other as
`base` says. -/
inductive Shadow (base : View → View → Prop) : List Bracket → View → View → Prop where
  | here {view twin : View} (based : base view twin) : Shadow base [] view twin
  | scope {opened : List Bracket} {view twin below under : View} {scope : Scope}
      (around : Shadow base opened below under) (saved : scope.screen = below.screen)
      (scopes : view.scopes = scope :: below.scopes)
      (twinScopes : twin.scopes = { scope with screen := under.screen } :: under.scopes)
      (captures : view.captures = below.captures) (twinCaptures : twin.captures = under.captures)
      (screens : twin.screen = view.screen) : Shadow base (.scope :: opened) view twin
  | capture {opened : List Bracket} {view twin below under : View}
      (around : Shadow base opened below under) (scopes : view.scopes = below.scopes)
      (twinScopes : twin.scopes = under.scopes)
      (captures : view.captures = below.screen :: below.captures)
      (twinCaptures : twin.captures = under.screen :: under.captures)
      (screens : twin.screen = view.screen) : Shadow base (.capture :: opened) view twin

/-- The second view is the first one with all that was printed before on a screen put aside. -/
structure View.Put (screen : String) (view twin : View) : Prop where
  screens : view.screen = screen ++ twin.screen
  scopes : twin.scopes = view.scopes
  captures : twin.captures = screen :: view.captures

theorem View.put_additive (screen : String) : Sandbox.Additive (Put screen) := by
  intro view other text put
  refine ⟨?_, put.scopes, put.captures⟩
  rw [print, put.screens, String.append_assoc]
  rfl

namespace Shadow

variable {base : View → View → Prop} {opened : List Bracket} {sandbox twin : Sandbox}

theorem additive (more : Sandbox.Additive base) (opened : List Bracket) :
    Sandbox.Additive (Shadow base opened) := by
  intro view other text shadow
  cases shadow with
  | here based => exact .here (more _ _ text based)
  | scope around saved scopes twinScopes captures twinCaptures screens =>
    exact .scope around saved scopes twinScopes captures twinCaptures
      (congrArg (· ++ text) screens)
  | capture around scopes twinScopes captures twinCaptures screens =>
    exact .capture around scopes twinScopes captures twinCaptures (congrArg (· ++ text) screens)

theorem lower (alike : Sandbox.Alike (Shadow base opened) sandbox twin) :
    Sandbox.Alike (Shadow base (.scope :: opened)) sandbox.lower twin.lower := by
  have saved : sandbox.saved.screen = sandbox.view.screen := rfl
  refine ⟨?_, .scope alike.view saved rfl ?_ rfl rfl rfl⟩
  · rw [← alike.same]
    rfl
  · rw [← alike.same]
    rfl

theorem beginCapture (alike : Sandbox.Alike (Shadow base opened) sandbox twin) :
    Sandbox.Alike (Shadow base (.capture :: opened)) sandbox.beginCapture twin.beginCapture := by
  refine ⟨?_, .capture alike.view rfl rfl rfl rfl rfl⟩
  rw [← alike.same]
  rfl

theorem endCapture (alike : Sandbox.Alike (Shadow base (.capture :: opened)) sandbox twin) :
    Sandbox.Alike (Shadow base opened) sandbox.endCapture twin.endCapture := by
  obtain ⟨same, view⟩ := alike
  cases view with
  | @capture _ _ _ below under around scopes twinScopes captures twinCaptures screens =>
    change sandbox.scopes = _ at scopes
    change twin.scopes = _ at twinScopes
    change sandbox.captures = _ at captures
    change twin.captures = _ at twinCaptures
    have ended : sandbox.endCapture = sandbox.seen below := by
      rw [Sandbox.endCapture, captures, Sandbox.seen, ← scopes]
    have ends : twin.endCapture = sandbox.seen under := by
      rw [Sandbox.endCapture, twinCaptures, ← same, Sandbox.seen, Sandbox.seen, ← twinScopes]
      rfl
    rw [ended, ends]
    exact ⟨rfl, around⟩

/-- What is on the screen when the scope is raised comes behind what was printed before it was
lowered. -/
theorem raise (more : Sandbox.Additive base)
    (alike : Sandbox.Alike (Shadow base (.scope :: opened)) sandbox twin) (text : String) :
    twin.screen = sandbox.screen ∧
      Sandbox.Alike (Shadow base opened) { sandbox with screen := text }.raise
        { twin with screen := text }.raise := by
  obtain ⟨same, view⟩ := alike
  cases view with
  | @scope _ _ _ below under scope around saved scopes twinScopes captures twinCaptures screens =>
    change sandbox.scopes = _ at scopes
    change twin.scopes = _ at twinScopes
    change sandbox.captures = _ at captures
    change twin.captures = _ at twinCaptures
    have raised : { sandbox with screen := text }.raise = { sandbox with
        io := scope.io
        workingDir := scope.workingDir
        vars := scope.vars
        functions := scope.functions }.seen (below.print text) := by
      simp [Sandbox.raise, scopes, Sandbox.seen, View.print, saved, captures]
    have raises : { twin with screen := text }.raise = { sandbox with
        io := scope.io
        workingDir := scope.workingDir
        vars := scope.vars
        functions := scope.functions }.seen (under.print text) := by
      have shown : { twin with screen := text } =
          { sandbox.seen twin.view with screen := text } := by rw [same]
      rw [shown]
      simp [Sandbox.raise, Sandbox.seen, Sandbox.view, View.print, twinScopes, twinCaptures]
    rw [raised, raises]
    exact ⟨screens, rfl, additive more opened _ _ text around⟩

/-- Inside a bracket both screens are the same. -/
theorem inside {bracket : Bracket} {view twin : View}
    (shadow : Shadow base (bracket :: opened) view twin) : twin.screen = view.screen := by
  cases shadow with
  | scope _ _ _ _ _ _ screens => exact screens
  | capture _ _ _ _ _ screens => exact screens

end Shadow

/-- What the actions close is determined by them. -/
theorem Closes.unique {opened other : List Bracket} {actions : List Action}
    (closes : Closes opened actions) (again : Closes other actions) : other = opened := by
  induction closes generalizing other with
  | done =>
    cases again
    rfl
  | stay move _ _ ih =>
    cases again with
    | stay _ _ later => exact ih later
    | opens same _ => cases move.symm.trans same
    | closes same _ => cases move.symm.trans same
  | opens move _ ih =>
    cases again with
    | stay same _ _ => cases move.symm.trans same
    | opens same later =>
      cases move.symm.trans same
      exact (List.cons.inj (ih later)).2
    | closes same _ => cases move.symm.trans same
  | closes move _ ih =>
    cases again with
    | stay same _ _ => cases move.symm.trans same
    | opens same _ => cases move.symm.trans same
    | closes same later =>
      cases move.symm.trans same
      rw [ih later]

/-- What looks at the screen does so inside a capture. -/
theorem Follows.capturing {place : Nat → Nat} {action act : Action} {first second : List Action}
    (follows : Follows place (action :: first) (act :: second)) {opened : List Bracket}
    (closes : Closes opened first) (looks : action.operation.looks = true) :
    ∃ outer, opened = .capture :: outer := by
  cases follows with
  | next _ blind _ => rw [looks] at blind; cases blind
  | looking _ ends _ _ =>
    cases closes with
    | stay move _ _ => rw [ends] at move; cases move
    | opens move _ => rw [ends] at move; cases move
    | closes move _ =>
      rw [ends] at move
      cases move
      exact ⟨_, rfl⟩

/-- Every action that closes what it should carries the shadow on. -/
theorem Shadow.carries {base : View → View → Prop} (more : Sandbox.Additive base)
    {place : Nat → Nat} {action act : Action} {first second : List Action} {opened : List Bracket}
    (closes : Closes opened (action :: first))
    (follows : Follows place (action :: first) (act :: second)) :
    ∃ next, Closes next first ∧
      Sandbox.Carries (Shadow base opened) (Shadow base next) action.operation := by
  rcases action with ⟨operation, description, source⟩
  cases closes with
  | stay move _ later =>
    refine ⟨opened, later, ?_⟩
    have inside : operation.looks = true → ∀ view twin, Shadow base opened view twin →
        twin.screen = view.screen := by
      intro looks view twin shadow
      obtain ⟨outer, rfl⟩ := follows.capturing later looks
      exact shadow.inside
    cases operation with
    | judge | writeRedirect => exact ⟨rfl, inside rfl⟩
    | beginCapture | endCapture | lower | raise | enterFunction | leaveFunction | enterSubshell
    | enterSubstitution | leaveSubstitution => cases move
    | _ => exact rfl
  | @opens bracket _ _ _ move later =>
    refine ⟨_, later, ?_⟩
    cases operation with
    | beginCapture =>
      cases move
      exact fun _ _ => Shadow.beginCapture
    | lower | enterFunction | enterSubshell | enterSubstitution =>
      cases move
      exact fun _ _ => Shadow.lower
    | _ => cases move
  | closes move later =>
    refine ⟨_, later, ?_⟩
    cases operation with
    | endCapture =>
      cases move
      exact fun _ _ => Shadow.endCapture
    | raise | leaveFunction =>
      cases move
      intro sandbox twin alike
      obtain ⟨screens, raised⟩ := Shadow.raise more alike sandbox.screen
      have kept : { twin with screen := sandbox.screen } = twin := by rw [← screens]
      rw [kept] at raised
      exact raised
    | leaveSubstitution =>
      cases move
      exact fun _ _ alike => Shadow.raise more alike ""
    | _ => cases move

namespace Machine

variable {ω η : Type} [Operator ω] [Host η]

/-- The machines stand inside these brackets and are twins but for what they show outside them. -/
structure Shadows (link : Link) (base : View → View → Prop) (outer : Sandbox) (first : List Action)
    (opened : List Bracket) (machine twin : Machine ω η) : Prop where
  closes : Closes opened first
  within : Sandbox.Within outer opened machine.sandbox
  sound : machine.Sound
  twins : Twins link (Shadow base opened) machine twin

theorem shadow_coupling (link : Link) {base : View → View → Prop} (more : Sandbox.Additive base)
    {outer : Sandbox} (known : outer.functions.Sound) :
    Coupling link.place fun first (machine twin : Machine ω η) =>
      ∃ opened, Shadows link base outer first opened machine twin where
  free := by
    rintro first machine twin pending others ticks count ⟨opened, closes, within, sound, twins⟩
    exact ⟨opened, closes, within, withPending_sound sound _ _, twins.sandbox, twins.slots,
      twins.commands, twins.limits, twins.operator, twins.host⟩
  step := by
    rintro action first act second machine twin after later ⟨opened, closes, within, sound, twins⟩
      follows done doing
    have step := execute_moves sound closes.sound done
    obtain ⟨next, closing, stands⟩ := within.moves known closes step.sandbox
    obtain ⟨same, left, carries⟩ := Shadow.carries more closes follows
    obtain rfl := closing.unique left
    rw [follows.head] at doing
    have respects : ∀ name command, machine.commands.get? name = some command →
        command.Respects (Shadow base opened) := by
      intro name command found
      rw [sound.commands] at found
      exact (Command.standard_blind found).respects _
    obtain ⟨_, still, beside⟩ := execute_agrees twins (Shadow.additive more opened) carries
      respects _ _ _ _ done doing
    obtain ⟨put, putting, added, adding, ahead⟩ := beside.pending
    obtain ⟨block, put', balanced⟩ := step.pending
    obtain rfl := List.append_cancel_right (added.symm.trans put')
    exact ⟨put, putting, added, adding, ahead, _, balanced _ _ closing, stands,
      ⟨step.commands.trans sound.commands, stands.functions known, step.slots⟩, still⟩

end Machine

end StepShell

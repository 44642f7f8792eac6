import HackerOSInstaller.Wizard.Handlers

/-!
# The loop of `run_app`

`runApp` reads the events in order; each iteration draws, handles the event,
and then makes the loop's two exit checks, `state.quit` and
`current_step >= 10`, the second one calling `perform_installation`.
`Reachable` collects the sessions the loop can wait in, and
`WizardInvariant` is what they all satisfy.
-/

namespace HackerOSInstaller

/-- Where `run_app`'s loop stands after the events read so far: blocked in
`event::read`, left on a quit, or left after handing the state to
`perform_installation`. -/
inductive RunOutcome where
  | waiting (session : Session)
  | quit (state : InstallerState)
  | install (state : InstallerState)
  deriving DecidableEq, Repr

def RunOutcome.state : RunOutcome → InstallerState
  | .waiting session => session.state
  | .quit state => state
  | .install state => state

def runApp : Session → List Event → RunOutcome
  | session, [] => .waiting session
  | session, event :: events =>
      let next := loopBody session event
      if next.state.quit then .quit next.state
      else if next.state.currentStep ≥ 10 then .install next.state
      else runApp next events

/-- `run_app` on a terminal whose size stays the same over the run. -/
def runAppOn (terminal : Terminal) : Session → List Event → RunOutcome
  | session, [] => .waiting session
  | session, event :: events =>
      let next := loopBodyOn terminal session event
      if next.state.quit then .quit next.state
      else if next.state.currentStep ≥ 10 then .install next.state
      else runAppOn terminal next events

/-- Neither exit check fires after this iteration. -/
def Continues (next : Session) : Prop :=
  next.state.quit = false ∧ next.state.currentStep < 10

theorem runApp_cons_of_continues {session : Session} {event : Event} (events : List Event)
    (continues : Continues (loopBody session event)) :
    runApp session (event :: events) = runApp (loopBody session event) events := by
  obtain ⟨running, bounded⟩ := continues
  simp [runApp, running, Nat.not_le.mpr bounded]

/-- The sessions the loop can wait in, from `run_app`'s start. -/
inductive Reachable : Session → Prop
  | init : Reachable Session.init
  | step {session : Session} (event : Event) :
      Reachable session → Continues (loopBody session event) → Reachable (loopBody session event)

/-- What every waiting session satisfies. -/
structure WizardInvariant (session : Session) : Prop where
  running : session.state.quit = false
  bounded : session.state.currentStep ≤ 9
  hostname : session.state.hostname ≠ ""
  collected : FieldsCollected session.state
  cursorUnset : ¬IsListStage session.state.currentStep → session.listState.selected = none

namespace WizardInvariant

variable {session next : Session} {event : Event}

theorem init : WizardInvariant Session.init where
  running := rfl
  bounded := by decide
  hostname := by decide
  collected := ⟨by decide, by decide, by decide, by decide, by decide, by decide, by decide⟩
  cursorUnset _ := rfl

theorem hostname_ne (invariant : WizardInvariant session)
    (outcome : LoopOutcome session event next) : next.state.hostname ≠ "" := by
  have typed : next.state.hostname =
      if session.state.currentStep = 3 then event.typeInto session.state.hostname
      else session.state.hostname :=
    outcome.text_eq .hostname fun _ => invariant.hostname
  rw [typed]
  split
  · exact event.typeInto_ne_empty invariant.hostname
  · exact invariant.hostname

theorem step (invariant : WizardInvariant session) (outcome : LoopOutcome session event next)
    (continues : Continues next) : WizardInvariant next where
  running := continues.1
  bounded := by have := continues.2; omega
  hostname := invariant.hostname_ne outcome
  collected := outcome.fieldsCollected invariant.collected
  cursorUnset notList := by
    rcases outcome.currentStep_eq with same | ⟨_, _, _, reset⟩
    · exact outcome.selected_eq_none (same ▸ notList) (invariant.cursorUnset (same ▸ notList))
    · exact reset

/-- The loop leaves towards `perform_installation` only on the Enter of the
summary stage, with every field filled. -/
theorem handoff (invariant : WizardInvariant session) (outcome : LoopOutcome session event next)
    (done : 10 ≤ next.state.currentStep) :
    session.state.currentStep = 9 ∧ event = .press .enter ∧ next.state.currentStep = 10 ∧
      FieldsCollected next.state ∧ next.state.hostname ≠ "" := by
  have bounded := invariant.bounded
  rcases outcome.currentStep_eq with same | ⟨advanced, _, isEnter, _⟩
  · omega
  · exact ⟨by omega, isEnter, by omega, outcome.fieldsCollected invariant.collected,
      invariant.hostname_ne outcome⟩

end WizardInvariant

theorem Reachable.invariant {session : Session} (reachable : Reachable session) :
    WizardInvariant session := by
  induction reachable with
  | init => exact .init
  | step event _ continues invariant => exact invariant.step (loopBody_outcome _ event) continues

section Runs

variable {session last : Session} {events : List Event} {state : InstallerState}

theorem runApp_cons (session : Session) (event : Event) (events : List Event) :
    (loopBody session event).state.quit = true ∧
        runApp session (event :: events) = .quit (loopBody session event).state ∨
      (loopBody session event).state.quit = false ∧
        10 ≤ (loopBody session event).state.currentStep ∧
        runApp session (event :: events) = .install (loopBody session event).state ∨
      Continues (loopBody session event) ∧
        runApp session (event :: events) = runApp (loopBody session event) events := by
  by_cases quit : (loopBody session event).state.quit = true
  · simp [runApp, quit]
  · by_cases done : 10 ≤ (loopBody session event).state.currentStep
    · simp_all [runApp]
    · simp_all [runApp, Continues]

theorem runApp_cons_state (session : Session) (event : Event) (events : List Event) :
    ¬Continues (loopBody session event) ∧
        (runApp session (event :: events)).state = (loopBody session event).state ∨
      Continues (loopBody session event) ∧
        runApp session (event :: events) = runApp (loopBody session event) events := by
  rcases runApp_cons session event events with ⟨quit, ended⟩ | ⟨-, done, ended⟩ | continues
  · exact .inl ⟨fun continues => by simp_all [Continues], by rw [ended]; rfl⟩
  · exact .inl ⟨fun continues => by have := continues.2; omega, by rw [ended]; rfl⟩
  · exact .inr continues

theorem runApp_append_of_waiting (waiting : runApp session events = .waiting last)
    (later : List Event) : runApp session (events ++ later) = runApp last later := by
  induction events generalizing session with
  | nil => cases waiting; rfl
  | cons event events ih =>
      rcases runApp_cons session event events with ⟨_, quit⟩ | ⟨_, _, install⟩ | ⟨continues, next⟩
      · rw [quit] at waiting; cases waiting
      · rw [install] at waiting; cases waiting
      · rw [next] at waiting
        rw [List.cons_append, runApp_cons_of_continues _ continues]
        exact ih waiting

theorem Reachable.runApp_waiting (reachable : Reachable session)
    (waiting : runApp session events = .waiting last) : Reachable last := by
  induction events generalizing session with
  | nil => cases waiting; exact reachable
  | cons event events ih =>
      rcases runApp_cons session event events with ⟨_, quit⟩ | ⟨_, _, install⟩ | ⟨continues, next⟩
      · rw [quit] at waiting; cases waiting
      · rw [install] at waiting; cases waiting
      · rw [next] at waiting
        exact ih (reachable.step event continues) waiting

theorem quit_not_mem_of_waiting (waiting : runApp session events = .waiting last) :
    Event.press (.char 'q') ∉ events := by
  induction events generalizing session with
  | nil => simp
  | cons event events ih =>
      rcases runApp_cons session event events with ⟨_, quit⟩ | ⟨_, _, install⟩ | ⟨continues, next⟩
      · rw [quit] at waiting; cases waiting
      · rw [install] at waiting; cases waiting
      · rw [next] at waiting
        intro member
        rcases List.mem_cons.mp member with isQuit | later
        · have := (loopBody_outcome session event).quit_iff.mpr (.inr isQuit.symm)
          simp_all [Continues]
        · exact ih waiting later

theorem runApp_eq_install (install : runApp session events = .install state) :
    ∃ before event after last, events = before ++ event :: after ∧
      runApp session before = .waiting last ∧ (loopBody last event).state = state ∧
      state.quit = false ∧ 10 ≤ state.currentStep := by
  induction events generalizing session with
  | nil => cases install
  | cons event events ih =>
      rcases runApp_cons session event events with ⟨_, quit⟩ | ⟨running, done, handed⟩ |
        ⟨continues, next⟩
      · rw [quit] at install; cases install
      · rw [handed] at install; cases install
        exact ⟨[], event, events, session, rfl, rfl, rfl, running, done⟩
      · rw [next] at install
        obtain ⟨before, final, after, last, split, waiting, handed, running, done⟩ := ih install
        refine ⟨event :: before, final, after, last, by simp [split], ?_, handed, running, done⟩
        rw [runApp_cons_of_continues _ continues]
        exact waiting

/-- The state a run hands to `perform_installation` is at stage 10 with
every field filled. -/
theorem handoff_fieldsCollected (install : runApp Session.init events = .install state) :
    state.currentStep = 10 ∧ FieldsCollected state ∧ state.hostname ≠ "" := by
  obtain ⟨before, event, after, last, -, waiting, rfl, -, done⟩ := runApp_eq_install install
  obtain ⟨-, -, atTen, collected, hostname⟩ :=
    (Reachable.init.runApp_waiting waiting).invariant.handoff (loopBody_outcome last event) done
  exact ⟨atTen, collected, hostname⟩

end Runs

end HackerOSInstaller

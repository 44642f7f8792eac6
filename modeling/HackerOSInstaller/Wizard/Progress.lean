import HackerOSInstaller.Wizard.Cursor
import HackerOSInstaller.Wizard.Enterable

/-!
# The wizard has no dead end

From every session a run of `run_app` can reach, some key presses still make
the wizard hand off to `perform_installation`.  `nextKey` is such a press:
`Up` until the cursor of a list stage is on the first entry, which every
stage accepts, a letter into an empty text field, and `Enter` otherwise.
Each press either moves the stage on or brings the cursor or the field
closer to what `handle_enter` accepts, so the presses end at stage 10.
-/

namespace HackerOSInstaller

/-- `handle_enter` refuses the field of the current text stage: stages 1, 2
and 8 with an empty field. -/
def fieldPending (state : InstallerState) : Bool :=
  match state.currentStep with
  | 1 => state.username.isEmpty
  | 2 => state.password.isEmpty
  | 8 => state.disk.isEmpty
  | _ => false

/-- The key that moves the wizard on from `session`. -/
def nextKey (session : Session) : KeyCode :=
  if IsListStage session.state.currentStep then
    if cursorIndex session = 0 then .enter else .up
  else if fieldPending session.state then .char 'a' else .enter

/-- What is left to do at the current stage before an Enter is accepted:
the cursor's distance from the first entry, or the empty field. -/
def pending (session : Session) : Nat :=
  if IsListStage session.state.currentStep then cursorIndex session
  else if fieldPending session.state then 1 else 0

theorem nextKey_ne_quit (session : Session) : nextKey session ≠ .char 'q' := by
  unfold nextKey
  split_ifs <;> simp

section Presses

variable {session : Session}

theorem loopBody_up_listStage (listStage : IsListStage session.state.currentStep) {index : Nat}
    (cursor : cursorIndex session = index + 1) :
    loopBody session (.press .up) = ⟨{ session.state with previewImage := false }, ⟨some index⟩⟩ := by
  have drawn := drawUi_selected listStage
  rw [cursor] at drawn
  simp only [loopBody, handleEvent, Event.press, handleKey, if_true, drawUi_state, selectUp, drawn,
    gt_iff_lt, Nat.zero_lt_succ, Nat.add_sub_cancel]
  rfl

theorem loopBody_enter_listStage (listStage : IsListStage session.state.currentStep)
    (top : cursorIndex session = 0) :
    (loopBody session (.press .enter)).state.currentStep = session.state.currentStep + 1 ∧
      (loopBody session (.press .enter)).state.quit = session.state.quit := by
  have drawn := drawUi_selected listStage
  rw [top] at drawn
  have stage : session.state.currentStep = 4 ∨ session.state.currentStep = 5 ∨
      session.state.currentStep = 6 ∨ session.state.currentStep = 7 := by
    unfold IsListStage at listStage
    omega
  simp only [loopBody, handleEvent, Event.press, handleKey, if_true]
  rcases stage with stage | stage | stage | stage <;>
    simp [handleEnter, enterListStage, drawn, stage, editionAt, debianBranchAt, filesystemAt]

theorem loopBody_char_textStage (textStage : ¬IsListStage session.state.currentStep)
    {c : Char} (notQuit : c ≠ 'q') :
    (loopBody session (.press (.char c))).state =
      handleCharInput { session.state with previewImage := false } c ∧
      (loopBody session (.press (.char c))).listState = session.listState := by
  constructor
  · simp [loopBody, handleEvent, Event.press, handleKey_char _ notQuit]
  · simp [loopBody, handleEvent, Event.press, handleKey_char _ notQuit, drawUi, textStage]

theorem loopBody_enter_textStage (textStage : ¬IsListStage session.state.currentStep)
    (filled : fieldPending session.state = false) (bounded : session.state.currentStep ≤ 9) :
    (loopBody session (.press .enter)).state.currentStep = session.state.currentStep + 1 ∧
      (loopBody session (.press .enter)).state.quit = session.state.quit := by
  have stage : session.state.currentStep ∈ [0, 1, 2, 3, 8, 9] := by
    unfold IsListStage at textStage
    simp only [List.mem_cons, List.mem_singleton, List.not_mem_nil, or_false]
    omega
  simp only [loopBody, handleEvent, Event.press, handleKey, if_true]
  simp only [List.mem_cons, List.mem_singleton, List.not_mem_nil, or_false] at stage
  rcases stage with stage | stage | stage | stage | stage | stage <;>
    simp_all [fieldPending, handleEnter, enterTextStage, apply_ite InstallerState.currentStep,
      apply_ite InstallerState.quit]

end Presses

theorem loopBody_nextKey {session : Session} (invariant : WizardInvariant session) :
    (loopBody session (.press (nextKey session))).state.quit = false ∧
      ((loopBody session (.press (nextKey session))).state.currentStep =
          session.state.currentStep + 1 ∨
        (loopBody session (.press (nextKey session))).state.currentStep =
            session.state.currentStep ∧
          pending (loopBody session (.press (nextKey session))) < pending session) := by
  have bounded := invariant.bounded
  have notQuit : Event.press (nextKey session) ≠ .press (.char 'q') := fun same =>
    nextKey_ne_quit session (by simpa [Event.press] using same)
  refine ⟨by simpa [invariant.running, notQuit] using
    (loopBody_outcome session (.press (nextKey session))).quit_iff, ?_⟩
  unfold nextKey
  split_ifs with listStage top pendingField
  · exact .inl (loopBody_enter_listStage listStage top).1
  · obtain ⟨index, cursor⟩ := Nat.exists_eq_succ_of_ne_zero top
    rw [loopBody_up_listStage listStage cursor]
    refine .inr ⟨rfl, ?_⟩
    simp only [pending, listStage, if_true, cursor]
    exact Nat.lt_succ_self index
  · obtain ⟨state, listState⟩ := @loopBody_char_textStage _ listStage 'a' (by decide)
    refine .inr ⟨by simp [state, handleCharInput_eq], ?_⟩
    simp only [pending, state, listState, handleCharInput_eq, listStage, pendingField, if_false,
      if_true]
    revert pendingField
    unfold fieldPending
    split <;> simp_all [String.isEmpty_iff, String.push_ne_empty]
  · exact .inl (loopBody_enter_textStage listStage (by simpa using pendingField) bounded).1

/-- From every reachable session, some key presses make `run_app` hand
off. -/
theorem Reachable.exists_handoff {session : Session} (reachable : Reachable session) :
    ∃ events state, runApp session events = .install state := by
  have bounded := reachable.invariant.bounded
  obtain ⟨running, progress⟩ := loopBody_nextKey reachable.invariant
  by_cases done : 10 ≤ (loopBody session (.press (nextKey session))).state.currentStep
  · exact ⟨[.press (nextKey session)], (loopBody session (.press (nextKey session))).state,
      by simp [runApp, running, done]⟩
  · have continues : Continues (loopBody session (.press (nextKey session))) :=
      ⟨running, by omega⟩
    obtain ⟨events, state, run⟩ := Reachable.exists_handoff (reachable.step _ continues)
    exact ⟨_ :: events, state, (runApp_cons_of_continues events continues).trans run⟩
termination_by (10 - session.state.currentStep, pending session)
decreasing_by
  rcases progress with advanced | ⟨same, smaller⟩
  · exact Prod.Lex.left _ _ (by omega)
  · rw [same]
    exact Prod.Lex.right _ smaller

/-- Whatever keys were pressed, as long as the wizard is still waiting,
further presses make it hand off to `perform_installation`. -/
theorem waiting_can_hand_off {events : List Event} {session : Session}
    (waiting : runApp Session.init events = .waiting session) :
    ∃ more state, runApp Session.init (events ++ more) = .install state := by
  obtain ⟨more, state, run⟩ := (Reachable.init.runApp_waiting waiting).exists_handoff
  exact ⟨more, state, (runApp_append_of_waiting waiting more).trans run⟩

theorem start_can_hand_off :
    runApp Session.init [] = .waiting Session.init ∧
      ∃ more state, runApp Session.init ([] ++ more) = .install state :=
  ⟨rfl, waiting_can_hand_off rfl⟩

end HackerOSInstaller

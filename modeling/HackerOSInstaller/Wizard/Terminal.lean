import Mathlib.Data.List.Forall2
import HackerOSInstaller.Wizard.Run

/-!
# The loop on a terminal

On a terminal whose body panel has a cell to draw in, ratatui's
`List::render` moves a cursor past the last entry of the list onto it, at
every draw; `runAppOn` is `run_app` with that write and `runApp` without it.
The write is the same as moving the cursor before the draw (`clampOn`), so
an iteration on a terminal is an iteration of `loopBody` on the clamped
session.  From a clamped session, an iteration leaves a clamped session
again, but for a `Down` on the last entry, which the next draw undoes.  So
every run on a terminal is a run of `runApp` on the same events, where the
`Down` presses made on the last entry are read as ignored events: the two
go through the same states and hand the same state to
`perform_installation`, and what is proved of the states `runApp` reaches
holds on every terminal.  On a terminal too small to show a row of the
list the two loops are the same.
-/

namespace HackerOSInstaller

/-- The keys that move the cursor. -/
inductive Navigation where
  | up
  | down
  deriving DecidableEq, Repr

/-- The navigation key of an event: an `Up` or a `Down` press. -/
def Event.navigation? : Event → Option Navigation
  | .key ⟨.up, .press⟩ => some .up
  | .key ⟨.down, .press⟩ => some .down
  | _ => none

/-- A navigation key on the cursor index: `Up` stops at `0`, `Down` has no
bound. -/
def Navigation.move : Navigation → Nat → Nat
  | .up, index => index - 1
  | .down, index => index + 1

theorem Event.navigation?_eq_none {event : Event}
    (ignored : ∀ code, event = .press code → code = .other) : event.navigation? = none := by
  rcases event with ⟨⟨⟩ | _ | _ | _ | _, ⟨⟩⟩ | _ <;> simp_all [Event.navigation?, Event.press]

theorem Event.navigation?_eq_down {event : Event} (down : event.navigation? = some .down) :
    event = .press .down := by
  rcases event with ⟨⟨⟩ | _ | _ | _ | _, ⟨⟩⟩ | _ <;> simp_all [Event.navigation?, Event.press]

theorem drawUi_selected {session : Session} (listStage : IsListStage session.state.currentStep) :
    (drawUi session).listState.selected = some (cursorIndex session) := by
  simp [drawUi, listStage, cursorIndex]

theorem listItems_length_pos {stage : Nat} (listStage : IsListStage stage) :
    0 < (listItems stage).length := by
  obtain ⟨low, high⟩ := listStage
  obtain rfl | rfl | rfl | rfl : stage = 4 ∨ stage = 5 ∨ stage = 6 ∨ stage = 7 := by omega
  all_goals decide

namespace LoopOutcome

variable {session next : Session} {event : Event}

theorem cursor_eq (outcome : LoopOutcome session event next)
    (listStage : IsListStage session.state.currentStep)
    (stays : next.state.currentStep = session.state.currentStep) :
    cursorIndex next =
      (event.navigation?.map fun move => move.move (cursorIndex session)).getD
        (cursorIndex session) := by
  have drawn := drawUi_selected listStage
  cases outcome with
  | enter outcome =>
      cases outcome with
      | earlyReturn => simp [cursorIndex, drawn, Event.navigation?, Event.press]
      | reject rejected => simp_all
      | _ => simp_all
  | up | down => simp [cursorIndex, drawn, Event.navigation?, Event.press, Navigation.move]
  | ignored ignored => simp [cursorIndex, drawn, Event.navigation?_eq_none ignored]
  | _ => simp [cursorIndex, drawn, Event.navigation?, Event.press]

end LoopOutcome

/-- The cursor the render leaves, put in place before the draw: on a
terminal showing the list, a cursor past the last entry of a list stage is
moved onto it. -/
def clampOn (terminal : Terminal) (session : Session) : Session :=
  if terminal.bodyVisible ∧ IsListStage session.state.currentStep ∧
      (listItems session.state.currentStep).length ≤ cursorIndex session then
    ⟨session.state, ⟨some ((listItems session.state.currentStep).length - 1)⟩⟩
  else session

/-- The index a cursor at `index` is drawn at on `terminal`, in a list of
`count` entries. -/
def Terminal.clampIndex (terminal : Terminal) (count index : Nat) : Nat :=
  if terminal.bodyVisible then min index (count - 1) else index

section Clamp

variable {terminal : Terminal} {session : Session}

@[simp] theorem clampOn_state (terminal : Terminal) (session : Session) :
    (clampOn terminal session).state = session.state := by
  unfold clampOn
  split <;> rfl

theorem clampOn_of_not {terminal : Terminal} {session : Session}
    (kept : ¬(terminal.bodyVisible ∧ IsListStage session.state.currentStep ∧
      (listItems session.state.currentStep).length ≤ cursorIndex session)) :
    clampOn terminal session = session :=
  if_neg kept

theorem clampOn_hidden (hidden : terminal.bodyVisible = false) (session : Session) :
    clampOn terminal session = session :=
  clampOn_of_not (by simp [hidden])

theorem cursorIndex_clampOn (listStage : IsListStage session.state.currentStep) :
    cursorIndex (clampOn terminal session) =
      terminal.clampIndex (listItems session.state.currentStep).length (cursorIndex session) := by
  have filled := listItems_length_pos listStage
  unfold clampOn Terminal.clampIndex
  split_ifs with clamped visible visible <;> simp_all [cursorIndex] <;> omega

theorem Session.ext_selected {first second : Session} (state : first.state = second.state)
    (selected : first.listState.selected = second.listState.selected) : first = second := by
  rcases first with ⟨_, ⟨_⟩⟩
  rcases second with ⟨_, ⟨_⟩⟩
  simp_all

theorem renderList_some (terminal : Terminal) {count : Nat} (filled : 0 < count) (index : Nat) :
    renderList terminal.bodyVisible count ⟨some index⟩ = ⟨some (terminal.clampIndex count index)⟩ := by
  unfold renderList Terminal.clampIndex
  cases terminal.bodyVisible
  · rfl
  · simp only [Bool.not_true, Bool.false_eq_true, if_false, Nat.pos_iff_ne_zero.mp filled, if_true]
    split_ifs <;> simp [ListState.select] <;> omega

/-- The draw on a terminal is the draw of the clamped session. -/
theorem drawUiOn_eq (terminal : Terminal) (session : Session) :
    drawUiOn terminal session = drawUi (clampOn terminal session) := by
  by_cases listStage : IsListStage session.state.currentStep
  · have drawn : (drawUi session).listState = ⟨some (cursorIndex session)⟩ := by
      rw [← drawUi_selected listStage]
    have clampedStage : IsListStage (clampOn terminal session).state.currentStep := by
      simpa using listStage
    refine Session.ext_selected (by simp [drawUiOn]) ?_
    simp only [drawUiOn, if_pos listStage, drawn, renderList_some _ (listItems_length_pos listStage),
      drawUi_selected clampedStage, cursorIndex_clampOn listStage]
  · rw [clampOn_of_not fun ⟨_, shown, _⟩ => listStage shown]
    exact Session.ext_selected (by simp [drawUiOn]) (by simp [drawUiOn, listStage])

theorem loopBodyOn_eq (terminal : Terminal) (session : Session) (event : Event) :
    loopBodyOn terminal session event = loopBody (clampOn terminal session) event := by
  rw [loopBodyOn, drawUiOn_eq]
  rfl

theorem runAppOn_hidden (hidden : terminal.bodyVisible = false) (session : Session)
    (events : List Event) : runAppOn terminal session events = runApp session events := by
  induction events generalizing session with
  | nil => rfl
  | cons event events ih =>
      simp only [runAppOn, runApp, loopBodyOn_eq, clampOn_hidden hidden, ih]

/-- From a clamped session an iteration leaves a clamped session, but for a
`Down` press on the last entry, after which the clamp gives back the drawn
session. -/
theorem clampOn_loopBody (terminal : Terminal) (session : Session) (event : Event) :
    clampOn terminal (loopBody (clampOn terminal session) event) =
        loopBody (clampOn terminal session) event ∨
      event = .press .down ∧
        clampOn terminal (loopBody (clampOn terminal session) event) =
          drawUi (clampOn terminal session) := by
  have stateEq := clampOn_state terminal session
  have clamped : terminal.bodyVisible = true → IsListStage session.state.currentStep →
      cursorIndex (clampOn terminal session) < (listItems session.state.currentStep).length := by
    intro visible listStage
    have := listItems_length_pos listStage
    rw [cursorIndex_clampOn listStage, Terminal.clampIndex, if_pos visible]
    omega
  generalize clampOn terminal session = drawn at stateEq clamped ⊢
  have outcome := loopBody_outcome drawn event
  by_cases shown : terminal.bodyVisible ∧ IsListStage (loopBody drawn event).state.currentStep
  swap
  · exact .inl (clampOn_of_not fun ⟨visible, listStage, _⟩ => shown ⟨visible, listStage⟩)
  have filled := listItems_length_pos shown.2
  rcases outcome.currentStep_eq with same | ⟨-, -, -, reset⟩
  swap
  · have unset : cursorIndex (loopBody drawn event) = 0 := by simp [cursorIndex, reset]
    exact .inl (clampOn_of_not fun ⟨_, _, past⟩ => by omega)
  have listStage : IsListStage drawn.state.currentStep := same ▸ shown.2
  have within := clamped shown.1 (stateEq ▸ listStage)
  rw [← stateEq] at within
  have moved := outcome.cursor_eq listStage same
  by_cases past : (listItems (loopBody drawn event).state.currentStep).length ≤
      cursorIndex (loopBody drawn event)
  swap
  · exact .inl (clampOn_of_not fun ⟨_, _, over⟩ => past over)
  rw [same] at past
  rcases navigated : event.navigation? with _ | ⟨⟩ | ⟨⟩ <;>
    simp only [navigated, Option.map_none', Option.map_some', Option.getD_none,
      Option.getD_some, Navigation.move] at moved
  · omega
  · omega
  · obtain rfl := Event.navigation?_eq_down navigated
    refine .inr ⟨rfl, ?_⟩
    rw [clampOn, if_pos ⟨shown.1, shown.2, same ▸ past⟩]
    refine Session.ext_selected rfl ?_
    rw [drawUi_selected listStage, same, Option.some.injEq]
    omega

end Clamp

/-- The outcome with `f` applied to the session of a waiting loop. -/
def RunOutcome.mapWaiting (f : Session → Session) : RunOutcome → RunOutcome
  | .waiting session => .waiting (f session)
  | .quit state => .quit state
  | .install state => .install state

/-- Every run on a terminal is a run of `runApp` from the clamped session on
the same events, but for `Down` presses it reads as ignored events: the two
runs end alike, with the same state, and a waiting run waits in the same
session once clamped. -/
theorem runAppOn_refines (terminal : Terminal) (session : Session) (events : List Event) :
    ∃ read : List Event,
      List.Forall₂ (fun event read => read = event ∨ event = .press .down ∧ read = .other)
        events read ∧
      runApp (clampOn terminal session) read =
        (runAppOn terminal session events).mapWaiting (clampOn terminal) := by
  induction events generalizing session with
  | nil => exact ⟨[], .nil, rfl⟩
  | cons event events ih =>
      obtain ⟨read, matched, run⟩ := ih (loopBody (clampOn terminal session) event)
      have stepped : ∃ first, (first = event ∨ event = .press .down ∧ first = .other) ∧
          loopBody (clampOn terminal session) first =
            clampOn terminal (loopBody (clampOn terminal session) event) := by
        rcases clampOn_loopBody terminal session event with kept | ⟨down, undone⟩
        · exact ⟨event, .inl rfl, kept.symm⟩
        · exact ⟨.other, .inr ⟨down, rfl⟩, undone.symm⟩
      obtain ⟨first, related, step⟩ := stepped
      refine ⟨first :: read, .cons related matched, ?_⟩
      simp only [runApp, runAppOn, step, clampOn_state, loopBodyOn_eq]
      split_ifs
      · rfl
      · rfl
      · exact run

end HackerOSInstaller

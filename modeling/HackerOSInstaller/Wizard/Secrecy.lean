import HackerOSInstaller.Wizard.Screen
import HackerOSInstaller.Wizard.Enterable

/-!
# The password on screen

The wizard reads the password in two places: `handle_enter` refuses an
empty one, and `draw_password_input` shows one star per byte of it.  So two
runs whose key events differ only in the characters typed at the password
stage, each pair of the same UTF-8 width, go through the same stages, show
the same screens, and end with states that differ only in the password.
The frame lemma `loopBody_withPassword` says how one iteration treats a
session with another password; the run theorem follows by induction over
the events.
-/

namespace HackerOSInstaller

theorem String.utf8ByteSize_go_append (chars : List Char) (c : Char) :
    String.utf8ByteSize.go (chars ++ [c]) = String.utf8ByteSize.go chars + c.utf8Size := by
  induction chars with
  | nil => simp [String.utf8ByteSize.go]
  | cons head tail ih =>
      simp only [List.cons_append, String.utf8ByteSize.go, List.append_eq, ih]
      omega

theorem String.utf8ByteSize_push (text : String) (c : Char) :
    (text.push c).utf8ByteSize = text.utf8ByteSize + c.utf8Size :=
  String.utf8ByteSize_go_append text.data c

theorem String.isEmpty_eq_of_utf8ByteSize {text text' : String}
    (size : text'.utf8ByteSize = text.utf8ByteSize) : text'.isEmpty = text.isEmpty := by
  simp [String.isEmpty, String.endPos, size]

/-- The session with its password replaced. -/
def Session.withPassword (session : Session) (password : String) : Session :=
  ⟨{ session.state with password }, session.listState⟩

@[simp] theorem Session.withPassword_password (session : Session) (password : String) :
    (session.withPassword password).state.password = password :=
  rfl

@[simp] theorem Session.withPassword_withPassword (session : Session) (password password' : String) :
    (session.withPassword password).withPassword password' = session.withPassword password' :=
  rfl

section Frame

variable (password : String)

theorem drawUi_withPassword (session : Session) :
    drawUi (session.withPassword password) = (drawUi session).withPassword password := by
  unfold drawUi Session.withPassword
  split <;> simp_all

theorem handleEnter_withPassword (session : Session)
    (empty : password.isEmpty = session.state.password.isEmpty) :
    handleEnter (session.withPassword password) = (handleEnter session).withPassword password := by
  unfold handleEnter enterListStage enterTextStage
  dsimp only [Session.withPassword]
  split <;> (try split) <;> (try split) <;> simp_all

theorem handleEvent_withPassword (session : Session) (event : Event)
    (empty : password.isEmpty = session.state.password.isEmpty) :
    handleEvent (session.withPassword password) event =
      (handleEvent session event).withPassword
        (if session.state.currentStep = 2 then event.typeInto password else password) := by
  rcases event with ⟨code, kind⟩ | _
  · by_cases pressed : kind = .press
    · subst pressed
      cases code with
      | char c =>
          by_cases isQuit : c = 'q'
          · subst isQuit
            simp [handleEvent, handleKey, Session.withPassword, Event.typeInto, Event.typedChar]
          · simp [handleEvent, handleKey_char _ isQuit, handleCharInput_eq, Session.withPassword,
              Event.typeInto, Event.typedChar, isQuit]
      | enter =>
          simp [handleEvent, handleKey, handleEnter_withPassword password session empty,
            Event.typeInto, Event.typedChar]
      | up | down | other =>
          simp [handleEvent, handleKey, Session.withPassword, Event.typeInto, Event.typedChar]
    · simp [handleEvent, pressed, Event.typeInto, Event.typedChar]
  · simp [handleEvent, Event.typeInto, Event.typedChar]

/-- One iteration on a session with another password: the same iteration,
with the other password, grown by the character typed at the password
stage.  Only whether the password is empty is read. -/
theorem loopBody_withPassword (session : Session) (event : Event)
    (empty : password.isEmpty = session.state.password.isEmpty) :
    loopBody (session.withPassword password) event =
      (loopBody session event).withPassword
        (if session.state.currentStep = 2 then event.typeInto password else password) := by
  unfold loopBody
  rw [drawUi_withPassword,
    handleEvent_withPassword password _ _ (by simpa only [drawUi_state] using empty)]
  simp only [drawUi_state]

end Frame

theorem loopBody_typePassword {session : Session} (stage : session.state.currentStep = 2)
    {c : Char} (notQuit : c ≠ 'q') :
    loopBody session (.press (.char c)) =
      (drawUi session).withPassword (session.state.password.push c) := by
  simp [loopBody, handleEvent, Event.press, handleKey_char _ notQuit, handleCharInput_eq, stage,
    Session.withPassword]

theorem drawScreen_withPassword (session : Session) {password : String}
    (size : password.utf8ByteSize = session.state.password.utf8ByteSize) :
    drawScreen (session.withPassword password) = drawScreen session := by
  simp [drawScreen, Session.withPassword, drawPasswordInput, drawSummary, size]

theorem clipLine_passwordLine (terminal : Terminal) (count count' : Nat) :
    terminal.clipLine ("Enter password: " ++ stars count) =
        terminal.clipLine ("Enter password: " ++ stars count') ↔
      terminal.bodyVisible = false ∨
        min count (terminal.width - 18) = min count' (terminal.width - 18) := by
  unfold Terminal.clipLine
  cases terminal.bodyVisible
  · simp
  · have room : terminal.width - 2 - "Enter password: ".data.length = terminal.width - 18 := by
      simp only [show "Enter password: ".data.length = 16 from rfl]
      omega
    simp only [if_true, String.ext_iff, String.data_append, stars, List.take_append_eq_append_take,
      List.take_replicate, room, List.append_cancel_left_eq, List.replicate_inj]
    simp [min_comm]

/-- On every terminal the password stage shows the password only through
its UTF-8 width, in stars clipped with the rest of the line at the body
panel's inner width: another password shows the same screen exactly when
the panel has no inner cell or the two widths agree up to the columns that
`Enter password: ` leaves. -/
theorem drawScreen_withPassword_iff {session : Session} (stage : session.state.currentStep = 2)
    (terminal : Terminal) (password : String) :
    (drawScreen (session.withPassword password)).clipOn terminal =
        (drawScreen session).clipOn terminal ↔
      terminal.bodyVisible = false ∨
        min password.utf8ByteSize (terminal.width - 18) =
          min session.state.password.utf8ByteSize (terminal.width - 18) := by
  rw [← clipLine_passwordLine]
  simp [Screen.clipOn, drawScreen, Session.withPassword, stage, drawPasswordInput]

theorem passwordStage_shows_width :
    let session : Session :=
      ⟨{ InstallerState.default with currentStep := 2, password := "abc" }, ⟨none⟩⟩
    session.state.currentStep = 2 ∧
      ((drawScreen (session.withPassword "abcd")).clipOn ⟨20, 24⟩ =
          (drawScreen session).clipOn ⟨20, 24⟩ ↔
        (⟨20, 24⟩ : Terminal).bodyVisible = false ∨
          min "abcd".utf8ByteSize (20 - 18) = min session.state.password.utf8ByteSize (20 - 18)) :=
  ⟨rfl, drawScreen_withPassword_iff rfl ⟨20, 24⟩ "abcd"⟩

/-- Two sessions that differ at most in the password, of the same UTF-8
width. -/
structure PasswordTwins (session session' : Session) : Prop where
  same : session' = session.withPassword session'.state.password
  size : session'.state.password.utf8ByteSize = session.state.password.utf8ByteSize

/-- Two events the wizard cannot tell apart but for the password: the same
event, or at the password stage two typed characters of the same width. -/
def passwordVariantStep (session : Session) (event event' : Event) : Bool :=
  event == event' ||
    session.state.currentStep == 2 &&
      match event, event' with
      | .key ⟨.char c, .press⟩, .key ⟨.char c', .press⟩ =>
          c != 'q' && c' != 'q' && c.utf8Size == c'.utf8Size
      | _, _ => false

/-- Two event sequences that differ only in the characters typed at the
password stage, each pair of the same width, read from `session`. -/
def passwordVariant : Session → List Event → List Event → Bool
  | _, [], [] => true
  | session, event :: events, event' :: events' =>
      passwordVariantStep session event event' &&
        passwordVariant (loopBody session event) events events'
  | _, _, _ => false

theorem PasswordTwins.step {session session' : Session} (twins : PasswordTwins session session')
    {event event' : Event} (variant : passwordVariantStep session event event' = true) :
    PasswordTwins (loopBody session event) (loopBody session' event') := by
  obtain ⟨same, size⟩ := twins
  have empty := String.isEmpty_eq_of_utf8ByteSize size
  simp only [passwordVariantStep, Bool.or_eq_true, beq_iff_eq, Bool.and_eq_true] at variant
  rcases variant with rfl | ⟨stage, typed⟩
  · rw [same, loopBody_withPassword _ _ _ empty]
    refine ⟨rfl, ?_⟩
    have outcome : (loopBody session event).state.password =
        if session.state.currentStep = 2 then event.typeInto session.state.password
        else session.state.password :=
      (loopBody_outcome session event).text_eq .password nofun
    simp only [Session.withPassword] at outcome ⊢
    rw [outcome]
    split
    · simp only [Event.typeInto]
      split <;> simp [String.utf8ByteSize_push, size]
    · exact size
  · rcases event with ⟨⟨⟩ | _ | _ | _ | _, ⟨⟩⟩ | _ <;> rcases event' with ⟨⟨⟩ | _ | _ | _ | _, ⟨⟩⟩ | _ <;>
      simp only [Bool.false_eq_true] at typed
    rename_i c c'
    simp only [Bool.and_eq_true, bne_iff_ne, ne_eq, beq_iff_eq] at typed
    obtain ⟨⟨notQuit, notQuit'⟩, width⟩ := typed
    have stage' : session'.state.currentStep = 2 := by rw [same]; exact stage
    rw [show Event.key ⟨.char c, .press⟩ = .press (.char c) from rfl,
      show Event.key ⟨.char c', .press⟩ = .press (.char c') from rfl,
      loopBody_typePassword stage notQuit, loopBody_typePassword stage' notQuit', same,
      drawUi_withPassword]
    refine ⟨by simp, ?_⟩
    simp [Session.withPassword, drawUi_state, String.utf8ByteSize_push, size, width]

namespace PasswordTwins

variable {session session' : Session} (twins : PasswordTwins session session')
include twins

theorem drawScreen_eq : drawScreen session' = drawScreen session := by
  rw [twins.same]
  exact drawScreen_withPassword _ twins.size

theorem quit_eq : session'.state.quit = session.state.quit := by
  rw [twins.same]
  rfl

theorem currentStep_eq : session'.state.currentStep = session.state.currentStep := by
  rw [twins.same]
  rfl

theorem state_eq : session'.state = { session.state with password := session'.state.password } := by
  rw [twins.same]
  rfl

end PasswordTwins

/-- Two outcomes of `run_app` alike but for the password. -/
def RunOutcome.PasswordTwins : RunOutcome → RunOutcome → Prop
  | .waiting session, .waiting session' => HackerOSInstaller.PasswordTwins session session'
  | .quit state, .quit state' | .install state, .install state' =>
      state' = { state with password := state'.password } ∧
        state'.password.utf8ByteSize = state.password.utf8ByteSize
  | _, _ => False

/-- Runs that differ only in the characters typed at the password stage,
each pair of the same width, show the same screens and end alike, with
states that differ only in the password. -/
theorem screens_passwordVariant {session session' : Session}
    (twins : PasswordTwins session session') {events events' : List Event}
    (variant : passwordVariant session events events' = true) :
    screens session events = screens session' events' ∧
      (runApp session events).PasswordTwins (runApp session' events') := by
  induction events generalizing session session' events' with
  | nil =>
      cases events' with
      | nil => exact ⟨by simp [screens, twins.drawScreen_eq], twins⟩
      | cons => cases variant
  | cons event events ih =>
      cases events' with
      | nil => cases variant
      | cons event' events' =>
          simp only [passwordVariant, Bool.and_eq_true] at variant
          have next := twins.step variant.1
          obtain ⟨shown, ended⟩ := ih next variant.2
          simp only [screens, runApp, twins.drawScreen_eq, next.quit_eq, next.currentStep_eq]
          split_ifs
          · exact ⟨rfl, next.state_eq, next.size⟩
          · exact ⟨rfl, next.state_eq, next.size⟩
          · exact ⟨by rw [shown], ended⟩

end HackerOSInstaller

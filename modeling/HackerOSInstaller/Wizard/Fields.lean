import HackerOSInstaller.Wizard.Run

/-!
# What the text fields hold

The username, password, hostname and disk grow only by the characters
`handle_char_input` appends at their own stage.  `eventsAt` picks out the
events the loop reads while the wizard is at a given stage; at the handoff
each text field is what was typed there, the hostname after its pre-filled
default.
-/

namespace HackerOSInstaller

instance : DecidablePred Continues :=
  fun _ => inferInstanceAs (Decidable (_ ∧ _))

/-- The events the loop reads while the wizard is at `stage`, in order. -/
def eventsAt (stage : Nat) : Session → List Event → List Event
  | _, [] => []
  | session, event :: events =>
      let later :=
        if Continues (loopBody session event) then eventsAt stage (loopBody session event) events
        else []
      if session.state.currentStep = stage then event :: later else later

/-- The characters of the `Char` presses read at `stage`. -/
def typedAt (stage : Nat) (session : Session) (events : List Event) : List Char :=
  (eventsAt stage session events).filterMap Event.charPress?

/-- A sequence of `Char` presses. -/
def typeText (text : String) : List Event :=
  text.data.map fun c => .press (.char c)

theorem Event.typeInto_data (event : Event) (field : String) :
    (event.typeInto field).data = field.data ++ event.typedChar.toList := by
  unfold Event.typeInto
  split <;> simp_all

theorem filterMap_typedChar_cons (event : Event) (events : List Event) :
    (event :: events).filterMap Event.typedChar =
      event.typedChar.toList ++ events.filterMap Event.typedChar := by
  cases typed : event.typedChar <;> simp [List.filterMap_cons, typed]

theorem Event.typedChar_eq_charPress? {event : Event} (notQuit : event ≠ .press (.char 'q')) :
    event.typedChar = event.charPress? := by
  rcases event with ⟨⟨c⟩ | _ | _ | _ | _, ⟨⟩⟩ | _ <;>
    simp_all [Event.typedChar, Event.charPress?, Event.press]

section TypedField

variable (field : InstallerState → String) (stage : Nat)

/-- A text field of `stage`: the loop changes it only by typing at `stage`. -/
def TypedAt : Prop :=
  ∀ {session next : Session} {event : Event}, Reachable session →
    LoopOutcome session event next →
      field next.state =
        if session.state.currentStep = stage then event.typeInto (field session.state)
        else field session.state

variable {field stage}

/-- Over any run, a text field gains exactly the characters typed at its
stage. -/
theorem runApp_typedField (typed : TypedAt field stage) {session : Session}
    (reachable : Reachable session) (events : List Event) :
    (field (runApp session events).state).data =
      (field session.state).data ++ (eventsAt stage session events).filterMap Event.typedChar := by
  induction events generalizing session with
  | nil => simp [runApp, eventsAt, RunOutcome.state]
  | cons event events ih =>
      have step := typed reachable (loopBody_outcome session event)
      rcases runApp_cons_state session event events with ⟨stops, ended⟩ | ⟨continues, next⟩
      · rw [ended, eventsAt, if_neg stops]
        split <;> simp_all [Event.typeInto_data, filterMap_typedChar_cons]
      · rw [next, eventsAt, if_pos continues, ih (reachable.step event continues), step]
        split <;> simp [Event.typeInto_data, filterMap_typedChar_cons]

end TypedField

theorem typedAt_username : TypedAt InstallerState.username 1 :=
  fun _ outcome => outcome.text_eq .username nofun

theorem typedAt_password : TypedAt InstallerState.password 2 :=
  fun _ outcome => outcome.text_eq .password nofun

theorem typedAt_disk : TypedAt InstallerState.disk 8 :=
  fun _ outcome => outcome.text_eq .disk nofun

theorem typedAt_hostname : TypedAt InstallerState.hostname 3 :=
  fun reachable outcome => outcome.text_eq .hostname fun _ => reachable.invariant.hostname

theorem quit_not_mem_eventsAt {session : Session} {events : List Event} {state : InstallerState}
    (install : runApp session events = .install state) (stage : Nat) :
    Event.press (.char 'q') ∉ eventsAt stage session events := by
  induction events generalizing session with
  | nil => cases install
  | cons event events ih =>
      rcases runApp_cons session event events with ⟨_, quit⟩ | ⟨running, _, handed⟩ |
        ⟨continues, next⟩
      · rw [quit] at install; cases install
      · have notQuit : event ≠ .press (.char 'q') := fun isQuit => by
          have := (loopBody_outcome session event).quit_iff.mpr (.inr isQuit)
          simp_all
        have stops : ¬Continues (loopBody session event) := by simp [Continues]; omega
        rw [eventsAt, if_neg stops]
        split <;> simp [Ne.symm notQuit]
      · have notQuit : event ≠ .press (.char 'q') := fun isQuit => by
          have := (loopBody_outcome session event).quit_iff.mpr (.inr isQuit)
          simp_all [Continues]
        rw [next] at install
        rw [eventsAt, if_pos continues]
        split <;> simp [Ne.symm notQuit, ih install]

theorem typed_eq_typedAt {events : List Event} {state : InstallerState}
    (install : runApp Session.init events = .install state) (stage : Nat) :
    (eventsAt stage Session.init events).filterMap Event.typedChar =
      typedAt stage Session.init events := by
  unfold typedAt
  apply List.filterMap_congr
  intro event member
  exact Event.typedChar_eq_charPress? fun isQuit =>
    quit_not_mem_eventsAt install stage (isQuit ▸ member)


theorem handoff_typedField {field : InstallerState → String} {stage : Nat}
    (typed : TypedAt field stage) {events : List Event} {state : InstallerState}
    (install : runApp Session.init events = .install state) :
    (field state).data = (field InstallerState.default).data ++ typedAt stage Session.init events := by
  have run := runApp_typedField typed .init events
  rwa [install, typed_eq_typedAt install] at run

/-- A sample run: `a`, `b`, `x` and `d` typed at the text stages, the first
entry of every list. -/
def hostnameRun : List Event :=
  [.press .enter] ++ typeText "a" ++ [.press .enter] ++ typeText "b" ++ [.press .enter] ++
    typeText "x" ++ List.replicate 5 (.press .enter) ++ typeText "d" ++ [.press .enter, .press .enter]

/-- At the handoff the username, password and disk are exactly the
characters typed at stages 1, 2 and 8. -/
theorem handoff_text_fields_typed {events : List Event} {state : InstallerState}
    (install : runApp Session.init events = .install state) :
    state.username = String.mk (typedAt 1 Session.init events) ∧
      state.password = String.mk (typedAt 2 Session.init events) ∧
      state.disk = String.mk (typedAt 8 Session.init events) :=
  ⟨String.ext (by simpa using handoff_typedField typedAt_username install),
    String.ext (by simpa using handoff_typedField typedAt_password install),
    String.ext (by simpa using handoff_typedField typedAt_disk install)⟩

theorem hostnameRun_text_fields_typed :
    (runApp Session.init hostnameRun).state.username = String.mk (typedAt 1 Session.init hostnameRun) ∧
      (runApp Session.init hostnameRun).state.password =
        String.mk (typedAt 2 Session.init hostnameRun) ∧
      (runApp Session.init hostnameRun).state.disk = String.mk (typedAt 8 Session.init hostnameRun) :=
  @handoff_text_fields_typed _ (runApp Session.init hostnameRun).state (by decide)

/-- The hostname at the handoff is the pre-filled default followed by what
was typed at stage 3. -/
theorem handoff_hostname {events : List Event} {state : InstallerState}
    (install : runApp Session.init events = .install state) :
    state.hostname = "hackeros" ++ String.mk (typedAt 3 Session.init events) :=
  String.ext (by simpa using handoff_typedField typedAt_hostname install)

theorem hostnameRun_hostname :
    (runApp Session.init hostnameRun).state.hostname =
      "hackeros" ++ String.mk (typedAt 3 Session.init hostnameRun) :=
  @handoff_hostname _ (runApp Session.init hostnameRun).state (by decide)

theorem typed_hostname_follows_default :
    typedAt 3 Session.init hostnameRun = ['x'] ∧
      (∃ state, runApp Session.init hostnameRun = .install state) ∧
      (runApp Session.init hostnameRun).state.hostname = "hackerosx" :=
  ⟨by decide, ⟨_, rfl⟩, by decide⟩

end HackerOSInstaller

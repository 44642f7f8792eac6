import HackerOSInstaller.Wizard.Fields

/-!
# Which texts the wizard can hand off

A `'q'` press quits whatever the stage, so no handed-off username, password
or disk contains `'q'`.  crossterm delivers no control character as a
`Char` key, so none can be typed either; every other non-empty text can be
typed, by a run of events crossterm delivers.  The runs
that type a text are evaluated through frame lemmas: past stage 2 the loop
never reads the credentials, so a run with typed credentials is a run with
empty ones, relabelled.
-/

namespace HackerOSInstaller

theorem handleKey_char (session : Session) {c : Char} (notQuit : c ≠ 'q') :
    handleKey session (.char c) = ⟨handleCharInput session.state c, session.listState⟩ := by
  unfold handleKey
  split <;> simp_all

theorem foldl_handleCharInput (state : InstallerState) (chars : List Char) :
    chars.foldl handleCharInput state =
      { state with
        username := if state.currentStep = 1 then ⟨state.username.data ++ chars⟩ else state.username
        password := if state.currentStep = 2 then ⟨state.password.data ++ chars⟩ else state.password
        hostname := if state.currentStep = 3 then ⟨state.hostname.data ++ chars⟩ else state.hostname
        disk := if state.currentStep = 8 then ⟨state.disk.data ++ chars⟩ else state.disk } := by
  induction chars generalizing state with
  | nil => simp only [List.append_nil]; split_ifs <;> rfl
  | cons c chars ih =>
      rw [List.foldl_cons, ih, handleCharInput_eq]
      by_cases h1 : state.currentStep = 1
      · simp [h1, String.push]
      by_cases h2 : state.currentStep = 2
      · simp [h2, String.push]
      by_cases h3 : state.currentStep = 3
      · simp [h3, String.push]
      by_cases h8 : state.currentStep = 8
      · simp [h8, String.push]
      · simp [h1, h2, h3, h8]

section Typing

variable {state : InstallerState}

theorem runApp_typeText {chars : List Char} (noQuit : 'q' ∉ chars)
    (textStage : ¬IsListStage state.currentStep) (bounded : state.currentStep < 10)
    (running : state.quit = false) (drawn : state.previewImage = false) (later : List Event) :
    runApp ⟨state, ⟨none⟩⟩ (typeText ⟨chars⟩ ++ later) =
      runApp ⟨chars.foldl handleCharInput state, ⟨none⟩⟩ later := by
  induction chars generalizing state with
  | nil => rfl
  | cons c chars ih =>
      have notQuit : c ≠ 'q' := fun isQuit => noQuit (isQuit ▸ List.mem_cons_self c chars)
      have step : loopBody ⟨state, ⟨none⟩⟩ (.press (.char c)) =
          ⟨handleCharInput state c, ⟨none⟩⟩ := by
        simp [loopBody, drawUi, handleEvent, Event.press, handleKey_char _ notQuit, textStage, drawn]
      have typed := handleCharInput_eq state c
      rw [typeText, List.map_cons, List.cons_append, runApp_cons_of_continues _ (by
        simp [Continues, step, typed, running, bounded]), step]
      exact ih (fun member => noQuit (List.mem_cons_of_mem c member))
        (by simpa [typed] using textStage) (by simpa [typed] using bounded)
        (by simpa [typed] using running) (by simpa [typed] using drawn)

theorem runApp_enter_textStage {field : String}
    (stage : state.currentStep = 1 ∧ field = state.username ∨
      state.currentStep = 2 ∧ field = state.password ∨ state.currentStep = 8 ∧ field = state.disk)
    (nonEmpty : field ≠ "") (running : state.quit = false) (drawn : state.previewImage = false)
    (later : List Event) :
    runApp ⟨state, ⟨none⟩⟩ (.press .enter :: later) = runApp ⟨state.advance, ⟨none⟩⟩ later := by
  have step : loopBody ⟨state, ⟨none⟩⟩ (.press .enter) = ⟨state.advance, ⟨none⟩⟩ := by
    rcases stage with ⟨atStage, rfl⟩ | ⟨atStage, rfl⟩ | ⟨atStage, rfl⟩ <;>
      simp [loopBody, drawUi, handleEvent, Event.press, handleKey, handleEnter, enterTextStage,
        IsListStage, atStage, drawn, String.isEmpty_iff, nonEmpty, ListState.select]
  rw [runApp_cons_of_continues _ (by
    rcases stage with ⟨atStage, -⟩ | ⟨atStage, -⟩ | ⟨atStage, -⟩ <;>
      simp [Continues, step, running, atStage]), step]

end Typing

section Credentials

variable (username password : String)

/-- The session with the credentials replaced. -/
def Session.withCredentials (session : Session) : Session :=
  ⟨{ session.state with username, password }, session.listState⟩

@[simp] theorem Session.withCredentials_quit (session : Session) :
    (session.withCredentials username password).state.quit = session.state.quit := rfl

@[simp] theorem Session.withCredentials_currentStep (session : Session) :
    (session.withCredentials username password).state.currentStep = session.state.currentStep := rfl

def RunOutcome.withCredentials : RunOutcome → RunOutcome
  | .waiting session => .waiting (session.withCredentials username password)
  | .quit state => .quit { state with username, password }
  | .install state => .install { state with username, password }

theorem handleEnter_withCredentials (session : Session) (passed : 2 < session.state.currentStep) :
    handleEnter (session.withCredentials username password) =
      (handleEnter session).withCredentials username password := by
  rcases session with ⟨state, listState⟩
  unfold handleEnter enterListStage enterTextStage Session.withCredentials
  simp only at passed ⊢
  split <;> (try split) <;> (try split) <;> simp_all

theorem handleKey_withCredentials (session : Session) (code : KeyCode)
    (passed : 2 < session.state.currentStep) :
    handleKey (session.withCredentials username password) code =
      (handleKey session code).withCredentials username password := by
  unfold handleKey
  split
  · rfl
  · exact handleEnter_withCredentials username password session passed
  · rfl
  · rfl
  · simp only [Session.withCredentials, handleCharInput_eq]
    simp [show session.state.currentStep ≠ 1 by omega, show session.state.currentStep ≠ 2 by omega]
  · rfl

/-- Past stage 2 an iteration neither reads nor writes the credentials. -/
theorem loopBody_withCredentials (session : Session) (event : Event)
    (passed : 2 < session.state.currentStep) :
    loopBody (session.withCredentials username password) event =
      (loopBody session event).withCredentials username password := by
  have drawn : drawUi (session.withCredentials username password) =
      (drawUi session).withCredentials username password := by
    rcases session with ⟨⟨⟩, listState⟩
    unfold drawUi Session.withCredentials
    split <;> simp_all
  have drawnPassed : 2 < (drawUi session).state.currentStep := by simpa using passed
  unfold loopBody
  rw [drawn]
  rcases event with ⟨code, kind⟩ | _
  · simp only [handleEvent]
    split_ifs
    · exact handleKey_withCredentials username password _ code drawnPassed
    · rfl
  · rfl

theorem runApp_withCredentials (session : Session) (events : List Event)
    (passed : 2 < session.state.currentStep) :
    runApp (session.withCredentials username password) events =
      (runApp session events).withCredentials username password := by
  induction events generalizing session with
  | nil => rfl
  | cons event events ih =>
      have later : 2 < (loopBody session event).state.currentStep := by
        rcases (loopBody_outcome session event).currentStep_eq with same | ⟨advanced, -⟩ <;> omega
      simp only [runApp, loopBody_withCredentials username password session event passed,
        Session.withCredentials_quit, Session.withCredentials_currentStep]
      split_ifs
      · rfl
      · rfl
      · exact ih _ later

end Credentials

theorem runApp_append_waiting {session middle last : Session} {events later : List Event}
    (first : runApp session events = .waiting middle) (second : runApp middle later = .waiting last) :
    runApp session (events ++ later) = .waiting last := by
  rw [runApp_append_of_waiting first, second]

/-- The rest of a sample run from the hostname stage: no hostname typed,
the first entry of every list, disk `/dev/sda`. -/
def fromHostnameStage : List Event :=
  List.replicate 5 (.press .enter) ++ typeText "/dev/sda" ++ List.replicate 2 (.press .enter)

/-- What `fromHostnameStage` hands off, credentials left empty. -/
def sampleHandoff : InstallerState :=
  { InstallerState.default with
    currentStep := 10, edition := some .official, branch := some .stable,
    filesystem := some .btrfs, disk := "/dev/sda" }

theorem runApp_fromHostnameStage :
    runApp ⟨{ InstallerState.default with currentStep := 3 }, ⟨none⟩⟩ fromHostnameStage =
      .install sampleHandoff := by
  decide

theorem runApp_credentials_fromHostnameStage (username password : String) :
    runApp ⟨{ InstallerState.default with currentStep := 3, username, password }, ⟨none⟩⟩
        fromHostnameStage =
      .install { sampleHandoff with username, password } :=
  (runApp_withCredentials username password ⟨{ InstallerState.default with currentStep := 3 }, ⟨none⟩⟩
    fromHostnameStage (by decide)).trans (by rw [runApp_fromHostnameStage]; rfl)

theorem runApp_typeText_waiting {state : InstallerState} {chars : List Char} (noQuit : 'q' ∉ chars)
    (textStage : ¬IsListStage state.currentStep) (bounded : state.currentStep < 10)
    (running : state.quit = false) (drawn : state.previewImage = false) :
    runApp ⟨state, ⟨none⟩⟩ (typeText ⟨chars⟩) = .waiting ⟨chars.foldl handleCharInput state, ⟨none⟩⟩ := by
  simpa using runApp_typeText noQuit textStage bounded running drawn []

/-- A run entering `text` as the username. -/
def usernameRun (text : String) : List Event :=
  [.press .enter] ++ typeText text ++ [.press .enter] ++ (typeText "x" ++ [.press .enter]) ++
    fromHostnameStage

theorem runApp_usernameRun {text : String} (nonEmpty : text ≠ "") (noQuit : 'q' ∉ text.data) :
    runApp Session.init (usernameRun text) =
      .install { sampleHandoff with username := text, password := "x" } := by
  obtain ⟨chars⟩ := text
  have welcome : runApp Session.init [.press .enter] =
      .waiting ⟨{ InstallerState.default with currentStep := 1 }, ⟨none⟩⟩ := rfl
  have typed : runApp ⟨{ InstallerState.default with currentStep := 1 }, ⟨none⟩⟩ (typeText ⟨chars⟩) =
      .waiting ⟨{ InstallerState.default with currentStep := 1, username := ⟨chars⟩ }, ⟨none⟩⟩ :=
    (runApp_typeText_waiting noQuit (by decide) (by decide) rfl rfl).trans
      (by rw [foldl_handleCharInput]; rfl)
  have confirmed :
      runApp ⟨{ InstallerState.default with currentStep := 1, username := ⟨chars⟩ }, ⟨none⟩⟩
        [.press .enter] =
      .waiting ⟨{ InstallerState.default with currentStep := 2, username := ⟨chars⟩ }, ⟨none⟩⟩ :=
    runApp_enter_textStage (.inl ⟨rfl, rfl⟩) nonEmpty rfl rfl []
  have password :
      runApp ⟨{ InstallerState.default with currentStep := 2, username := ⟨chars⟩ }, ⟨none⟩⟩
        (typeText "x" ++ [.press .enter]) =
      .waiting ⟨{ InstallerState.default with currentStep := 3, username := ⟨chars⟩, password := "x" },
        ⟨none⟩⟩ := rfl
  rw [usernameRun, runApp_append_of_waiting (runApp_append_waiting (runApp_append_waiting
    (runApp_append_waiting welcome typed) confirmed) password)]
  exact runApp_credentials_fromHostnameStage ⟨chars⟩ "x"

/-- A run entering `text` as the password. -/
def passwordRun (text : String) : List Event :=
  [.press .enter] ++ typeText "alice" ++ [.press .enter] ++ typeText text ++ [.press .enter] ++
    fromHostnameStage

/-- The state at the password stage of `passwordRun`. -/
def passwordStage : InstallerState :=
  { InstallerState.default with currentStep := 2, username := "alice" }

theorem runApp_passwordRun {text : String} (nonEmpty : text ≠ "") (noQuit : 'q' ∉ text.data) :
    runApp Session.init (passwordRun text) =
      .install { sampleHandoff with username := "alice", password := text } := by
  obtain ⟨chars⟩ := text
  have named : runApp Session.init ([.press .enter] ++ typeText "alice" ++ [.press .enter]) =
      .waiting ⟨passwordStage, ⟨none⟩⟩ := by
    decide
  have typed : runApp ⟨passwordStage, ⟨none⟩⟩ (typeText ⟨chars⟩) =
      .waiting ⟨{ passwordStage with password := ⟨chars⟩ }, ⟨none⟩⟩ :=
    (runApp_typeText_waiting noQuit (by decide) (by decide) rfl rfl).trans
      (by rw [foldl_handleCharInput]; rfl)
  have confirmed : runApp ⟨{ passwordStage with password := ⟨chars⟩ }, ⟨none⟩⟩ [.press .enter] =
      .waiting ⟨{ passwordStage with currentStep := 3, password := ⟨chars⟩ }, ⟨none⟩⟩ :=
    runApp_enter_textStage (.inr (.inl ⟨rfl, rfl⟩)) nonEmpty rfl rfl []
  rw [passwordRun, runApp_append_of_waiting (runApp_append_waiting (runApp_append_waiting
    named typed) confirmed)]
  exact runApp_credentials_fromHostnameStage "alice" ⟨chars⟩

/-- A run entering `text` as the disk. -/
def diskRun (text : String) : List Event :=
  [.press .enter] ++ typeText "alice" ++ [.press .enter] ++ typeText "x" ++
    List.replicate 6 (.press .enter) ++ typeText text ++ [.press .enter, .press .enter]

/-- The state at the disk stage of `diskRun`. -/
def diskStage : InstallerState :=
  { InstallerState.default with
    currentStep := 8, username := "alice", password := "x", edition := some .official,
    branch := some .stable, filesystem := some .btrfs }

theorem runApp_diskRun {text : String} (nonEmpty : text ≠ "") (noQuit : 'q' ∉ text.data) :
    runApp Session.init (diskRun text) =
      .install { diskStage with currentStep := 10, disk := text } := by
  obtain ⟨chars⟩ := text
  have listed : runApp Session.init ([.press .enter] ++ typeText "alice" ++ [.press .enter] ++
      typeText "x" ++ List.replicate 6 (.press .enter)) = .waiting ⟨diskStage, ⟨none⟩⟩ := by
    decide
  have typed : runApp ⟨diskStage, ⟨none⟩⟩ (typeText ⟨chars⟩) =
      .waiting ⟨{ diskStage with disk := ⟨chars⟩ }, ⟨none⟩⟩ :=
    (runApp_typeText_waiting noQuit (by decide) (by decide) rfl rfl).trans
      (by rw [foldl_handleCharInput]; rfl)
  rw [diskRun, runApp_append_of_waiting (runApp_append_waiting listed typed),
    runApp_enter_textStage (.inr (.inr ⟨rfl, rfl⟩)) nonEmpty rfl rfl]
  rfl

/-- A text value the wizard can hand off in `field`: some run of events
crossterm can deliver ends in the handoff with `field` holding it. -/
def HandsOff (field : InstallerState → String) (text : String) : Prop :=
  ∃ events state, events.all Event.deliverable ∧ runApp Session.init events = .install state ∧
    field state = text

theorem typeText_all_deliverable (text : String) :
    (typeText text).all Event.deliverable = text.data.all isKeyChar := by
  unfold typeText
  induction text.data with
  | nil => rfl
  | cons c chars ih => rw [List.map_cons, List.all_cons, List.all_cons, ih]; rfl

theorem eventsAt_sublist (stage : Nat) (session : Session) (events : List Event) :
    (eventsAt stage session events).Sublist events := by
  induction events generalizing session with
  | nil => exact .slnil
  | cons event events ih =>
      rw [eventsAt]
      split_ifs
      · exact (ih _).cons₂ event
      · exact .cons₂ event (List.nil_sublist _)
      · exact (ih _).cons event
      · exact .cons event (List.nil_sublist _)

theorem Event.isKeyChar_of_charPress? {event : Event} {c : Char} (delivered : event.deliverable)
    (pressed : event.charPress? = some c) : isKeyChar c := by
  rcases event with ⟨⟨_⟩ | _ | _ | _ | _, ⟨⟩⟩ | _ <;>
    simp_all [Event.charPress?, Event.deliverable]

theorem typedAt_all_isKeyChar {events : List Event} (delivered : events.all Event.deliverable)
    (stage : Nat) (session : Session) : (typedAt stage session events).all isKeyChar := by
  refine List.all_eq_true.mpr fun c typed => ?_
  obtain ⟨event, member, pressed⟩ := List.mem_filterMap.mp typed
  exact Event.isKeyChar_of_charPress?
    (List.all_eq_true.mp delivered event ((eventsAt_sublist stage session events).subset member))
    pressed

theorem Event.typedChar_ne_quit (event : Event) : event.typedChar ≠ some 'q' := by
  rcases event with ⟨⟨c⟩ | _ | _ | _ | _, ⟨⟩⟩ | _ <;> simp only [Event.typedChar] <;>
    first | (by_cases isQuit : c = 'q' <;> simp_all) | simp

theorem quit_not_mem_typedAt {events : List Event} {state : InstallerState}
    (install : runApp Session.init events = .install state) (stage : Nat) :
    'q' ∉ typedAt stage Session.init events := by
  rw [← typed_eq_typedAt install, List.mem_filterMap]
  rintro ⟨event, -, typed⟩
  exact event.typedChar_ne_quit typed

/-- What a field filled by typing can hold at the handoff: some text of
characters crossterm delivers as `Char` keys, without a `'q'`. -/
theorem HandsOff.enterable {field : InstallerState → String} {stage : Nat} {text : String}
    (typed : TypedAt field stage) (blank : field InstallerState.default = "")
    (filled : ∀ {state}, state.currentStep = 10 → FieldsCollected state → field state ≠ "")
    (handsOff : HandsOff field text) :
    text ≠ "" ∧ 'q' ∉ text.data ∧ text.data.all isKeyChar := by
  obtain ⟨events, state, delivered, install, rfl⟩ := handsOff
  obtain ⟨atTen, collected, -⟩ := handoff_fieldsCollected install
  have typedData := handoff_typedField typed install
  rw [blank] at typedData
  exact ⟨filled atTen collected, typedData ▸ quit_not_mem_typedAt install stage,
    typedData ▸ typedAt_all_isKeyChar delivered stage Session.init⟩

/-- Exactly the non-empty texts without `'q'` whose characters crossterm
delivers as `Char` keys can be handed off as the username, the password and
the disk: `'q'` always quits the wizard. -/
theorem handsOff_text_iff (text : String) :
    (HandsOff InstallerState.username text ↔
        text ≠ "" ∧ 'q' ∉ text.data ∧ text.data.all isKeyChar) ∧
      (HandsOff InstallerState.password text ↔
        text ≠ "" ∧ 'q' ∉ text.data ∧ text.data.all isKeyChar) ∧
      (HandsOff InstallerState.disk text ↔
        text ≠ "" ∧ 'q' ∉ text.data ∧ text.data.all isKeyChar) := by
  refine ⟨⟨HandsOff.enterable typedAt_username rfl fun atTen collected =>
      collected.username (by omega), ?_⟩,
    ⟨HandsOff.enterable typedAt_password rfl fun atTen collected =>
      collected.password (by omega), ?_⟩,
    ⟨HandsOff.enterable typedAt_disk rfl fun atTen collected =>
      collected.disk (by omega), ?_⟩⟩
  · rintro ⟨nonEmpty, noQuit, typeable⟩
    refine ⟨_, _, ?_, runApp_usernameRun nonEmpty noQuit, rfl⟩
    simp only [usernameRun, List.all_append, typeText_all_deliverable, typeable]
    decide
  · rintro ⟨nonEmpty, noQuit, typeable⟩
    refine ⟨_, _, ?_, runApp_passwordRun nonEmpty noQuit, rfl⟩
    simp only [passwordRun, List.all_append, typeText_all_deliverable, typeable]
    decide
  · rintro ⟨nonEmpty, noQuit, typeable⟩
    refine ⟨_, _, ?_, runApp_diskRun nonEmpty noQuit, rfl⟩
    simp only [diskRun, List.all_append, typeText_all_deliverable, typeable]
    decide

/-- The one-character password `"q"` cannot be handed off. -/
theorem quit_password_not_handsOff : ¬HandsOff InstallerState.password "q" := fun handsOff =>
  (HandsOff.enterable typedAt_password rfl (fun atTen collected => collected.password (by omega))
    handsOff).2.1 (List.mem_singleton_self _)

end HackerOSInstaller

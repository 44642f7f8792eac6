import HackerOSInstaller.Wizard.State

/-!
# The wizard's event handlers

`draw_ui`, `handle_enter`, `handle_char_input` and the key dispatch of
`run_app`, as functions of the session.  Only what they write is kept,
drawing itself being ratatui's business.  `draw_ui` writes the cursor
twice: the `draw_*` list functions set an unset cursor to `0`, and
ratatui's `List::render` moves a cursor past the last entry onto it when
the list has a cell to draw in.  That second write depends on the
terminal's size: `drawUiOn` is the draw on a given terminal, and `drawUi`
leaves the render's write out, which is the draw on a terminal too small to
show a row of the list.  `Wizard.Terminal` relates the loops built on each.
-/

namespace HackerOSInstaller

/-- The positional table of `handle_enter`'s stage 4. -/
def editionAt : Nat → Option Edition
  | 0 => some .official
  | 1 => some .gnome
  | 2 => some .xfce
  | 3 => some .blue
  | 4 => some .hydra
  | 5 => some .cybersecurity
  | 6 => some .wayfire
  | 7 => some .atomic
  | _ => none

/-- The positional table of `handle_enter`'s stage 5. -/
def debianBranchAt : Nat → Option DebianBranch
  | 0 => some .stable
  | 1 => some .testing
  | 2 => some .unstable
  | _ => none

/-- The positional table of `handle_enter`'s stage 6. -/
def filesystemAt : Nat → Option Filesystem
  | 0 => some .btrfs
  | 1 => some .ext4
  | 2 => some .zfs
  | _ => none

/-- The entries `draw_edition_selection` lists. -/
def editionItems : List String :=
  ["Official (KDE Plasma + SDDM)", "Gnome (GNOME + GDM3)", "XFCE (XFCE + LightDM)",
    "Blue (Custom Environment)", "Hydra (Custom Look)", "Cybersecurity (With Tools)",
    "Wayfire (Wayfire + SDDM)", "Atomic (With Hammer)"]

/-- The entries `draw_branch_selection` lists. -/
def debianBranchItems : List String :=
  ["Stable (trixie)", "Testing (forky)", "Unstable (sid)"]

/-- The entries `draw_filesystem_selection` lists. -/
def filesystemItems : List String :=
  ["Btrfs", "Ext4", "Zfs"]

/-- The entries `draw_partition_mode` lists. -/
def partitionModeItems : List String :=
  ["Automatic Partitioning", "Manual Partitioning"]

/-- The entries shown at each list stage. -/
def listItems : Nat → List String
  | 4 => editionItems
  | 5 => debianBranchItems
  | 6 => filesystemItems
  | 7 => partitionModeItems
  | _ => []

/-- The four list stages, `draw_edition_selection` to `draw_partition_mode`. -/
def IsListStage (step : Nat) : Prop :=
  4 ≤ step ∧ step ≤ 7

instance (step : Nat) : Decidable (IsListStage step) :=
  inferInstanceAs (Decidable (_ ∧ _))

/-- The initialiser every `draw_*` list function runs before rendering. -/
def initSelection (listState : ListState) : ListState :=
  if listState.selected.isNone then listState.select (some 0) else listState

/-- The index the next draw gives the cursor. -/
def cursorIndex (session : Session) : Nat :=
  session.listState.selected.getD 0

/-- What `draw_ui` writes: the cursor initialiser at the list stages, and the
one-shot edition preview flag, cleared once the preview is drawn. -/
def drawUi (session : Session) : Session where
  state :=
    if session.state.previewImage then { session.state with previewImage := false }
    else session.state
  listState :=
    if IsListStage session.state.currentStep then initSelection session.listState
    else session.listState

/-- Stages 4 to 6 of `handle_enter`: the selected index goes through the
stage's table, and an index past the table leaves by `return Ok(())`, before
the cursor reset. -/
def enterListStage (table : Nat → Option α) (store : InstallerState → α → InstallerState)
    (session : Session) : Session :=
  match session.listState.selected with
  | none => ⟨session.state, session.listState.select none⟩
  | some selected =>
      match table selected with
      | none => session
      | some value => ⟨(store session.state value).advance, session.listState.select none⟩

/-- Stages 1, 2 and 8 of `handle_enter`: advance on a non-empty field. -/
def enterTextStage (field : String) (session : Session) : Session :=
  ⟨if field.isEmpty then session.state else session.state.advance,
    session.listState.select none⟩

def handleEnter (session : Session) : Session :=
  match session.state.currentStep with
  | 0 => ⟨session.state.advance, session.listState.select none⟩
  | 1 => enterTextStage session.state.username session
  | 2 => enterTextStage session.state.password session
  | 3 =>
      ⟨(if session.state.hostname.isEmpty then { session.state with hostname := "hackeros" }
        else session.state).advance, session.listState.select none⟩
  | 4 => enterListStage editionAt
      (fun state edition => { state with edition := some edition, previewImage := true }) session
  | 5 => enterListStage debianBranchAt (fun state branch => { state with branch := some branch })
      session
  | 6 => enterListStage filesystemAt
      (fun state filesystem => { state with filesystem := some filesystem }) session
  | 7 =>
      match session.listState.selected with
      | none => ⟨session.state, session.listState.select none⟩
      | some selected =>
          ⟨{ session.state with manualPartition := selected == 1 }.advance,
            session.listState.select none⟩
  | 8 => enterTextStage session.state.disk session
  | 9 => ⟨session.state.advance, session.listState.select none⟩
  | _ => ⟨session.state, session.listState.select none⟩

def handleCharInput (state : InstallerState) (c : Char) : InstallerState :=
  match state.currentStep with
  | 1 => { state with username := state.username.push c }
  | 2 => { state with password := state.password.push c }
  | 3 => { state with hostname := state.hostname.push c }
  | 8 => { state with disk := state.disk.push c }
  | _ => state

/-- `KeyCode::Up`: move the cursor up, stopping at `0`. -/
def selectUp (listState : ListState) : ListState :=
  match listState.selected with
  | some selected => if selected > 0 then listState.select (some (selected - 1)) else listState
  | none => listState

/-- `KeyCode::Down`: move the cursor down, with no upper bound. -/
def selectDown (listState : ListState) : ListState :=
  match listState.selected with
  | some selected => listState.select (some (selected + 1))
  | none => listState

@[simp] theorem selectUp_selected (listState : ListState) :
    (selectUp listState).selected = listState.selected.map (· - 1) := by
  unfold selectUp
  split
  · split <;> simp_all
  · simp_all

@[simp] theorem selectDown_selected (listState : ListState) :
    (selectDown listState).selected = listState.selected.map (· + 1) := by
  unfold selectDown
  split <;> simp_all

/-- The `match key.code` of `run_app`; `'q'` is matched before any other
character. -/
def handleKey (session : Session) : KeyCode → Session
  | .char 'q' => ⟨{ session.state with quit := true }, session.listState⟩
  | .enter => handleEnter session
  | .up => ⟨session.state, selectUp session.listState⟩
  | .down => ⟨session.state, selectDown session.listState⟩
  | .char c => ⟨handleCharInput session.state c, session.listState⟩
  | .other => session

/-- `if let Event::Key(key) = event::read()?`, keeping presses only. -/
def handleEvent (session : Session) : Event → Session
  | .key key => if key.kind = .press then handleKey session key.code else session
  | .other => session

/-- One iteration of `run_app`'s loop up to its exit checks: draw, then
handle the event read. -/
def loopBody (session : Session) (event : Event) : Session :=
  handleEvent (drawUi session) event

/-- The size of the terminal `draw_ui` draws on, in columns and rows. -/
structure Terminal where
  width : Nat
  height : Nat
  deriving DecidableEq, Repr

/-- Whether the bordered panel of the body has a cell to draw in: the
layout gives the header three rows and the body the rest, and the borders
take a row or a column on each side. -/
def Terminal.bodyVisible (terminal : Terminal) : Bool :=
  6 ≤ terminal.height && 3 ≤ terminal.width

/-- What `List::render` writes to the selection: nothing when the list has
no cell to draw in; otherwise no selection on an empty list, and a selection
past the last entry moved onto it. -/
def renderList (visible : Bool) (count : Nat) (listState : ListState) : ListState :=
  if !visible then listState
  else if count = 0 then listState.select none
  else
    match listState.selected with
    | some selected => if count ≤ selected then listState.select (some (count - 1)) else listState
    | none => listState

/-- `draw_ui` on `terminal`: at a list stage, the cursor initialiser and then
the list's render. -/
def drawUiOn (terminal : Terminal) (session : Session) : Session where
  state := (drawUi session).state
  listState :=
    if IsListStage session.state.currentStep then
      renderList terminal.bodyVisible (listItems session.state.currentStep).length
        (drawUi session).listState
    else (drawUi session).listState

/-- One iteration of `run_app`'s loop on `terminal`, up to its exit checks. -/
def loopBodyOn (terminal : Terminal) (session : Session) (event : Event) : Session :=
  handleEvent (drawUiOn terminal session) event

/-- The branches of `handle_enter`: the early return of a list stage keeps
the whole session, a stage whose rule rejects keeps the state and resets the
cursor, and otherwise the stage advances by one, storing what it gathers. -/
inductive EnterOutcome (session : Session) : Session → Prop
  | earlyReturn : EnterOutcome session session
  | reject :
      ¬IsListStage session.state.currentStep ∨ session.listState.selected = none →
      EnterOutcome session ⟨session.state, ⟨none⟩⟩
  | welcome : session.state.currentStep = 0 →
      EnterOutcome session ⟨session.state.advance, ⟨none⟩⟩
  | username : session.state.currentStep = 1 → session.state.username ≠ "" →
      EnterOutcome session ⟨session.state.advance, ⟨none⟩⟩
  | password : session.state.currentStep = 2 → session.state.password ≠ "" →
      EnterOutcome session ⟨session.state.advance, ⟨none⟩⟩
  | hostnameDefault : session.state.currentStep = 3 → session.state.hostname = "" →
      EnterOutcome session ⟨{ session.state with hostname := "hackeros" }.advance, ⟨none⟩⟩
  | hostname : session.state.currentStep = 3 → session.state.hostname ≠ "" →
      EnterOutcome session ⟨session.state.advance, ⟨none⟩⟩
  | edition {selected : Nat} {edition : Edition} : session.state.currentStep = 4 →
      session.listState.selected = some selected → editionAt selected = some edition →
      EnterOutcome session
        ⟨{ session.state with edition := some edition, previewImage := true }.advance, ⟨none⟩⟩
  | branch {selected : Nat} {branch : DebianBranch} : session.state.currentStep = 5 →
      session.listState.selected = some selected → debianBranchAt selected = some branch →
      EnterOutcome session ⟨{ session.state with branch := some branch }.advance, ⟨none⟩⟩
  | filesystem {selected : Nat} {filesystem : Filesystem} : session.state.currentStep = 6 →
      session.listState.selected = some selected → filesystemAt selected = some filesystem →
      EnterOutcome session ⟨{ session.state with filesystem := some filesystem }.advance, ⟨none⟩⟩
  | partitionMode {selected : Nat} : session.state.currentStep = 7 →
      session.listState.selected = some selected →
      EnterOutcome session ⟨{ session.state with manualPartition := selected == 1 }.advance, ⟨none⟩⟩
  | disk : session.state.currentStep = 8 → session.state.disk ≠ "" →
      EnterOutcome session ⟨session.state.advance, ⟨none⟩⟩
  | summary : session.state.currentStep = 9 →
      EnterOutcome session ⟨session.state.advance, ⟨none⟩⟩

theorem handleEnter_outcome (session : Session) : EnterOutcome session (handleEnter session) := by
  unfold handleEnter enterListStage enterTextStage
  simp only [String.isEmpty_iff]
  repeat' split
  all_goals first
    | exact .earlyReturn
    | (apply EnterOutcome.reject; left; simp only [IsListStage, imp_false] at *; omega)
    | exact .reject (.inr ‹_›)
    | exact .welcome ‹_›
    | exact .summary ‹_›
    | exact .edition ‹_› ‹_› ‹_›
    | exact .branch ‹_› ‹_› ‹_›
    | exact .filesystem ‹_› ‹_› ‹_›
    | exact .partitionMode ‹_› ‹_›
    | exact .username ‹_› ‹_›
    | exact .password ‹_› ‹_›
    | exact .hostnameDefault ‹_› ‹_›
    | exact .hostname ‹_› ‹_›
    | exact .disk ‹_› ‹_›

namespace EnterOutcome

variable {session next : Session}

theorem text_eq (outcome : EnterOutcome session next) (field : TextField)
    (kept : field = .hostname → session.state.hostname ≠ "") :
    field.get next.state = field.get session.state := by
  cases field <;> cases outcome <;> simp_all [TextField.get]

theorem currentStep_eq (outcome : EnterOutcome session next) :
    next.state = session.state ∨
      next.state.currentStep = session.state.currentStep + 1 ∧
        session.state.currentStep ≤ 9 ∧ next.listState.selected = none := by
  cases outcome <;> simp_all

theorem fieldsCollected (outcome : EnterOutcome session next)
    (collected : FieldsCollected session.state) : FieldsCollected next.state := by
  obtain ⟨username, password, hostname, edition, branch, filesystem, disk⟩ := collected
  cases outcome <;> constructor <;> intro passed <;>
    dsimp only [InstallerState.advance] at passed ⊢ <;>
    first
      | assumption
      | rfl
      | exact username (by omega)
      | exact password (by omega)
      | exact hostname (by omega)
      | exact edition (by omega)
      | exact branch (by omega)
      | exact filesystem (by omega)
      | exact disk (by omega)
      | decide

end EnterOutcome

@[simp] theorem drawUi_state (session : Session) :
    (drawUi session).state = { session.state with previewImage := false } := by
  rcases session with ⟨⟨⟩, listState⟩
  unfold drawUi
  split <;> simp_all

@[simp] theorem initSelection_selected (listState : ListState) :
    (initSelection listState).selected = some (listState.selected.getD 0) := by
  unfold initSelection
  cases h : listState.selected <;> simp [h]

theorem handleCharInput_eq (state : InstallerState) (c : Char) :
    handleCharInput state c =
      { state with
        username := if state.currentStep = 1 then state.username.push c else state.username
        password := if state.currentStep = 2 then state.password.push c else state.password
        hostname := if state.currentStep = 3 then state.hostname.push c else state.hostname
        disk := if state.currentStep = 8 then state.disk.push c else state.disk } := by
  unfold handleCharInput
  split <;> simp_all

theorem Event.typedChar_eq_none {event : Event}
    (ignored : ∀ code, event = .press code → code = .other) : event.typedChar = none := by
  rcases event with ⟨⟨⟩ | _ | _ | _ | _, ⟨⟩⟩ | _ <;> simp_all [Event.typedChar, Event.press]

/-- The arms of `run_app`'s key match, after the draw; `ignored` covers
releases, repeats, other keys and non-key events. -/
inductive LoopOutcome (session : Session) : Event → Session → Prop
  | quit : LoopOutcome session (.press (.char 'q'))
      ⟨{ (drawUi session).state with quit := true }, (drawUi session).listState⟩
  | enter {next : Session} : EnterOutcome (drawUi session) next →
      LoopOutcome session (.press .enter) next
  | up : LoopOutcome session (.press .up)
      ⟨(drawUi session).state, selectUp (drawUi session).listState⟩
  | down : LoopOutcome session (.press .down)
      ⟨(drawUi session).state, selectDown (drawUi session).listState⟩
  | char {c : Char} : c ≠ 'q' → LoopOutcome session (.press (.char c))
      ⟨handleCharInput (drawUi session).state c, (drawUi session).listState⟩
  | ignored {event : Event} : (∀ code, event = .press code → code = .other) →
      LoopOutcome session event (drawUi session)

theorem loopBody_outcome (session : Session) (event : Event) :
    LoopOutcome session event (loopBody session event) := by
  rcases event with ⟨code, kind⟩ | _
  · cases kind
    case press =>
      cases code with
      | char c =>
          by_cases isQuit : c = 'q'
          · subst isQuit
            exact .quit
          · simpa [loopBody, handleEvent, handleKey, isQuit] using LoopOutcome.char isQuit
      | enter => exact .enter (handleEnter_outcome _)
      | up => exact .up
      | down => exact .down
      | other => exact .ignored (by simp [Event.press])
    all_goals exact .ignored (by simp [Event.press])
  · exact .ignored (by simp [Event.press])

namespace LoopOutcome

variable {session next : Session} {event : Event}

/-- The stage moves by at most one per iteration, only on an Enter press,
and the cursor is then reset. -/
theorem currentStep_eq (outcome : LoopOutcome session event next) :
    next.state.currentStep = session.state.currentStep ∨
      (next.state.currentStep = session.state.currentStep + 1 ∧
        session.state.currentStep ≤ 9 ∧ event = .press .enter ∧ next.listState.selected = none) := by
  cases outcome with
  | enter outcome =>
      rcases outcome.currentStep_eq with same | ⟨advanced, bound, reset⟩
      · simp [same]
      · simp_all
  | _ => simp [handleCharInput_eq]

/-- A text field changes only at its own stage, by the character typed
there; for the hostname this needs it non-empty, which makes the default
substitution of stage 3 unreachable. -/
theorem text_eq (outcome : LoopOutcome session event next) (field : TextField)
    (kept : field = .hostname → session.state.hostname ≠ "") :
    field.get next.state =
      if session.state.currentStep = field.stage then event.typeInto (field.get session.state)
      else field.get session.state := by
  cases outcome with
  | enter outcome =>
      rw [outcome.text_eq field (by simpa using kept)]
      cases field <;> simp [TextField.get, Event.typeInto, Event.typedChar, Event.press]
  | ignored ignored =>
      cases field <;> simp [TextField.get, Event.typeInto, Event.typedChar_eq_none ignored]
  | _ =>
      cases field <;>
        simp_all [TextField.get, TextField.stage, handleCharInput_eq, Event.typeInto,
          Event.typedChar, Event.press]

theorem quit_iff (outcome : LoopOutcome session event next) :
    next.state.quit = true ↔ session.state.quit = true ∨ event = .press (.char 'q') := by
  cases outcome with
  | enter outcome => cases outcome <;> simp [Event.press]
  | char notQuit => simp [handleCharInput_eq, Event.press, notQuit]
  | ignored ignored =>
      have notQuit : event ≠ .press (.char 'q') := fun isQuit => by
        cases ignored _ isQuit
      simp [notQuit]
  | _ => simp [Event.press]

theorem selected_eq_none (outcome : LoopOutcome session event next)
    (notList : ¬IsListStage session.state.currentStep) (unset : session.listState.selected = none) :
    next.listState.selected = none := by
  have drawn : (drawUi session).listState.selected = none := by simp [drawUi, notList, unset]
  cases outcome with
  | enter outcome => cases outcome <;> simp [drawn]
  | up => simp [selectUp, drawn]
  | down => simp [selectDown, drawn]
  | _ => exact drawn

theorem fieldsCollected (outcome : LoopOutcome session event next)
    (collected : FieldsCollected session.state) : FieldsCollected next.state := by
  obtain ⟨username, password, hostname, edition, branch, filesystem, disk⟩ := collected
  have drawn : FieldsCollected (drawUi session).state := by
    simpa only [drawUi_state] using
      (⟨username, password, hostname, edition, branch, filesystem, disk⟩ :
        FieldsCollected { session.state with previewImage := false })
  cases outcome with
  | enter outcome => exact outcome.fieldsCollected drawn
  | char _ =>
      simp only [drawUi_state, handleCharInput_eq]
      refine ⟨fun passed => ?_, fun passed => ?_, fun passed => ?_, edition, branch, filesystem,
        fun passed => ?_⟩ <;> dsimp only <;> split_ifs
      all_goals first
        | exact String.push_ne_empty _ _
        | exact username passed
        | exact password passed
        | exact hostname passed
        | exact disk passed
  | _ => exact ⟨drawn.1, drawn.2, drawn.3, drawn.4, drawn.5, drawn.6, drawn.7⟩

end LoopOutcome

end HackerOSInstaller

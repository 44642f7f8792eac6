import HackerOSInstaller.Wizard.Cursor
import HackerOSInstaller.Wizard.Enterable

/-!
# What the wizard shows

The text of every screen `draw_ui` draws: the header, the panel of the
current stage, and the edition preview.  Colours, borders and layout are
ratatui's and are left out; what is kept is each string a panel renders, as
the source builds it before ratatui splits or wraps it, and the entry a list
highlights.  `screens` is what a run of `run_app` shows: one screen per
iteration, drawn before the event is read, and none once the loop has ended.
-/

namespace HackerOSInstaller

/-- A bordered `Paragraph`: its block title and its text. -/
structure Panel where
  title : String
  lines : List String
  deriving DecidableEq, Repr

/-- The body of a screen: nothing, a paragraph, or a `List` with its block
title, its entries and the highlighted entry. -/
inductive Body where
  | blank
  | paragraph (panel : Panel)
  | list (title : String) (items : List String) (selected : Option Nat)
  deriving DecidableEq, Repr

structure Screen where
  header : String
  body : Body
  preview : Option Panel
  deriving DecidableEq, Repr

def Edition.debug : Edition → String
  | .official => "Official"
  | .gnome => "Gnome"
  | .xfce => "Xfce"
  | .blue => "Blue"
  | .hydra => "Hydra"
  | .cybersecurity => "Cybersecurity"
  | .wayfire => "Wayfire"
  | .atomic => "Atomic"

def DebianBranch.debug : DebianBranch → String
  | .stable => "Stable"
  | .testing => "Testing"
  | .unstable => "Unstable"

def Filesystem.debug : Filesystem → String
  | .btrfs => "Btrfs"
  | .ext4 => "Ext4"
  | .zfs => "Zfs"

/-- `{:?}` of an `Option`. -/
def optionDebug (debug : α → String) : Option α → String
  | none => "None"
  | some value => "Some(" ++ debug value ++ ")"

/-- `"*".repeat(count)`. -/
def stars (count : Nat) : String :=
  ⟨List.replicate count '*'⟩

def drawWelcome : Body :=
  .paragraph ⟨"Welcome", ["Welcome to HackerOS Installer!\nPress Enter to start."]⟩

def drawUsernameInput (input : String) : Body :=
  .paragraph ⟨"User Creation", ["Enter username: " ++ input]⟩

/-- One star per byte of the password: `input.len()` counts UTF-8 bytes. -/
def drawPasswordInput (input : String) : Body :=
  .paragraph ⟨"Password", ["Enter password: " ++ stars input.utf8ByteSize]⟩

def drawHostnameInput (input : String) : Body :=
  .paragraph ⟨"Hostname", ["Enter hostname (default: hackeros): " ++ input]⟩

/-- The four list stages: the cursor initialiser, then the list with the
cursor highlighted. -/
def drawSelection (title : String) (items : List String) (listState : ListState) : Body :=
  .list title items (initSelection listState).selected

def drawEditionSelection (listState : ListState) : Body :=
  drawSelection "Select Edition" editionItems listState

def drawBranchSelection (listState : ListState) : Body :=
  drawSelection "Select Debian Branch" debianBranchItems listState

def drawFilesystemSelection (listState : ListState) : Body :=
  drawSelection "Select Filesystem" filesystemItems listState

def drawPartitionMode (listState : ListState) : Body :=
  drawSelection "Partitioning Mode" partitionModeItems listState

def drawDiskSelection (input : String) : Body :=
  .paragraph ⟨"Disk Selection", ["Enter disk (e.g., /dev/sda): " ++ input]⟩

def drawSummary (state : InstallerState) : Body :=
  .paragraph ⟨"Summary",
    ["Username: " ++ state.username, "Hostname: " ++ state.hostname,
      "Edition: " ++ optionDebug Edition.debug state.edition,
      "Branch: " ++ optionDebug DebianBranch.debug state.branch,
      "Filesystem: " ++ optionDebug Filesystem.debug state.filesystem,
      "Manual Partition: " ++ toString state.manualPartition, "Disk: " ++ state.disk,
      "\nPress Enter to install."]⟩

/-- The image `draw_image_preview` names for an edition. -/
def Edition.imageName : Edition → String
  | .official => "plasma.png"
  | .gnome => "gnome.png"
  | .xfce => "xfce.png"
  | .blue => "blue.png"
  | .hydra => "hydra.png"
  | .cybersecurity => "cybersecurity.png"
  | .wayfire => "wayfire.png"
  | .atomic => "atomic.png"

/-- `draw_image_preview`: nothing without an edition. -/
def drawImagePreview (edition : Option Edition) : Option Panel :=
  edition.map fun edition =>
    ⟨"Edition Preview",
      ["Previewing image: " ++ "/usr/share/HackerOS-Installer/images/" ++ edition.imageName]⟩

/-- What `draw_ui` renders for a session; `drawUi` is what it writes back. -/
def drawScreen (session : Session) : Screen where
  header := "HackerOS Installer - Inspired by Arch"
  body :=
    match session.state.currentStep with
    | 0 => drawWelcome
    | 1 => drawUsernameInput session.state.username
    | 2 => drawPasswordInput session.state.password
    | 3 => drawHostnameInput session.state.hostname
    | 4 => drawEditionSelection session.listState
    | 5 => drawBranchSelection session.listState
    | 6 => drawFilesystemSelection session.listState
    | 7 => drawPartitionMode session.listState
    | 8 => drawDiskSelection session.state.disk
    | 9 => drawSummary session.state
    | _ => .blank
  preview := if session.state.previewImage then drawImagePreview session.state.edition else none

/-- What `terminal` shows of a paragraph line ratatui draws without
wrapping: the characters up to the body panel's inner width, a character to
a column, and nothing when the panel has no inner cell. -/
def Terminal.clipLine (terminal : Terminal) (line : String) : String :=
  if terminal.bodyVisible then ⟨line.data.take (terminal.width - 2)⟩ else ""

/-- A screen as `terminal` shows it: the lines of the body's paragraph
clipped by `Terminal.clipLine`, which reads every paragraph but the wrapped
welcome text as ratatui draws it.  Titles, lists and the preview are kept
as drawn. -/
def Screen.clipOn (terminal : Terminal) (screen : Screen) : Screen :=
  { screen with
    body :=
      match screen.body with
      | .paragraph panel => .paragraph { panel with lines := panel.lines.map terminal.clipLine }
      | body => body }

/-- The screens a run shows, one per iteration of `run_app`'s loop, each
drawn before the event is read; the last is the one the loop waits on. -/
def screens : Session → List Event → List Screen
  | session, [] => [drawScreen session]
  | session, event :: events =>
      let next := loopBody session event
      drawScreen session ::
        if next.state.quit then []
        else if next.state.currentStep ≥ 10 then []
        else screens next events

theorem loopBody_previewImage (session : Session) (event : Event)
    (shown : (loopBody session event).state.previewImage = true) :
    session.state.currentStep = 4 ∧ (loopBody session event).state.currentStep = 5 := by
  have outcome := loopBody_outcome session event
  generalize loopBody session event = next at outcome shown ⊢
  cases outcome with
  | enter outcome => cases outcome <;> simp_all
  | char => simp [handleCharInput_eq] at shown
  | _ => simp at shown

theorem Reachable.previewImage {session : Session} (reachable : Reachable session)
    (shown : session.state.previewImage = true) : session.state.currentStep = 5 := by
  cases reachable with
  | init => cases shown
  | step event _ _ => exact (loopBody_previewImage _ event shown).2

theorem screens_ne_nil (session : Session) (events : List Event) : screens session events ≠ [] := by
  cases events <;> simp [screens]

theorem screens_append_of_waiting {session last : Session} {events : List Event}
    (waiting : runApp session events = .waiting last) (later : List Event) :
    screens session (events ++ later) = (screens session events).dropLast ++ screens last later := by
  induction events generalizing session with
  | nil => cases waiting; rfl
  | cons event events ih =>
      rcases runApp_cons session event events with ⟨_, quit⟩ | ⟨_, _, install⟩ | ⟨continues, next⟩
      · rw [quit] at waiting; cases waiting
      · rw [install] at waiting; cases waiting
      · rw [next] at waiting
        simp only [List.cons_append, screens, continues.1, Bool.false_eq_true, if_false,
          not_le.mpr continues.2, List.append_eq, ih waiting,
          List.dropLast_cons_of_ne_nil (screens_ne_nil _ _)]

/-- What the user confirms is what gets installed: in every run that hands
off, the last screen drawn is the summary of the very state handed to
`perform_installation`, with no preview over it. -/
theorem handoff_last_screen {events : List Event} {state : InstallerState}
    (install : runApp Session.init events = .install state) :
    (screens Session.init events).getLast? =
      some ⟨"HackerOS Installer - Inspired by Arch", drawSummary state, none⟩ := by
  obtain ⟨before, event, after, last, rfl, waiting, rfl, running, done⟩ := runApp_eq_install install
  have reachable := Reachable.init.runApp_waiting waiting
  obtain ⟨atSummary, rfl, -⟩ := reachable.invariant.handoff (loopBody_outcome last _) done
  have hidden : last.state.previewImage = false := by
    by_contra shown
    have := reachable.previewImage (by simpa using shown)
    omega
  have summary : (loopBody last (.press .enter)).state =
      { last.state with previewImage := false }.advance := by
    simp [loopBody, handleEvent, Event.press, handleKey, handleEnter, atSummary]
  rw [screens_append_of_waiting waiting]
  simp [screens, running, done, drawScreen, atSummary, hidden, drawSummary, summary]

theorem diskRun_last_screen :
    runApp Session.init (diskRun "/dev/vdb") =
        .install { diskStage with currentStep := 10, disk := "/dev/vdb" } ∧
      (screens Session.init (diskRun "/dev/vdb")).getLast? =
        some ⟨"HackerOS Installer - Inspired by Arch",
          drawSummary { diskStage with currentStep := 10, disk := "/dev/vdb" }, none⟩ :=
  ⟨runApp_diskRun (by decide) (by decide), handoff_last_screen (runApp_diskRun (by decide) (by decide))⟩

/-- How many more previews a run from `session` can show: the one pending
in the flag, and the one the edition stage will set. -/
def previewBudget (session : Session) : Nat :=
  (if session.state.previewImage then 1 else 0) + (if session.state.currentStep ≤ 4 then 1 else 0)

theorem drawScreen_preview {session : Session} (previewed : (drawScreen session).preview.isSome) :
    session.state.previewImage = true := by
  by_contra hidden
  simp [drawScreen, hidden] at previewed

theorem previewBudget_loopBody (session : Session) (event : Event) :
    previewBudget (loopBody session event) +
        (if (drawScreen session).preview.isSome then 1 else 0) ≤ previewBudget session := by
  have grows := (loopBody_outcome session event).currentStep_eq
  have drawn := @drawScreen_preview session
  unfold previewBudget
  by_cases flagged : (loopBody session event).state.previewImage = true
  · obtain ⟨atEdition, atBranch⟩ := loopBody_previewImage session event flagged
    split_ifs <;> simp_all
  · split_ifs <;> simp_all <;> omega

theorem countP_preview_screens (session : Session) (events : List Event) :
    (screens session events).countP (fun screen => screen.preview.isSome) ≤
      previewBudget session := by
  induction events generalizing session with
  | nil =>
      have drawn := @drawScreen_preview session
      simp only [screens, List.countP_singleton, previewBudget]
      split_ifs <;> simp_all
  | cons event events ih =>
      have rest : ((if (loopBody session event).state.quit then []
          else if (loopBody session event).state.currentStep ≥ 10 then []
          else screens (loopBody session event) events).countP
            fun screen => screen.preview.isSome) ≤ previewBudget (loopBody session event) := by
        split_ifs <;> simp [ih]
      have spent := previewBudget_loopBody session event
      simp only [screens, List.countP_cons]
      omega

/-- Every run shows the edition preview at most once: the flag that
`handle_enter` sets at the edition stage is cleared by the next draw, and
the edition stage is never entered twice. -/
theorem screens_preview_once (events : List Event) :
    (screens Session.init events).countP (fun screen => screen.preview.isSome) ≤ 1 :=
  countP_preview_screens Session.init events

end HackerOSInstaller

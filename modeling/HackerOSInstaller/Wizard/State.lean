import Mathlib.Data.String.Basic

/-!
# Installer state and key events

The data `run_app` threads through its loop: the configuration record
`InstallerState` built up by the wizard, ratatui's `ListState` cursor used by
the four list stages, and the key events crossterm delivers.  The ten stages
are the values `0` to `9` of `current_step`; reaching `10` hands the state to
`perform_installation`.
-/

namespace HackerOSInstaller

/-- The desktop editions, in the order `draw_edition_selection` lists them. -/
inductive Edition where
  | official
  | gnome
  | xfce
  | blue
  | hydra
  | cybersecurity
  | wayfire
  | atomic
  deriving DecidableEq, Repr

inductive DebianBranch where
  | stable
  | testing
  | unstable
  deriving DecidableEq, Repr

inductive Filesystem where
  | btrfs
  | ext4
  | zfs
  deriving DecidableEq, Repr

/-- `usize` fields are natural numbers: `current_step` never passes `10` and
the cursor grows by one per key press, far from `usize::MAX`. -/
structure InstallerState where
  currentStep : Nat
  username : String
  password : String
  hostname : String
  edition : Option Edition
  branch : Option DebianBranch
  filesystem : Option Filesystem
  manualPartition : Bool
  disk : String
  previewImage : Bool
  quit : Bool
  deriving DecidableEq, Repr

namespace InstallerState

/-- `InstallerState::default`: note the hostname is pre-filled. -/
def default : InstallerState where
  currentStep := 0
  username := ""
  password := ""
  hostname := "hackeros"
  edition := none
  branch := none
  filesystem := none
  manualPartition := false
  disk := ""
  previewImage := false
  quit := false

/-- `state.current_step += 1`. -/
def advance (state : InstallerState) : InstallerState :=
  { state with currentStep := state.currentStep + 1 }

@[simp] theorem advance_def (state : InstallerState) :
    state.advance = { state with currentStep := state.currentStep + 1 } := rfl


end InstallerState

/-- The four free-text fields, each typed at its own stage. -/
inductive TextField where
  | username
  | password
  | hostname
  | disk
  deriving DecidableEq, Repr

/-- The stage at which `handle_char_input` appends to the field. -/
def TextField.stage : TextField → Nat
  | .username => 1
  | .password => 2
  | .hostname => 3
  | .disk => 8

def TextField.get : TextField → InstallerState → String
  | .username => InstallerState.username
  | .password => InstallerState.password
  | .hostname => InstallerState.hostname
  | .disk => InstallerState.disk

/-- Every field gathered at a stage the wizard has passed is filled: what
`perform_installation` relies on without checking. -/
structure FieldsCollected (state : InstallerState) : Prop where
  username : 1 < state.currentStep → state.username ≠ ""
  password : 2 < state.currentStep → state.password ≠ ""
  hostname : 3 < state.currentStep → state.hostname ≠ ""
  edition : 4 < state.currentStep → state.edition.isSome
  branch : 5 < state.currentStep → state.branch.isSome
  filesystem : 6 < state.currentStep → state.filesystem.isSome
  disk : 8 < state.currentStep → state.disk ≠ ""

theorem String.push_ne_empty (field : String) (c : Char) : field.push c ≠ "" := by
  intro empty
  simpa using congrArg String.data empty

/-- The part of ratatui's `ListState` the installer reads: the selected index. -/
structure ListState where
  selected : Option Nat
  deriving DecidableEq, Repr

/-- `ListState::select`. -/
def ListState.select (_listState : ListState) (index : Option Nat) : ListState :=
  ⟨index⟩

@[simp] theorem ListState.select_selected (listState : ListState) (index : Option Nat) :
    (listState.select index).selected = index := rfl

/-- A character crossterm delivers as `KeyCode::Char`: its decoder reads the
control bytes below `0x20` and `0x7F` as `Enter`, `Tab`, `Backspace`, `Esc`
or a letter with the control modifier, never as themselves. -/
def isKeyChar (c : Char) : Bool :=
  32 ≤ c.val && c.val != 127

inductive KeyCode where
  /-- A character key; crossterm delivers only the characters `isKeyChar`
  admits. -/
  | char (c : Char)
  | enter
  | up
  | down
  /-- Every other key; `run_app` ignores them. -/
  | other
  deriving DecidableEq, Repr

inductive KeyEventKind where
  | press
  | repeat
  | release
  deriving DecidableEq, Repr

structure KeyEvent where
  code : KeyCode
  kind : KeyEventKind
  deriving DecidableEq, Repr

/-- `crossterm::event::Event`: key events, and the rest (resize, focus, mouse,
paste) which `run_app` ignores. -/
inductive Event where
  | key (event : KeyEvent)
  | other
  deriving DecidableEq, Repr

/-- An event crossterm can deliver: a `Char` key carries a character it
delivers as one. -/
def Event.deliverable : Event → Bool
  | .key ⟨.char c, _⟩ => isKeyChar c
  | _ => true

/-- A key press. -/
def Event.press (code : KeyCode) : Event :=
  .key ⟨code, .press⟩

/-- The character of a `Char` key press. -/
def Event.charPress? : Event → Option Char
  | .key ⟨.char c, .press⟩ => some c
  | _ => none

/-- The character `handle_char_input` receives for an event: a `Char` press
other than `'q'`, which the key match takes first. -/
def Event.typedChar : Event → Option Char
  | .key ⟨.char c, .press⟩ => if c = 'q' then none else some c
  | _ => none

/-- A text field after an event of its stage: the typed character appended. -/
def Event.typeInto (event : Event) (field : String) : String :=
  match event.typedChar with
  | some c => field.push c
  | none => field

theorem Event.typeInto_ne_empty (event : Event) {field : String} (nonEmpty : field ≠ "") :
    event.typeInto field ≠ "" := by
  unfold Event.typeInto
  split
  · exact String.push_ne_empty _ _
  · exact nonEmpty

/-- The loop's mutable data: the installer state and the list cursor. -/
structure Session where
  state : InstallerState
  listState : ListState
  deriving DecidableEq, Repr

/-- `run_app`'s starting point: `InstallerState::default()` and
`ListState::default()`. -/
def Session.init : Session :=
  ⟨InstallerState.default, ⟨none⟩⟩

end HackerOSInstaller

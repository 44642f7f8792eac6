import HackerOSInstaller.Wizard.Fields
import HackerOSInstaller.Wizard.Terminal

/-!
# The cursor of the list stages

At stages 4 to 7 the wizard shows a list and `ListState` holds the cursor:
the `draw_*` function of the stage sets it to `0` when it is unset, `Up` and
`Down` move it, and the Enter that leaves the stage reads it through the
stage's positional table before `handle_enter` resets it.  `Down` has no
bound of its own.  On a terminal that shows a row of the list, the render of
every draw moves a cursor past the last entry back onto it; on a smaller
one nothing does.  So the choice a list stage stores is the table entry at
an index that the `Up` and `Down` presses read at the stage determine
together with the terminal, and the same presses choose differently on a
terminal of 80 columns by 24 rows and on one of 80 by 5.  On the smaller
one an Enter past the entries takes the early return at stages 4 to 6,
while stage 7, which has no table, reads any index but `1` as automatic
partitioning.
-/

namespace HackerOSInstaller

/-- What a list stage stores, as one type for the four stages. -/
inductive Choice where
  | edition (edition : Option Edition)
  | branch (branch : Option DebianBranch)
  | filesystem (filesystem : Option Filesystem)
  | partitionMode (manual : Bool)
  deriving DecidableEq, Repr

/-- The field list stage `stage` stores. -/
def choiceAt (stage : Nat) (state : InstallerState) : Choice :=
  match stage with
  | 4 => .edition state.edition
  | 5 => .branch state.branch
  | 6 => .filesystem state.filesystem
  | _ => .partitionMode state.manualPartition

/-- What leaving list stage `stage` with the cursor at `index` stores: the
entry of the stage's positional table, and at stage 7, which has none,
whether `index` is `1`. -/
def entryAt (stage index : Nat) : Choice :=
  match stage with
  | 4 => .edition (editionAt index)
  | 5 => .branch (debianBranchAt index)
  | 6 => .filesystem (filesystemAt index)
  | _ => .partitionMode (index == 1)

/-- Whether a choice names an entry. -/
def Choice.isEntry : Choice → Bool
  | .edition chosen => chosen.isSome
  | .branch chosen => chosen.isSome
  | .filesystem chosen => chosen.isSome
  | .partitionMode _ => true

theorem entryAt_isEntry_iff {stage : Nat} (tabled : 4 ≤ stage ∧ stage ≤ 6) (index : Nat) :
    (entryAt stage index).isEntry ↔ index < (listItems stage).length := by
  obtain rfl | rfl | rfl : stage = 4 ∨ stage = 5 ∨ stage = 6 := by omega
  all_goals
    rcases index with _ | _ | _ | _ | _ | _ | _ | _ | index <;>
      simp [entryAt, Choice.isEntry, editionAt, debianBranchAt, filesystemAt, listItems,
        editionItems, debianBranchItems, filesystemItems]

namespace LoopOutcome

variable {session next : Session} {event : Event}

theorem choiceAt_eq (outcome : LoopOutcome session event next) {stage : Nat}
    (listStage : IsListStage stage) :
    choiceAt stage next.state =
      if session.state.currentStep = stage ∧ next.state.currentStep ≠ stage then
        entryAt stage (cursorIndex session)
      else choiceAt stage session.state := by
  obtain ⟨low, high⟩ := listStage
  obtain rfl | rfl | rfl | rfl : stage = 4 ∨ stage = 5 ∨ stage = 6 ∨ stage = 7 := by omega
  all_goals
    cases outcome with
    | enter outcome =>
        cases outcome with
        | edition atStage cursor entry | branch atStage cursor entry
        | filesystem atStage cursor entry =>
            simp only [drawUi_state] at atStage
            rw [drawUi_selected (by simp [IsListStage, atStage]), Option.some_inj] at cursor
            simp [choiceAt, entryAt, atStage, cursor, entry]
        | partitionMode atStage cursor =>
            simp only [drawUi_state] at atStage
            rw [drawUi_selected (by simp [IsListStage, atStage]), Option.some_inj] at cursor
            simp [choiceAt, entryAt, atStage, cursor]
        | _ => simp_all [choiceAt]
    | _ => simp [choiceAt, handleCharInput_eq]

end LoopOutcome

/-- The events the loop on `terminal` reads while the wizard is at `stage`,
in order. -/
def eventsAtOn (terminal : Terminal) (stage : Nat) : Session → List Event → List Event
  | _, [] => []
  | session, event :: events =>
      let later :=
        if Continues (loopBodyOn terminal session event) then
          eventsAtOn terminal stage (loopBodyOn terminal session event) events
        else []
      if session.state.currentStep = stage then event :: later else later

/-- The navigation presses the loop on `terminal` reads at `stage`, in
order. -/
def navigationAtOn (terminal : Terminal) (stage : Nat) (session : Session)
    (events : List Event) : List Navigation :=
  (eventsAtOn terminal stage session events).filterMap Event.navigation?

/-- The index the cursor of a list of `count` entries is drawn at on
`terminal` after `moves`, from the index `start` it is drawn at: each move
from where the cursor is drawn, then the next draw's render. -/
def cursorAfterOn (terminal : Terminal) (count start : Nat) (moves : List Navigation) : Nat :=
  moves.foldl (fun index move => terminal.clampIndex count (move.move index)) start

theorem Terminal.clampIndex_clampIndex (terminal : Terminal) (count index : Nat) :
    terminal.clampIndex count (terminal.clampIndex count index) =
      terminal.clampIndex count index := by
  unfold Terminal.clampIndex
  split <;> omega

theorem cursorAfterOn_cons (terminal : Terminal) (count start : Nat) (event : Event)
    (moves : List Navigation) :
    cursorAfterOn terminal count start (event.navigation?.toList ++ moves) =
      cursorAfterOn terminal count
        ((event.navigation?.map fun move => terminal.clampIndex count (move.move start)).getD start)
        moves := by
  cases event.navigation? <;> rfl

section Runs

variable {terminal : Terminal} {stage : Nat}

theorem runAppOn_cons_state (terminal : Terminal) (session : Session) (event : Event)
    (events : List Event) :
    ¬Continues (loopBodyOn terminal session event) ∧
        (runAppOn terminal session (event :: events)).state =
          (loopBodyOn terminal session event).state ∨
      Continues (loopBodyOn terminal session event) ∧
        runAppOn terminal session (event :: events) =
          runAppOn terminal (loopBodyOn terminal session event) events := by
  by_cases continues : Continues (loopBodyOn terminal session event)
  · refine .inr ⟨continues, ?_⟩
    simp [runAppOn, continues.1, Nat.not_le.mpr continues.2]
  · refine .inl ⟨continues, ?_⟩
    simp only [runAppOn]
    split_ifs <;> simp_all [RunOutcome.state, Continues]

theorem currentStep_loopBodyOn (terminal : Terminal) (session : Session) (event : Event) :
    (loopBodyOn terminal session event).state.currentStep = session.state.currentStep ∨
      (loopBodyOn terminal session event).state.currentStep = session.state.currentStep + 1 ∧
        event = .press .enter ∧ (loopBodyOn terminal session event).listState.selected = none := by
  rw [loopBodyOn_eq]
  rcases (loopBody_outcome (clampOn terminal session) event).currentStep_eq with
    same | ⟨advanced, -, isEnter, reset⟩
  · exact .inl (by simpa using same)
  · exact .inr ⟨by simpa using advanced, isEnter, reset⟩

theorem runAppOn_cursorUnset {session last : Session} {events : List Event}
    (unset : ¬IsListStage session.state.currentStep → session.listState.selected = none)
    (waiting : runAppOn terminal session events = .waiting last) :
    ¬IsListStage last.state.currentStep → last.listState.selected = none := by
  induction events generalizing session with
  | nil => cases waiting; exact unset
  | cons event events ih =>
      simp only [runAppOn] at waiting
      split_ifs at waiting
      refine ih (fun notList => ?_) waiting
      rcases currentStep_loopBodyOn terminal session event with same | ⟨-, -, reset⟩
      · have kept : clampOn terminal session = session :=
          clampOn_of_not fun ⟨_, shown, _⟩ => notList (same ▸ shown)
        have outcome := loopBody_outcome (clampOn terminal session) event
        rw [← loopBodyOn_eq, kept] at outcome
        exact outcome.selected_eq_none (same ▸ notList) (unset (same ▸ notList))
      · exact reset

theorem eventsAtOn_of_lt {session : Session} (past : stage < session.state.currentStep)
    (events : List Event) : eventsAtOn terminal stage session events = [] := by
  induction events generalizing session with
  | nil => rfl
  | cons event events ih =>
      have later := currentStep_loopBodyOn terminal session event
      rw [eventsAtOn, if_neg (by omega)]
      split
      · exact ih (by omega)
      · rfl

theorem runAppOn_choiceAt_of_lt (listStage : IsListStage stage) {session : Session}
    (past : stage < session.state.currentStep) (events : List Event) :
    choiceAt stage (runAppOn terminal session events).state = choiceAt stage session.state := by
  induction events generalizing session with
  | nil => rfl
  | cons event events ih =>
      have outcome := loopBody_outcome (clampOn terminal session) event
      rw [← loopBodyOn_eq] at outcome
      have kept : choiceAt stage (loopBodyOn terminal session event).state =
          choiceAt stage session.state := by
        rw [outcome.choiceAt_eq listStage, clampOn_state, if_neg (by omega)]
      rcases runAppOn_cons_state terminal session event events with ⟨-, ended⟩ | ⟨-, next⟩
      · rw [ended, kept]
      · rw [next, ih (by have := currentStep_loopBodyOn terminal session event; omega), kept]

theorem navigationAtOn_cons (session : Session) (event : Event) (events : List Event) :
    navigationAtOn terminal stage session (event :: events) =
      (if session.state.currentStep = stage then event.navigation?.toList else []) ++
        if Continues (loopBodyOn terminal session event) then
          navigationAtOn terminal stage (loopBodyOn terminal session event) events
        else [] := by
  unfold navigationAtOn
  rw [eventsAtOn]
  split <;> split <;> rcases moved : event.navigation? with _ | move <;>
    simp_all [List.filterMap_cons]

/-- Over any run on a terminal not yet past the list stage `stage`, a run
that leaves `stage` stores the entry at the index the cursor is drawn at
when the Enter is read: the navigation presses read at `stage` move it,
from `0` if the run enters the stage and from where it is drawn if the run
starts there, and every draw renders it. -/
theorem runAppOn_chosen (listStage : IsListStage stage) {session : Session} (events : List Event)
    (before : session.state.currentStep ≤ stage)
    (left : stage < (runAppOn terminal session events).state.currentStep) :
    choiceAt stage (runAppOn terminal session events).state =
      entryAt stage (cursorAfterOn terminal (listItems stage).length
        (if session.state.currentStep = stage then
          terminal.clampIndex (listItems stage).length (cursorIndex session)
        else 0)
        (navigationAtOn terminal stage session events)) := by
  induction events generalizing session with
  | nil => simp [runAppOn, RunOutcome.state] at left; omega
  | cons event events ih =>
      have outcome := loopBody_outcome (clampOn terminal session) event
      rw [← loopBodyOn_eq] at outcome
      have stored := outcome.choiceAt_eq listStage
      rw [clampOn_state] at stored
      have drawnAt (atStage : session.state.currentStep = stage) :
          cursorIndex (clampOn terminal session) =
            terminal.clampIndex (listItems stage).length (cursorIndex session) := by
        rw [cursorIndex_clampOn (atStage ▸ listStage), atStage]
      rw [navigationAtOn_cons]
      rcases runAppOn_cons_state terminal session event events with ⟨stops, ended⟩ |
        ⟨continues, next⟩
      · -- the run ends here, so this iteration leaves `stage`
        rw [ended] at left ⊢
        rcases currentStep_loopBodyOn terminal session event with same | ⟨advanced, isEnter, -⟩
        · omega
        · have atStage : session.state.currentStep = stage := by omega
          have noMove : event.navigation? = none := by
            simp [isEnter, Event.navigation?, Event.press]
          rw [stored, if_pos ⟨atStage, by omega⟩, if_neg stops, noMove, drawnAt atStage]
          simp [atStage, cursorAfterOn]
      · rw [next] at left ⊢
        rw [if_pos continues]
        rcases currentStep_loopBodyOn terminal session event with
          same | ⟨advanced, isEnter, reset⟩
        · rw [ih (by omega) left, same]
          split
          · rename_i atStage
            have clampedStage : IsListStage (clampOn terminal session).state.currentStep := by
              simpa [atStage] using listStage
            have moved := outcome.cursor_eq clampedStage (by simpa using same)
            rw [cursorAfterOn_cons, moved, drawnAt atStage]
            rcases event.navigation? with _ | move
            · simp [Terminal.clampIndex_clampIndex]
            · rfl
          · rfl
        · by_cases atStage : session.state.currentStep = stage
          · have noMove : event.navigation? = none := by
              simp [isEnter, Event.navigation?, Event.press]
            rw [runAppOn_choiceAt_of_lt listStage (by omega), stored, if_pos ⟨atStage, by omega⟩,
              noMove, navigationAtOn, eventsAtOn_of_lt (by omega), drawnAt atStage]
            simp [atStage, cursorAfterOn]
          · rw [ih (by omega) left]
            simp only [atStage, ↓reduceIte, List.nil_append]
            split
            · simp [cursorIndex, reset, Terminal.clampIndex]
            · rfl

end Runs

theorem loopBody_navigation_of_unset {session : Session}
    (notList : ¬IsListStage session.state.currentStep) (unset : session.listState.selected = none) :
    loopBody session (.press .up) = drawUi session ∧
      loopBody session (.press .down) = drawUi session := by
  rcases session with ⟨state, ⟨selected⟩⟩
  simp only at notList unset
  subst unset
  simp [loopBody, handleEvent, handleKey, Event.press, drawUi, notList, selectUp, selectDown]

/-- On every terminal the cursor is unset at every stage change and
throughout the stages without a list, where `Up` and `Down` do nothing; the
choice stored on leaving each list stage is the entry of its table at the
index the cursor is drawn at when the Enter is read.  The `Up` and `Down`
presses read at the stage move it there from `0`, and each draw moves an
index past the last entry onto it when the terminal shows a row of the
list. -/
theorem cursor_determines_choice (terminal : Terminal) :
    (∀ events session, runAppOn terminal Session.init events = .waiting session →
        ¬IsListStage session.state.currentStep →
        session.listState.selected = none ∧
          loopBodyOn terminal session (.press .up) = drawUiOn terminal session ∧
          loopBodyOn terminal session (.press .down) = drawUiOn terminal session) ∧
      (∀ session event,
        (loopBodyOn terminal session event).state.currentStep ≠ session.state.currentStep →
        (loopBodyOn terminal session event).listState.selected = none) ∧
      ∀ events, let final := (runAppOn terminal Session.init events).state
        let read := fun stage => cursorAfterOn terminal (listItems stage).length 0
          (navigationAtOn terminal stage Session.init events)
        (4 < final.currentStep → final.edition = editionAt (read 4)) ∧
        (5 < final.currentStep → final.branch = debianBranchAt (read 5)) ∧
        (6 < final.currentStep → final.filesystem = filesystemAt (read 6)) ∧
        (7 < final.currentStep → final.manualPartition = (read 7 == 1)) := by
  refine ⟨fun events session waiting notList => ?_, fun session event moved => ?_,
    fun events => ?_⟩
  · have unset := runAppOn_cursorUnset (fun _ => rfl) waiting notList
    have kept : clampOn terminal session = session :=
      clampOn_of_not fun ⟨_, shown, _⟩ => notList shown
    obtain ⟨up, down⟩ := loopBody_navigation_of_unset notList unset
    exact ⟨unset, by rw [loopBodyOn_eq, drawUiOn_eq, kept, up],
      by rw [loopBodyOn_eq, drawUiOn_eq, kept, down]⟩
  · rcases currentStep_loopBodyOn terminal session event with same | ⟨-, -, reset⟩
    · exact absurd same moved
    · exact reset
  · have chosen {stage : Nat} (listStage : IsListStage stage)
        (left : stage < (runAppOn terminal Session.init events).state.currentStep) :=
      runAppOn_chosen listStage events (by simp [Session.init, InstallerState.default]) left
    refine ⟨fun left => ?_, fun left => ?_, fun left => ?_, fun left => ?_⟩ <;>
      simpa [choiceAt, entryAt, Session.init, InstallerState.default] using
        chosen ⟨by omega, by omega⟩ left

/-- A run that presses `Down` nine times and `Up` twice at the edition
stage, then Enter. -/
def editionClampRun : List Event :=
  [.press .enter] ++ typeText "a" ++ [.press .enter] ++ typeText "b" ++
    [.press .enter, .press .enter] ++ List.replicate 9 (.press .down) ++
    List.replicate 2 (.press .up) ++ [.press .enter]

/-- The same presses at the edition stage store Cybersecurity on a terminal
of 80 by 24 and Atomic on one of 80 by 5. -/
theorem terminal_size_decides_edition :
    navigationAtOn ⟨80, 24⟩ 4 Session.init editionClampRun =
        navigationAtOn ⟨80, 5⟩ 4 Session.init editionClampRun ∧
      (runAppOn ⟨80, 24⟩ Session.init editionClampRun).state.edition = some .cybersecurity ∧
      (runAppOn ⟨80, 5⟩ Session.init editionClampRun).state.edition = some .atomic := by
  decide

theorem enterListStage_refused {α : Type} {table : Nat → Option α}
    {store : InstallerState → α → InstallerState} {session : Session} {index : Nat}
    (cursor : session.listState.selected = some index) (refused : table index = none) :
    enterListStage table store session = session := by
  simp [enterListStage, cursor, refused]

theorem loopBody_enter_refused {session : Session}
    (tabled : 4 ≤ session.state.currentStep ∧ session.state.currentStep ≤ 6)
    (refused : (entryAt session.state.currentStep (cursorIndex session)).isEntry = false) :
    loopBody session (.press .enter) = drawUi session := by
  have drawn := @drawUi_selected session ⟨tabled.1, by omega⟩
  obtain atStage | atStage | atStage :
      session.state.currentStep = 4 ∨ session.state.currentStep = 5 ∨
        session.state.currentStep = 6 := by
    omega
  all_goals
    rw [atStage] at refused
    simp only [entryAt, Choice.isEntry, Bool.eq_false_iff, ne_eq, Option.not_isSome_iff_eq_none]
      at refused
    simp [loopBody, handleEvent, handleKey, Event.press, handleEnter, atStage,
      enterListStage_refused drawn refused]

theorem loopBody_enter_entry {session : Session} (listStage : IsListStage session.state.currentStep)
    (within : cursorIndex session < (listItems session.state.currentStep).length) :
    (loopBody session (.press .enter)).state.currentStep = session.state.currentStep + 1 := by
  have drawn := drawUi_selected listStage
  obtain ⟨low, high⟩ := listStage
  by_cases partition : session.state.currentStep = 7
  · simp [loopBody, handleEvent, handleKey, Event.press, handleEnter, partition, drawn]
  have entry := (entryAt_isEntry_iff ⟨low, by omega⟩ _).mpr within
  obtain atStage | atStage | atStage :
      session.state.currentStep = 4 ∨ session.state.currentStep = 5 ∨
        session.state.currentStep = 6 := by
    omega
  all_goals
    rw [atStage] at entry
    simp only [entryAt, Choice.isEntry] at entry
    obtain ⟨value, stored⟩ := Option.isSome_iff_exists.mp entry
    simp [loopBody, handleEvent, handleKey, Event.press, handleEnter, atStage, enterListStage,
      drawn, stored]

/-- An Enter pressed at stages 4 to 6 with the cursor at or past the entries
takes the early return on a terminal too small to show a row of the list.
On one that shows a row, the draw has moved the cursor onto the last entry,
and the Enter stores that entry and moves on, at every list stage. -/
theorem loopBodyOn_enter_past_items (terminal : Terminal) {session : Session}
    (listStage : IsListStage session.state.currentStep)
    (past : (listItems session.state.currentStep).length ≤ cursorIndex session) :
    (terminal.bodyVisible = false → session.state.currentStep ≤ 6 →
        loopBodyOn terminal session (.press .enter) = drawUiOn terminal session) ∧
      (terminal.bodyVisible = true →
        loopBodyOn terminal session (.press .enter) =
            loopBodyOn terminal
              ⟨session.state, ⟨some ((listItems session.state.currentStep).length - 1)⟩⟩
              (.press .enter) ∧
          (loopBodyOn terminal session (.press .enter)).state.currentStep =
            session.state.currentStep + 1) := by
  have filled := listItems_length_pos listStage
  refine ⟨fun hidden tabled => ?_, fun visible => ?_⟩
  · rw [loopBodyOn_eq, drawUiOn_eq, clampOn_hidden hidden]
    refine loopBody_enter_refused ⟨listStage.1, tabled⟩ (Bool.eq_false_iff.mpr fun entry => ?_)
    have := (entryAt_isEntry_iff ⟨listStage.1, tabled⟩ _).mp entry
    omega
  · have clamped : clampOn terminal session =
        ⟨session.state, ⟨some ((listItems session.state.currentStep).length - 1)⟩⟩ :=
      if_pos ⟨visible, listStage, past⟩
    have onLast : clampOn terminal
        ⟨session.state, ⟨some ((listItems session.state.currentStep).length - 1)⟩⟩ =
          ⟨session.state, ⟨some ((listItems session.state.currentStep).length - 1)⟩⟩ :=
      clampOn_of_not fun ⟨_, _, over⟩ => by simp only [cursorIndex, Option.getD_some] at over; omega
    rw [loopBodyOn_eq, loopBodyOn_eq, clamped, onLast]
    exact ⟨rfl, loopBody_enter_entry listStage (by simp only [cursorIndex, Option.getD_some]; omega)⟩

/-- A session at the edition stage with the cursor at `8`, past the eight
editions. -/
def pastEditions : Session :=
  ⟨{ InstallerState.default with currentStep := 4 }, ⟨some 8⟩⟩

theorem enter_past_editions :
    IsListStage pastEditions.state.currentStep ∧
      (listItems pastEditions.state.currentStep).length ≤ cursorIndex pastEditions ∧
      loopBodyOn ⟨80, 5⟩ pastEditions (.press .enter) = drawUiOn ⟨80, 5⟩ pastEditions ∧
      (loopBodyOn ⟨80, 24⟩ pastEditions (.press .enter)).state.currentStep = 5 := by
  have listStage : IsListStage pastEditions.state.currentStep := ⟨by decide, by decide⟩
  have past : (listItems pastEditions.state.currentStep).length ≤ cursorIndex pastEditions := by
    decide
  exact ⟨listStage, past, (loopBodyOn_enter_past_items ⟨80, 5⟩ listStage past).1 rfl (by decide),
    ((loopBodyOn_enter_past_items ⟨80, 24⟩ listStage past).2 rfl).2⟩

/-- A run that presses `Down` twice at the partition-mode stage. -/
def partitionRun : List Event :=
  [.press .enter] ++ typeText "a" ++ [.press .enter] ++ typeText "b" ++
    List.replicate 5 (.press .enter) ++ [.press .down, .press .down]

/-- The state at the partition-mode stage of `partitionRun`. -/
def partitionStage : InstallerState :=
  { InstallerState.default with
    currentStep := 7, username := "a", password := "b", edition := some .official,
    branch := some .stable, filesystem := some .btrfs }

theorem runAppOn_congr {first second : Terminal}
    (same : first.bodyVisible = second.bodyVisible) : runAppOn first = runAppOn second := by
  funext session events
  induction events generalizing session with
  | nil => rfl
  | cons event events ih => simp only [runAppOn, loopBodyOn, drawUiOn, same, ih]

/-- Stage 7 has no early return: on every terminal an Enter with the cursor
past its two entries advances.  On a terminal that shows a row of the list
the draw has moved the cursor onto index `1`, and the Enter stores manual
partitioning; on a smaller one it reads index `2` as automatic. -/
theorem enter_past_partition_modes (terminal : Terminal) :
    runAppOn terminal Session.init partitionRun = .waiting ⟨partitionStage, ⟨some 2⟩⟩ ∧
      (listItems 7).length ≤ 2 ∧
      runAppOn terminal Session.init (partitionRun ++ [.press .enter]) =
        .waiting ⟨{ partitionStage with
          currentStep := 8, manualPartition := terminal.bodyVisible }, ⟨none⟩⟩ := by
  cases visible : terminal.bodyVisible
  · rw [runAppOn_hidden visible, runAppOn_hidden visible]
    exact ⟨by decide, by decide, by decide⟩
  · rw [@runAppOn_congr _ ⟨80, 24⟩ (by rw [visible]; rfl)]
    exact ⟨by decide, by decide, by decide⟩

end HackerOSInstaller

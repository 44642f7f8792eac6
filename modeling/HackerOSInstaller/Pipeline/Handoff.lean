import HackerOSInstaller.Pipeline.Guarded
import HackerOSInstaller.Wizard.Enterable

/-!
# From the wizard to the pipeline

The wizard hands its state to `perform_installation` once, on the Enter of
the summary stage, with every field filled; that state has a branch, a
filesystem and an edition, so no `unwrap` of the pipeline panics.  The
pipeline, for its part, checks only that the host could run each command or
request, never what the command or the server answered.
-/

namespace HackerOSInstaller

/-- The wizard moves one stage at a time, only on Enter, keeps every
gathered field filled, and calls `perform_installation` at most once: on
the summary stage's Enter, never after a `'q'`, with a state whose text
fields are non-empty and on which the pipeline never panics. -/
theorem wizard_hands_off_safely :
    (∀ session event, Reachable session →
      (loopBody session event).state.currentStep ≤ 10 ∧
        ((loopBody session event).state.currentStep = session.state.currentStep ∨
          (loopBody session event).state.currentStep = session.state.currentStep + 1 ∧
            event = .press .enter)) ∧
    (∀ session, Reachable session → FieldsCollected session.state) ∧
    ∀ events state, runApp Session.init events = .install state →
      (∃ before after last, events = before ++ .press .enter :: after ∧
        runApp Session.init before = .waiting last ∧ last.state.currentStep = 9 ∧
        Event.press (.char 'q') ∉ before ∧
        ∀ later, runApp Session.init (before ++ .press .enter :: later) = .install state) ∧
      state.username ≠ "" ∧ state.password ≠ "" ∧ state.hostname ≠ "" ∧ state.disk ≠ "" ∧
      ∀ oracle message, ((performInstallation state).exec oracle []).1 ≠ .panicked message := by
  refine ⟨fun session event reachable => ?_, fun session reachable => reachable.invariant.collected,
    fun events state install => ?_⟩
  · have bounded := reachable.invariant.bounded
    rcases (loopBody_outcome session event).currentStep_eq with same | ⟨advanced, _, isEnter, _⟩
    · exact ⟨by omega, .inl same⟩
    · exact ⟨by omega, .inr ⟨advanced, isEnter⟩⟩
  · obtain ⟨before, event, after, last, split, waiting, handed, running, done⟩ :=
      runApp_eq_install install
    obtain ⟨atSummary, isEnter, atTen, collected, -⟩ :=
      (Reachable.init.runApp_waiting waiting).invariant.handoff (loopBody_outcome last event)
        (handed ▸ done)
    subst isEnter
    rw [handed] at atTen collected
    refine ⟨⟨before, after, last, split, waiting, atSummary, quit_not_mem_of_waiting waiting,
      fun later => ?_⟩, collected.username (by omega), collected.password (by omega),
      collected.hostname (by omega), collected.disk (by omega), fun oracle message => ?_⟩
    · rw [runApp_append_of_waiting waiting, runApp, ← handed]
      simp [running, done, handed]
    · exact (guarded_performInstallation (collected.branch (by omega))
        (collected.filesystem (by omega)) (collected.edition (by omega))).exec_ne_panicked
        [] message

/-- A run choosing the Atomic edition, whose pipeline downloads. -/
def atomicRun : List Event :=
  [.press .enter] ++ typeText "a" ++ [.press .enter] ++ typeText "b" ++
    [.press .enter, .press .enter] ++ List.replicate 7 (.press .down) ++
    List.replicate 4 (.press .enter) ++ typeText "d" ++ [.press .enter, .press .enter]

/-- On a host where every command exits with status 1 and every request
gets a 404, the pipeline of a handed-off configuration runs to the end: it
removes the installer and reboots, and returns `Ok`. -/
theorem failed_commands_reach_reboot :
    runApp Session.init atomicRun = .install (runApp Session.init atomicRun).state ∧
      let run := (performInstallation (runApp Session.init atomicRun).state).exec
        (steadyHost 1 404) []
      run.1 = .ok () ∧ Effect.status ⟨"apt", ["update"], .inherit⟩ ∈ run.2 ∧
        Effect.send "https://github.com/HackerOS-Linux-System/hammer/releases/download/v0.5/hammer"
          ∈ run.2 ∧
        Effect.removeDirAll "/usr/share/HackerOS-Installer" ∈ run.2 ∧
        Effect.status ⟨"reboot", [], .inherit⟩ ∈ run.2 :=
  ⟨by decide, by decide⟩

/-- The handed-off configuration with disk `/dev/vdb`. -/
def vdbHandoff : InstallerState :=
  { diskStage with currentStep := 10, disk := "/dev/vdb" }

/-- Chosen disk `/dev/vdb`: the pipeline formats `/dev/sda2` and installs the
bootloader on `/dev/sda`, neither of them the disk nor one of its
partitions. -/
theorem vdb_install_writes_sda :
    runApp Session.init (diskRun "/dev/vdb") = .install vdbHandoff ∧
      let run := (performInstallation vdbHandoff).exec (steadyHost 0 200) []
      Effect.status ⟨"sfdisk", ["/dev/vdb"], .piped⟩ ∈ run.2 ∧
        Effect.status ⟨"mkfs.btrfs", ["/dev/sda2"], .inherit⟩ ∈ run.2 ∧
        Effect.status ⟨"chroot", ["/mnt", "/bin/bash", "-c", "grub-install /dev/sda"], .inherit⟩
          ∈ run.2 ∧
        isDiskOrPartition "/dev/sda2" "/dev/vdb" = false ∧
        isDiskOrPartition "/dev/sda" "/dev/vdb" = false :=
  ⟨runApp_diskRun (by decide) (by decide), by decide⟩

/-- On every host, the pipeline a wizard run hands off to writes no block
device but the text typed at the disk stage, `/dev/sda2`, `/dev/sda1` and
`/dev/sda`. -/
theorem handoff_writes_typed_disk {events : List Event} {state : InstallerState}
    (install : runApp Session.init events = .install state) (oracle : Oracle) :
    ((performInstallation state).exec oracle []).2.flatMap Effect.blockDevices ⊆
      [String.mk (typedAt 8 Session.init events), "/dev/sda2", "/dev/sda1", "/dev/sda"] := by
  obtain ⟨atTen, collected, -⟩ := handoff_fieldsCollected install
  have disk : state.disk = String.mk (typedAt 8 Session.init events) :=
    String.ext (by simpa using handoff_typedField typedAt_disk install)
  intro device written
  obtain ⟨effect, made, writes⟩ := List.mem_flatMap.mp written
  have allowed := ((guarded_performInstallation (collected.branch (by omega))
    (collected.filesystem (by omega)) (collected.edition (by omega))).exec_allowed [] effect
    made).writesWithin device writes
  rwa [disk] at allowed

theorem vdbRun_writes_typed_disk :
    ((performInstallation vdbHandoff).exec (steadyHost 0 200) []).2.flatMap Effect.blockDevices ⊆
      [String.mk (typedAt 8 Session.init (diskRun "/dev/vdb")), "/dev/sda2", "/dev/sda1",
        "/dev/sda"] :=
  handoff_writes_typed_disk (runApp_diskRun (by decide) (by decide)) (steadyHost 0 200)

end HackerOSInstaller

import HackerOSInstaller.Pipeline.Calls

/-!
# What every run of the pipeline does

`performInstallation` is `Guarded` for every configuration with a branch, a
filesystem and an edition: on every path each host call is checked by `?`,
no `unwrap` panics, and the only block devices written are the chosen disk
and the fixed `/dev/sda`, `/dev/sda1` and `/dev/sda2`.  Whatever the host
answers, the pipeline therefore stops at the first call the host fails; the
ZFS formatter, a program name with a blank in it that no host spawns, is
such a call, so a ZFS installation never gets past formatting.
`Command.blockDevices` names the devices the pipeline itself hands a
command: the partitioner's disk, the formatter's and a mount's device, and
the disk of a `grub-install` line.  What the programs run in the target root
write on their own (apt's hooks, the package scripts) is not read here.
-/

namespace HackerOSInstaller

/-- The disk a `grub-install` command line installs on. -/
def grubTarget (line : String) : Option String :=
  ("grub-install ".data.isPrefixOf? line.data).map String.mk

/-- The block devices a command partitions, formats, mounts or installs a
bootloader on. -/
def Command.blockDevices (command : Command) : List String :=
  if command.program ∈ ["cfdisk", "sfdisk", "mkfs.btrfs", "mkfs.ext4", "zpool create"] then
    command.args
  else if command.program = "mount" ∧ command.args.length = 2 then command.args.take 1
  else if command.program = "chroot" then (command.args.getLast?.bind grubTarget).toList
  else []

/-- The block devices a host call writes. -/
def Effect.blockDevices : Effect → List String
  | .status command => command.blockDevices
  | _ => []

/-- A call writes no block device outside `devices`. -/
def WritesWithin (devices : List String) (effect : Effect) : Prop :=
  ∀ device ∈ effect.blockDevices, device ∈ devices

/-- `device` is `disk` or one of its partitions: `disk`, then an optional
`p`, then a partition number. -/
def isDiskOrPartition (device disk : String) : Bool :=
  match disk.data.isPrefixOf? device.data with
  | some [] => true
  | some ('p' :: number) => !number.isEmpty && number.all Char.isDigit
  | some number => !number.isEmpty && number.all Char.isDigit
  | none => false

theorem writesWithin_of_nil {devices : List String} {effect : Effect}
    (none : effect.blockDevices = []) : WritesWithin devices effect := by
  simp [WritesWithin, none]

theorem writesWithin_single {devices : List String} {effect : Effect} {device : String}
    (written : effect.blockDevices = [device]) (member : device ∈ devices) :
    WritesWithin devices effect := by
  simpa [WritesWithin, written] using member

theorem formatCommand_blockDevices (filesystem : Filesystem) (device : String) :
    (Effect.status ⟨formatCommand filesystem, [device], .inherit⟩).blockDevices = [device] := by
  cases filesystem <;> rfl

theorem DownloadCall.blockDevices_eq_nil {path : String} {effect : Effect}
    (call : DownloadCall path effect) : effect.blockDevices = [] := by
  cases call <;> rfl

theorem editionLines_blockDevices :
    ∀ line ∈ editionLines, (Effect.status (chrootCommand line)).blockDevices = [] := by
  decide

theorem EditionCall.blockDevices_eq_nil {state : InstallerState} {effect : Effect}
    (call : EditionCall state effect) : effect.blockDevices = [] := by
  cases call with
  | chroot listed => exact editionLines_blockDevices _ listed
  | download _ call | blueDownload _ _ call => exact call.blockDevices_eq_nil
  | _ => rfl

theorem PipelineCall.writesWithin {state : InstallerState} {effect : Effect}
    (call : PipelineCall state effect) :
    WritesWithin [state.disk, "/dev/sda2", "/dev/sda1", "/dev/sda"] effect := by
  cases call with
  | edition call => exact writesWithin_of_nil call.blockDevices_eq_nil
  | cfdisk | sfdisk => exact writesWithin_single rfl (List.mem_cons_self _ _)
  | format filesystem => exact writesWithin_single (formatCommand_blockDevices _ _) (by simp)
  | mount listed =>
      simp only [List.mem_cons, Prod.mk.injEq, List.mem_singleton, List.not_mem_nil, or_false] at listed
      rcases listed with ⟨rfl, rfl⟩ | ⟨rfl, rfl⟩ <;> exact writesWithin_single rfl (by simp)
  | chroot listed =>
      simp only [List.mem_cons, List.mem_singleton, List.not_mem_nil, or_false] at listed
      rcases listed with rfl | rfl | rfl | rfl | rfl | rfl | rfl <;>
        simp [WritesWithin, Effect.blockDevices, Command.blockDevices, chrootCommand, grubTarget,
          List.isPrefixOf?, useraddCommand, chpasswdCommand, sudoersCommand]
  | remove listed =>
      simp only [List.mem_cons, List.mem_singleton, List.not_mem_nil, or_false] at listed
      rcases listed with rfl | rfl | rfl <;> exact writesWithin_of_nil rfl
  | _ => exact writesWithin_of_nil rfl

/-- A host on which every call succeeds: each command exits with `exit`, and
each request gets `httpStatus` with a one-chunk body. -/
def steadyHost (exit : Int) (httpStatus : Nat) : Oracle := fun _ effect =>
  match effect with
  | .status _ => .ok ⟨exit⟩
  | .send _ => .ok ⟨httpStatus, ["payload"], none⟩
  | .writeFile .. | .createDirAll _ | .removeDirAll _ | .removeFile _ | .createFile _
  | .writeAll .. | .cloneRepository .. | .copyDir .. => .ok ()

/-- `host`, failing the call made after `index` others. -/
def Oracle.failingAt (host : Oracle) (index : Nat) : Oracle := fun history effect =>
  if history.length = index then .error ⟨"injected failure"⟩ else host history effect

/-- The configuration of the spec's scenario, hostname defaulted. -/
def gnomeConfiguration : InstallerState :=
  { InstallerState.default with
    currentStep := 10, username := "alice", password := "x", edition := some .gnome,
    branch := some .testing, filesystem := some .ext4, disk := "/dev/sda" }

/-- Whatever the host answers, a call it fails is the last one
`perform_installation` makes, and the pipeline returns that call's error. -/
theorem performInstallation_stops_at_failure {state : InstallerState}
    (branchSet : state.branch.isSome) (filesystemSet : state.filesystem.isSome)
    (editionSet : state.edition.isSome) {oracle : Oracle} {outcome : Outcome Unit}
    {calls : List Effect} (run : (performInstallation state).exec oracle [] = (outcome, calls))
    (index : Nat) (bound : index < calls.length) (error : HostError)
    (failed : oracle (calls.take index) (calls.get ⟨index, bound⟩) = .error error) :
    index + 1 = calls.length ∧ outcome = .error error :=
  (guarded_performInstallation branchSet filesystemSet editionSet).exec_of_fails run index bound
    error (by simpa using failed)

theorem failedUpdate_stops_pipeline :
    let run := (performInstallation gnomeConfiguration).exec ((steadyHost 0 200).failingAt 1) []
    1 + 1 = run.2.length ∧ run.1 = .error ⟨"injected failure"⟩ :=
  @performInstallation_stops_at_failure gnomeConfiguration rfl rfl rfl _ _ _ rfl 1 (by decide) _ rfl

/-- Whatever the host answers, the block devices `perform_installation`
writes are the chosen disk, `/dev/sda2`, `/dev/sda1` and `/dev/sda`. -/
theorem performInstallation_devices {state : InstallerState} (branchSet : state.branch.isSome)
    (filesystemSet : state.filesystem.isSome) (editionSet : state.edition.isSome)
    (oracle : Oracle) :
    ((performInstallation state).exec oracle []).2.flatMap Effect.blockDevices ⊆
      [state.disk, "/dev/sda2", "/dev/sda1", "/dev/sda"] := by
  intro device written
  obtain ⟨effect, made, writes⟩ := List.mem_flatMap.mp written
  exact ((guarded_performInstallation branchSet filesystemSet editionSet).exec_allowed [] effect
    made).writesWithin device writes

theorem gnomeConfiguration_devices :
    ((performInstallation gnomeConfiguration).exec (steadyHost 0 200) []).2.flatMap
        Effect.blockDevices ⊆ ["/dev/sda", "/dev/sda2", "/dev/sda1", "/dev/sda"] :=
  @performInstallation_devices gnomeConfiguration rfl rfl rfl _

namespace Prog

theorem exec_perform_bind_ok {effect : Effect} {rest : effect.Answer → Prog β} {host : Oracle}
    {history : List Effect} {value : effect.Answer} (answered : host history effect = .ok value) :
    ((perform effect).bind rest).exec host history =
      (((rest value).exec host (history ++ [effect])).1,
        effect :: ((rest value).exec host (history ++ [effect])).2) := by
  simp [perform, Prog.bind, Prog.exec, answered]

theorem exec_perform_bind_error {effect : Effect} {rest : effect.Answer → Prog β}
    {host : Oracle} {history : List Effect} {error : HostError}
    (failed : host history effect = .error error) :
    ((perform effect).bind rest).exec host history = (.error error, [effect]) := by
  simp [perform, Prog.bind, Prog.exec, failed]

theorem stops_perform_bind {effect : Effect} {rest : effect.Answer → Prog β} {host : Oracle}
    {history calls : List Effect}
    (later : ∀ value, host history effect = .ok value →
      (∃ error, ((rest value).exec host (history ++ [effect])).1 = .error error) ∧
        ((rest value).exec host (history ++ [effect])).2 <+: calls) :
    (∃ error, (((perform effect).bind rest).exec host history).1 = .error error) ∧
      (((perform effect).bind rest).exec host history).2 <+: effect :: calls := by
  rcases answer : host history effect with error | value
  · rw [exec_perform_bind_error answer]
    exact ⟨⟨error, rfl⟩, (List.prefix_cons_inj effect).mpr (List.nil_prefix)⟩
  · obtain ⟨ended, prefixed⟩ := later value answer
    rw [exec_perform_bind_ok answer]
    exact ⟨ended, (List.prefix_cons_inj effect).mpr prefixed⟩

end Prog

/-- The calls of a run with ZFS up to its format step: the apt sources, the
update, the partitioner, and the formatter `zpool create`. -/
def zfsFormatCalls (state : InstallerState) (branch : DebianBranch) : List Effect :=
  [.writeFile "/etc/apt/sources.list"
      ("deb http://deb.debian.org/debian " ++ branchCodename branch ++ " main"),
    .status ⟨"apt", ["update"], .inherit⟩,
    if state.manualPartition then .status ⟨"cfdisk", [state.disk], .inherit⟩
    else .status ⟨"sfdisk", [state.disk], .piped⟩,
    .status ⟨"zpool create", ["/dev/sda2"], .inherit⟩]

/-- On a host that cannot spawn a program whose name has a blank in it, as
`execvp` finds no such file, every run of `perform_installation` with ZFS
ends in an error by the format step: it mounts, bootstraps and installs
nothing, after the disk may have been partitioned. -/
theorem zfs_stops_at_format {state : InstallerState} {branch : DebianBranch}
    (chosenBranch : state.branch = some branch) (zfs : state.filesystem = some .zfs)
    {host : Oracle} (unspawnable : ∀ history (command : Command), ' ' ∈ command.program.data →
      ∃ error, host history (.status command) = .error error) :
    (∃ error, ((performInstallation state).exec host []).1 = .error error) ∧
      ((performInstallation state).exec host []).2 <+: zfsFormatCalls state branch := by
  obtain ⟨failure, zpoolFails⟩ := unspawnable (zfsFormatCalls state branch).dropLast
    ⟨"zpool create", ["/dev/sda2"], .inherit⟩ (by decide)
  cases manual : state.manualPartition <;>
    simp only [zfsFormatCalls, manual, Bool.false_eq_true, if_true, if_false,
      List.dropLast] at zpoolFails ⊢ <;>
    simp only [performInstallation, Prog.bind_eq, Prog.pure_eq, chosenBranch, zfs, Prog.unwrap,
      Prog.pure_bind, runCommand, manual, Bool.false_eq_true, if_true, if_false, formatCommand]
  all_goals
    refine Prog.stops_perform_bind fun _ _ => Prog.stops_perform_bind fun _ _ =>
      Prog.stops_perform_bind fun _ _ => Prog.stops_perform_bind fun _ spawned => ?_
    cases spawned.symm.trans zpoolFails

/-- `host`, where a program whose name has a blank in it cannot be spawned. -/
def Oracle.withoutBlankPrograms (host : Oracle) : Oracle := fun history effect =>
  match effect with
  | .status command =>
      if ' ' ∈ command.program.data then .error ⟨"No such file or directory (os error 2)"⟩
      else host history (.status command)
  | effect => host history effect

theorem withoutBlankPrograms_unspawnable (host : Oracle) (history : List Effect) (command : Command)
    (blank : ' ' ∈ command.program.data) :
    ∃ error, host.withoutBlankPrograms history (.status command) = .error error :=
  ⟨⟨"No such file or directory (os error 2)"⟩, by simp [Oracle.withoutBlankPrograms, blank]⟩

theorem zfsConfiguration_stops_at_format :
    let state := { gnomeConfiguration with filesystem := some .zfs }
    let host := (steadyHost 0 200).withoutBlankPrograms
    state.branch = some .testing ∧ state.filesystem = some .zfs ∧
      (∀ history (command : Command), ' ' ∈ command.program.data →
        ∃ error, host history (.status command) = .error error) ∧
      (∃ error, ((performInstallation state).exec host []).1 = .error error) ∧
        ((performInstallation state).exec host []).2 <+: zfsFormatCalls state .testing :=
  ⟨rfl, rfl, withoutBlankPrograms_unspawnable _,
    zfs_stops_at_format rfl rfl (withoutBlankPrograms_unspawnable _)⟩

end HackerOSInstaller

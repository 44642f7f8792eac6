import HackerOSInstaller.Files.CopyDir
import HackerOSInstaller.Pipeline.Handoff

/-!
# Where the pipeline writes

The paths `perform_installation` writes, creates, removes, copies or clones
to, or marks executable, each read as the directory the kernel resolves it
to.  Almost all of them lie under the target root `/mnt`.  The others are
five fixed paths of the live system (the apt sources, the Hydra clone, and
the installer's own files it removes at the end) and, in the Blue edition
only, what lies under `/mnt/home/<username>`.  That directory is the
username pasted into a path: a username with `..` components, which the
wizard accepts, resolves it outside `/mnt`, and the Blue edition then writes
its binaries on the live system.

Resolution is lexical: `.` stays, `..` climbs one directory and stays at the
root.  This is how the kernel resolves a path with no symbolic link along
it.  What the commands themselves write (apt's lists, the mount table, the
target root through `chroot`) is the programs' own business and is not read
here.
-/

namespace HackerOSInstaller

open Files

/-- The paths a host call writes: the file or directory it writes, creates
or removes, the destination of a copy or a clone, and the file a `chmod`
marks executable. -/
def Effect.writtenPaths : Effect → List String
  | .writeFile path _ | .createDirAll path | .removeDirAll path | .removeFile path
  | .createFile path | .writeAll path _ | .cloneRepository _ path | .copyDir _ path => [path]
  | .status command => if command.program = "chmod" then command.args.drop 1 else []
  | .send _ => []

/-- One component, resolved: `.` stays, `..` climbs one directory (the root
is its own parent), any other name descends. -/
def resolveStep (resolved : Path) : String → Path
  | "." => resolved
  | ".." => resolved.dropLast
  | name => resolved ++ [name]

/-- The directory an absolute path names, its `.` and `..` resolved. -/
def resolvePath (text : String) : Path :=
  (pathComponents text).foldl resolveStep []

/-- The live system's paths `perform_installation` writes. -/
def livePaths : List String :=
  ["/etc/apt/sources.list", "/tmp/hydra-look-and-feel", "/usr/share/HackerOS-Installer",
    "/usr/bin/HackerOS-Installer", "/etc/profile.d/HackerOS-Installer.sh"]

/-- Where a run of `perform_installation` on `state` writes: under the target
root, at a live-system path, or, in the Blue edition, under the user's home
directory. -/
def InFootprint (state : InstallerState) (path : String) : Prop :=
  ["mnt"] <+: resolvePath path ∨ path ∈ livePaths ∨
    state.edition = some .blue ∧ resolvePath ("/mnt/home/" ++ state.username) <+: resolvePath path

instance (state : InstallerState) (path : String) : Decidable (InFootprint state path) :=
  inferInstanceAs (Decidable (_ ∨ _ ∨ _ ∧ _))

/-- A call writes only in the footprint. -/
def WritesInFootprint (state : InstallerState) (effect : Effect) : Prop :=
  ∀ path ∈ effect.writtenPaths, InFootprint state path

theorem splitOnP_append_cons {p : α → Bool} {sep : α} (separates : p sep = true) (a b : List α) :
    (a ++ sep :: b).splitOnP p = a.splitOnP p ++ b.splitOnP p := by
  induction a with
  | nil => simp [separates]
  | cons c rest ih =>
      rw [List.cons_append, List.splitOnP_cons, List.splitOnP_cons, ih]
      split
      · rfl
      · obtain ⟨first, pieces, split⟩ := List.exists_cons_of_ne_nil (List.splitOnP_ne_nil p rest)
        simp [split]

theorem pathComponents_append (a b : String) :
    pathComponents (a ++ "/" ++ b) = pathComponents a ++ pathComponents b := by
  have split : (a ++ "/" ++ b).data = a.data ++ '/' :: b.data := by simp
  simp only [pathComponents, strSplit, split, List.splitOn,
    @splitOnP_append_cons _ (· == '/') '/' rfl, List.map_append, List.filter_append]

theorem resolveStep_plain (resolved : Path) {name : String} (notHere : name ≠ ".")
    (notUp : name ≠ "..") : resolveStep resolved name = resolved ++ [name] := by
  unfold resolveStep
  split <;> simp_all

theorem foldl_resolveStep_plain (resolved : Path) {names : List String}
    (plain : ∀ name ∈ names, name ≠ "." ∧ name ≠ "..") :
    names.foldl resolveStep resolved = resolved ++ names := by
  induction names generalizing resolved with
  | nil => simp
  | cons name names ih =>
      obtain ⟨notHere, notUp⟩ := plain name (List.mem_cons_self _ _)
      rw [List.foldl_cons, resolveStep_plain _ notHere notUp,
        ih _ fun other listed => plain other (List.mem_cons_of_mem _ listed)]
      simp

theorem resolvePath_prefix_append (a b : String)
    (plain : ∀ name ∈ pathComponents b, name ≠ "." ∧ name ≠ "..") :
    resolvePath a <+: resolvePath (a ++ "/" ++ b) := by
  simp only [resolvePath, pathComponents_append, List.foldl_append]
  rw [foldl_resolveStep_plain _ plain]
  exact List.prefix_append _ _

section Footprint

variable {state : InstallerState}

theorem inFootprint_of_target {path : String} (under : ["mnt"] <+: resolvePath path) :
    InFootprint state path :=
  .inl under

theorem inFootprint_of_live {path : String} (live : path ∈ livePaths) : InFootprint state path :=
  .inr (.inl live)

theorem blueHome_below (username : String) :
    resolvePath ("/mnt/home/" ++ username) <+:
      resolvePath ("/mnt/home/" ++ username ++ "/.hackeros/Blue-Environment/") := by
  rw [show "/.hackeros/Blue-Environment/" = "/" ++ ".hackeros/Blue-Environment/" from rfl,
    ← String.append_assoc]
  exact resolvePath_prefix_append _ _ (by decide)

theorem blueHome_inFootprint (blue : state.edition = some .blue) :
    InFootprint state ("/mnt/home/" ++ state.username ++ "/.hackeros/Blue-Environment/") :=
  .inr (.inr ⟨blue, blueHome_below _⟩)

theorem blueComponent_inFootprint (blue : state.edition = some .blue) {name : String}
    (plain : ∀ component ∈ pathComponents name, component ≠ "." ∧ component ≠ "..") :
    InFootprint state
      ("/mnt/home/" ++ state.username ++ "/.hackeros/Blue-Environment/" ++ "/" ++ name) :=
  .inr (.inr ⟨blue, (blueHome_below _).trans (resolvePath_prefix_append _ _ plain)⟩)

theorem writesInFootprint_of_nil {effect : Effect} (none : effect.writtenPaths = []) :
    WritesInFootprint state effect := by
  simp [WritesInFootprint, none]

theorem writesInFootprint_single {effect : Effect} {path : String}
    (written : effect.writtenPaths = [path]) (inside : InFootprint state path) :
    WritesInFootprint state effect := by
  simpa [WritesInFootprint, written] using inside

theorem formatCommand_writtenPaths (filesystem : Filesystem) (device : String) :
    (Effect.status ⟨formatCommand filesystem, [device], .inherit⟩).writtenPaths = [] := by
  cases filesystem <;> rfl

theorem blueComponents_plain :
    ∀ entry ∈ blueComponents, ∀ component ∈ pathComponents entry.1,
      component ≠ "." ∧ component ≠ ".." := by
  decide

theorem targetDownloads_under : ∀ path ∈ targetDownloads, ["mnt"] <+: resolvePath path := by
  decide

theorem targetDirs_under :
    ∀ path ∈ ["/mnt", "/mnt/boot"] ++ bindDirs.map ("/mnt" ++ ·), ["mnt"] <+: resolvePath path := by
  decide

theorem DownloadCall.writesInFootprint {path : String} {effect : Effect}
    (call : DownloadCall path effect) (inside : InFootprint state path) :
    WritesInFootprint state effect := by
  cases call with
  | send => exact writesInFootprint_of_nil rfl
  | _ => exact writesInFootprint_single rfl inside

theorem EditionCall.writesInFootprint {effect : Effect} (call : EditionCall state effect) :
    WritesInFootprint state effect := by
  cases call with
  | chroot => exact writesInFootprint_of_nil rfl
  | cloneHydra => exact writesInFootprint_single rfl (inFootprint_of_live (by decide))
  | download listed call =>
      exact call.writesInFootprint (inFootprint_of_target (targetDownloads_under _ listed))
  | createBlueHome blue => exact writesInFootprint_single rfl (blueHome_inFootprint blue)
  | blueDownload blue listed call =>
      obtain ⟨entry, member, rfl⟩ := List.mem_map.mp listed
      exact call.writesInFootprint (blueComponent_inFootprint blue (blueComponents_plain _ member))
  | _ => exact writesInFootprint_single rfl (inFootprint_of_target (by decide))

theorem PipelineCall.writesInFootprint {effect : Effect} (call : PipelineCall state effect) :
    WritesInFootprint state effect := by
  cases call with
  | edition call => exact call.writesInFootprint
  | sources => exact writesInFootprint_single rfl (inFootprint_of_live (by decide))
  | remove listed =>
      simp only [List.mem_cons, List.mem_singleton, List.not_mem_nil, or_false] at listed
      rcases listed with rfl | rfl | rfl <;>
        exact writesInFootprint_single rfl (inFootprint_of_live (by decide))
  | format filesystem => exact writesInFootprint_of_nil (formatCommand_writtenPaths _ _)
  | createDir listed =>
      exact writesInFootprint_single rfl (inFootprint_of_target (targetDirs_under _ listed))
  | hostname => exact writesInFootprint_single rfl (inFootprint_of_target (by decide))
  | _ => exact writesInFootprint_of_nil rfl

end Footprint

/-- Whatever the host answers, `perform_installation` writes outside the
target root `/mnt` only at the live system's fixed paths and, in the Blue
edition, under the user's home directory, wherever the username resolves
it. -/
theorem performInstallation_footprint {state : InstallerState} (branchSet : state.branch.isSome)
    (filesystemSet : state.filesystem.isSome) (editionSet : state.edition.isSome)
    (oracle : Oracle) :
    ∀ effect ∈ ((performInstallation state).exec oracle []).2, ∀ path ∈ effect.writtenPaths,
      ["mnt"] <+: resolvePath path ∨ path ∈ livePaths ∨
        state.edition = some .blue ∧
          resolvePath ("/mnt/home/" ++ state.username) <+: resolvePath path :=
  fun effect made => ((guarded_performInstallation branchSet filesystemSet editionSet).exec_allowed []
    effect made).writesInFootprint

/-- A run choosing the Blue edition for a user named `../../etc`. -/
def climbingRun : List Event :=
  [.press .enter] ++ typeText "../../etc" ++ [.press .enter] ++ typeText "x" ++
    [.press .enter, .press .enter] ++ List.replicate 3 (.press .down) ++
    List.replicate 4 (.press .enter) ++ typeText "/dev/sda" ++ [.press .enter, .press .enter]

theorem climbingRun_footprint :
    runApp Session.init climbingRun = .install (runApp Session.init climbingRun).state ∧
      resolvePath ("/mnt/home/" ++ (runApp Session.init climbingRun).state.username) = ["etc"] ∧
      Effect.createDirAll "/mnt/home/../../etc/.hackeros/Blue-Environment/" ∈
        ((performInstallation (runApp Session.init climbingRun).state).exec
          (steadyHost 0 200) []).2 ∧
      ∀ effect ∈ ((performInstallation (runApp Session.init climbingRun).state).exec
          (steadyHost 0 200) []).2, ∀ path ∈ effect.writtenPaths,
        ["mnt"] <+: resolvePath path ∨ path ∈ livePaths ∨
          (runApp Session.init climbingRun).state.edition = some .blue ∧
            resolvePath ("/mnt/home/" ++ (runApp Session.init climbingRun).state.username) <+:
              resolvePath path :=
  ⟨by decide, by decide, by decide,
    performInstallation_footprint (by decide) (by decide) (by decide) (steadyHost 0 200)⟩

end HackerOSInstaller

import HackerOSInstaller.Pipeline.Install

/-!
# The calls a run of the pipeline can make

`perform_installation` is a straight line of host calls with two kinds of
loop, over the bind mounts and over the chunks of a download.  Whatever the
host answers, every call it makes is one of the shapes `PipelineCall`
lists, and every call is checked by `?` on the way: `Guarded` says both, and
the three walks below are the only proofs that go through the pipeline's
text.  What the calls do (the block devices they write, the paths they
write, the mounts they make) is then read off `PipelineCall` shape by
shape, with `Prog.Guarded.mono`.
-/

namespace HackerOSInstaller

/-- The command `chroot_cmd(line)` runs. -/
def chrootCommand (line : String) : Command :=
  ⟨"chroot", ["/mnt", "/bin/bash", "-c", line], .inherit⟩

/-- The Blue edition's directory in the user's home. -/
def blueHome (username : String) : String :=
  "/mnt/home/" ++ username ++ "/.hackeros/Blue-Environment/"

/-- The files `install_edition` downloads outside the user's home: the Blue
binary and session file, Hammer, and its components under `lib_dir`, each
named by the last segment of its URL. -/
def targetDownloads : List String :=
  ["/mnt/usr/bin/Blue-Environment", "/mnt/usr/share/wayland-sessions/Blue-Environment.desktop",
    "/mnt/usr/bin/hammer"] ++
    ["hammer-updater", "hammer-tui", "hammer-core", "hammer-builder"].map
      ("/mnt/usr/lib/HackerOS/hammer/" ++ ·)

/-- The lines `install_edition` runs in the target root. -/
def editionLines : List String :=
  ["apt install -y kde-plasma-desktop sddm", "apt install -y gnome gdm3",
    "apt install -y xfce4 lightdm", "apt install -y sddm", "apt install -y nmap wireshark",
    "apt install -y wayfire sddm", "hammer setup"]

/-- The calls `download_file(url, path)` makes. -/
inductive DownloadCall (path : String) : Effect → Prop
  | send (url : String) : DownloadCall path (.send url)
  | createFile : DownloadCall path (.createFile path)
  | writeAll (chunk : String) : DownloadCall path (.writeAll path chunk)
  | chmod : DownloadCall path (.status ⟨"chmod", ["+x", path], .inherit⟩)

/-- The calls `install_edition` can make on `state`; those into the user's
home only when the Blue edition is the one chosen. -/
inductive EditionCall (state : InstallerState) : Effect → Prop
  | copyOfficial : EditionCall state (.copyDir "/usr/share/HackerOS-Installer/official/" "/mnt/")
  | chroot {line : String} : line ∈ editionLines → EditionCall state (.status (chrootCommand line))
  | cloneHydra : EditionCall state
      (.cloneRepository "https://github.com/HackerOS-Linux-System/hydra-look-and-feel.git"
        "/tmp/hydra-look-and-feel")
  | copyHydra : EditionCall state (.copyDir "/tmp/hydra-look-and-feel/files/" "/mnt/")
  | createLibDir : EditionCall state (.createDirAll "/mnt/usr/lib/HackerOS/hammer/")
  | download {path : String} {effect : Effect} : path ∈ targetDownloads → DownloadCall path effect →
      EditionCall state effect
  | createBlueHome : state.edition = some .blue →
      EditionCall state (.createDirAll (blueHome state.username))
  | blueDownload {name : String} {effect : Effect} : state.edition = some .blue →
      name ∈ blueComponents.map Prod.fst →
      DownloadCall (blueHome state.username ++ "/" ++ name) effect → EditionCall state effect

/-- The calls `perform_installation` can make on `state`. -/
inductive PipelineCall (state : InstallerState) : Effect → Prop
  | edition {effect : Effect} : EditionCall state effect → PipelineCall state effect
  | sources (branch : DebianBranch) : PipelineCall state
      (.writeFile "/etc/apt/sources.list"
        ("deb http://deb.debian.org/debian " ++ branchCodename branch ++ " main"))
  | aptUpdate : PipelineCall state (.status ⟨"apt", ["update"], .inherit⟩)
  | cfdisk : PipelineCall state (.status ⟨"cfdisk", [state.disk], .inherit⟩)
  | sfdisk : PipelineCall state (.status ⟨"sfdisk", [state.disk], .piped⟩)
  | format (filesystem : Filesystem) :
      PipelineCall state (.status ⟨formatCommand filesystem, ["/dev/sda2"], .inherit⟩)
  | createDir {path : String} : path ∈ ["/mnt", "/mnt/boot"] ++ bindDirs.map ("/mnt" ++ ·) →
      PipelineCall state (.createDirAll path)
  | mount {device dir : String} : (device, dir) ∈ [("/dev/sda2", "/mnt"), ("/dev/sda1", "/mnt/boot")] →
      PipelineCall state (.status ⟨"mount", [device, dir], .inherit⟩)
  | debootstrap (branch : DebianBranch) :
      PipelineCall state (.status ⟨"debootstrap", [branchCodename branch, "/mnt"], .inherit⟩)
  | bindMount {dir : String} : dir ∈ bindDirs →
      PipelineCall state (.status ⟨"mount", ["--bind", dir, "/mnt" ++ dir], .inherit⟩)
  | chroot {line : String} :
      line ∈ ["apt update", "apt install -y linux-image-amd64 grub-efi-amd64",
        useraddCommand state.username, chpasswdCommand state.username state.password,
        sudoersCommand state.username, "grub-install /dev/sda", "update-grub"] →
      PipelineCall state (.status (chrootCommand line))
  | hostname : PipelineCall state (.writeFile "/mnt/etc/hostname" state.hostname)
  | umount {dir : String} : dir ∈ bindDirs.map ("/mnt" ++ ·) ++ ["/mnt/boot", "/mnt"] →
      PipelineCall state (.status ⟨"umount", [dir], .inherit⟩)
  | remove {effect : Effect} :
      effect ∈ [.removeDirAll "/usr/share/HackerOS-Installer", .removeFile "/usr/bin/HackerOS-Installer",
        .removeFile "/etc/profile.d/HackerOS-Installer.sh"] → PipelineCall state effect
  | reboot : PipelineCall state (.status ⟨"reboot", [], .inherit⟩)

theorem strSplit_ne_nil (text : String) (separator : Char) : strSplit text separator ≠ [] := by
  simp [strSplit, List.splitOn, List.splitOnP_ne_nil]

namespace Prog

variable {allowed : Effect → Prop}

theorem Guarded.unwrap_bind {value : Option α} {chosen : α} {rest : α → Prog β}
    (set : value = some chosen) (later : (rest chosen).Guarded allowed) :
    ((Prog.unwrap value).bind rest).Guarded allowed := by
  subst set
  exact later

theorem guarded_unwrap {value : Option α} (set : value.isSome) : (Prog.unwrap value).Guarded allowed := by
  cases value
  · cases set
  · exact True.intro

end Prog

section Walks

open Prog

variable {state : InstallerState}

theorem guarded_downloadFile (url path : String) : (downloadFile url path).Guarded (DownloadCall path) := by
  simp only [downloadFile, Prog.bind_eq, runCommand]
  repeat' first
    | with_reducible refine Guarded.bind ?_ fun _ => ?_
    | exact guarded_perform (by constructor)
    | refine Guarded.forM fun _ _ => ?_
    | exact True.intro
    | split

theorem guarded_hammerComponents :
    (hammerComponents.forM fun url =>
      (Prog.unwrap (strSplit url '/').getLast?).bind fun name =>
        downloadFile url ("/mnt/usr/lib/HackerOS/hammer/" ++ name)).Guarded (EditionCall state) := by
  refine Guarded.forM fun url listed => ?_
  simp only [hammerComponents, List.mem_cons, List.mem_singleton, List.not_mem_nil,
    or_false] at listed
  rcases listed with rfl | rfl | rfl | rfl <;>
    exact Guarded.unwrap_bind rfl ((guarded_downloadFile _ _).mono fun _ => .download (by decide))

theorem guarded_installEdition {edition : Edition} (chosen : state.edition = some edition) :
    (installEdition edition state).Guarded (EditionCall state) := by
  have blueDownloads (blue : state.edition = some .blue) (entry : String × String)
      (listed : entry ∈ blueComponents) :
      (downloadFile entry.2 (blueHome state.username ++ "/" ++ entry.1)).Guarded
        (EditionCall state) :=
    (guarded_downloadFile _ _).mono fun _ => .blueDownload blue (List.mem_map_of_mem _ listed)
  cases edition <;> simp only [installEdition, Prog.bind_eq, chrootCmd, runCommand] <;>
  repeat' first
    | with_reducible refine Guarded.bind ?_ fun _ => ?_
    | exact guarded_perform (.chroot (by decide))
    | exact guarded_perform .copyOfficial
    | exact guarded_perform .cloneHydra
    | exact guarded_perform .copyHydra
    | exact guarded_perform .createLibDir
    | exact guarded_perform (.createBlueHome chosen)
    | exact (guarded_downloadFile _ _).mono fun _ => .download (by decide)
    | exact Guarded.forM fun ⟨name, url⟩ listed => blueDownloads chosen (name, url) listed
    | exact guarded_hammerComponents
    | exact True.intro

/-- Every run of `perform_installation` on a configuration with a branch, a
filesystem and an edition makes only the calls `PipelineCall` lists, checks
each with `?`, and never panics. -/
theorem guarded_performInstallation (branchSet : state.branch.isSome)
    (filesystemSet : state.filesystem.isSome) (editionSet : state.edition.isSome) :
    (performInstallation state).Guarded (PipelineCall state) := by
  obtain ⟨branch, chosenBranch⟩ := Option.isSome_iff_exists.mp branchSet
  obtain ⟨filesystem, chosenFilesystem⟩ := Option.isSome_iff_exists.mp filesystemSet
  obtain ⟨edition, chosenEdition⟩ := Option.isSome_iff_exists.mp editionSet
  have edited := (guarded_installEdition chosenEdition).mono fun _ => PipelineCall.edition
  simp only [performInstallation, Prog.bind_eq, chosenBranch, chosenFilesystem, chosenEdition,
    Prog.unwrap, Prog.pure_bind, runCommand, chrootCmd]
  generalize installEdition edition state = install at edited
  repeat' first
    | with_reducible refine Guarded.bind ?_ fun _ => ?_
    | exact edited
    | exact guarded_perform (.chroot (by simp))
    | exact guarded_perform (.createDir (by decide))
    | exact guarded_perform (.mount (by decide))
    | exact guarded_perform (.umount (by decide))
    | exact guarded_perform (.remove (by decide))
    | exact guarded_perform (.sources _)
    | exact guarded_perform .aptUpdate
    | exact guarded_perform .cfdisk
    | exact guarded_perform .sfdisk
    | exact guarded_perform (.format _)
    | exact guarded_perform (.debootstrap _)
    | exact guarded_perform .hostname
    | exact guarded_perform .reboot
    | refine Guarded.forM fun _ member => ?_
    | exact guarded_perform (.bindMount ‹_›)
    | exact guarded_perform (.createDir (List.mem_append_right _ (List.mem_map_of_mem _ ‹_›)))
    | exact guarded_perform (.umount (List.mem_append_left _ (List.mem_map_of_mem _ ‹_›)))
    | exact True.intro
    | split

end Walks

end HackerOSInstaller

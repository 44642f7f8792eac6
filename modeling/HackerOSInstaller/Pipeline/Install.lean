import HackerOSInstaller.Pipeline.Host
import HackerOSInstaller.Wizard.State

/-!
# The installation pipeline

`perform_installation`, `install_edition` and `download_file` as pipelines
over the host calls of `Host`.  Each call keeps the `?` that follows it in
the source, and nothing else: `Command::status()?` propagates only a
failure to run the child, never its exit status, and `send().await?` only a
failure to get a response, never its HTTP status.  The progress bar and the
`Client` handle are display and plumbing, and are left out.
-/

namespace HackerOSInstaller

namespace Prog

/-- `Option::unwrap`: a panic on `None`. -/
def unwrap : Option α → Prog α
  | some value => .pure value
  | none => .panic "called `Option::unwrap()` on a `None` value"

end Prog

/-- `str::ends_with`. -/
def strEndsWith (text suffix : String) : Bool :=
  suffix.data.isSuffixOf text.data

/-- `str::split` on a character. -/
def strSplit (text : String) (separator : Char) : List String :=
  (text.data.splitOn separator).map String.mk

/-- `Command::new(program).args(args).status()?`. -/
def runCommand (program : String) (args : List String) : Prog ExitStatus :=
  Prog.perform (.status ⟨program, args, .inherit⟩)

/-- The `chroot_cmd` closure, followed by `?`: run a shell command line in
the target root. -/
def chrootCmd (cmd : String) : Prog ExitStatus :=
  runCommand "chroot" ["/mnt", "/bin/bash", "-c", cmd]

/-- `download_file`. -/
def downloadFile (url path : String) : Prog Unit := do
  let resp ← Prog.perform (.send url)
  Prog.perform (.createFile path)
  resp.chunks.forM fun chunk => Prog.perform (.writeAll path chunk)
  match resp.bodyError with
  | some error => Prog.throw error
  | none => pure ()
  if (strEndsWith path "/" == false) && !strEndsWith path ".desktop" then
    let _ ← runCommand "chmod" ["+x", path]

/-- The components the Blue edition fetches into the user's home. -/
def blueComponents : List (String × String) :=
  [("wm", "https://github.com/HackerOS-Linux-System/Blue-Environment/releases/download/v0.1/wm"),
    ("shell",
      "https://github.com/HackerOS-Linux-System/Blue-Environment/releases/download/v0.1/shell"),
    ("launcher",
      "https://github.com/HackerOS-Linux-System/Blue-Environment/releases/download/v0.1/launcher"),
    ("Desktop",
      "https://github.com/HackerOS-Linux-System/Blue-Environment/releases/download/v0.1/Desktop"),
    ("decorations",
      "https://github.com/HackerOS-Linux-System/Blue-Environment/releases/download/v0.1/decorations"),
    ("core", "https://github.com/HackerOS-Linux-System/Blue-Environment/releases/download/v0.1/core")]

/-- The components the Atomic edition fetches into `lib_dir`. -/
def hammerComponents : List String :=
  ["https://github.com/HackerOS-Linux-System/hammer/releases/download/v0.5/hammer-updater",
    "https://github.com/HackerOS-Linux-System/hammer/releases/download/v0.5/hammer-tui",
    "https://github.com/HackerOS-Linux-System/hammer/releases/download/v0.5/hammer-core",
    "https://github.com/HackerOS-Linux-System/hammer/releases/download/v0.5/hammer-builder"]

/-- `install_edition`. -/
def installEdition (edition : Edition) (state : InstallerState) : Prog Unit := do
  Prog.perform (.copyDir "/usr/share/HackerOS-Installer/official/" "/mnt/")
  match edition with
  | .official =>
      let _ ← chrootCmd "apt install -y kde-plasma-desktop sddm"
  | .gnome =>
      let _ ← chrootCmd "apt install -y gnome gdm3"
  | .xfce =>
      let _ ← chrootCmd "apt install -y xfce4 lightdm"
  | .blue =>
      let home := "/mnt/home/" ++ state.username ++ "/.hackeros/Blue-Environment/"
      Prog.perform (.createDirAll home)
      blueComponents.forM fun (name, url) => downloadFile url (home ++ "/" ++ name)
      downloadFile
        "https://github.com/HackerOS-Linux-System/Blue-Environment/releases/download/v0.1/Blue-Environment"
        "/mnt/usr/bin/Blue-Environment"
      downloadFile
        "https://raw.githubusercontent.com/HackerOS-Linux-System/Blue-Environment/main/Blue-Environment.desktop"
        "/mnt/usr/share/wayland-sessions/Blue-Environment.desktop"
      let _ ← chrootCmd "apt install -y sddm"
  | .hydra =>
      Prog.perform (.cloneRepository
        "https://github.com/HackerOS-Linux-System/hydra-look-and-feel.git" "/tmp/hydra-look-and-feel")
      Prog.perform (.copyDir "/tmp/hydra-look-and-feel/files/" "/mnt/")
  | .cybersecurity =>
      let _ ← chrootCmd "apt install -y nmap wireshark"
  | .wayfire =>
      let _ ← chrootCmd "apt install -y wayfire sddm"
  | .atomic =>
      downloadFile "https://github.com/HackerOS-Linux-System/hammer/releases/download/v0.5/hammer"
        "/mnt/usr/bin/hammer"
      let libDir := "/mnt/usr/lib/HackerOS/hammer/"
      Prog.perform (.createDirAll libDir)
      hammerComponents.forM fun url => do
        let name ← Prog.unwrap (strSplit url '/').getLast?
        downloadFile url (libDir ++ name)
      let _ ← chrootCmd "apt install -y kde-plasma-desktop sddm"
      let _ ← chrootCmd "hammer setup"

/-- The codename `perform_installation` writes for a branch. -/
def branchCodename : DebianBranch → String
  | .stable => "trixie"
  | .testing => "forky"
  | .unstable => "sid"

/-- The formatter `perform_installation` runs for a filesystem; the ZFS entry
is one program name with a blank in it. -/
def formatCommand : Filesystem → String
  | .btrfs => "mkfs.btrfs"
  | .ext4 => "mkfs.ext4"
  | .zfs => "zpool create"

/-- The host directories bind-mounted into the target root. -/
def bindDirs : List String :=
  ["/dev", "/proc", "/sys", "/run"]

/-- The user-creation command line. -/
def useraddCommand (username : String) : String :=
  "useradd -m -G sudo " ++ username

/-- The password-setting command line. -/
def chpasswdCommand (username password : String) : String :=
  "echo '" ++ username ++ ":" ++ password ++ "' | chpasswd"

/-- The sudoers append. -/
def sudoersCommand (username : String) : String :=
  "echo '" ++ username ++ " ALL=(ALL) ALL' >> /etc/sudoers"

/-- `perform_installation`. -/
def performInstallation (state : InstallerState) : Prog Unit := do
  let branch ← Prog.unwrap state.branch
  let branchStr := branchCodename branch
  Prog.perform (.writeFile "/etc/apt/sources.list"
    ("deb http://deb.debian.org/debian " ++ branchStr ++ " main"))
  let _ ← runCommand "apt" ["update"]
  if state.manualPartition then
    let _ ← runCommand "cfdisk" [state.disk]
  else
    let _ ← Prog.perform (.status ⟨"sfdisk", [state.disk], .piped⟩)
  let filesystem ← Prog.unwrap state.filesystem
  let _ ← runCommand (formatCommand filesystem) ["/dev/sda2"]
  Prog.perform (.createDirAll "/mnt")
  let _ ← runCommand "mount" ["/dev/sda2", "/mnt"]
  Prog.perform (.createDirAll "/mnt/boot")
  let _ ← runCommand "mount" ["/dev/sda1", "/mnt/boot"]
  let _ ← runCommand "debootstrap" [branchStr, "/mnt"]
  bindDirs.forM fun dir => do
    Prog.perform (.createDirAll ("/mnt" ++ dir))
    let _ ← runCommand "mount" ["--bind", dir, "/mnt" ++ dir]
  let _ ← chrootCmd "apt update"
  let _ ← chrootCmd "apt install -y linux-image-amd64 grub-efi-amd64"
  let _ ← chrootCmd (useraddCommand state.username)
  let _ ← chrootCmd (chpasswdCommand state.username state.password)
  let _ ← chrootCmd (sudoersCommand state.username)
  Prog.perform (.writeFile "/mnt/etc/hostname" state.hostname)
  let edition ← Prog.unwrap state.edition
  installEdition edition state
  let _ ← chrootCmd "grub-install /dev/sda"
  let _ ← chrootCmd "update-grub"
  bindDirs.forM fun dir => do
    let _ ← runCommand "umount" ["/mnt" ++ dir]
  let _ ← runCommand "umount" ["/mnt/boot"]
  let _ ← runCommand "umount" ["/mnt"]
  Prog.perform (.removeDirAll "/usr/share/HackerOS-Installer")
  Prog.perform (.removeFile "/usr/bin/HackerOS-Installer")
  Prog.perform (.removeFile "/etc/profile.d/HackerOS-Installer.sh")
  let _ ← runCommand "reboot" []

end HackerOSInstaller

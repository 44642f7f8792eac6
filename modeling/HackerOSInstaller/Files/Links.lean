import HackerOSInstaller.Files.CopyDir

/-!
# `copy_dir` through symbolic links

`FileSystem` has no symbolic link, and a real target root has them.  The
calls of `copy_dir` hand their paths to the kernel, which follows every link
on the way, the last component of `fs::copy`'s destination included: an
absolute link under `dst` sends the writes of the walk below it out of
`dst`.  `copyDirVia` is the walk with each path resolved through a list of
links before the call.  The links here are on the destination's side:
`read_dir` lists the entries `FileSystem` holds, so the walk meets no link
in its source.  With no link `copyDirVia` is `copyDir`, and with the
absolute link a target's `/etc/resolv.conf` can be, copying a tree that has
an `etc/resolv.conf` into `/mnt/` writes to the live system.
-/

namespace HackerOSInstaller

namespace Files

open FileSystem

/-- A symbolic link at `path` to the absolute path `target`. -/
structure Link where
  path : Path
  target : Path
  deriving DecidableEq, Repr

/-- `ELOOP`. -/
def tooManyLinks : HostError := ⟨"Too many levels of symbolic links (os error 40)"⟩

/-- The path `path` names once the first link on its way is followed: the
link's target, with the rest of `path` below it.  No link of a well-formed
list lies under another, so the first that matches is the one the kernel
meets first. -/
def followLink (links : List Link) (path : Path) : Option Path :=
  links.findSome? fun link =>
    if link.path.isPrefixOf path then some (link.target ++ path.drop link.path.length) else none

/-- The path the kernel reaches from `path` following at most `budget`
links; `none` is `ELOOP`. -/
def resolveWithin (links : List Link) : Nat → Path → Option Path
  | 0, path => if followLink links path = none then some path else none
  | budget + 1, path =>
      match followLink links path with
      | none => some path
      | some next => resolveWithin links budget next

/-- The path the kernel resolves `path` to, following at most 40 links
(`MAXSYMLINKS`). -/
def resolve (links : List Link) (path : Path) : Option Path :=
  resolveWithin links 40 path

/-- A call made on the path the kernel resolves its argument to. -/
def throughLinks (links : List Link) (call : Path → Io α) (path : Path) : Io α := fun fs =>
  match resolve links path with
  | some resolved => call resolved fs
  | none => .error tooManyLinks fs

/-- `fs::copy(source, target)` through links: both paths are resolved, the
target's last component too, since it is opened with `O_CREAT` and without
`O_NOFOLLOW`. -/
def copyVia (links : List Link) (source target : Path) : Io Unit :=
  throughLinks links (fun source => throughLinks links (copy source) target) source

/-- `copyEntry` through links. -/
def copyEntryVia (links : List Link) (recurse : Path → Path → FileSystem → Copy) (src dst : Path)
    (name : String) (fs : FileSystem) : Copy :=
  match (resolve links (src ++ [name])).bind fs.kindAt with
  | some .dir => recurse (src ++ [name]) (dst ++ [name]) fs
  | some (.file _) => some (copyVia links (src ++ [name]) (dst ++ [name]) fs)
  | none => some (.error noSuchFile fs)

/-- `copyDirBody` through links. -/
def copyDirBodyVia (links : List Link) (recurse : Path → Path → FileSystem → Copy)
    (src dst : Path) (fs : FileSystem) : Copy :=
  match throughLinks links createDirAll dst fs with
  | .error error fs => some (.error error fs)
  | .ok () created =>
      match throughLinks links readDir src created with
      | .error error fs => some (.error error fs)
      | .ok names listed =>
          names.foldl
            (fun result name => Copy.andThen result (copyEntryVia links recurse src dst name))
            (some (.ok () listed))

/-- `copy_dir(src, dst)` on a file system with the symbolic links `links`,
recursing at most `fuel` levels deep. -/
def copyDirVia (links : List Link) : Nat → Path → Path → FileSystem → Copy
  | 0, _, _, _ => none
  | fuel + 1, src, dst, fs => copyDirBodyVia links (copyDirVia links fuel) src dst fs

/-- With no link, the walk through links is `copy_dir`'s. -/
theorem copyDirVia_nil (fuel : Nat) : copyDirVia [] fuel = copyDir fuel := by
  induction fuel with
  | zero => rfl
  | succ fuel ih =>
      funext src dst fs
      rw [copyDirVia, copyDir, ih]
      rfl

/-- An installer image whose official tree holds `etc/resolv.conf`, over a
target root whose `/etc` is a directory and whose `/etc/resolv.conf` is not
a file of its own. -/
def linkedImage : FileSystem :=
  .ofEntries [([], .dir), (["usr"], .dir), (["usr", "share"], .dir),
    (["usr", "share", "HackerOS-Installer"], .dir),
    (["usr", "share", "HackerOS-Installer", "official"], .dir),
    (["usr", "share", "HackerOS-Installer", "official", "etc"], .dir),
    (["usr", "share", "HackerOS-Installer", "official", "etc", "resolv.conf"],
      .file "nameserver 1.1.1.1"),
    (["mnt"], .dir), (["mnt", "etc"], .dir), (["run"], .dir), (["run", "systemd"], .dir),
    (["run", "systemd", "resolve"], .dir)]

/-- The live system's stub resolver configuration. -/
def stubResolvConf : Path :=
  ["run", "systemd", "resolve", "stub-resolv.conf"]

/-- The target's `/etc/resolv.conf` as an absolute link to the stub
resolver configuration, which the kernel resolves in the live system's
root. -/
def resolvConfLink : Link :=
  ⟨targetRoot ++ ["etc", "resolv.conf"], stubResolvConf⟩

end Files

end HackerOSInstaller

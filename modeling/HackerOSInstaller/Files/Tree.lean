import Mathlib.Data.List.Dedup
import Mathlib.Data.List.Infix
import HackerOSInstaller.Pipeline.Host

/-!
# The host file system

The part of the host that `copy_dir` reads and writes: directories and
regular files, named by their paths.  A path is its list of components from
the root, so `/mnt/` is `["mnt"]`.  A file system gives the kind at every
path and lists every path that exists, which is what `fs::read_dir` needs to
enumerate a directory.  The three calls of `copy_dir` are modelled here:
`fs::create_dir_all`, `fs::read_dir` and `fs::copy`, each with the
`std::io::Error`s it can report on such a tree.
-/

namespace HackerOSInstaller

namespace Files

/-- A path, as its components from the root. -/
abbrev Path := List String

/-- What a path names. -/
inductive Kind where
  | dir
  | file (contents : String)
  deriving DecidableEq, Repr

/-- A finite file system: the kind at each path, and a list holding every
path that exists. -/
structure FileSystem where
  kindAt : Path → Option Kind
  paths : List Path
  listed : ∀ path, kindAt path ≠ none → path ∈ paths

/-- `ENOENT`. -/
def noSuchFile : HostError := ⟨"No such file or directory (os error 2)"⟩

/-- `ENOTDIR`. -/
def notADirectory : HostError := ⟨"Not a directory (os error 20)"⟩

/-- `EEXIST`. -/
def fileExists : HostError := ⟨"File exists (os error 17)"⟩

/-- `EISDIR`. -/
def isADirectory : HostError := ⟨"Is a directory (os error 21)"⟩

/-- What `fs::copy` reports when its source is not a regular file. -/
def notRegularFile : HostError :=
  ⟨"the source path is not an existing regular file"⟩

/-- The name of `entry` in the directory `dir`, if `entry` is a child of it. -/
def childName? (dir entry : Path) : Option String :=
  match entry.getLast? with
  | some name => if entry.dropLast = dir then some name else none
  | none => none

theorem childName?_eq_some {dir entry : Path} {name : String} :
    childName? dir entry = some name ↔ entry = dir ++ [name] := by
  rcases List.eq_nil_or_concat entry with rfl | ⟨parent, last, rfl⟩
  · simp [childName?]
  · simp only [childName?, List.concat_eq_append, List.getLast?_concat, List.dropLast_concat]
    rw [← List.concat_eq_append, ← List.concat_eq_append, List.concat_inj]
    by_cases same : parent = dir <;> simp [same, eq_comm]

namespace FileSystem

variable {fs fs' : FileSystem} {path : Path}

/-- The file system with `path` set to `kind`. -/
def set (fs : FileSystem) (path : Path) (kind : Kind) : FileSystem where
  kindAt entry := if entry = path then some kind else fs.kindAt entry
  paths := path :: fs.paths
  listed entry present := by
    by_cases same : entry = path
    · simp [same]
    · exact List.mem_cons_of_mem _ (fs.listed entry (by simpa [same] using present))

@[simp] theorem set_kindAt (kind : Kind) (entry : Path) :
    (fs.set path kind).kindAt entry = if entry = path then some kind else fs.kindAt entry :=
  rfl

/-- The file system holding exactly the listed entries; the first entry for
a path wins. -/
def ofEntries (entries : List (Path × Kind)) : FileSystem where
  kindAt path := (entries.find? (·.1 = path)).map Prod.snd
  paths := entries.map Prod.fst
  listed path present := by
    rcases found : entries.find? (·.1 = path) with _ | entry
    · simp [found] at present
    · have named : entry.1 = path := by simpa using List.find?_some found
      exact List.mem_map.mpr ⟨entry, List.mem_of_find?_eq_some found, named⟩

end FileSystem

/-- A call on the file system: it returns a value or fails with an
`io::Error`, and either way leaves a file system behind, with the writes
made before a failure kept. -/
abbrev Io := EStateM HostError FileSystem

/-- The file system a call leaves, whether it returned or failed. -/
def stateAfter : EStateM.Result HostError FileSystem α → FileSystem
  | .ok _ fs => fs
  | .error _ fs => fs

@[simp] theorem stateAfter_ok (value : α) (fs : FileSystem) :
    stateAfter (.ok value fs : EStateM.Result HostError FileSystem α) = fs :=
  rfl

@[simp] theorem stateAfter_error (error : HostError) (fs : FileSystem) :
    stateAfter (.error error fs : EStateM.Result HostError FileSystem α) = fs :=
  rfl

namespace Io

variable {call : Io α} {next : α → Io β} {fs fs' : FileSystem}

theorem bind_ok {value : α} (returned : call fs = .ok value fs') :
    (call >>= next) fs = next value fs' := by
  show EStateM.bind call next fs = _
  simp only [EStateM.bind, returned]

theorem bind_error {error : HostError} (failed : call fs = .error error fs') :
    (call >>= next) fs = .error error fs' := by
  show EStateM.bind call next fs = _
  simp only [EStateM.bind, failed]

end Io

namespace FileSystem

variable {fs fs' : FileSystem} {path : Path}

/-- One step of `fs::create_dir_all`: make sure `path` is a directory. -/
def ensureDir (path : Path) : Io Unit := fun fs =>
  match fs.kindAt path with
  | some .dir => .ok () fs
  | some (.file _) => .error fileExists fs
  | none => .ok () (fs.set path .dir)

/-- `fs::create_dir_all(path)`: every ancestor of `path`, and `path`, from
the root down, is made a directory unless it is one already; a file in the
way is an error, after the directories above it were made. -/
def createDirAll (path : Path) : Io Unit :=
  path.inits.forM ensureDir

/-- `fs::read_dir(path)`: the names of the entries of a directory, each once,
in the order the file system keeps them. -/
def readDir (path : Path) : Io (List String) := fun fs =>
  match fs.kindAt path with
  | some .dir =>
      .ok ((fs.paths.filter fun entry => (fs.kindAt entry).isSome).filterMap
        (childName? path)).dedup fs
  | some (.file _) => .error notADirectory fs
  | none => .error noSuchFile fs

/-- `fs::copy(source, target)`: the contents of a regular file written to
`target`, which is created or truncated in an existing directory. -/
def copy (source target : Path) : Io Unit := fun fs =>
  match fs.kindAt source with
  | none => .error noSuchFile fs
  | some .dir => .error notRegularFile fs
  | some (.file contents) =>
      match fs.kindAt target.dropLast, fs.kindAt target with
      | some .dir, some .dir => .error isADirectory fs
      | some .dir, _ => .ok () (fs.set target (.file contents))
      | some (.file _), _ => .error notADirectory fs
      | none, _ => .error noSuchFile fs

theorem ensureDir_ok {done : Unit} (made : ensureDir path fs = .ok done fs') :
    (fs.kindAt path ≠ none → fs.kindAt path = some .dir) ∧ fs'.kindAt path = some .dir ∧
      ∀ entry, entry ≠ path → fs'.kindAt entry = fs.kindAt entry := by
  unfold ensureDir at made
  split at made <;> cases made
  · exact ⟨fun _ => ‹_›, ‹_›, fun _ _ => rfl⟩
  · exact ⟨fun absent => absurd ‹_› absent, by simp, fun entry other => by simp [other]⟩

theorem ensureDir_error {error : HostError} (failed : ensureDir path fs = .error error fs') :
    fs' = fs := by
  unfold ensureDir at failed
  split at failed <;> cases failed
  rfl

theorem forM_ensureDir_ok (dirs : List Path) {done : Unit}
    (made : dirs.forM ensureDir fs = .ok done fs') :
    (∀ entry ∈ dirs, fs.kindAt entry ≠ none → fs.kindAt entry = some .dir) ∧
      (∀ entry ∈ dirs, fs'.kindAt entry = some .dir) ∧
      ∀ entry, entry ∉ dirs → fs'.kindAt entry = fs.kindAt entry := by
  induction dirs generalizing fs with
  | nil => cases made; simp
  | cons first rest ih =>
      rw [List.forM_cons'] at made
      rcases step : ensureDir first fs with ⟨_, next⟩ | ⟨error, next⟩
      · rw [Io.bind_ok step] at made
        obtain ⟨firstWasDir, firstDir, others⟩ := ensureDir_ok step
        obtain ⟨restWereDirs, restDirs, restSame⟩ := ih made
        simp only [List.mem_cons, forall_eq_or_imp]
        refine ⟨⟨firstWasDir, ?_⟩, ⟨?_, restDirs⟩, fun entry absent => ?_⟩
        · intro entry later present
          by_cases same : entry = first
          · exact same ▸ firstWasDir (same ▸ present)
          · rw [← others entry same] at present ⊢
            exact restWereDirs entry later present
        · by_cases later : first ∈ rest
          · exact restDirs first later
          · rw [restSame first later, firstDir]
        · simp only [not_or] at absent
          rw [restSame entry absent.2, others entry absent.1]
      · rw [Io.bind_error step] at made
        cases made

theorem forM_ensureDir_keeps (dirs : List Path) (fs : FileSystem) (entry : Path)
    (absent : entry ∉ dirs) : (stateAfter (dirs.forM ensureDir fs)).kindAt entry = fs.kindAt entry := by
  induction dirs generalizing fs with
  | nil => rfl
  | cons first rest ih =>
      simp only [List.mem_cons, not_or] at absent
      rw [List.forM_cons']
      rcases step : ensureDir first fs with ⟨_, next⟩ | ⟨error, next⟩
      · rw [Io.bind_ok step, ih next absent.2, (ensureDir_ok step).2.2 entry absent.1]
      · rw [Io.bind_error step, stateAfter_error, ensureDir_error step]

theorem createDirAll_ok {done : Unit} (made : createDirAll path fs = .ok done fs') :
    (∀ entry, entry <+: path → fs.kindAt entry ≠ none → fs.kindAt entry = some .dir) ∧
      (∀ entry, entry <+: path → fs'.kindAt entry = some .dir) ∧
      ∀ entry, ¬ entry <+: path → fs'.kindAt entry = fs.kindAt entry := by
  obtain ⟨wereDirs, dirs, others⟩ := forM_ensureDir_ok _ made
  exact ⟨fun entry above => wereDirs entry ((List.mem_inits _ _).mpr above),
    fun entry above => dirs entry ((List.mem_inits _ _).mpr above),
    fun entry apart => others entry (mt (List.mem_inits _ _).mp apart)⟩

theorem createDirAll_keeps (path : Path) (fs : FileSystem) (entry : Path)
    (apart : ¬ entry <+: path) : (stateAfter (createDirAll path fs)).kindAt entry = fs.kindAt entry :=
  forM_ensureDir_keeps _ fs entry (mt (List.mem_inits _ _).mp apart)

theorem forM_ensureDir_succeeds (dirs : List Path) (fs : FileSystem)
    (noFile : ∀ entry ∈ dirs, ∀ contents, fs.kindAt entry ≠ some (.file contents)) :
    ∃ fs', dirs.forM ensureDir fs = .ok () fs' := by
  induction dirs generalizing fs with
  | nil => exact ⟨fs, rfl⟩
  | cons first rest ih =>
      have made : ∃ next, ensureDir first fs = .ok () next := by
        unfold ensureDir
        split
        · exact ⟨_, rfl⟩
        · exact absurd ‹_› (noFile first (List.mem_cons_self _ _) _)
        · exact ⟨_, rfl⟩
      obtain ⟨next, step⟩ := made
      rw [List.forM_cons', Io.bind_ok step]
      refine ih next fun entry later contents => ?_
      by_cases same : entry = first
      · simp [same, (ensureDir_ok step).2.1]
      · rw [(ensureDir_ok step).2.2 entry same]
        exact noFile entry (List.mem_cons_of_mem _ later) contents

theorem createDirAll_succeeds (path : Path) (fs : FileSystem)
    (noFile : ∀ entry, entry <+: path → ∀ contents, fs.kindAt entry ≠ some (.file contents)) :
    ∃ fs', createDirAll path fs = .ok () fs' :=
  forM_ensureDir_succeeds _ fs fun entry above => noFile entry ((List.mem_inits _ _).mp above)

theorem readDir_ok {names : List String} (listed : readDir path fs = .ok names fs') :
    fs' = fs ∧ fs.kindAt path = some .dir ∧ names.Nodup ∧
      ∀ name, name ∈ names ↔ fs.kindAt (path ++ [name]) ≠ none := by
  unfold readDir at listed
  split at listed <;> cases listed
  refine ⟨rfl, ‹_›, List.nodup_dedup _, fun name => ?_⟩
  simp only [List.mem_dedup, List.mem_filterMap, List.mem_filter, childName?_eq_some,
    Option.isSome_iff_ne_none]
  exact ⟨fun ⟨_, ⟨_, present⟩, named⟩ => named ▸ present,
    fun present => ⟨_, ⟨fs.listed _ present, present⟩, rfl⟩⟩

theorem readDir_error {error : HostError} (failed : readDir path fs = .error error fs') :
    fs' = fs := by
  unfold readDir at failed
  split at failed <;> cases failed <;> rfl

theorem copy_ok {source target : Path} {done : Unit} (copied : copy source target fs = .ok done fs') :
    ∃ contents, fs.kindAt source = some (.file contents) ∧
      fs' = fs.set target (.file contents) := by
  unfold copy at copied
  split at copied
  · cases copied
  · cases copied
  · split at copied <;> cases copied
    exact ⟨_, ‹_›, rfl⟩

theorem copy_keeps (source target : Path) (fs : FileSystem) (entry : Path) (other : entry ≠ target) :
    (stateAfter (copy source target fs)).kindAt entry = fs.kindAt entry := by
  unfold copy
  split
  · rfl
  · rfl
  · split <;> simp [other]

/-- Below `root`, every entry sits in a directory: a file has no entries
under it, and no entry hangs below a missing path. -/
def TreeAt (fs : FileSystem) (root : Path) : Prop :=
  ∀ rel name, fs.kindAt (root ++ rel ++ [name]) ≠ none → fs.kindAt (root ++ rel) = some .dir

theorem TreeAt.exists_of_below {root : Path} (tree : fs.TreeAt root) (below : Path) :
    ∀ rel, fs.kindAt (root ++ rel ++ below) ≠ none → fs.kindAt (root ++ rel) ≠ none := by
  induction below with
  | nil => simp
  | cons name rest ih =>
      intro rel present
      have parent := ih (rel ++ [name]) (by simpa using present)
      rw [← List.append_assoc] at parent
      rw [tree rel name parent]
      simp

theorem TreeAt.dir_of_below {root : Path} (tree : fs.TreeAt root) {rel : Path} {name : String}
    {rest : Path} (present : fs.kindAt (root ++ rel ++ name :: rest) ≠ none) :
    fs.kindAt (root ++ rel) = some .dir :=
  tree rel name (by simpa using tree.exists_of_below rest (rel ++ [name]) (by simpa using present))

theorem TreeAt.child {root : Path} (tree : fs.TreeAt root) (name : String) :
    fs.TreeAt (root ++ [name]) := fun rel below present => by
  simpa using tree (name :: rel) below (by simpa using present)

theorem TreeAt.congr {root : Path} (tree : fs.TreeAt root)
    (same : ∀ rel, fs'.kindAt (root ++ rel) = fs.kindAt (root ++ rel)) : fs'.TreeAt root :=
  fun rel name present => by
    rw [List.append_assoc, same] at present
    rw [same]
    exact tree rel name (by rwa [List.append_assoc])

theorem treeAt_iff {root : Path} :
    fs.TreeAt root ↔ ∀ entry ∈ fs.paths, fs.kindAt entry ≠ none → root <+: entry →
      entry ≠ root → fs.kindAt entry.dropLast = some .dir := by
  constructor
  · rintro tree entry - present ⟨rest, rfl⟩ longer
    rcases List.eq_nil_or_concat rest with rfl | ⟨rel, name, rfl⟩
    · simp at longer
    · simp only [List.concat_eq_append, ← List.append_assoc, List.dropLast_concat] at present ⊢
      exact tree rel name present
  · intro check rel name present
    have := check _ (fs.listed _ present) present (by simp [List.append_assoc]) (by simp)
    rwa [List.dropLast_concat] at this

instance (root : Path) : Decidable (fs.TreeAt root) :=
  decidable_of_iff _ treeAt_iff.symm

end FileSystem

end Files

end HackerOSInstaller

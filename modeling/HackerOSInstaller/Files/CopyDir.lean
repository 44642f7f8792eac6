import Mathlib.Algebra.Order.BigOperators.Group.List
import HackerOSInstaller.Files.Tree
import HackerOSInstaller.Pipeline.Install

/-!
# `copy_dir`

`copy_dir(src, dst)` creates `dst` with `fs::create_dir_all`, then walks the
entries `fs::read_dir(src)` lists: a directory is copied by a recursive call,
anything else by `fs::copy`, and the first error ends the walk.  The model
bounds the recursion by a fuel argument; `none` means the bound ran out.

`copyDir_copies` is the induction over trees of any depth and breadth.  When
`src` and `dst` are apart, one level of fuel more than the tree is deep
always gives an answer, and a successful copy mirrors every path of the tree
under `dst`, keeps what was under `dst` elsewhere, and changes nothing
outside `dst` but its missing ancestors, in whatever order `read_dir` lists
the entries.  The file system here has no symbolic link, and a call fails
only for the reasons `Tree` lists, never for want of space, descriptors or
path length; `Files.Links` runs the same walk through links.
-/

namespace HackerOSInstaller

namespace Files

open FileSystem

/-- What a run of `copy_dir` gives: the `io::Result` with the file system it
leaves, or `none` when the recursion bound ran out. -/
abbrev Copy := Option (EStateM.Result HostError FileSystem Unit)

/-- `?` after a step of the walk: go on from the file system on `Ok`, keep
the error, with the file system it left, or the exhausted bound otherwise. -/
def Copy.andThen : Copy → (FileSystem → Copy) → Copy
  | some (.ok () fs), next => next fs
  | stopped, _ => stopped

@[simp] theorem Copy.andThen_ok (fs : FileSystem) (next : FileSystem → Copy) :
    Copy.andThen (some (.ok () fs)) next = next fs :=
  rfl

@[simp] theorem Copy.andThen_error (error : HostError) (fs : FileSystem)
    (next : FileSystem → Copy) :
    Copy.andThen (some (.error error fs)) next = some (.error error fs) :=
  rfl

@[simp] theorem Copy.andThen_none (next : FileSystem → Copy) : Copy.andThen none next = none :=
  rfl

/-- The loop body of `copy_dir` on the entry `name` of `src`:
`entry.file_type()?`, then the recursive call `recurse` on a directory and
`fs::copy` on anything else. -/
def copyEntry (recurse : Path → Path → FileSystem → Copy) (src dst : Path) (name : String)
    (fs : FileSystem) : Copy :=
  match fs.kindAt (src ++ [name]) with
  | some .dir => recurse (src ++ [name]) (dst ++ [name]) fs
  | some (.file _) => some (copy (src ++ [name]) (dst ++ [name]) fs)
  | none => some (.error noSuchFile fs)

/-- The body of `copy_dir`, with its recursive call `recurse`. -/
def copyDirBody (recurse : Path → Path → FileSystem → Copy) (src dst : Path)
    (fs : FileSystem) : Copy :=
  match createDirAll dst fs with
  | .error error fs => some (.error error fs)
  | .ok () created =>
      match readDir src created with
      | .error error fs => some (.error error fs)
      | .ok names listed =>
          names.foldl (fun result name => Copy.andThen result (copyEntry recurse src dst name))
            (some (.ok () listed))

/-- `copy_dir(src, dst)`, recursing at most `fuel` levels deep. -/
def copyDir : Nat → Path → Path → FileSystem → Copy
  | 0, _, _, _ => none
  | fuel + 1, src, dst, fs => copyDirBody (copyDir fuel) src dst fs

section Walk

variable {visit : String → FileSystem → Copy}

theorem foldl_andThen_none (names : List String) :
    names.foldl (fun result name => Copy.andThen result (visit name)) none = none := by
  induction names with
  | nil => rfl
  | cons _ _ ih => exact ih

theorem foldl_andThen {progress : List String → FileSystem → Prop} {names : List String}
    {fs : FileSystem}
    (step : ∀ done name rest current, done ++ name :: rest = names → progress done current →
      ∃ result, visit name current = some result ∧
        ∀ fs', result = .ok () fs' → progress (done ++ [name]) fs')
    (start : progress [] fs) :
    ∃ result, names.foldl (fun result name => Copy.andThen result (visit name))
        (some (.ok () fs)) = some result ∧ ∀ fs', result = .ok () fs' → progress names fs' := by
  suffices walk : ∀ todo done (current : EStateM.Result HostError FileSystem Unit),
      done ++ todo = names → (∀ fs, current = .ok () fs → progress done fs) →
      ∃ result, todo.foldl (fun result name => Copy.andThen result (visit name))
        (some current) = some result ∧ ∀ fs', result = .ok () fs' → progress names fs' from
    walk names [] (.ok () fs) rfl fun _ same => by cases same; exact start
  intro todo
  induction todo with
  | nil =>
      intro done current whole holds
      rw [List.append_nil] at whole
      exact ⟨current, rfl, whole ▸ holds⟩
  | cons name rest ih =>
      intro done current whole holds
      have shifted : done ++ [name] ++ rest = names := by simpa using whole
      rcases current with ⟨⟨⟩, current⟩ | ⟨error, current⟩
      · obtain ⟨result, visited, next⟩ := step done name rest current whole (holds current rfl)
        simpa [visited] using ih _ result shifted next
      · exact ih _ (.error error current) shifted fun _ same => by cases same

theorem foldl_andThen_keeps {keeps : FileSystem → Prop}
    (step : ∀ name current result, keeps current → visit name current = some result →
      keeps (stateAfter result)) :
    ∀ (names : List String) start result, keeps (stateAfter start) →
      names.foldl (fun result name => Copy.andThen result (visit name)) (some start) =
        some result → keeps (stateAfter result) := by
  intro names
  induction names with
  | nil =>
      intro start result kept ran
      cases ran
      exact kept
  | cons name rest ih =>
      intro start result kept ran
      rcases start with ⟨⟨⟩, current⟩ | ⟨error, current⟩
      · rcases visited : visit name current with _ | next
        · simp [visited, foldl_andThen_none] at ran
        · simp only [List.foldl_cons, Copy.andThen_ok, visited] at ran
          exact ih next result (step name current next kept visited) ran
      · exact ih _ result kept ran

end Walk

/-- `dst` lies outside `src`'s subtree, and `src` outside `dst`'s. -/
def Apart (src dst : Path) : Prop :=
  ¬ src <+: dst ∧ ¬ dst <+: src

instance (src dst : Path) : Decidable (Apart src dst) :=
  inferInstanceAs (Decidable (_ ∧ _))

namespace Apart

variable {src dst : Path}

theorem symm (apart : Apart src dst) : Apart dst src :=
  ⟨apart.2, apart.1⟩

theorem not_prefix (apart : Apart src dst) (rel : Path) : ¬ src ++ rel <+: dst :=
  fun below => apart.1 ((List.prefix_append src rel).trans below)

theorem not_below (apart : Apart src dst) (rel : Path) : ¬ dst <+: src ++ rel := fun below => by
  rcases List.prefix_or_prefix_of_prefix (List.prefix_append src rel) below with inside | above
  · exact apart.1 inside
  · exact apart.2 above

theorem append_ne (apart : Apart src dst) (rel rel' : Path) : src ++ rel ≠ dst ++ rel' :=
  fun same => apart.not_below rel (same ▸ List.prefix_append dst rel')

theorem not_prefix_child (apart : Apart src dst) (name : String) :
    ¬ src ++ [name] <+: dst ++ [name] := fun below => by
  rcases List.prefix_concat_iff.mp below with same | shorter
  · exact apart.1 (List.append_cancel_right same ▸ List.prefix_refl src)
  · exact apart.not_prefix [name] shorter

theorem child (apart : Apart src dst) (name : String) : Apart (src ++ [name]) (dst ++ [name]) :=
  ⟨apart.not_prefix_child name, apart.symm.not_prefix_child name⟩

end Apart

/-- Every path of `root`'s subtree lies fewer than `depth` levels below it. -/
def DepthBelow (fs : FileSystem) (root : Path) (depth : Nat) : Prop :=
  ∀ rel, fs.kindAt (root ++ rel) ≠ none → rel.length < depth

namespace DepthBelow

variable {fs fs' : FileSystem} {root : Path} {depth : Nat}

theorem mono (deep : DepthBelow fs root depth) {depth' : Nat} (le : depth ≤ depth') :
    DepthBelow fs root depth' :=
  fun rel present => Nat.lt_of_lt_of_le (deep rel present) le

theorem child (deep : DepthBelow fs root (depth + 1)) (name : String)
    (same : ∀ rel, fs'.kindAt (root ++ rel) = fs.kindAt (root ++ rel)) :
    DepthBelow fs' (root ++ [name]) depth := fun rel present => by
  have := deep (name :: rel) (by simpa [same] using present)
  simpa using this

theorem not_present (deep : DepthBelow fs root 0) : fs.kindAt root = none := by
  by_contra present
  exact Nat.not_lt_zero _ (deep [] (by simpa using present))

end DepthBelow

theorem exists_depthBelow (fs : FileSystem) (root : Path) : ∃ depth, DepthBelow fs root depth :=
  ⟨(fs.paths.map List.length).sum + 1, fun rel present => by
    have := List.le_sum_of_mem (List.mem_map_of_mem List.length (fs.listed _ present))
    simp only [List.length_append] at this
    omega⟩

/-- What a successful `copy_dir(src, dst)` did to `fs`, leaving `fs'`: the
invariant its induction carries. -/
structure Mirrored (fs fs' : FileSystem) (src dst : Path) : Prop where
  sourceDir : fs.kindAt src = some .dir
  mirrors : ∀ rel, fs.kindAt (src ++ rel) ≠ none →
    fs'.kindAt (dst ++ rel) = fs.kindAt (src ++ rel)
  ancestors : ∀ path, path <+: dst → fs'.kindAt path = some .dir
  ancestorsWereDirs : ∀ path, path <+: dst → fs.kindAt path ≠ none →
    fs.kindAt path = some .dir
  frame : ∀ path, ¬ path <+: dst → (∀ rel, path = dst ++ rel → fs.kindAt (src ++ rel) = none) →
    fs'.kindAt path = fs.kindAt path

/-- How far the walk over `src`'s entries has come, from `created`, the file
system after `fs::create_dir_all(dst)`: `dst` and its ancestors are
directories, the subtrees of the entries `done` are mirrored under `dst`,
and every other path reads as in `created`. -/
structure Progress (fs created : FileSystem) (src dst : Path) (done : List String)
    (current : FileSystem) : Prop where
  ancestors : ∀ path, path <+: dst → current.kindAt path = some .dir
  mirrors : ∀ name ∈ done, ∀ rel, fs.kindAt (src ++ name :: rel) ≠ none →
    current.kindAt (dst ++ name :: rel) = fs.kindAt (src ++ name :: rel)
  frame : ∀ path, ¬ path <+: dst →
    (∀ name ∈ done, ∀ rel, path = dst ++ name :: rel → fs.kindAt (src ++ name :: rel) = none) →
    current.kindAt path = created.kindAt path

namespace Progress

variable {fs created current current' : FileSystem} {src dst : Path} {done : List String}
  {name : String}

theorem source_kept (progress : Progress fs created src dst done current) (apart : Apart src dst)
    (createdKept : ∀ rel, created.kindAt (src ++ rel) = fs.kindAt (src ++ rel)) (rel : Path) :
    current.kindAt (src ++ rel) = fs.kindAt (src ++ rel) := by
  rw [progress.frame _ (apart.not_prefix rel) fun _ _ rel' same =>
    absurd same (apart.append_ne rel _), createdKept]

theorem dir_step (progress : Progress fs created src dst done current) (fresh : name ∉ done)
    (present : fs.kindAt (src ++ [name]) ≠ none)
    (kept : ∀ rel, current.kindAt (src ++ rel) = fs.kindAt (src ++ rel))
    (child : Mirrored current current' (src ++ [name]) (dst ++ [name])) :
    Progress fs created src dst (done ++ [name]) current' where
  ancestors path above := child.ancestors path (above.trans (List.prefix_append dst [name]))
  mirrors other member rel present' := by
    rcases List.mem_append.mp member with earlier | same
    · have differs : other ≠ name := fun same => fresh (same ▸ earlier)
      rw [child.frame _ (by simp [differs]) fun rel' same => by simp [differs] at same,
        progress.mirrors other earlier rel present']
    · rw [List.mem_singleton] at same
      subst same
      have := child.mirrors rel
      simp only [List.append_assoc, List.singleton_append, kept] at this
      exact this present'
  frame path outside uncovered := by
    have inChild := uncovered name (List.mem_append_right _ (List.mem_singleton_self name))
    rw [child.frame path ?_ ?_]
    · exact progress.frame path outside fun other earlier =>
        uncovered other (List.mem_append_left _ earlier)
    · intro below
      rcases List.prefix_concat_iff.mp below with same | shorter
      · exact present (by simpa using inChild [] (by simpa using same))
      · exact outside shorter
    · intro rel same
      simpa [kept] using inChild rel (by simpa using same)

theorem file_step (progress : Progress fs created src dst done current) (fresh : name ∉ done)
    (tree : fs.TreeAt src) {contents : String}
    (isFile : fs.kindAt (src ++ [name]) = some (.file contents)) :
    Progress fs created src dst (done ++ [name]) (current.set (dst ++ [name]) (.file contents)) where
  ancestors path above := by
    have differs : path ≠ dst ++ [name] := fun same => by
      simpa [same] using above.length_le
    simp [differs, progress.ancestors path above]
  mirrors other member rel present' := by
    rcases List.mem_append.mp member with earlier | same
    · have differs : other ≠ name := fun same => fresh (same ▸ earlier)
      simp [differs, progress.mirrors other earlier rel present']
    · rw [List.mem_singleton] at same
      subst same
      cases rel with
      | nil => simp [isFile]
      | cons below rest =>
          have dir := @TreeAt.dir_of_below _ _ tree [other] below rest (by simpa using present')
          rw [isFile] at dir
          cases dir
  frame path outside uncovered := by
    have differs : path ≠ dst ++ [name] := fun same => by
      simpa [isFile] using uncovered name (by simp) [] same
    simp only [set_kindAt, differs, if_false]
    exact progress.frame path outside fun other earlier =>
      uncovered other (List.mem_append_left _ earlier)

theorem mirrored {names : List String} (progress : Progress fs created src dst names current)
    (tree : fs.TreeAt src) (sourceDir : fs.kindAt src = some .dir)
    (complete : ∀ name, fs.kindAt (src ++ [name]) ≠ none → name ∈ names)
    (createdSame : ∀ path, ¬ path <+: dst → created.kindAt path = fs.kindAt path)
    (wereDirs : ∀ path, path <+: dst → fs.kindAt path ≠ none → fs.kindAt path = some .dir) :
    Mirrored fs current src dst where
  sourceDir := sourceDir
  mirrors rel present := by
    cases rel with
    | nil => simpa [sourceDir] using progress.ancestors dst (List.prefix_refl dst)
    | cons name rest =>
        exact progress.mirrors name
          (complete name (tree.exists_of_below rest [name] (by simpa using present))) rest present
  ancestors := progress.ancestors
  ancestorsWereDirs := wereDirs
  frame path outside uncovered := by
    rw [progress.frame path outside fun name _ rel same => uncovered (name :: rel) same,
      createdSame path outside]

end Progress

theorem copyDirBody_mirrors {recurse : Path → Path → FileSystem → Copy} {bound : Nat}
    (recursive : ∀ src dst fs, Apart src dst → fs.TreeAt src → DepthBelow fs src bound →
      fs.kindAt src = some .dir → ∃ result, recurse src dst fs = some result ∧
        ∀ fs', result = .ok () fs' → Mirrored fs fs' src dst)
    {fs : FileSystem} {src dst : Path} (apart : Apart src dst) (tree : fs.TreeAt src)
    (deep : DepthBelow fs src (bound + 1)) :
    ∃ result, copyDirBody recurse src dst fs = some result ∧
      ∀ fs', result = .ok () fs' → Mirrored fs fs' src dst := by
  unfold copyDirBody
  rcases made : createDirAll dst fs with ⟨⟨⟩, created⟩ | ⟨error, left⟩
  swap
  · exact ⟨_, rfl, fun _ failed => by cases failed⟩
  dsimp only
  obtain ⟨wereDirs, createdDirs, createdSame⟩ := createDirAll_ok made
  have createdKept (rel : Path) : created.kindAt (src ++ rel) = fs.kindAt (src ++ rel) :=
    createdSame _ (apart.not_prefix rel)
  rcases listed : readDir src created with ⟨names, listedFs⟩ | ⟨error, left⟩
  swap
  · exact ⟨_, rfl, fun _ failed => by cases failed⟩
  dsimp only
  obtain ⟨same, sourceDir, distinct, named⟩ := readDir_ok listed
  subst listedFs
  simp only [createdKept] at named
  have sourceDir : fs.kindAt src = some .dir := by
    simpa using (createdKept []).symm.trans (by simpa using sourceDir)
  refine (@foldl_andThen (copyEntry recurse src dst) (Progress fs created src dst) names created
    ?_ ⟨createdDirs, by simp, fun _ _ _ => rfl⟩).imp fun _ ⟨run, finished⟩ =>
      ⟨run, fun fs' ok => (finished fs' ok).mirrored tree sourceDir (fun name => (named name).mpr)
        createdSame wereDirs⟩
  intro done name rest current whole progress
  have fresh : name ∉ done := fun earlier => by
    rw [← whole] at distinct
    exact List.disjoint_of_nodup_append distinct earlier (List.mem_cons_self _ _)
  have present : fs.kindAt (src ++ [name]) ≠ none :=
    (named name).mp (whole ▸ List.mem_append_right _ (List.mem_cons_self _ _))
  have kept := progress.source_kept apart createdKept
  have childKept (rel : Path) :
      current.kindAt (src ++ [name] ++ rel) = fs.kindAt (src ++ [name] ++ rel) := by
    simpa using kept (name :: rel)
  unfold copyEntry
  rw [kept [name]]
  rcases kind : fs.kindAt (src ++ [name]) with _ | _ | contents
  · exact absurd kind present
  · obtain ⟨result, run, child⟩ := recursive _ _ current (apart.child name)
      ((tree.child name).congr childKept) (deep.child name kept) (by rw [kept, kind])
    exact ⟨result, run, fun fs' ok => progress.dir_step fresh present kept (child fs' ok)⟩
  · refine ⟨_, rfl, fun fs' ok => ?_⟩
    obtain ⟨_, source, rfl⟩ := copy_ok ok
    rw [kept [name], kind] at source
    cases source
    exact progress.file_step fresh tree kind

/-- `copy_dir` with one level of fuel more than `src`'s tree is deep
answers, and mirrors the tree when it succeeds. -/
theorem copyDir_mirrors (depth : Nat) :
    ∀ {src dst : Path} {fs : FileSystem}, Apart src dst → fs.TreeAt src →
      DepthBelow fs src depth →
      ∃ result, copyDir (depth + 1) src dst fs = some result ∧
        ∀ fs', result = .ok () fs' → Mirrored fs fs' src dst := by
  induction depth with
  | zero =>
      intro src dst fs apart tree deep
      refine @copyDirBody_mirrors _ 0 ?_ _ _ _ apart tree (deep.mono (Nat.zero_le 1))
      intro src _ fs _ _ shallow sourceDir
      rw [shallow.not_present] at sourceDir
      cases sourceDir
  | succ depth ih =>
      exact fun apart tree deep => copyDirBody_mirrors (fun _ _ _ apart tree deep _ =>
        ih apart tree deep) apart tree deep

/-- What `copy_dir(src, dst)` guarantees when it returns `Ok`, leaving `fs'`. -/
structure Copied (fs fs' : FileSystem) (src dst : Path) : Prop where
  dirs : ∀ rel, fs.kindAt (src ++ rel) = some .dir → fs'.kindAt (dst ++ rel) = some .dir
  files : ∀ rel contents, fs.kindAt (src ++ rel) = some (.file contents) →
    fs'.kindAt (dst ++ rel) = some (.file contents)
  keptUnderDst : ∀ rel contents, fs.kindAt (src ++ rel) = none →
    fs.kindAt (dst ++ rel) = some (.file contents) → fs'.kindAt (dst ++ rel) = some (.file contents)
  outside : ∀ path, ¬ dst <+: path → ¬ path <+: dst → fs'.kindAt path = fs.kindAt path
  ancestors : ∀ path, path <+: dst →
    fs'.kindAt path = some .dir ∧ (fs.kindAt path ≠ none → fs'.kindAt path = fs.kindAt path)

theorem Mirrored.copied {fs fs' : FileSystem} {src dst : Path} (mirrored : Mirrored fs fs' src dst) :
    Copied fs fs' src dst where
  dirs rel dir := by rw [mirrored.mirrors rel (by simp [dir]), dir]
  files rel contents file := by rw [mirrored.mirrors rel (by simp [file]), file]
  keptUnderDst rel contents absent file := by
    have inside : rel ≠ [] := by
      rintro rfl
      simp [mirrored.sourceDir] at absent
    rw [mirrored.frame _ (fun below => inside (by simpa using below.length_le)) fun rel' same => by
      rwa [← List.append_cancel_left same], file]
  outside path notBelow notAbove :=
    mirrored.frame path notAbove fun rel same => absurd (same ▸ List.prefix_append dst rel) notBelow
  ancestors path above := ⟨mirrored.ancestors path above, fun present => by
    rw [mirrored.ancestors path above, mirrored.ancestorsWereDirs path above present]⟩

/-- The components of an absolute path: the names between its slashes, as
`Path::components` lists them after the root. -/
def pathComponents (text : String) : Path :=
  (strSplit text '/').filter (· ≠ "")

/-- Where `install_edition` copies the official tree from. -/
def officialSource : Path :=
  pathComponents "/usr/share/HackerOS-Installer/official/"

/-- Where `install_edition` copies the Hydra files from. -/
def hydraSource : Path :=
  pathComponents "/tmp/hydra-look-and-feel/files/"

/-- The target root both copies go to. -/
def targetRoot : Path :=
  pathComponents "/mnt/"

/-- An installer image: the official tree with one directory and one file,
and an empty target root. -/
def installImage : FileSystem :=
  .ofEntries [([], .dir), (["usr"], .dir), (["usr", "share"], .dir),
    (["usr", "share", "HackerOS-Installer"], .dir),
    (["usr", "share", "HackerOS-Installer", "official"], .dir),
    (["usr", "share", "HackerOS-Installer", "official", "etc"], .dir),
    (["usr", "share", "HackerOS-Installer", "official", "etc", "issue"], .file "HackerOS"),
    (["mnt"], .dir)]

example :
    (copyDir 3 officialSource targetRoot installImage).map
      (fun result => (stateAfter result).kindAt ["mnt", "etc", "issue"]) =
      some (some (.file "HackerOS")) := by
  decide

theorem outside_child {path dst : Path} (notAbove : ¬ path <+: dst) (notBelow : ¬ dst <+: path)
    (name : String) : ¬ path <+: dst ++ [name] ∧ ¬ dst ++ [name] <+: path := by
  refine ⟨fun below => ?_, fun below => notBelow ((List.prefix_append dst [name]).trans below)⟩
  rcases List.prefix_concat_iff.mp below with same | shorter
  · exact notBelow (same ▸ List.prefix_append dst [name])
  · exact notAbove shorter

/-- Every run of `copy_dir(src, dst)`, whether it returns `Ok` or fails part
way, writes only in `dst`'s subtree and `dst`'s ancestors. -/
theorem copyDir_keeps (fuel : Nat) :
    ∀ {src dst : Path} {fs : FileSystem} {result : EStateM.Result HostError FileSystem Unit},
      copyDir fuel src dst fs = some result → ∀ path, ¬ path <+: dst → ¬ dst <+: path →
        (stateAfter result).kindAt path = fs.kindAt path := by
  induction fuel with
  | zero => intro _ _ _ _ ran; cases ran
  | succ fuel ih =>
      intro src dst fs result ran path notAbove notBelow
      have created := createDirAll_keeps dst fs path notAbove
      unfold copyDir copyDirBody at ran
      rcases made : createDirAll dst fs with ⟨⟨⟩, created'⟩ | ⟨error, left⟩
      · rw [made] at ran created
        dsimp only at ran
        rcases listed : readDir src created' with ⟨names, listedFs⟩ | ⟨error, left⟩
        · rw [listed, (readDir_ok listed).1] at ran
          refine @foldl_andThen_keeps _ (fun current => current.kindAt path = fs.kindAt path) ?_
            names _ result created ran
          intro name current next kept visited
          unfold copyEntry at visited
          split at visited
          · obtain ⟨notAbove', notBelow'⟩ := outside_child notAbove notBelow name
            rw [ih visited path notAbove' notBelow', kept]
          · cases visited
            have other : path ≠ dst ++ [name] := fun same =>
              notBelow (same ▸ List.prefix_append dst [name])
            rw [copy_keeps _ _ _ _ other, kept]
          · cases visited
            exact kept
        · rw [listed] at ran
          cases ran
          rw [stateAfter_error, readDir_error listed]
          exact created
      · rw [made] at ran created
        cases ran
        exact created

end Files

end HackerOSInstaller

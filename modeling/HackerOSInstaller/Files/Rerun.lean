import HackerOSInstaller.Files.CopyDir

/-!
# When `copy_dir` succeeds, and running it again

`copy_dir(src, dst)` stops at the first `io::Error`.  With `src` and `dst`
apart and enough fuel, it returns `Ok` exactly when `src` is a directory and
nothing under `dst` is in its way: no file where `dst`, one of its ancestors
or a directory of the tree is to be, and no directory where the tree has a
file.  Which entries fail is read off the file system before the copy,
because no run turns a directory into a file or a file into a directory.

A successful copy leaves nothing in the way of the same copy, so running it
again succeeds and changes nothing: the installer's copies into `/mnt/` can
be made twice.
-/

namespace HackerOSInstaller

namespace Files

open FileSystem

/-- Nothing is in the way of copying `src`'s tree to `dst`. -/
structure Fits (fs : FileSystem) (src dst : Path) : Prop where
  source : fs.kindAt src = some .dir
  ancestors : ∀ path, path <+: dst → ∀ contents, fs.kindAt path ≠ some (.file contents)
  dirs : ∀ rel, fs.kindAt (src ++ rel) = some .dir → ∀ contents,
    fs.kindAt (dst ++ rel) ≠ some (.file contents)
  files : ∀ rel contents, fs.kindAt (src ++ rel) = some (.file contents) →
    fs.kindAt (dst ++ rel) ≠ some .dir

/-- Every directory of `fs` is one in `fs'`, and every file a file. -/
def KindKept (fs fs' : FileSystem) : Prop :=
  ∀ path, (fs.kindAt path = some .dir → fs'.kindAt path = some .dir) ∧
    ∀ contents, fs.kindAt path = some (.file contents) →
      ∃ contents', fs'.kindAt path = some (.file contents')

theorem KindKept.refl (fs : FileSystem) : KindKept fs fs :=
  fun _ => ⟨id, fun contents file => ⟨contents, file⟩⟩

theorem KindKept.trans {fs fs' fs'' : FileSystem} (first : KindKept fs fs')
    (second : KindKept fs' fs'') : KindKept fs fs'' := fun path =>
  ⟨fun dir => (second path).1 ((first path).1 dir), fun contents file => by
    obtain ⟨contents', file'⟩ := (first path).2 contents file
    exact (second path).2 contents' file'⟩

theorem KindKept.set {fs : FileSystem} {path : Path} {kind : Kind}
    (fresh : ∀ kind', fs.kindAt path = some kind' → (kind' = .dir ↔ kind = .dir)) :
    KindKept fs (fs.set path kind) := fun entry => by
  by_cases same : entry = path
  · subst same
    refine ⟨fun dir => by simp [(fresh _ dir).mp rfl], fun contents file => ?_⟩
    cases kind with
    | dir => exact absurd ((fresh _ file).mpr rfl) (by simp)
    | file contents' => exact ⟨contents', by simp⟩
  · simp only [set_kindAt, same, if_false]
    exact ⟨id, fun contents file => ⟨contents, file⟩⟩

theorem ensureDir_kindKept (path : Path) (fs : FileSystem) :
    KindKept fs (stateAfter (ensureDir path fs)) := by
  unfold ensureDir
  split
  · exact KindKept.refl fs
  · exact KindKept.refl fs
  · exact KindKept.set fun _ present => by simp_all

theorem forM_ensureDir_kindKept (dirs : List Path) (fs : FileSystem) :
    KindKept fs (stateAfter (dirs.forM ensureDir fs)) := by
  induction dirs generalizing fs with
  | nil => exact KindKept.refl fs
  | cons first rest ih =>
      have made := ensureDir_kindKept first fs
      rw [List.forM_cons']
      rcases step : ensureDir first fs with ⟨_, next⟩ | ⟨error, next⟩
      · rw [Io.bind_ok step]
        rw [step] at made
        exact made.trans (ih next)
      · rw [Io.bind_error step]
        rwa [step] at made

theorem copy_kindKept (source target : Path) (fs : FileSystem) :
    KindKept fs (stateAfter (copy source target fs)) := by
  unfold copy
  split
  · exact KindKept.refl fs
  · exact KindKept.refl fs
  · split
    · exact KindKept.refl fs
    · exact KindKept.set fun kind' present => by cases kind' <;> simp_all
    · exact KindKept.refl fs
    · exact KindKept.refl fs

/-- Whatever `copy_dir` returns, no directory became a file and no file a
directory. -/
theorem copyDir_kindKept (fuel : Nat) :
    ∀ {src dst : Path} {fs : FileSystem} {result : EStateM.Result HostError FileSystem Unit},
      copyDir fuel src dst fs = some result → KindKept fs (stateAfter result) := by
  induction fuel with
  | zero => intro _ _ _ _ ran; cases ran
  | succ fuel ih =>
      intro src dst fs result ran
      have created := forM_ensureDir_kindKept dst.inits fs
      unfold copyDir copyDirBody at ran
      rcases made : createDirAll dst fs with ⟨⟨⟩, created'⟩ | ⟨error, left⟩
      · rw [made] at ran
        rw [← createDirAll, made] at created
        dsimp only at ran
        rcases listed : readDir src created' with ⟨names, listedFs⟩ | ⟨error, left⟩
        · rw [listed, (readDir_ok listed).1] at ran
          refine @foldl_andThen_keeps _ (KindKept fs) ?_ names _ result created ran
          intro name current next kept visited
          unfold copyEntry at visited
          split at visited
          · exact kept.trans (ih visited)
          · cases visited
            exact kept.trans (copy_kindKept _ _ current)
          · cases visited
            exact kept
        · rw [listed] at ran
          cases ran
          rwa [stateAfter_error, readDir_error listed]
      · rw [made] at ran
        cases ran
        rwa [← createDirAll, made] at created

section Walk

variable {visit : String → FileSystem → Copy}

theorem foldl_andThen_ok {progress : List String → FileSystem → Prop} {names : List String}
    {fs : FileSystem}
    (step : ∀ done name rest current, done ++ name :: rest = names → progress done current →
      ∃ next, visit name current = some (.ok () next) ∧ progress (done ++ [name]) next)
    (start : progress [] fs) :
    ∃ fs', names.foldl (fun result name => Copy.andThen result (visit name))
        (some (.ok () fs)) = some (.ok () fs') ∧ progress names fs' := by
  suffices walk : ∀ todo done current, done ++ todo = names → progress done current →
      ∃ fs', todo.foldl (fun result name => Copy.andThen result (visit name))
        (some (.ok () current)) = some (.ok () fs') ∧ progress names fs' from
    walk names [] fs rfl start
  intro todo
  induction todo with
  | nil =>
      intro done current whole holds
      rw [List.append_nil] at whole
      exact ⟨current, rfl, whole ▸ holds⟩
  | cons name rest ih =>
      intro done current whole holds
      obtain ⟨next, visited, later⟩ := step done name rest current whole holds
      simpa [visited] using ih (done ++ [name]) next (by simpa using whole) later

end Walk

namespace Progress

variable {fs created current : FileSystem} {src dst : Path} {done : List String} {name : String}

theorem target_kept (progress : Progress fs created src dst done current) (fresh : name ∉ done)
    (createdSame : ∀ path, ¬ path <+: dst → created.kindAt path = fs.kindAt path) (rel : Path) :
    current.kindAt (dst ++ name :: rel) = fs.kindAt (dst ++ name :: rel) := by
  have below : ¬ dst ++ name :: rel <+: dst := fun above => by simpa using above.length_le
  rw [progress.frame _ below fun other walked rel' same => ?_, createdSame _ below]
  rw [List.append_cancel_left_eq, List.cons.injEq] at same
  exact absurd (same.1 ▸ walked) fresh

theorem fits_child (progress : Progress fs created src dst done current) (fits : Fits fs src dst)
    (fresh : name ∉ done)
    (createdSame : ∀ path, ¬ path <+: dst → created.kindAt path = fs.kindAt path)
    (kept : ∀ rel, current.kindAt (src ++ rel) = fs.kindAt (src ++ rel))
    (dir : fs.kindAt (src ++ [name]) = some .dir) :
    Fits current (src ++ [name]) (dst ++ [name]) where
  source := by rw [kept, dir]
  ancestors path above contents := by
    rcases List.prefix_concat_iff.mp above with rfl | shorter
    · rw [target_kept progress fresh createdSame []]
      exact fits.dirs [name] dir contents
    · simp [progress.ancestors path shorter]
  dirs rel dir' contents := by
    rw [List.append_assoc, List.singleton_append, kept] at dir'
    rw [List.append_assoc, List.singleton_append, target_kept progress fresh createdSame rel]
    exact fits.dirs _ dir' contents
  files rel contents file := by
    rw [List.append_assoc, List.singleton_append, kept] at file
    rw [List.append_assoc, List.singleton_append, target_kept progress fresh createdSame rel]
    exact fits.files _ contents file

end Progress

theorem copyDirBody_succeeds {recurse : Path → Path → FileSystem → Copy} {bound : Nat}
    (recursive : ∀ src dst fs, Apart src dst → fs.TreeAt src → DepthBelow fs src bound →
      Fits fs src dst → ∃ fs', recurse src dst fs = some (.ok () fs') ∧ Mirrored fs fs' src dst)
    {fs : FileSystem} {src dst : Path} (apart : Apart src dst) (tree : fs.TreeAt src)
    (deep : DepthBelow fs src (bound + 1)) (fits : Fits fs src dst) :
    ∃ fs', copyDirBody recurse src dst fs = some (.ok () fs') ∧ Mirrored fs fs' src dst := by
  unfold copyDirBody
  obtain ⟨created, made⟩ := createDirAll_succeeds dst fs fits.ancestors
  obtain ⟨wereDirs, createdDirs, createdSame⟩ := createDirAll_ok made
  have createdKept (rel : Path) : created.kindAt (src ++ rel) = fs.kindAt (src ++ rel) :=
    createdSame _ (apart.not_prefix rel)
  obtain ⟨names, listed⟩ : ∃ names, readDir src created = .ok names created :=
    ⟨_, by simp only [readDir, by simpa using createdKept [], fits.source]; rfl⟩
  obtain ⟨-, -, distinct, named⟩ := readDir_ok listed
  simp only [createdKept] at named
  simp only [made, listed]
  refine (@foldl_andThen_ok (copyEntry recurse src dst) (Progress fs created src dst) names created
    ?_ ⟨createdDirs, by simp, fun _ _ _ => rfl⟩).imp fun _ ⟨run, finished⟩ =>
      ⟨run, finished.mirrored tree fits.source (fun name => (named name).mpr) createdSame wereDirs⟩
  intro done name rest current whole progress
  have fresh : name ∉ done := fun earlier => by
    rw [← whole] at distinct
    exact List.disjoint_of_nodup_append distinct earlier (List.mem_cons_self _ _)
  have present : fs.kindAt (src ++ [name]) ≠ none :=
    (named name).mp (whole ▸ List.mem_append_right _ (List.mem_cons_self _ _))
  have kept := progress.source_kept apart createdKept
  unfold copyEntry
  rw [kept [name]]
  rcases kind : fs.kindAt (src ++ [name]) with _ | _ | contents
  · exact absurd kind present
  · have childKept (rel : Path) :
        current.kindAt (src ++ [name] ++ rel) = fs.kindAt (src ++ [name] ++ rel) := by
      simpa using kept (name :: rel)
    obtain ⟨next, run, child⟩ := recursive _ _ current (apart.child name)
      ((tree.child name).congr childKept) (deep.child name kept)
      (progress.fits_child fits fresh createdSame kept kind)
    exact ⟨next, run, progress.dir_step fresh present kept child⟩
  · have target : current.kindAt (dst ++ [name]) ≠ some .dir := by
      rw [progress.target_kept fresh createdSame []]
      exact fits.files [name] contents kind
    have copied : copy (src ++ [name]) (dst ++ [name]) current =
        .ok () (current.set (dst ++ [name]) (.file contents)) := by
      unfold copy
      rw [kept [name], kind, List.dropLast_concat, progress.ancestors dst (List.prefix_refl dst)]
      split <;> simp_all
    exact ⟨_, by rw [copied], progress.file_step fresh tree kind⟩

/-- `copy_dir` with one level of fuel more than `src`'s tree is deep returns
`Ok` when nothing is in the way, and mirrors the tree. -/
theorem copyDir_succeeds (depth : Nat) :
    ∀ {src dst : Path} {fs : FileSystem}, Apart src dst → fs.TreeAt src →
      DepthBelow fs src depth → Fits fs src dst →
      ∃ fs', copyDir (depth + 1) src dst fs = some (.ok () fs') ∧ Mirrored fs fs' src dst := by
  induction depth with
  | zero =>
      intro src dst fs apart tree deep fits
      refine @copyDirBody_succeeds _ 0 ?_ _ _ _ apart tree (deep.mono (Nat.zero_le 1)) fits
      intro src _ fs _ _ shallow fits'
      have source := fits'.source
      rw [shallow.not_present] at source
      cases source
  | succ depth ih =>
      exact fun apart tree deep fits => copyDirBody_succeeds (fun _ _ _ apart tree deep fits =>
        ih apart tree deep fits) apart tree deep fits

theorem Mirrored.fits {fs fs' : FileSystem} {src dst : Path} (mirrored : Mirrored fs fs' src dst)
    (kindKept : KindKept fs fs') : Fits fs src dst where
  source := mirrored.sourceDir
  ancestors path above contents file := by
    simpa [file] using mirrored.ancestorsWereDirs path above (by simp [file])
  dirs rel dir contents file := by
    obtain ⟨_, file'⟩ := (kindKept _).2 contents file
    rw [mirrored.mirrors rel (by simp [dir]), dir] at file'
    cases file'
  files rel contents file dir := by
    have dir' := (kindKept _).1 dir
    rw [mirrored.mirrors rel (by simp [file]), file] at dir'
    cases dir'

theorem Mirrored.fits_again {fs fs' : FileSystem} {src dst : Path}
    (mirrored : Mirrored fs fs' src dst) (kept : ∀ rel, fs'.kindAt (src ++ rel) = fs.kindAt (src ++ rel)) :
    Fits fs' src dst where
  source := by rw [← List.append_nil src, kept, List.append_nil, mirrored.sourceDir]
  ancestors path above contents := by simp [mirrored.ancestors path above]
  dirs rel dir contents := by
    rw [kept] at dir
    rw [mirrored.mirrors rel (by simp [dir]), dir]
    simp
  files rel contents file := by
    rw [kept] at file
    rw [mirrored.mirrors rel (by simp [file]), file]
    simp

/-- A copy run again over its own result changes nothing. -/
theorem Mirrored.again {fs fs' fs'' : FileSystem} {src dst : Path}
    (first : Mirrored fs fs' src dst) (second : Mirrored fs' fs'' src dst)
    (kept : ∀ rel, fs'.kindAt (src ++ rel) = fs.kindAt (src ++ rel)) (path : Path) :
    fs''.kindAt path = fs'.kindAt path := by
  by_cases above : path <+: dst
  · rw [second.ancestors path above, first.ancestors path above]
  by_cases mirroredHere : ∃ rel, path = dst ++ rel ∧ fs'.kindAt (src ++ rel) ≠ none
  · obtain ⟨rel, rfl, present⟩ := mirroredHere
    rw [second.mirrors rel present, kept, first.mirrors rel (by rwa [← kept])]
  · push_neg at mirroredHere
    exact second.frame path above mirroredHere

end Files

end HackerOSInstaller

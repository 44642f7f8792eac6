import Mathlib.Data.String.Basic

/-!
# The host the pipeline runs on

`perform_installation`, `install_edition` and `download_file` reach the
host only through the calls listed in `Effect`: file writes, child
processes, HTTP requests, a git clone and `copy_dir`.  A pipeline is a
`Prog`, a finite tree of such calls whose continuation reads the host's
answer; every call of the source is followed by `?`, which `Prog.perform`
models by turning an error answer into the pipeline's error.  An `Oracle`
stands for the host: it answers each call, knowing the calls made before.
-/

namespace HackerOSInstaller

/-- An error the host reports: an `std::io::Error`, a `reqwest` or a
`git2` error, all turned into `anyhow::Error` by `?`. -/
structure HostError where
  message : String
  deriving DecidableEq, Repr

/-- How a child's standard input is wired. -/
inductive Stdin where
  | inherit
  | piped
  deriving DecidableEq, Repr

/-- `Command::new(program).args(args)`, with its standard input. -/
structure Command where
  program : String
  args : List String
  stdin : Stdin
  deriving DecidableEq, Repr

/-- `std::process::ExitStatus`. -/
structure ExitStatus where
  code : Int
  deriving DecidableEq, Repr

def ExitStatus.success (status : ExitStatus) : Bool :=
  status.code == 0

/-- What `client.get(url).send()` and the `resp.chunk()` loop read: the
HTTP status, the body's chunks in order, and the error that ended the body
early, if any. -/
structure Response where
  status : Nat
  chunks : List String
  bodyError : Option HostError
  deriving DecidableEq, Repr

/-- The host calls of the pipeline. -/
inductive Effect where
  /-- `fs::write(path, contents)`. -/
  | writeFile (path contents : String)
  /-- `Command::status()`: run a child to completion. -/
  | status (command : Command)
  /-- `fs::create_dir_all(path)`. -/
  | createDirAll (path : String)
  /-- `fs::remove_dir_all(path)`. -/
  | removeDirAll (path : String)
  /-- `fs::remove_file(path)`. -/
  | removeFile (path : String)
  /-- `client.get(url).send()` and the reads of its body. -/
  | send (url : String)
  /-- `File::create(path)`. -/
  | createFile (path : String)
  /-- `file.write_all(chunk)` on the file created at `path`. -/
  | writeAll (path chunk : String)
  /-- `Repository::clone(url, path)`. -/
  | cloneRepository (url path : String)
  /-- `copy_dir(src, dst)`, whose own code `Files.CopyDir` models. -/
  | copyDir (src dst : String)
  deriving DecidableEq, Repr

/-- What a successful call returns. -/
def Effect.Answer : Effect → Type
  | .status _ => ExitStatus
  | .send _ => Response
  | _ => Unit

/-- A pipeline: a finite tree of host calls. -/
inductive Prog (α : Type) where
  | pure (value : α)
  /-- The pipeline returns `Err(error)`. -/
  | throw (error : HostError)
  /-- A panic, as an `unwrap()` on `None` raises. -/
  | panic (message : String)
  | call (effect : Effect) (next : Except HostError effect.Answer → Prog α)

namespace Prog

def bind : Prog α → (α → Prog β) → Prog β
  | .pure value, rest => rest value
  | .throw error, _ => .throw error
  | .panic message, _ => .panic message
  | .call effect next, rest => .call effect fun answer => (next answer).bind rest

instance : Monad Prog where
  pure := .pure
  bind := Prog.bind

/-- A host call followed by `?`: an error answer becomes the pipeline's
error. -/
def perform (effect : Effect) : Prog effect.Answer :=
  .call effect fun
    | .ok value => .pure value
    | .error error => .throw error

end Prog

/-- The host: its answer to each call, given the calls made before it. -/
def Oracle : Type :=
  List Effect → (effect : Effect) → Except HostError effect.Answer

/-- How a pipeline ends. -/
inductive Outcome (α : Type) where
  | ok (value : α)
  | error (error : HostError)
  | panicked (message : String)
  deriving DecidableEq, Repr

namespace Prog

/-- Run a pipeline against a host, after the calls `history`: how it ends
and the calls it makes, in order. -/
def exec (oracle : Oracle) : Prog α → List Effect → Outcome α × List Effect
  | .pure value, _ => (.ok value, [])
  | .throw error, _ => (.error error, [])
  | .panic message, _ => (.panicked message, [])
  | .call effect next, history =>
      let rest := (next (oracle history effect)).exec oracle (history ++ [effect])
      (rest.1, effect :: rest.2)

end Prog

namespace Prog

@[simp] theorem bind_eq (program : Prog α) (rest : α → Prog β) : program >>= rest = program.bind rest :=
  rfl

@[simp] theorem pure_eq (value : α) : (Pure.pure value : Prog α) = .pure value :=
  rfl

@[simp] theorem pure_bind (value : α) (rest : α → Prog β) : (Prog.pure value).bind rest = rest value :=
  rfl

/-- Every path of `program` makes only `allowed` calls, checks each with
`?` (an error answer ends the pipeline with that error), and never
panics. -/
def Guarded (allowed : Effect → Prop) : Prog α → Prop
  | .pure _ | .throw _ => True
  | .panic _ => False
  | .call effect next =>
      allowed effect ∧ (∀ error, next (.error error) = .throw error) ∧
        ∀ value, (next (.ok value)).Guarded allowed

section Closure

variable {allowed : Effect → Prop}

theorem Guarded.bind {program : Prog α} {rest : α → Prog β} (first : program.Guarded allowed)
    (later : ∀ value, (rest value).Guarded allowed) : (program.bind rest).Guarded allowed := by
  induction program with
  | pure value => exact later value
  | throw => trivial
  | panic => exact first.elim
  | call effect next ih =>
      refine ⟨first.1, fun error => ?_, fun value => ih _ (first.2.2 value)⟩
      simp only [first.2.1 error, Prog.bind]

theorem guarded_perform {effect : Effect} (permitted : allowed effect) :
    (perform effect).Guarded allowed :=
  ⟨permitted, fun _ => rfl, fun _ => trivial⟩

theorem Guarded.forM {values : List α} {body : α → Prog PUnit}
    (each : ∀ value ∈ values, (body value).Guarded allowed) :
    (values.forM body).Guarded allowed := by
  induction values with
  | nil => trivial
  | cons value values ih =>
      exact (each value (List.mem_cons_self _ _)).bind fun _ =>
        ih fun other member => each other (List.mem_cons_of_mem _ member)

theorem Guarded.mono {narrow : Effect → Prop} {program : Prog α}
    (guarded : program.Guarded narrow) (widen : ∀ effect, narrow effect → allowed effect) :
    program.Guarded allowed := by
  induction program with
  | pure | throw => trivial
  | panic => exact guarded.elim
  | call effect next ih =>
      exact ⟨widen _ guarded.1, guarded.2.1, fun value => ih _ (guarded.2.2 value)⟩

end Closure

section Runs

variable {oracle : Oracle} {allowed : Effect → Prop} {program : Prog α}

theorem Guarded.exec_ne_panicked (guarded : program.Guarded allowed) (history : List Effect)
    (message : String) : (program.exec oracle history).1 ≠ .panicked message := by
  induction program generalizing history with
  | pure | throw => simp [Prog.exec]
  | panic => exact guarded.elim
  | call effect next ih =>
      cases answer : oracle history effect with
      | error error => simp [Prog.exec, answer, guarded.2.1 error]
      | ok value => simpa [Prog.exec, answer] using ih _ (guarded.2.2 value) _

theorem Guarded.exec_allowed (guarded : program.Guarded allowed) (history : List Effect) :
    ∀ effect ∈ (program.exec oracle history).2, allowed effect := by
  induction program generalizing history with
  | pure | throw | panic => simp [Prog.exec]
  | call effect next ih =>
      simp only [Prog.exec, List.mem_cons, forall_eq_or_imp]
      refine ⟨guarded.1, ?_⟩
      cases answer : oracle history effect with
      | error error => simp [guarded.2.1 error, Prog.exec]
      | ok value => exact ih _ (guarded.2.2 value) _

theorem Guarded.exec_of_fails (guarded : program.Guarded allowed) {history calls : List Effect}
    {outcome : Outcome α} (run : program.exec oracle history = (outcome, calls)) (index : Nat)
    (bound : index < calls.length) (error : HostError)
    (failed : oracle (history ++ calls.take index) (calls.get ⟨index, bound⟩) = .error error) :
    index + 1 = calls.length ∧ outcome = .error error := by
  induction program generalizing history calls index with
  | pure | throw | panic =>
      simp only [Prog.exec, Prod.mk.injEq] at run
      simp [← run.2] at bound
  | call effect next ih =>
      simp only [Prog.exec, Prod.mk.injEq] at run
      obtain ⟨ran, rfl⟩ := run
      revert ran bound failed
      cases answer : oracle history effect with
      | error first =>
          rw [guarded.2.1 first]
          intro ran bound failed
          simp only [Prog.exec, List.length_singleton, Nat.lt_one_iff] at ran bound ⊢
          subst bound
          simp only [List.take_zero, List.append_nil, List.get_eq_getElem, List.getElem_cons_zero,
            answer, Except.error.injEq] at failed
          exact ⟨rfl, failed ▸ ran.symm⟩
      | ok value =>
          intro ran bound failed
          cases index with
          | zero => simp [answer] at failed
          | succ index =>
              simp only [List.take_succ_cons, List.get_eq_getElem, List.getElem_cons_succ,
                ← List.append_cons] at failed
              have later := ih (.ok value) (guarded.2.2 value) (Prod.ext ran rfl) index
                (by simpa using bound) (by simpa using failed)
              simpa using later

end Runs

end Prog

end HackerOSInstaller

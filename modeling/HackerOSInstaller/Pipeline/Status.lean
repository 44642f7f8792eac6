import HackerOSInstaller.Pipeline.Guarded

/-!
# The pipeline never reads an HTTP status

`download_file` checks `send().await?`, which fails only when no response
comes back, and then writes the body to disk whatever the status line says:
a 404 page is saved, and made executable, in place of the binary it stands
for.  `StatusBlind` says of a pipeline that no path depends on the status of
a response.  It holds of `perform_installation` for every configuration, so
the whole installation makes the same calls and ends the same way when the
servers answer with any other status.
-/

namespace HackerOSInstaller

/-- An answer to `effect`, with the HTTP status of a response replaced by
`status`; the answers to other calls carry no status. -/
def Effect.restatus (status : Nat) :
    (effect : Effect) → Except HostError effect.Answer → Except HostError effect.Answer
  | .send _, answer => answer.map fun response : Response => { response with status }
  | .writeFile .., answer | .status _, answer | .createDirAll _, answer | .removeDirAll _, answer
  | .removeFile _, answer | .createFile _, answer | .writeAll .., answer
  | .cloneRepository .., answer | .copyDir .., answer => answer

/-- `host`, with the HTTP status of every response replaced by `status`. -/
def Oracle.withStatus (host : Oracle) (status : Nat) : Oracle := fun history effect =>
  effect.restatus status (host history effect)

/-- A request, `client.get(url).send()`. -/
def Effect.isSend : Effect → Bool
  | .send _ => true
  | _ => false

theorem Effect.restatus_of_not_send {effect : Effect} (notSend : effect.isSend = false)
    (status : Nat) (answer : Except HostError effect.Answer) :
    effect.restatus status answer = answer := by
  cases effect <;> first | rfl | cases notSend

/-- A server that answers 404 to every request is the steady host with its
statuses replaced. -/
example : (steadyHost 0 200).withStatus 404 = steadyHost 0 404 := by
  funext history effect
  cases effect <;> rfl

namespace Prog

/-- No path of `program` depends on the HTTP status of a response: after
each call, the rest of the pipeline is the same whatever status the answer
carries. -/
def StatusBlind : Prog α → Prop
  | .pure _ | .throw _ | .panic _ => True
  | .call effect next =>
      (∀ status answer, next (effect.restatus status answer) = next answer) ∧
        ∀ answer, (next answer).StatusBlind

/-- A status-blind pipeline runs the same against a host whatever statuses
its responses carry. -/
theorem StatusBlind.exec {program : Prog α} (blind : program.StatusBlind) (host : Oracle)
    (status : Nat) (history : List Effect) :
    program.exec (host.withStatus status) history = program.exec host history := by
  induction program generalizing history with
  | pure | throw | panic => rfl
  | call effect next ih =>
      simp only [Prog.exec, Oracle.withStatus, blind.1 status, ih _ (blind.2 _)]

section Closure

theorem StatusBlind.bind {program : Prog α} {rest : α → Prog β} (first : program.StatusBlind)
    (later : ∀ value, (rest value).StatusBlind) : (program.bind rest).StatusBlind := by
  induction program with
  | pure value => exact later value
  | throw | panic => trivial
  | call effect next ih =>
      exact ⟨fun status answer => congrArg (Prog.bind · rest) (first.1 status answer),
        fun answer => ih _ (first.2 answer)⟩

theorem statusBlind_perform {effect : Effect} (notSend : effect.isSend = false) :
    (perform effect).StatusBlind :=
  ⟨fun status answer => by rw [effect.restatus_of_not_send notSend],
    fun answer => by cases answer <;> trivial⟩

theorem statusBlind_send_bind {url : String} {rest : Response → Prog α}
    (later : ∀ response, (rest response).StatusBlind)
    (blind : ∀ (response : Response) status, rest { response with status } = rest response) :
    ((perform (.send url)).bind rest).StatusBlind := by
  refine ⟨fun status answer => ?_, fun answer => ?_⟩ <;> cases answer
  · rfl
  · exact blind _ status
  · trivial
  · exact later _

theorem StatusBlind.forM {values : List α} {body : α → Prog PUnit}
    (each : ∀ value, (body value).StatusBlind) : (values.forM body).StatusBlind := by
  induction values with
  | nil => trivial
  | cons value values ih => exact (each value).bind fun _ => ih

theorem statusBlind_unwrap (value : Option α) : (Prog.unwrap value).StatusBlind := by
  cases value <;> trivial

end Closure

end Prog

section Pipeline

open Prog

theorem downloadFile_statusBlind (url path : String) : (downloadFile url path).StatusBlind := by
  simp only [downloadFile, Prog.bind_eq, runCommand]
  refine statusBlind_send_bind (fun response => ?_) fun _ _ => rfl
  repeat' first
    | with_reducible refine StatusBlind.bind ?_ fun _ => ?_
    | exact statusBlind_perform rfl
    | refine StatusBlind.forM fun _ => ?_
    | exact True.intro
    | split

theorem installEdition_statusBlind (edition : Edition) (state : InstallerState) :
    (installEdition edition state).StatusBlind := by
  cases edition <;> simp only [installEdition, Prog.bind_eq, chrootCmd, runCommand] <;>
  repeat' first
    | with_reducible exact downloadFile_statusBlind _ _
    | with_reducible refine StatusBlind.bind ?_ fun _ => ?_
    | exact statusBlind_perform rfl
    | refine StatusBlind.forM fun _ => ?_
    | exact statusBlind_unwrap _
    | exact True.intro

theorem performInstallation_statusBlind (state : InstallerState) :
    (performInstallation state).StatusBlind := by
  simp only [performInstallation, Prog.bind_eq, runCommand, chrootCmd]
  repeat' first
    | with_reducible exact installEdition_statusBlind _ _
    | with_reducible refine StatusBlind.bind ?_ fun _ => ?_
    | exact statusBlind_perform rfl
    | exact statusBlind_unwrap _
    | refine StatusBlind.forM fun _ => ?_
    | exact True.intro
    | split

end Pipeline

/-- Whatever the configuration and the host, `perform_installation` makes
the same calls and ends the same way when every server answers with another
HTTP status, a 404 included. -/
theorem performInstallation_ignores_status (state : InstallerState) (host : Oracle)
    (status : Nat) (history : List Effect) :
    (performInstallation state).exec (host.withStatus status) history =
      (performInstallation state).exec host history :=
  (performInstallation_statusBlind state).exec host status history

end HackerOSInstaller

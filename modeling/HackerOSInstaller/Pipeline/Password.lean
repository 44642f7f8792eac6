import HackerOSInstaller.Pipeline.Guarded

/-!
# Where the password goes

`perform_installation` reads the password once, to build the command line
`echo 'user:password' | chpasswd` it runs in the target root.  `Masked`
relates two pipelines that take the same steps up to a mask on the calls;
a host that cannot tell masked calls apart then sees the same calls from
both, up to the mask, and both end the same way.  With the mask that hides
the password-setting line, the two pipelines of two configurations that
differ only in the password are related, so the password reaches the host
through that one line and through nothing else: not through any other call,
and not through the way the installation ends.
-/

namespace HackerOSInstaller

namespace Prog

/-- `first` and `second` take the same steps up to `mask`: at each step the
two calls have the same image under `mask`, equal answers lead on to related
pipelines, and the two end the same way. -/
inductive Masked (mask : Effect → Effect) : Prog α → Prog α → Prop
  | pure (value : α) : Masked mask (.pure value) (.pure value)
  | throw (error : HostError) : Masked mask (.throw error) (.throw error)
  | panic (message : String) : Masked mask (.panic message) (.panic message)
  | call {effect effect' : Effect} {next : Except HostError effect.Answer → Prog α}
      {next' : Except HostError effect'.Answer → Prog α} :
      mask effect = mask effect' →
      (∀ answer answer', HEq answer answer' → Masked mask (next answer) (next' answer')) →
      Masked mask (.call effect next) (.call effect' next')

section Closure

variable {mask : Effect → Effect}

theorem Masked.refl (program : Prog α) : Masked mask program program := by
  induction program with
  | pure value => exact .pure value
  | throw error => exact .throw error
  | panic message => exact .panic message
  | call effect next ih =>
      refine .call rfl fun answer answer' same => ?_
      cases eq_of_heq same
      exact ih answer

theorem Masked.bind {first second : Prog α} {rest rest' : α → Prog β}
    (masked : Masked mask first second) (later : ∀ value, Masked mask (rest value) (rest' value)) :
    Masked mask (first.bind rest) (second.bind rest') := by
  induction masked with
  | pure value => exact later value
  | throw error => exact .throw error
  | panic message => exact .panic message
  | call masks _ ih => exact .call masks fun answer answer' same => ih answer answer' same

theorem Masked.perform_status {command command' : Command}
    (masks : mask (.status command) = mask (.status command')) :
    Masked mask (perform (.status command)) (perform (.status command')) := by
  refine .call masks fun answer answer' same => ?_
  cases eq_of_heq same
  cases answer
  · exact .throw _
  · exact .pure _

end Closure

end Prog

/-- A host that cannot tell calls apart when their masks agree, after
histories whose masks agree. -/
def Oracle.Blind (mask : Effect → Effect) (host : Oracle) : Prop :=
  ∀ history history' effect effect', history.map mask = history'.map mask →
    mask effect = mask effect' → HEq (host history effect) (host history' effect')

/-- Two related pipelines, run against a host that cannot tell masked calls
apart, end the same way and make the same calls up to the mask. -/
theorem Prog.Masked.exec {mask : Effect → Effect} {first second : Prog α}
    (masked : Masked mask first second) {host : Oracle} (blind : host.Blind mask)
    (history history' : List Effect) (same : history.map mask = history'.map mask) :
    (first.exec host history).1 = (second.exec host history').1 ∧
      (first.exec host history).2.map mask = (second.exec host history').2.map mask := by
  induction masked generalizing history history' with
  | pure | throw | panic => exact ⟨rfl, rfl⟩
  | @call effect effect' _ _ masks _ ih =>
      have answered := blind history history' effect effect' same masks
      obtain ⟨ended, calls⟩ := ih _ _ answered (history ++ [effect]) (history' ++ [effect'])
        (by simp [same, masks])
      simp only [Prog.exec, List.map_cons, masks, ended, calls, and_self]

/-- The password-setting call: the last argument of a `chroot` ends the way
`echo 'user:password' | chpasswd` does. -/
def Command.setsPassword (command : Command) : Bool :=
  command.program == "chroot" && strEndsWith (command.args.getLastD "") "' | chpasswd"

/-- A command with the password-setting line dropped. -/
def Command.hidePassword (command : Command) : Command :=
  if command.setsPassword then { command with args := command.args.dropLast } else command

/-- What a host that does not see the password sees of a call. -/
def Effect.hidePassword : Effect → Effect
  | .status command => .status command.hidePassword
  | effect => effect

theorem Effect.hidePassword_eq {effect effect' : Effect}
    (masks : effect.hidePassword = effect'.hidePassword) :
    effect = effect' ∨ ∃ command command', effect = .status command ∧ effect' = .status command' := by
  cases effect <;> cases effect' <;> simp_all [Effect.hidePassword]

theorem steadyHost_blind (exit : Int) (httpStatus : Nat) :
    (steadyHost exit httpStatus).Blind Effect.hidePassword := by
  intro history history' effect effect' _ masks
  rcases Effect.hidePassword_eq masks with rfl | ⟨command, command', rfl, rfl⟩ <;> rfl

theorem strEndsWith_append (text suffix : String) : strEndsWith (text ++ suffix) suffix = true := by
  simp [strEndsWith, List.isSuffixOf_iff_suffix, String.data_append]

theorem hidePassword_chpasswd (username password password' : String) :
    (Effect.status ⟨"chroot", ["/mnt", "/bin/bash", "-c", chpasswdCommand username password],
        .inherit⟩).hidePassword =
      (Effect.status ⟨"chroot", ["/mnt", "/bin/bash", "-c", chpasswdCommand username password'],
        .inherit⟩).hidePassword := by
  simp [Effect.hidePassword, Command.hidePassword, Command.setsPassword, chpasswdCommand,
    strEndsWith_append]

theorem masked_installEdition {mask : Effect → Effect} (edition : Edition)
    {state state' : InstallerState} (same : state'.username = state.username) :
    Prog.Masked mask (installEdition edition state) (installEdition edition state') := by
  have unchanged : installEdition edition state' = installEdition edition state := by
    unfold installEdition
    rw [same]
  rw [unchanged]
  exact .refl _

/-- Two configurations that differ only in the password give pipelines that
take the same steps, up to the password-setting line. -/
theorem performInstallation_masked (state : InstallerState) (password : String) :
    Prog.Masked Effect.hidePassword (performInstallation state)
      (performInstallation { state with password }) := by
  cases manual : state.manualPartition <;>
    simp only [performInstallation, Prog.bind_eq, runCommand, chrootCmd, manual,
      Bool.false_eq_true, if_true, if_false] <;>
    repeat' first
      | with_reducible exact Prog.Masked.refl _
      | exact masked_installEdition _ rfl
      | with_reducible refine Prog.Masked.bind ?_ fun _ => ?_
      | exact Prog.Masked.perform_status (hidePassword_chpasswd _ _ _)

/-- Whatever the configuration and the other password, a host that cannot
tell password-setting lines apart sees the same calls, up to that line, and
the installation ends the same way. -/
theorem performInstallation_hides_password (state : InstallerState) (password : String)
    {host : Oracle} (blind : host.Blind Effect.hidePassword) :
    ((performInstallation state).exec host []).1 =
        ((performInstallation { state with password }).exec host []).1 ∧
      ((performInstallation state).exec host []).2.map Effect.hidePassword =
        ((performInstallation { state with password }).exec host []).2.map Effect.hidePassword :=
  (performInstallation_masked state password).exec blind [] [] rfl

theorem gnomeConfiguration_hides_password :
    (steadyHost 0 200).Blind Effect.hidePassword ∧
      (((performInstallation gnomeConfiguration).exec (steadyHost 0 200) []).1 =
          ((performInstallation { gnomeConfiguration with password := "secret" }).exec
            (steadyHost 0 200) []).1 ∧
        ((performInstallation gnomeConfiguration).exec (steadyHost 0 200) []).2.map
            Effect.hidePassword =
          ((performInstallation { gnomeConfiguration with password := "secret" }).exec
            (steadyHost 0 200) []).2.map Effect.hidePassword) :=
  ⟨steadyHost_blind 0 200,
    performInstallation_hides_password gnomeConfiguration "secret" (steadyHost_blind 0 200)⟩

end HackerOSInstaller

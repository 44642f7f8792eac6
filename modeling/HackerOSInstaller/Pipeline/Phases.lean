import HackerOSInstaller.Pipeline.Guarded

/-!
# The order of the pipeline's mounts

A monitor reads the host calls of a run one at a time and either moves to a
new state or rejects the call.  `Prog.Follows` says that every path of a
pipeline makes only calls the monitor accepts, and that a path that returns
ends in a state the postcondition accepts; `Follows.exec` carries this to
the calls `exec` records, whatever the host answers.

`followPlan` checks the `mount` and `umount` commands against a fixed
list.  With it, every run of `perform_installation` mounts and unmounts a
prefix of `mountPlan`, and all of it when it returns `Ok`: the root and boot
partitions, the bind mounts of `/dev`, `/proc`, `/sys` and `/run`, then
their unmounts in the order they were mounted, then `/mnt/boot` and `/mnt`.
-/

namespace HackerOSInstaller

namespace Prog

/-- Every path of `program`, started with the monitor in `state`, makes
only calls the monitor accepts, and a path returning `value` leaves it in a
state where `post value` holds.  A path ending in an error or a panic owes
nothing more. -/
def Follows (monitor : σ → Effect → Option σ) : σ → Prog α → (α → σ → Prop) → Prop
  | state, .pure value, post => post value state
  | _, .throw _, _ => True
  | _, .panic _, _ => True
  | state, .call effect next, post =>
      ∃ after, monitor state effect = some after ∧
        ∀ answer, Follows monitor after (next answer) post

theorem bind_assoc (program : Prog α) (first : α → Prog β) (second : β → Prog γ) :
    (program.bind first).bind second = program.bind fun value => (first value).bind second := by
  induction program with
  | pure => rfl
  | throw | panic => rfl
  | call effect next ih => exact congrArg (Prog.call effect) (funext ih)

section Rules

variable {monitor : σ → Effect → Option σ}

theorem Follows.mono {state : σ} {program : Prog α} {post post' : α → σ → Prop}
    (follows : program.Follows monitor state post) (weaker : ∀ value state, post value state →
      post' value state) : program.Follows monitor state post' := by
  induction program generalizing state with
  | pure value => exact weaker value state follows
  | throw | panic => trivial
  | call effect next ih =>
      obtain ⟨after, step, rest⟩ := follows
      exact ⟨after, step, fun answer => ih answer (rest answer)⟩

theorem Follows.bind {state : σ} {program : Prog α} {rest : α → Prog β} {post : β → σ → Prop}
    (follows : program.Follows monitor state fun value after =>
      (rest value).Follows monitor after post) :
    (program.bind rest).Follows monitor state post := by
  induction program generalizing state with
  | pure value => exact follows
  | throw | panic => trivial
  | call effect next ih =>
      obtain ⟨after, step, later⟩ := follows
      exact ⟨after, step, fun answer => ih answer (later answer)⟩

theorem follows_perform {state after : σ} {effect : Effect} {post : effect.Answer → σ → Prop}
    (step : monitor state effect = some after) (holds : ∀ value, post value after) :
    (perform effect).Follows monitor state post :=
  ⟨after, step, fun
    | .ok value => holds value
    | .error _ => trivial⟩

theorem Follows.perform_bind {state after : σ} {effect : Effect} {rest : effect.Answer → Prog β}
    {post : β → σ → Prop} (step : monitor state effect = some after)
    (later : ∀ value, (rest value).Follows monitor after post) :
    ((perform effect).bind rest).Follows monitor state post :=
  Follows.bind (follows_perform step later)

theorem Follows.bind_stationary {state : σ} {program : Prog α} {rest : α → Prog β}
    {post : β → σ → Prop} (stays : program.Follows monitor state fun _ after => after = state)
    (later : ∀ value, (rest value).Follows monitor state post) :
    (program.bind rest).Follows monitor state post :=
  Follows.bind (stays.mono fun value _ same => same ▸ later value)

theorem Follows.of_guarded {state : σ} {program : Prog α}
    (guarded : program.Guarded fun effect => monitor state effect = some state) :
    program.Follows monitor state fun _ after => after = state := by
  induction program with
  | pure => rfl
  | throw | panic => trivial
  | call effect next ih =>
      refine ⟨state, guarded.1, fun
        | .ok value => ih _ (guarded.2.2 value)
        | .error error => ?_⟩
      rw [guarded.2.1 error]
      trivial

/-- What `Follows` promises holds of every run: the monitor accepts the
calls `exec` records, and a run returning `value` ends where `post value`
holds. -/
theorem Follows.exec {oracle : Oracle} {state : σ} {program : Prog α} {post : α → σ → Prop}
    (follows : program.Follows monitor state post) (history : List Effect) :
    ∃ after, (program.exec oracle history).2.foldlM monitor state = some after ∧
      ∀ value, (program.exec oracle history).1 = .ok value → post value after := by
  induction program generalizing state history with
  | pure value => exact ⟨state, rfl, fun _ ran => by cases ran; exact follows⟩
  | throw | panic => exact ⟨state, rfl, fun _ ran => by cases ran⟩
  | call effect next ih =>
      obtain ⟨after, step, rest⟩ := follows
      obtain ⟨final, accepted, returned⟩ := ih _ (rest (oracle history effect)) (history ++ [effect])
      exact ⟨final, by simp only [Prog.exec, List.foldlM_cons, step, Option.bind_eq_bind,
        Option.some_bind]; exact accepted, returned⟩

end Rules

end Prog

/-- A `mount` or `umount` command among the host calls. -/
def Effect.mountCommand? : Effect → Option Command
  | .status command =>
      if command.program = "mount" ∨ command.program = "umount" then some command else none
  | _ => none

/-- The monitor that checks the mount commands against `plan`, in order;
every other call leaves the plan as it is. -/
def followPlan (plan : List Command) (effect : Effect) : Option (List Command) :=
  match effect.mountCommand? with
  | none => some plan
  | some command =>
      match plan with
      | next :: rest => if command = next then some rest else none
      | [] => none

theorem foldlM_followPlan (calls : List Effect) :
    ∀ {plan rest : List Command}, calls.foldlM followPlan plan = some rest →
      calls.filterMap Effect.mountCommand? ++ rest = plan := by
  induction calls with
  | nil => intro plan rest accepted; cases accepted; rfl
  | cons effect calls ih =>
      intro plan rest accepted
      simp only [List.foldlM_cons, Option.bind_eq_bind] at accepted
      unfold followPlan at accepted
      rcases mounted : effect.mountCommand? with _ | command
      · simpa [mounted] using ih (by simpa [mounted] using accepted)
      · rcases plan with _ | ⟨next, plan⟩
        · simp [mounted] at accepted
        · by_cases same : command = next
          · simpa [mounted, same] using ih (by simpa [mounted, same] using accepted)
          · simp [mounted, same] at accepted

/-- The mounts and unmounts `perform_installation` makes, in order. -/
def mountPlan : List Command :=
  [⟨"mount", ["/dev/sda2", "/mnt"], .inherit⟩, ⟨"mount", ["/dev/sda1", "/mnt/boot"], .inherit⟩] ++
    bindDirs.map (fun dir => ⟨"mount", ["--bind", dir, "/mnt" ++ dir], .inherit⟩) ++
    bindDirs.map (fun dir => ⟨"umount", ["/mnt" ++ dir], .inherit⟩) ++
    [⟨"umount", ["/mnt/boot"], .inherit⟩, ⟨"umount", ["/mnt"], .inherit⟩]

theorem formatCommand_mountCommand? (filesystem : Filesystem) (args : List String) :
    (Effect.status ⟨formatCommand filesystem, args, .inherit⟩).mountCommand? = none := by
  cases filesystem <;> rfl

theorem followPlan_unmounted {plan : List Command} {effect : Effect}
    (unmounted : effect.mountCommand? = none) : followPlan plan effect = some plan := by
  simp [followPlan, unmounted]

theorem DownloadCall.mountCommand?_eq_none {path : String} {effect : Effect}
    (call : DownloadCall path effect) : effect.mountCommand? = none := by
  cases call <;> rfl

theorem EditionCall.mountCommand?_eq_none {state : InstallerState} {effect : Effect}
    (call : EditionCall state effect) : effect.mountCommand? = none := by
  cases call with
  | download _ call | blueDownload _ _ call => exact call.mountCommand?_eq_none
  | _ => rfl

section Mounts

open Prog

theorem follows_performInstallation {state : InstallerState} (branchSet : state.branch.isSome)
    (filesystemSet : state.filesystem.isSome) (editionSet : state.edition.isSome) :
    (performInstallation state).Follows followPlan mountPlan fun _ rest => rest = [] := by
  obtain ⟨branch, chosenBranch⟩ := Option.isSome_iff_exists.mp branchSet
  obtain ⟨filesystem, chosenFilesystem⟩ := Option.isSome_iff_exists.mp filesystemSet
  obtain ⟨edition, chosenEdition⟩ := Option.isSome_iff_exists.mp editionSet
  have edited (plan : List Command) := Follows.of_guarded ((guarded_installEdition chosenEdition).mono
    fun _ call => @followPlan_unmounted plan _ call.mountCommand?_eq_none)
  simp only [performInstallation, Prog.bind_eq, chosenBranch, chosenFilesystem, chosenEdition,
    Prog.unwrap, Prog.pure_eq, Prog.pure_bind, runCommand, chrootCmd, bindDirs,
    List.forM_cons', List.forM_nil', Prog.bind_assoc]
  generalize installEdition edition state = install at edited
  repeat' first
    | with_reducible refine Follows.bind_stationary (edited _) fun _ => ?_
    | refine Follows.perform_bind rfl fun _ => ?_
    | refine Follows.perform_bind (followPlan_unmounted (formatCommand_mountCommand? _ _))
        (fun _ => ?_)
    | split
  all_goals exact rfl

/-- On every host, every run of `perform_installation` on a configuration
with a branch, a filesystem and an edition mounts and unmounts a prefix of
`mountPlan`, in order, and all of it when it returns `Ok`: the bind mounts
are unmounted in the order they were mounted, then `/mnt/boot`, then
`/mnt`. -/
theorem performInstallation_mounts {state : InstallerState} (branchSet : state.branch.isSome)
    (filesystemSet : state.filesystem.isSome) (editionSet : state.edition.isSome)
    (oracle : Oracle) :
    ((performInstallation state).exec oracle []).2.filterMap Effect.mountCommand? <+: mountPlan ∧
      (((performInstallation state).exec oracle []).1 = .ok () →
        ((performInstallation state).exec oracle []).2.filterMap Effect.mountCommand? =
          mountPlan) := by
  obtain ⟨rest, accepted, returned⟩ :=
    @Follows.exec _ _ _ oracle _ _ _ (follows_performInstallation branchSet filesystemSet
      editionSet) []
  have planned := foldlM_followPlan _ accepted
  exact ⟨⟨rest, planned⟩, fun ok => by rw [← planned, returned () ok, List.append_nil]⟩

theorem gnomeConfiguration_mounts :
    ((performInstallation gnomeConfiguration).exec (steadyHost 0 200) []).2.filterMap
        Effect.mountCommand? <+: mountPlan ∧
      (((performInstallation gnomeConfiguration).exec (steadyHost 0 200) []).1 = .ok () →
        ((performInstallation gnomeConfiguration).exec (steadyHost 0 200) []).2.filterMap
          Effect.mountCommand? = mountPlan) :=
  @performInstallation_mounts gnomeConfiguration rfl rfl rfl _

example :
    (mountPlan.filter (·.program = "umount")).map (·.args) ≠
      ((mountPlan.filter (·.program = "mount")).map (·.args.getLastD "")).reverse.map ([·]) := by
  decide

end Mounts

end HackerOSInstaller

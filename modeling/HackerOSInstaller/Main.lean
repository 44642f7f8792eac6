import HackerOSInstaller.Pipeline.Password
import HackerOSInstaller.Wizard.Secrecy

/-!
# The installer end to end

`main` runs the wizard on the key events and, once it hands off, runs
`perform_installation` on the host; a quit returns `Ok(())` having called
nothing.  What a run shows is its screens, and what it does is the calls it
makes and how it ends.  Put together, the password typed at the wizard shows
on screen only as its width in stars and reaches the host only in the
password-setting line.
-/

namespace HackerOSInstaller

/-- `main`: the wizard on `events`, then `perform_installation` on the state
it hands off, against `host`.  `none` while the wizard waits for keys, and
after a quit. -/
def installation (events : List Event) (host : Oracle) : Option (Outcome Unit × List Effect) :=
  match runApp Session.init events with
  | .install state => some ((performInstallation state).exec host [])
  | .waiting _ | .quit _ => none

/-- What a host that does not see the password sees of a run. -/
def hiddenRun (run : Outcome Unit × List Effect) : Outcome Unit × List Effect :=
  (run.1, run.2.map Effect.hidePassword)

/-- Key events that differ only in the characters typed at the password
stage, each pair of the same UTF-8 width, show the same screens; against a
host that cannot see the password-setting line, they make the same calls but
for that line and end the same way. -/
theorem installation_hides_password {events events' : List Event}
    (variant : passwordVariant Session.init events events' = true) {host : Oracle}
    (blind : host.Blind Effect.hidePassword) :
    screens Session.init events = screens Session.init events' ∧
      (installation events host).map hiddenRun = (installation events' host).map hiddenRun := by
  obtain ⟨shown, ended⟩ := screens_passwordVariant ⟨rfl, rfl⟩ variant
  refine ⟨shown, ?_⟩
  unfold installation
  generalize runApp Session.init events = outcome at ended ⊢
  generalize runApp Session.init events' = outcome' at ended ⊢
  rcases outcome with _ | _ | state <;> rcases outcome' with _ | _ | state' <;>
    simp only [RunOutcome.PasswordTwins] at ended <;> try rfl
  obtain ⟨same, -⟩ := ended
  obtain ⟨ends, calls⟩ := (performInstallation_masked state state'.password).exec blind [] [] rfl
  rw [same]
  simp only [Option.map_some', hiddenRun, ends, calls]

/-- A full run of the wizard with password `password`. -/
def installRun (password : Char) : List Event :=
  [.press .enter, .press (.char 'a'), .press .enter, .press (.char password), .press .enter,
    .press .enter, .press .enter, .press .enter, .press .enter, .press .enter,
    .press (.char 'd'), .press .enter, .press .enter]

theorem installRuns_hide_password :
    passwordVariant Session.init (installRun 'p') (installRun 'x') = true ∧
      (steadyHost 0 200).Blind Effect.hidePassword ∧
      (screens Session.init (installRun 'p') = screens Session.init (installRun 'x') ∧
        (installation (installRun 'p') (steadyHost 0 200)).map hiddenRun =
          (installation (installRun 'x') (steadyHost 0 200)).map hiddenRun) :=
  ⟨by decide, steadyHost_blind 0 200,
    installation_hides_password (by decide) (steadyHost_blind 0 200)⟩

end HackerOSInstaller

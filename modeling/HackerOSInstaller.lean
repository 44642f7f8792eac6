import HackerOSInstaller.Wizard.State
import HackerOSInstaller.Wizard.Handlers
import HackerOSInstaller.Wizard.Run
import HackerOSInstaller.Wizard.Terminal
import HackerOSInstaller.Wizard.Fields
import HackerOSInstaller.Wizard.Enterable
import HackerOSInstaller.Wizard.Cursor
import HackerOSInstaller.Wizard.Progress
import HackerOSInstaller.Wizard.Screen
import HackerOSInstaller.Wizard.Secrecy
import HackerOSInstaller.Pipeline.Host
import HackerOSInstaller.Pipeline.Install
import HackerOSInstaller.Pipeline.Calls
import HackerOSInstaller.Pipeline.Guarded
import HackerOSInstaller.Pipeline.Handoff
import HackerOSInstaller.Shell.Lexer
import HackerOSInstaller.Pipeline.UserSetup
import HackerOSInstaller.Files.Tree
import HackerOSInstaller.Files.CopyDir
import HackerOSInstaller.Files.Rerun
import HackerOSInstaller.Files.Links
import HackerOSInstaller.Pipeline.Footprint
import HackerOSInstaller.Pipeline.Phases
import HackerOSInstaller.Pipeline.Status
import HackerOSInstaller.Pipeline.Password
import HackerOSInstaller.Main

import CommandShell.Main
import CommandShell.Proofs.Alias.Definition
import CommandShell.Proofs.Builtin.Standard
import CommandShell.Proofs.Builtin.Touch
import CommandShell.Proofs.FileSystem.Linkless
import CommandShell.Proofs.FileSystem.Route
import CommandShell.Proofs.Path.Components
import CommandShell.Proofs.Path.NormalForm
import CommandShell.Proofs.SearchPath.Memory
import CommandShell.Proofs.Shell.AliasUse
import CommandShell.Proofs.Shell.AndOrList
import CommandShell.Proofs.Shell.Directory
import CommandShell.Proofs.Shell.Frame
import CommandShell.Proofs.Shell.GoingBack
import CommandShell.Proofs.Shell.Leaving
import CommandShell.Proofs.Shell.Loops
import CommandShell.Proofs.Shell.Rejection
import CommandShell.Proofs.Shell.Requests
import CommandShell.Proofs.Shell.Renumbering
import CommandShell.Proofs.Shell.Reports
import CommandShell.Proofs.Shell.Sequence
import CommandShell.Proofs.Shell.Touch
import CommandShell.Proofs.Shell.WorkingPath
import CommandShell.Proofs.Syntax.RoundTrip
import CommandShell.Proofs.Syntax.Scan
import CommandShell.Proofs.Bindings.Order
import CommandShell.Proofs.Environment.History
import CommandShell.Proofs.Expansion.Fragments
import CommandShell.Proofs.Shell.Course
import CommandShell.Proofs.Shell.Launch
import CommandShell.Proofs.Shell.EmbeddedNul
import CommandShell.Proofs.FileSystem.Programs
import CommandShell.Proofs.Shell.Statuses
import CommandShell.Proofs.Alias.Printed
import CommandShell.Proofs.Alias.Turns
import CommandShell.Proofs.Shell.AliasCommands
import CommandShell.Proofs.Shell.ExitOperand
import CommandShell.Proofs.Shell.ProgramEnding
import CommandShell.Proofs.Alias.Groups
import CommandShell.Proofs.FileSystem.Ends
import CommandShell.Proofs.Shell.Scripts
import CommandShell.Proofs.CommandLine.Sources
import CommandShell.Proofs.Shell.SearchAndStart
import CommandShell.Proofs.Shell.Delivery

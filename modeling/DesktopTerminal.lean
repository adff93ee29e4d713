import DesktopTerminal.Launch
import DesktopTerminal.Main
import DesktopTerminal.Proofs.Command.Footprint
import DesktopTerminal.Proofs.Command.Getopt
import DesktopTerminal.Proofs.Command.Piping
import DesktopTerminal.Proofs.Console.Run
import DesktopTerminal.Proofs.Line.Blame
import DesktopTerminal.Proofs.Line.Spelling
import DesktopTerminal.Proofs.Path
import DesktopTerminal.Proofs.Path.Normal
import DesktopTerminal.Proofs.Permissions
import DesktopTerminal.Proofs.Secrecy.Command
import DesktopTerminal.Proofs.Secrecy.Line
import DesktopTerminal.Proofs.Secrecy.Session
import DesktopTerminal.Proofs.Session.Delegation
import DesktopTerminal.Proofs.Session.Directory
import DesktopTerminal.Proofs.Session.FileText
import DesktopTerminal.Proofs.Session.Refusal
import DesktopTerminal.Proofs.Session.Restart
import DesktopTerminal.Proofs.Session.Run
import DesktopTerminal.Proofs.Text
import DesktopTerminal.Proofs.Tree.Atomicity
import DesktopTerminal.Proofs.Tree.Descent
import DesktopTerminal.Proofs.Tree.Edit
import DesktopTerminal.Proofs.Tree.Interleaving
import DesktopTerminal.Proofs.Tree.Locality
import DesktopTerminal.Proofs.Tree.Operation
import DesktopTerminal.Proofs.Tree.PathMap
import DesktopTerminal.Proofs.Tree.Place
import DesktopTerminal.Proofs.Tree.Reading
import DesktopTerminal.Proofs.Tree.Refinement
import DesktopTerminal.Proofs.Tree.Restoration
import DesktopTerminal.Proofs.Tree.SiblingOrder
import DesktopTerminal.Proofs.Tree.Transplant
import DesktopTerminal.Proofs.Command.Transfer
import DesktopTerminal.Proofs.Command.Delivery
import DesktopTerminal.Proofs.Command.Parents
import DesktopTerminal.Proofs.Session.Reports
import DesktopTerminal.Proofs.Path.Composition
import DesktopTerminal.Proofs.Command.Walking
import DesktopTerminal.Proofs.Command.Removal
import DesktopTerminal.Proofs.Line.Layout
import DesktopTerminal.Proofs.Line.Extension
import DesktopTerminal.Proofs.Session.Completion
import DesktopTerminal.Proofs.Command.Display
import DesktopTerminal.Proofs.Session.Rest
import DesktopTerminal.Proofs.Session.FlagTable
import DesktopTerminal.Proofs.Console.Prompt
import DesktopTerminal.Proofs.Console.Stripping
import DesktopTerminal.Proofs.Text.Occurrence
import DesktopTerminal.Proofs.Command.Matching
import DesktopTerminal.Proofs.Text.Lines
import DesktopTerminal.Proofs.Command.Chaining
import DesktopTerminal.Proofs.Permissions.ModeText
import DesktopTerminal.Proofs.Command.Modes
import DesktopTerminal.Proofs.Tree.Acceptance
import DesktopTerminal.Proofs.Windows
import DesktopTerminal.Proofs.Command.Processes
import DesktopTerminal.Proofs.Session.Navigation
import DesktopTerminal.Proofs.Gateway.Fence
import DesktopTerminal.Proofs.Text.Search
import DesktopTerminal.Proofs.Markup.Highlight
import DesktopTerminal.Proofs.Session.Ring

import DesktopTerminal.Tree.Document

/-!
# Gateway requests

A line that the terminal cannot run goes to a gateway, which answers with text or fails. It is told
the line, the first unknown name, the current directory and the tree without any contents.
-/
namespace DesktopTerminal

structure GatewayRequest where
  line : String
  command : String
  cwd : String
  outline : Document
deriving Repr

inductive GatewayFault where
  | transport (cause : String)
  | status (code : Nat) (body : String)
  | emptyResponse
deriving DecidableEq, Repr

def GatewayFault.message : GatewayFault → String
  | .transport cause => "gateway request failed: " ++ cause
  | .status code body => "gateway returned HTTP " ++ toString code ++ ": " ++ body
  | .emptyResponse => "gateway returned an empty response"

abbrev GatewayAnswer := Except GatewayFault String

abbrev Gateway := GatewayRequest → GatewayAnswer

/-- The gateway of a desktop that has none: no command is found. -/
def offlineGateway : Gateway := fun r => .ok (r.command ++ ": command not found")

end DesktopTerminal

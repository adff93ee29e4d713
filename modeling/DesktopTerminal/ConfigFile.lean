import DesktopTerminal.Desktop
import DesktopTerminal.Toml.Reader
import DesktopTerminal.Tree.Encoding

/-!
# Configuration files

A configuration file is a TOML document in which every key is optional. It names the user, the group,
the host, the home directory, a file with a saved tree, and the gateway. The key of the gateway never
stands in it.
-/
namespace DesktopTerminal

structure ConfigFile where
  user : Option String
  group : Option String
  hostname : Option String
  home : Option String
  /-- The path of a saved tree. -/
  seed : Option String
  endpoint : Option Endpoint
deriving DecidableEq, Repr

inductive ConfigFault where
  | invalidFile
  | unreadableSeed (path : String)
  | invalidSeed (path : String)
deriving DecidableEq, Repr

def ConfigFault.message : ConfigFault → String
  | .invalidFile => "invalid config file"
  | .unreadableSeed path => "failed to read seed " ++ path
  | .invalidSeed path => "invalid filesystem document " ++ path

namespace ConfigFile

def empty : ConfigFile := ⟨none, none, none, none, none, none⟩

def knownKeys : List String := ["user", "group", "hostname", "home", "seed", "gateway"]

def text? : Toml → Option String
  | .text s => some s
  | _ => none

/-- A number that is not negative. -/
def count? : Toml → Option Nat
  | .integer n => if 0 ≤ n then some n.toNat else none
  | _ => none

/-- An optional value, which must be of the right kind if it is there. -/
def optional? {α : Type} (decode : Toml → Option α) : Option Toml → Option (Option α)
  | none => some none
  | some t => (decode t).map some

/-- A gateway with the standard values where none is given. -/
def endpointOf? (url model timeout : Option Toml) : Option Endpoint := do
  let url ← optional? text? url
  let model ← optional? text? model
  let timeout ← optional? count? timeout
  some ⟨url.getD Endpoint.standard.url, model.getD Endpoint.standard.model, none, timeout⟩

def endpointIn? (ms : Toml.Members) : Option Endpoint :=
  endpointOf? (ms.lookup "endpoint") (ms.lookup "model") (ms.lookup "timeout_secs")

/-- A gateway is a table or an array of its values in order. A date has none of its keys. -/
def endpoint? : Toml → Option Endpoint
  | .table _ ms => endpointIn? ms
  | .inline ms => endpointIn? ms
  | .array items => endpointOf? items[0]? items[1]? items[2]?
  | .date => some Endpoint.standard
  | _ => none

def ofMembers? (ms : Toml.Members) : Option ConfigFile := do
  if ms.all fun m => knownKeys.contains m.1 then
    some ⟨← optional? text? (ms.lookup "user"), ← optional? text? (ms.lookup "group"),
      ← optional? text? (ms.lookup "hostname"), ← optional? text? (ms.lookup "home"),
      ← optional? text? (ms.lookup "seed"), ← optional? endpoint? (ms.lookup "gateway")⟩
  else none

def parse (text : String) : Except ConfigFault ConfigFile :=
  match (Toml.read text).bind ofMembers? with
  | some file => .ok file
  | none => .error .invalidFile

/-- Reads the saved tree at a path. -/
def loadSeed (seedAt : String → Option String) (path : String) : Except ConfigFault Document :=
  match seedAt path with
  | none => .error (.unreadableSeed path)
  | some text =>
    match Document.parse? text with
    | none => .error (.invalidSeed path)
    | some d => .ok d

/-- A setting that is changed only by a value. -/
def apply {α : Type} (set : Config → α → Config) (value : Option α) (c : Config) : Config :=
  match value with
  | some a => set c a
  | none => c

/-- The configuration that the file asks for. The key is for the gateway, if there is one. -/
def toConfig (seedAt : String → Option String) (apiKey : Option String) (f : ConfigFile) :
    Except ConfigFault Config := do
  let c := apply Config.withHome f.home (apply Config.withHostname f.hostname
    (apply Config.withGroup f.group (apply Config.withUser f.user Config.standard)))
  let seed ← match f.seed with
    | none => .ok none
    | some path => (loadSeed seedAt path).map some
  let endpoint := f.endpoint.map fun e => { e with apiKey := apiKey.or e.apiKey }
  .ok (apply Config.withEndpoint endpoint (apply Config.withSeed seed c))

end ConfigFile

end DesktopTerminal

import DesktopTerminal.Tree.Initial
import DesktopTerminal.Windows

/-!
# Desktops

A desktop holds what all its terminals share: the store, the windows and the clipboard. It is set up
from a configuration, either with a new tree or with a tree that was saved.
-/
namespace DesktopTerminal

/-- Where a gateway is found. -/
structure Endpoint where
  url : String
  model : String
  apiKey : Option String
  timeoutSeconds : Option Nat
deriving DecidableEq, Repr

namespace Endpoint

def standard : Endpoint := ⟨"https://api.openai.com/v1", "gpt-4o-mini", none, none⟩

end Endpoint

structure Config where
  user : String
  group : String
  hostname : String
  /-- The home directory, if it is not the one named after the user. -/
  home : Option String
  /-- The saved tree. -/
  seed : Option Document
  endpoint : Option Endpoint
deriving Repr

namespace Config

def standard : Config := ⟨"user", "user", "deskshell", none, none, none⟩

/-- Sets the user, and the group of the same name. -/
def withUser (c : Config) (user : String) : Config := { c with user, group := user }

def withGroup (c : Config) (group : String) : Config := { c with group }

def withHostname (c : Config) (hostname : String) : Config := { c with hostname }

def withHome (c : Config) (home : String) : Config := { c with home := some home }

def withSeed (c : Config) (seed : Document) : Config := { c with seed := some seed }

def withEndpoint (c : Config) (endpoint : Endpoint) : Config :=
  { c with endpoint := some endpoint }

def identity (c : Config) : Identity := ⟨c.user, c.group⟩

/-- The home directory. A user name becomes one segment as it is. -/
def homePath (c : Config) : Path :=
  match c.home with
  | some home => Path.parse home
  | none => ⟨true, ["home", c.user]⟩

end Config

structure Desktop where
  store : Store
  windows : Windows
  clipboard : Option String
  hostname : String
deriving Repr

/-- Why a desktop did not start: its saved tree was not accepted. -/
structure BootFault where
  cause : Fault
deriving DecidableEq, Repr

def BootFault.message (f : BootFault) : String :=
  "failed to restore filesystem snapshot: " ++ f.cause.message

namespace Desktop

def ofStore (hostname : String) (store : Store) : Desktop := ⟨store, Windows.empty, none, hostname⟩

/-- The store with a new tree. -/
def newStore (c : Config) (now : Instant) : Store :=
  ⟨initialTree c.identity c.hostname now, c.identity, c.homePath⟩

def start (c : Config) (now : Instant) : Except BootFault Desktop :=
  match c.seed with
  | none => .ok (ofStore c.hostname (newStore c now))
  | some seed =>
    match Store.ofDocument seed c.identity c.homePath with
    | .ok store => .ok (ofStore c.hostname store)
    | .error fault => .error ⟨fault⟩

end Desktop

end DesktopTerminal

import DesktopTerminal.Permissions
import DesktopTerminal.Clock.Instant

/-!
# Nodes

A node is a file with its content or a directory with its children, in the order in which they were
added. A child is looked up by name and the first of that name is found; replacing a child keeps its
place.
-/
namespace DesktopTerminal

/-- Who owns the nodes that are created. -/
structure Identity where
  user : String
  group : String
deriving DecidableEq, Repr

/-- What is known of a node besides its name and what it holds. -/
structure Info where
  mode : Mode
  owner : String
  group : String
  created : Instant
deriving DecidableEq, Repr

inductive Node where
  | file (name : String) (info : Info) (content : String)
  | directory (name : String) (info : Info) (children : List Node)
deriving Repr

/-- What a listing shows of a node. -/
structure Entry where
  name : String
  kind : Kind
  size : Nat
  permissions : Permissions
  owner : String
  group : String
  created : Instant
deriving DecidableEq, Repr

namespace Entry

def isHidden (e : Entry) : Bool := e.name.toList.head? == some '.'

end Entry

namespace Node

/-- A new file. -/
def newFile (name content : String) (owner : Identity) (now : Instant) : Node :=
  .file name ⟨Mode.initial .file, owner.user, owner.group, now⟩ content

/-- A new directory without children. -/
def newDirectory (name : String) (owner : Identity) (now : Instant) : Node :=
  .directory name ⟨Mode.initial .directory, owner.user, owner.group, now⟩ []

def name : Node → String
  | .file name _ _ => name
  | .directory name _ _ => name

def info : Node → Info
  | .file _ info _ => info
  | .directory _ info _ => info

def kind : Node → Kind
  | .file .. => .file
  | .directory .. => .directory

def children : Node → List Node
  | .file .. => []
  | .directory _ _ children => children

/-- The node under another name. -/
def rename (name : String) : Node → Node
  | .file _ info content => .file name info content
  | .directory _ info children => .directory name info children

/-- The node with other data. -/
def withInfo (f : Info → Info) : Node → Node
  | .file name info content => .file name (f info) content
  | .directory name info children => .directory name (f info) children

/-- The file with other content; a directory stays as it is. -/
def withContent (f : String → String) : Node → Node
  | .file name info content => .file name info (f content)
  | .directory name info children => .directory name info children

/-- The directory with other children; a file stays as it is. -/
def withChildren (f : List Node → List Node) : Node → Node
  | .file name info content => .file name info content
  | .directory name info children => .directory name info (f children)

/-- The size that a listing shows: that of the content in bytes, or a fixed one. -/
def size : Node → Nat
  | .file _ _ content => content.utf8ByteSize
  | .directory .. => 4096

def entry (n : Node) : Entry :=
  ⟨n.name, n.kind, n.size, ⟨n.kind, n.info.mode⟩, n.info.owner, n.info.group, n.info.created⟩

/-- The first node of this name. -/
def find? (name : String) : List Node → Option Node
  | [] => none
  | n :: ns => if n.name = name then some n else find? name ns

/-- Puts a node in the place of the first of its name, or at the end. -/
def put (child : Node) : List Node → List Node
  | [] => [child]
  | n :: ns => if n.name = child.name then child :: ns else n :: put child ns

/-- Takes out the first node of this name. -/
def remove (name : String) : List Node → List Node
  | [] => []
  | n :: ns => if n.name = name then ns else n :: remove name ns

/-- Changes the first node of this name. -/
def change (name : String) (f : Node → Node) : List Node → List Node
  | [] => []
  | n :: ns => if n.name = name then f n :: ns else n :: change name f ns

def child? (name : String) (n : Node) : Option Node := find? name n.children

/-- The node at the end of a path. -/
def descend? : List String → Node → Option Node
  | [], n => some n
  | name :: path, n => (n.child? name).bind (descend? path)

/-- Changes the node at the end of a path; a path that leads nowhere changes nothing. -/
def update (f : Node → Node) : List String → Node → Node
  | [], n => f n
  | name :: path, n => n.withChildren (change name (update f path))

/-- Adds a child at the end. -/
def withChild (n child : Node) : Node := n.withChildren (· ++ [child])

/-- Puts a child into a directory. -/
def upsert? (n child : Node) : Option Node :=
  match n with
  | .file .. => none
  | .directory name info children => some (.directory name info (put child children))

/-- Takes the child of this name out of a directory. -/
def take? (name : String) (n : Node) : Option (Node × Node) :=
  (n.child? name).map fun taken => (taken, n.withChildren (remove name))

end Node

end DesktopTerminal

import DesktopTerminal.Tree.Document

/-!
# The store

The store owns the tree of the desktop, the identity that new nodes get and the home directory. Every
operation checks what it needs before it changes anything; only moving looks up its target a second
time after the source has been taken out.
-/
namespace DesktopTerminal

namespace Node

/-- The node that a path names. The mark of an absolute path has no part in it. -/
def lookup (p : Path) (root : Node) : Except Fault Node :=
  match root.descend? p.segments with
  | some n => .ok n
  | none => .error (.notFound p)

/-- Where a path puts its last segment. -/
structure Place where
  directory : Path
  name : String
  siblings : List Node

/-- The existing directory that holds, or is to hold, what the path names. -/
def place (p : Path) (root : Node) : Except Fault Place :=
  match p.split? with
  | none => .error (.invalidPath p)
  | some (parent, name) =>
    match root.descend? parent.segments with
    | none => .error (.notFound parent)
    | some (.file ..) => .error (.notADirectory parent)
    | some (.directory _ _ siblings) => .ok ⟨parent, name, siblings⟩

/-- Puts a node at a place. -/
def attach (root child : Node) (spot : Place) : Node :=
  root.update (withChildren (put (child.rename spot.name))) spot.directory.segments

/-- Changes the content of a file, or makes the file. -/
def writeWith (f : String → String) (p : Path) (content : String) (owner : Identity)
    (now : Instant) (root : Node) : Except Fault Node := do
  let spot ← root.place p
  match find? spot.name spot.siblings with
  | some (.directory ..) => .error (.isADirectory p)
  | some (.file ..) => .ok (root.update (withContent f) p.segments)
  | none => .ok (root.attach (newFile spot.name content owner now) spot)

/-- Content followed by more of it, on a new line unless there was none. -/
def appended (more content : String) : String :=
  if content = "" then more else content ++ "\n" ++ more

def makeDirectory (p : Path) (owner : Identity) (now : Instant) (root : Node) :
    Except Fault Node :=
  if p.isRoot then .error (.alreadyExists p)
  else do
    let spot ← root.place p
    match find? spot.name spot.siblings with
    | some _ => .error (.alreadyExists p)
    | none => .ok (root.attach (newDirectory spot.name owner now) spot)

/-- Takes out what the path names. -/
def detach (p : Path) (root : Node) : Except Fault (Node × Node) := do
  let spot ← root.place p
  match find? spot.name spot.siblings with
  | none => .error (.notFound p)
  | some n => .ok (n, root.update (withChildren (remove spot.name)) spot.directory.segments)

def delete (p : Path) (root : Node) : Except Fault Node :=
  if p.isRoot then .error (.permissionDenied p) else (root.detach p).map (·.2)

/-- Puts a copy of the source at the target, created now. -/
def copy (source target : Path) (now : Instant) (root : Node) : Except Fault Node :=
  if target.isRoot || target.startsWith source then .error (.invalidPath target)
  else do
    let n ← root.lookup source
    let spot ← root.place target
    .ok (root.attach (n.withInfo fun info => { info with created := now }) spot)

/-- Takes the source out, after a look at both ends: what was taken, and the tree without it. -/
def startMove (source target : Path) (root : Node) : Except Fault (Node × Node) :=
  if source.isRoot || target.isRoot || target.startsWith source then .error (.invalidPath target)
  else do
    let _ ← root.lookup source
    let _ ← root.place target
    root.detach source

def changeMode (p : Path) (text : String) (root : Node) : Except Fault Node := do
  let _ ← root.lookup p
  match ModeChange.parse? text with
  | none => .error (.invalidMode text)
  | some change =>
    .ok (root.update (withInfo fun info => { info with mode := change.apply info.mode }) p.segments)

end Node

structure Store where
  root : Node
  identity : Identity
  home : Path
deriving Repr

namespace Store

/-- A store over a tree, whose root must be a directory. -/
def ofNode (root : Node) (identity : Identity) (home : Path) : Except Fault Store :=
  match root.kind with
  | .file => .error .rootNotADirectory
  | .directory => .ok ⟨root, identity, home⟩

def ofDocument (d : Document) (identity : Identity) (home : Path) : Except Fault Store := do
  let root ← Node.ofDocument d
  ofNode root identity home

def resolve (base : Path) (target : String) (s : Store) : Path := Path.resolve base target s.home

/-! Reading. -/

def entries (p : Path) (s : Store) : Except Fault (List Entry) := do
  match ← s.root.lookup p with
  | .file .. => .error (.notADirectory p)
  | .directory _ _ children => .ok (children.map Node.entry)

def read (p : Path) (s : Store) : Except Fault String := do
  match ← s.root.lookup p with
  | .file _ _ content => .ok content
  | .directory .. => .error (.isADirectory p)

/-- The entry of a node. The root goes by the name `/`. -/
def stat (p : Path) (s : Store) : Except Fault Entry := do
  let n ← s.root.lookup p
  .ok (if p.isRoot then { n.entry with name := "/" } else n.entry)

def kind (p : Path) (s : Store) : Except Fault Kind := (s.root.lookup p).map Node.kind

def contains (p : Path) (s : Store) : Bool := (s.root.descend? p.segments).isSome

/-- The whole tree with its contents. -/
def exported (s : Store) : Document := s.root.toDocument true

/-- The whole tree without its contents. -/
def outline (s : Store) : Document := s.root.toDocument false

/-! Changing. Each operation tells whether it succeeded and gives the store after it. -/

def commit (s : Store) : Except Fault Node → Except Fault Unit × Store
  | .ok root => (.ok (), { s with root })
  | .error fault => (.error fault, s)

def write (p : Path) (content : String) (now : Instant) (s : Store) :
    Except Fault Unit × Store :=
  s.commit (s.root.writeWith (fun _ => content) p content s.identity now)

def append (p : Path) (content : String) (now : Instant) (s : Store) :
    Except Fault Unit × Store :=
  s.commit (s.root.writeWith (Node.appended content) p content s.identity now)

def makeDirectory (p : Path) (now : Instant) (s : Store) : Except Fault Unit × Store :=
  s.commit (s.root.makeDirectory p s.identity now)

def delete (p : Path) (s : Store) : Except Fault Unit × Store := s.commit (s.root.delete p)

def copy (source target : Path) (now : Instant) (s : Store) : Except Fault Unit × Store :=
  s.commit (s.root.copy source target now)

/-- Moves the source to the target. If the target has no place left once the source is taken out,
the source is lost. -/
def move (source target : Path) (s : Store) : Except Fault Unit × Store :=
  match s.root.startMove source target with
  | .error fault => (.error fault, s)
  | .ok (n, rest) =>
    ({ s with root := rest } : Store).commit ((rest.place target).map fun spot => rest.attach n spot)

def changeMode (p : Path) (text : String) (s : Store) : Except Fault Unit × Store :=
  s.commit (s.root.changeMode p text)

end Store

end DesktopTerminal

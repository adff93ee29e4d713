import DesktopTerminal.Tree.Fault
import DesktopTerminal.Tree.Node

/-!
# Documents

A document is a tree in the form in which it is saved, restored and shown to others: names,
permission texts and timestamps as they are written, and contents and children that may be missing.
A tree is restored only from a document whose every node is sound.
-/
namespace DesktopTerminal

structure Document where
  name : String
  kind : Kind
  permissions : String
  owner : String
  group : String
  created : Instant
  content : Option String
  children : Option (List Document)
deriving Repr

namespace Document

mutual

/-- The document with every content left out. -/
def withoutContents : Document → Document
  | ⟨name, kind, permissions, owner, group, created, _, children⟩ =>
    ⟨name, kind, permissions, owner, group, created, none, withoutContentsIn? children⟩

def withoutContentsIn? : Option (List Document) → Option (List Document)
  | none => none
  | some ds => some (withoutContentsIn ds)

def withoutContentsIn : List Document → List Document
  | [] => []
  | d :: ds => d.withoutContents :: withoutContentsIn ds

end

mutual

/-- How many nodes the document has. -/
def count : Document → Nat
  | ⟨_, _, _, _, _, _, _, children⟩ => 1 + countIn? children

def countIn? : Option (List Document) → Nat
  | none => 0
  | some ds => countIn ds

def countIn : List Document → Nat
  | [] => 0
  | d :: ds => d.count + countIn ds

end

end Document

namespace Node

mutual

/-- The document of a tree, with the contents of its files or without. -/
def toDocument (contents : Bool) : Node → Document
  | .file name info content =>
    ⟨name, .file, Permissions.render ⟨.file, info.mode⟩, info.owner, info.group, info.created,
      if contents then some content else none, none⟩
  | .directory name info children =>
    ⟨name, .directory, Permissions.render ⟨.directory, info.mode⟩, info.owner, info.group,
      info.created, none, some (toDocuments contents children)⟩

def toDocuments (contents : Bool) : List Node → List Document
  | [] => []
  | n :: ns => n.toDocument contents :: toDocuments contents ns

end

mutual

/-- Restores the tree of a document, unless a node of it is unsound. -/
def ofDocument : Document → Except Fault Node
  | ⟨name, kind, permissions, owner, group, created, content, children⟩ =>
    match Permissions.parse? permissions with
    | none => .error (.invalidNode name .permissions)
    | some p =>
      if p.kind ≠ kind then .error (.invalidNode name .kind)
      else if name.toList.contains '/' then .error (.invalidNode name .name)
      else
        match kind, children with
        | .file, some _ => .error (.invalidNode name .fileWithChildren)
        | .file, none => .ok (.file name ⟨p.mode, owner, group, created⟩ (content.getD ""))
        | .directory, children => do
          let nodes ← ofDocuments? name children
          .ok (.directory name ⟨p.mode, owner, group, created⟩ nodes)

def ofDocuments? (parent : String) : Option (List Document) → Except Fault (List Node)
  | none => .ok []
  | some ds => ofDocuments parent [] ds

/-- Restores the children of `parent` whose elder siblings have the names `elder`. -/
def ofDocuments (parent : String) (elder : List String) :
    List Document → Except Fault (List Node)
  | [] => .ok []
  | d :: ds =>
    if d.name = "" ∨ d.name ∈ elder then .error (.invalidNode parent .childName)
    else do
      let n ← ofDocument d
      let ns ← ofDocuments parent (elder ++ [d.name]) ds
      .ok (n :: ns)

end

end Node

end DesktopTerminal

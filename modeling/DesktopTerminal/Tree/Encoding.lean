import DesktopTerminal.Clock.Stamp
import DesktopTerminal.Json.Reader
import DesktopTerminal.Json.Record
import DesktopTerminal.Json.Writer
import DesktopTerminal.Tree.Document

/-!
# Documents as JSON

A document is written as an object whose keys come in a fixed order; contents and children that are
missing are left out. Documents that are read may nest to a limited depth, an object and an array
for each level of the tree.
-/
namespace DesktopTerminal.Document

def optionalMember {α : Type} (key : String) (encode : α → Json) :
    Option α → List (String × Json)
  | none => []
  | some a => [(key, encode a)]

mutual

def toJson : Document → Json
  | ⟨name, kind, permissions, owner, group, created, content, children⟩ =>
    .object ([("name", .text name), ("kind", .text kind.name), ("permissions", .text permissions),
        ("owner", .text owner), ("group", .text group), ("createdAt", .text (Clock.stamp created))]
      ++ optionalMember "content" Json.text content ++ childrenToJson children)

def childrenToJson : Option (List Document) → List (String × Json)
  | none => []
  | some ds => [("children", .array (listToJson ds))]

def listToJson : List Document → List Json
  | [] => []
  | d :: ds => d.toJson :: listToJson ds

end

def kindOfName? (name : String) : Option Kind :=
  if name = "file" then some .file
  else if name = "directory" then some .directory
  else none

/-- A kind is written as its name, or as an object with its name for a key and null for a value. -/
def kindOfJson? : Json → Option Kind
  | .text name => kindOfName? name
  | .object [(name, .null)] => kindOfName? name
  | _ => none

def fieldNames : List String :=
  ["name", "kind", "permissions", "owner", "group", "createdAt", "content", "children"]

/-- The document that a value of at most `levels` nested objects and arrays stands for. -/
def ofJson? : Nat → Json → Option Document
  | 0, _ => none
  | levels + 1, j => do
    match ← Json.fields? fieldNames j with
    | [some name, some kind, some permissions, some owner, some group, some created, content,
        children] =>
      let name ← name.text?
      let kind ← kindOfJson? kind
      let permissions ← permissions.text?
      let owner ← owner.text?
      let group ← group.text?
      let created ← Clock.readStamp (← created.text?)
      let content ← Json.optional? Json.text? content
      let children ← Json.optional?
        (fun j =>
          match levels with
          | 0 => none
          | levels + 1 => j.array?.bind fun items => items.mapM (ofJson? levels))
        children
      some ⟨name, kind, permissions, owner, group, created, content, children⟩
    | _ => none

/-- How deep a document may nest. -/
def maxLevels : Nat := 127

def parse? (text : String) : Option Document := (Json.read text).bind (ofJson? maxLevels)

/-- The document on one line. -/
def compact (d : Document) : String := d.toJson.compact

/-- The document on many lines, indented. -/
def indented (d : Document) : String := d.toJson.indented 0

end DesktopTerminal.Document

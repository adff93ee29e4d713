import DesktopTerminal.Path

/-!
# Faults of the file tree

Each fault names the path, mode or node it concerns. Commands show the name that the user typed and
only the reason of a fault.
-/
namespace DesktopTerminal

/-- What is wrong with one node of a document. -/
inductive Defect where
  | permissions
  | kind
  | name
  | fileWithChildren
  | childName
deriving DecidableEq, Repr

def Defect.message : Defect → String
  | .permissions => "bad permission string"
  | .kind => "permission type does not match kind"
  | .name => "name contains '/'"
  | .fileWithChildren => "file has children"
  | .childName => "empty or duplicate child name"

inductive Fault where
  | notFound (path : Path)
  | notADirectory (path : Path)
  | isADirectory (path : Path)
  | alreadyExists (path : Path)
  | permissionDenied (path : Path)
  | invalidMode (text : String)
  | invalidPath (path : Path)
  | invalidNode (name : String) (defect : Defect)
  | rootNotADirectory
deriving DecidableEq, Repr

namespace Fault

def message : Fault → String
  | .notFound p => "not found: " ++ p.render
  | .notADirectory p => "not a directory: " ++ p.render
  | .isADirectory p => "is a directory: " ++ p.render
  | .alreadyExists p => "already exists: " ++ p.render
  | .permissionDenied p => "permission denied: " ++ p.render
  | .invalidMode text => "invalid mode: " ++ text
  | .invalidPath p => "invalid path: " ++ p.render
  | .invalidNode name defect => "invalid snapshot: " ++ name ++ ": " ++ defect.message
  | .rootNotADirectory => "invalid snapshot: root is not a directory"

/-- The words that a system utility has for the fault. -/
def reason : Fault → String
  | .notFound _ => "No such file or directory"
  | .notADirectory _ => "Not a directory"
  | .isADirectory _ => "Is a directory"
  | .alreadyExists _ => "File exists"
  | .permissionDenied _ => "Permission denied"
  | .invalidMode _ => "invalid mode"
  | .invalidPath _ => "Invalid argument"
  | .invalidNode _ _ => "invalid filesystem document"
  | .rootNotADirectory => "invalid filesystem document"

def isNotFound : Fault → Bool
  | .notFound _ => true
  | _ => false

end Fault

end DesktopTerminal

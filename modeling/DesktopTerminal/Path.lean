import DesktopTerminal.Text.Pieces

/-!
# Paths

A path is a list of segments and a mark that tells absolute from relative. Resolving goes over the
pieces of a text from left to right with the segments so far as a stack; it never looks at a tree.
-/
namespace DesktopTerminal

structure Path where
  absolute : Bool
  segments : List String
deriving DecidableEq, Repr

namespace Path

def root : Path := ⟨true, []⟩

/-- Splits a text at its slashes. `.` and `..` are segments like others; empty pieces are dropped. -/
def parse (s : String) : Path :=
  ⟨s.toList.head? == some '/', (Text.splitAt '/' s).filter (· ≠ "")⟩

/-- What one piece of a text does to the segments so far. -/
def step (stack : List String) (piece : String) : List String :=
  if piece = "" ∨ piece = "." then stack
  else if piece = ".." then stack.dropLast
  else stack ++ [piece]

/-- The absolute path that `target` names from `base`. A first piece `~` stands for `home`. -/
def resolve (base : Path) (target : String) (home : Path) : Path :=
  let pieces := Text.splitAt '/' target
  if target.toList.head? == some '/' then ⟨true, pieces.foldl step []⟩
  else if pieces.head? == some "~" then ⟨true, pieces.tail.foldl step home.segments⟩
  else ⟨true, pieces.foldl step base.segments⟩

def isRoot (p : Path) : Bool := p.absolute && p.segments.isEmpty

/-- The containing directory and the last segment, unless the path has no segments. -/
def split? (p : Path) : Option (Path × String) :=
  p.segments.getLast?.map fun name => (⟨p.absolute, p.segments.dropLast⟩, name)

def parent? (p : Path) : Option Path := p.split?.map (·.1)

def fileName? (p : Path) : Option String := p.split?.map (·.2)

/-- The path with one more segment. -/
def join (p : Path) (name : String) : Path := ⟨p.absolute, p.segments ++ [name]⟩

/-- Whether `q` is the path or one above it, of the same kind. -/
def startsWith (p q : Path) : Bool := p.absolute == q.absolute && q.segments.isPrefixOf p.segments

def render (p : Path) : String :=
  (if p.absolute then "/" else "") ++ Text.joinWith "/" p.segments

theorem isRoot_iff {p : Path} : p.isRoot = true ↔ p.absolute = true ∧ p.segments = [] := by
  simp [isRoot]

theorem startsWith_iff {p q : Path} :
    p.startsWith q = true ↔ p.absolute = q.absolute ∧ q.segments <+: p.segments := by
  simp [startsWith]

end Path

end DesktopTerminal

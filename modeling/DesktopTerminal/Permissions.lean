import DesktopTerminal.Text.Pieces
import DesktopTerminal.Text.Numeral

/-!
# Permissions

Permissions are shown and changed but never enforced. A node has nine mode bits; its kind gives the
type letter before them. A mode text is three octal digits or a list of symbolic clauses, and each
clause sets, clears or assigns the bits of the classes it names.
-/
namespace DesktopTerminal

inductive Kind where
  | file
  | directory
deriving DecidableEq, Repr

namespace Kind

def name : Kind → String
  | .file => "file"
  | .directory => "directory"

/-- The letter before the mode bits. -/
def letter : Kind → Char
  | .file => '-'
  | .directory => 'd'

end Kind

/-- Read, write and execute for the user, the group and others, from the highest bit down. -/
abbrev Mode := BitVec 9

namespace Mode

/-- The mode of a new node. -/
def initial : Kind → Mode
  | .file => 0o644#9
  | .directory => 0o755#9

/-- The letters that stand for the bits, from the highest bit down. -/
def letters : List Char := ['r', 'w', 'x', 'r', 'w', 'x', 'r', 'w', 'x']

def render (m : Mode) : List Char :=
  letters.zipIdx.map fun (letter, i) => if m.getMsbD i then letter else '-'

/-- Reads on over bits that should show as `expected`, after bits of value `m`. -/
def readOn (m : Mode) : List Char → List Char → Option Mode
  | [], [] => some m
  | letter :: expected, c :: cs =>
    if c = letter then readOn (m <<< 1 ||| 1#9) expected cs
    else if c = '-' then readOn (m <<< 1) expected cs
    else none
  | _, _ => none

def read (cs : List Char) : Option Mode := readOn 0#9 letters cs

end Mode

/-- A type letter and nine mode bits. -/
structure Permissions where
  kind : Kind
  mode : Mode
deriving DecidableEq, Repr

namespace Permissions

def render (p : Permissions) : String := String.ofList (p.kind.letter :: p.mode.render)

def parse? (s : String) : Option Permissions :=
  match s.toList with
  | '-' :: cs => (Mode.read cs).map (⟨.file, ·⟩)
  | 'd' :: cs => (Mode.read cs).map (⟨.directory, ·⟩)
  | _ => none

end Permissions

inductive ModeOperator where
  | add
  | remove
  | assign
deriving DecidableEq, Repr

namespace ModeOperator

def ofChar? (c : Char) : Option ModeOperator :=
  if c = '+' then some .add
  else if c = '-' then some .remove
  else if c = '=' then some .assign
  else none

end ModeOperator

/-- One symbolic clause: what it does, to the bits of which classes, with which permissions. -/
structure ModeClause where
  classes : Mode
  operator : ModeOperator
  granted : Mode
deriving DecidableEq, Repr

namespace ModeClause

def classMask? (c : Char) : Option Mode :=
  if c = 'u' then some 0o700#9
  else if c = 'g' then some 0o070#9
  else if c = 'o' then some 0o007#9
  else if c = 'a' then some 0o777#9
  else none

def permissionMask? (c : Char) : Option Mode :=
  if c = 'r' then some 0o444#9
  else if c = 'w' then some 0o222#9
  else if c = 'x' then some 0o111#9
  else none

/-- The union of the masks of all letters, if each has one. -/
def union? (mask? : Char → Option Mode) : List Char → Option Mode
  | [] => some 0#9
  | c :: cs => (mask? c).bind fun m => (union? mask? cs).map (m ||| ·)

/-- Reads a clause: class letters, an operator, permission letters. No class letter means all. -/
def parse? (cs : List Char) : Option ModeClause :=
  match cs.dropWhile fun c => (ModeOperator.ofChar? c).isNone with
  | [] => none
  | sign :: granted => do
    let operator ← ModeOperator.ofChar? sign
    let named := cs.takeWhile fun c => (ModeOperator.ofChar? c).isNone
    let classes ← union? classMask? named
    let granted ← union? permissionMask? granted
    some ⟨if named.isEmpty then 0o777#9 else classes, operator, granted⟩

def apply (clause : ModeClause) (m : Mode) : Mode :=
  let selected := clause.granted &&& clause.classes
  match clause.operator with
  | .add => m ||| selected
  | .remove => m &&& ~~~selected
  | .assign => m &&& ~~~clause.classes ||| selected

end ModeClause

/-- What a mode text asks for. -/
inductive ModeChange where
  | exact (mode : Mode)
  | clauses (cs : List ModeClause)
deriving DecidableEq, Repr

namespace ModeChange

def octalDigit? (c : Char) : Option Nat :=
  (Text.digitValue? c).bind fun d => if d < 8 then some d else none

def octal? : List Char → Option Mode
  | [a, b, c] => do
    let u ← octalDigit? a
    let g ← octalDigit? b
    let o ← octalDigit? c
    some (BitVec.ofNat 9 (64 * u + 8 * g + o))
  | _ => none

def parse? (text : String) : Option ModeChange :=
  match octal? text.toList with
  | some mode => some (.exact mode)
  | none =>
    ((Text.cut (· == ',') text.toList).mapM ModeClause.parse?).map .clauses

def apply : ModeChange → Mode → Mode
  | .exact mode, _ => mode
  | .clauses cs, m => cs.foldl (fun m clause => clause.apply m) m

end ModeChange

end DesktopTerminal

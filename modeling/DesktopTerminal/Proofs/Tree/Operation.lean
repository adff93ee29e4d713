import DesktopTerminal.Tree.Store

/-!
# Operations of the store

The changing operations of the store as data, so that what is asked of a store can be a list. A run
goes on after a failed operation with the store as that operation left it.
-/
namespace DesktopTerminal

/-- A computation that succeeds has succeeded in its first part. -/
theorem exists_ok_of_bind_eq_ok {ε α β : Type} {x : Except ε α} {f : α → Except ε β} {b : β}
    (h : (x >>= f) = .ok b) : ∃ a, x = .ok a ∧ f a = .ok b := by
  cases x with
  | error e => cases h
  | ok a => exact ⟨a, rfl, h⟩

namespace Store

inductive Operation where
  | write (path : Path) (content : String)
  | append (path : Path) (content : String)
  | makeDirectory (path : Path)
  | delete (path : Path)
  | copy (source target : Path)
  | move (source target : Path)
  | changeMode (path : Path) (text : String)
deriving DecidableEq, Repr

namespace Operation

/-- The paths that an operation is given. -/
def paths : Operation → List Path
  | .write p _ => [p]
  | .append p _ => [p]
  | .makeDirectory p => [p]
  | .delete p => [p]
  | .copy source target => [source, target]
  | .move source target => [source, target]
  | .changeMode p _ => [p]

/-- Whether an operation may change what stands at the path `q`. -/
def Touches (q : List String) : Operation → Prop
  | .write p _ => q = p.segments
  | .append p _ => q = p.segments
  | .makeDirectory p => q = p.segments
  | .delete p => p.segments <+: q
  | .copy _ target => target.segments <+: q
  | .move source target => source.segments <+: q ∨ target.segments <+: q
  | .changeMode p _ => q = p.segments

end Operation

/-- Carries out an operation at a time. -/
def apply (op : Operation) (now : Instant) (s : Store) : Except Fault Unit × Store :=
  match op with
  | .write p content => s.write p content now
  | .append p content => s.append p content now
  | .makeDirectory p => s.makeDirectory p now
  | .delete p => s.delete p
  | .copy source target => s.copy source target now
  | .move source target => s.move source target
  | .changeMode p text => s.changeMode p text

/-- The store after some operations, each at its own time. -/
def run : List (Operation × Instant) → Store → Store
  | [], s => s
  | (op, now) :: rest, s => run rest (s.apply op now).2

/-! No operation changes where home is. -/

@[simp] theorem home_commit (result : Except Fault Node) (s : Store) :
    (s.commit result).2.home = s.home := by
  cases result <;> rfl

@[simp] theorem home_apply (op : Operation) (now : Instant) (s : Store) :
    (s.apply op now).2.home = s.home := by
  cases op with
  | move source target =>
    rw [apply, move]
    split
    · rfl
    · exact home_commit _ _
  | _ => exact home_commit _ _

end Store

end DesktopTerminal

import DesktopTerminal.Text.Blank

/-!
# Command history

Submitted lines, oldest first, and a cursor that walks over them while the user looks for an earlier
line. Blank lines are not kept.
-/
namespace DesktopTerminal

structure History where
  entries : List String
  /-- The entry on show, if the user is walking. -/
  cursor : Option Nat
deriving DecidableEq, Repr

/-- What a step does to the input. -/
inductive Recall where
  | entry (line : String)
  | blank
  | unchanged
deriving DecidableEq, Repr

namespace History

def empty : History := ⟨[], none⟩

/-- Records a line and ends the walk. -/
def push (line : String) (h : History) : History :=
  if Text.isBlankText line then ⟨h.entries, none⟩ else ⟨h.entries ++ [line], none⟩

def resetCursor (h : History) : History := ⟨h.entries, none⟩

/-- Goes to the entry at `i`, if there is one. -/
def recallAt (i : Nat) (h : History) : Recall × History :=
  match h.entries[i]? with
  | some line => (.entry line, ⟨h.entries, some i⟩)
  | none => (.unchanged, h)

/-- A step to an older entry, which stops at the oldest. -/
def previous (h : History) : Recall × History :=
  match h.cursor with
  | none => h.recallAt (h.entries.length - 1)
  | some i => h.recallAt (i - 1)

/-- A step to a newer entry. Past the newest the walk ends. -/
def next (h : History) : Recall × History :=
  match h.cursor with
  | none => (.unchanged, h)
  | some i =>
    if i + 1 < h.entries.length then h.recallAt (i + 1)
    else (.blank, ⟨h.entries, none⟩)

end History

end DesktopTerminal

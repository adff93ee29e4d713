import DesktopTerminal.Proofs.Tree.Descent
import DesktopTerminal.Tree.Store
import Mathlib.Data.List.Basic

/-!
# Places

What it means that a path has a place in a tree, and what putting a node there or taking the node
there out comes to. A path without segments has no place.
-/
namespace DesktopTerminal.Node

/-- The spot is where the path puts its last segment in the tree. -/
structure IsPlace (root : Node) (p : Path) (spot : Place) : Prop where
  parent : spot.directory = ⟨p.absolute, p.segments.dropLast⟩
  segments : p.segments = spot.directory.segments ++ [spot.name]
  held : ∃ name info,
    root.descend? spot.directory.segments = some (.directory name info spot.siblings)

theorem isPlace_of_place {root : Node} {p : Path} {spot : Place} (h : root.place p = .ok spot) :
    IsPlace root p spot := by
  rw [place, Path.split?] at h
  cases hl : p.segments.getLast? with
  | none => simp [hl] at h
  | some name =>
    simp only [hl, Option.map_some] at h
    split at h
    · cases h
    · cases h
    · rename_i hd
      obtain rfl := Except.ok.inj h
      refine ⟨rfl, ?_, _, _, hd⟩
      exact List.dropLast_append_getLast? name hl |>.symm

namespace IsPlace

variable {root : Node} {p : Path} {spot : Place} (h : IsPlace root p spot)
include h

/-- The node at the path is the sibling of that name. -/
theorem descend?_eq : root.descend? p.segments = find? spot.name spot.siblings := by
  obtain ⟨name, info, hd⟩ := h.held
  rw [h.segments, descend?_snoc, hd]
  rfl

theorem ne_nil : p.segments ≠ [] := by
  rw [h.segments]
  exact List.append_ne_nil_of_right_ne_nil _ (List.cons_ne_nil _ _)

end IsPlace

/-! ## Directories -/

/-- A directory stands at the end of a path. -/
def HoldsDirectory (root : Node) (q : List String) : Prop :=
  (root.descend? q).map kind = some .directory

theorem holdsDirectory_iff {root : Node} {q : List String} :
    root.HoldsDirectory q ↔ ∃ name info children,
      root.descend? q = some (.directory name info children) := by
  rw [HoldsDirectory]
  cases root.descend? q with
  | none => simp
  | some n => cases n <;> simp [kind]

/-- A path has a place if it has a segment and a directory stands above it. -/
theorem place_eq_ok_iff {root : Node} {p : Path} :
    (∃ spot, root.place p = .ok spot) ↔
      p.segments ≠ [] ∧ root.HoldsDirectory p.segments.dropLast := by
  constructor
  · rintro ⟨spot, h⟩
    have hp := isPlace_of_place h
    obtain ⟨name, info, hd⟩ := hp.held
    rw [hp.parent] at hd
    exact ⟨hp.ne_nil, holdsDirectory_iff.mpr ⟨name, info, _, hd⟩⟩
  · rintro ⟨hne, hd⟩
    obtain ⟨name, info, children, hd⟩ := holdsDirectory_iff.mp hd
    rw [place, Path.split?, List.getLast?_eq_some_getLast hne]
    simp only [Option.map_some, hd]
    exact ⟨_, rfl⟩

end DesktopTerminal.Node

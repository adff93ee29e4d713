import DesktopTerminal.Proofs.Path
import DesktopTerminal.Proofs.Tree.Locality
import DesktopTerminal.Proofs.Tree.Reading
import DesktopTerminal.Proofs.Tree.Refinement

/-!
# Transplants

A copy and a move put a subtree at their target. There it is found afterwards as it was at the
source, but for its name and, if it is a copy, its time of creation. At a path apart from the source
and the target the same node stands as before, to the last of its children. The trees may be any,
with names that occur twice among siblings as well; only that nothing is left at the source of a move
takes distinct names.
-/
namespace DesktopTerminal

open PathMap (Apart)

namespace Node

/-! ## Nodes above and below -/

theorem rename_self (n : Node) : n.rename n.name = n := by
  cases n <;> rfl

theorem sizeOf_children_lt {n c : Node} (h : c ∈ n.children) : sizeOf c < sizeOf n := by
  cases n with
  | file => cases h
  | directory name info children =>
    have hc : sizeOf c < sizeOf children := List.sizeOf_lt_of_mem h
    simp only [directory.sizeOf_spec]
    omega

theorem sizeOf_descend?_le {n m : Node} {p : List String} (h : n.descend? p = some m) :
    sizeOf m ≤ sizeOf n := by
  induction p generalizing n with
  | nil =>
    obtain rfl := Option.some.inj h
    exact Nat.le_refl _
  | cons name p ih =>
    rw [descend?_cons] at h
    obtain ⟨c, hc, hm⟩ := Option.bind_eq_some_iff.mp h
    exact (ih hm).trans (sizeOf_children_lt (mem_of_find? hc)).le

/-- No node is found below itself. -/
theorem descend?_ne_self {n : Node} {p : List String} (hp : p ≠ []) : n.descend? p ≠ some n := by
  intro h
  cases p with
  | nil => exact hp rfl
  | cons name p =>
    rw [descend?_cons] at h
    obtain ⟨c, hc, hn⟩ := Option.bind_eq_some_iff.mp h
    exact absurd ((sizeOf_descend?_le hn).trans_lt (sizeOf_children_lt (mem_of_find? hc)))
      (Nat.lt_irrefl _)

/-! ## What a change leaves alone -/

theorem descend?_update_of_apart {f : Node → Node} (hf : KeepsName f) {p q : List String}
    (h : Apart p q) (n : Node) : (n.update f p).descend? q = n.descend? q := by
  induction p generalizing n q with
  | nil => exact absurd List.nil_prefix h.1
  | cons name p ih =>
    have hn := keepsName_update hf p
    cases q with
    | nil => exact absurd List.nil_prefix h.2
    | cons other q =>
      rw [update, descend?_cons, descend?_cons, children_withChildren_change]
      by_cases he : name = other
      · subst he
        have hpq : Apart p q :=
          ⟨fun hpq => h.1 (List.cons_prefix_cons.mpr ⟨rfl, hpq⟩),
            fun hqp => h.2 (List.cons_prefix_cons.mpr ⟨rfl, hqp⟩)⟩
        rw [find?_change_self hn]
        cases find? name n.children with
        | none => rfl
        | some c => exact ih hpq c
      · rw [find?_change_ne hn he]

section Spot

variable {root : Node} {p : Path} {spot : Place} (h : IsPlace root p spot)
include h

/-- A change among siblings that is not seen under other names is not seen from paths apart. -/
theorem descend?_siblings_of_apart {g : List Node → List Node}
    (hg : ∀ other, spot.name ≠ other → ∀ ns, find? other (g ns) = find? other ns)
    {q : List String} (hq : Apart p.segments q) :
    (root.update (withChildren g) spot.directory.segments).descend? q = root.descend? q := by
  have hk := keepsName_withChildren g
  by_cases hd : spot.directory.segments <+: q
  · obtain ⟨r, rfl⟩ := hd
    obtain ⟨name, info, hdir⟩ := h.held
    rw [h.segments] at hq
    rw [descend?_update_append hk, descend?_append, hdir]
    cases r with
    | nil =>
      rw [List.append_nil] at hq
      exact absurd (List.prefix_append _ _) hq.2
    | cons other r =>
      have hne : spot.name ≠ other := by
        rintro rfl
        exact hq.1 ((List.prefix_append_right_inj _).mpr (List.cons_prefix_cons.mpr
          ⟨rfl, List.nil_prefix⟩))
      simp only [Option.bind_some, withChildren, descend?_cons, children, hg other hne]
  · have hqd : ¬ q <+: spot.directory.segments := by
      intro hqd
      rw [h.segments] at hq
      exact hq.2 (hqd.trans (List.prefix_append _ _))
    exact descend?_update_of_apart hk ⟨hd, hqd⟩ root

theorem descend?_attach_of_apart (child : Node) {q : List String} (hq : Apart p.segments q) :
    (root.attach child spot).descend? q = root.descend? q := by
  refine descend?_siblings_of_apart h (fun other hne ns => ?_) hq
  exact find?_put_ne (by rwa [name_rename]) ns

theorem descend?_removed_of_apart {q : List String} (hq : Apart p.segments q) :
    (root.update (withChildren (remove spot.name)) spot.directory.segments).descend? q =
      root.descend? q :=
  descend?_siblings_of_apart h (fun _ hne ns => find?_remove_ne hne ns) hq

/-- From its place on, a tree into which a node was put is that node. -/
theorem descend?_attach_append (child : Node) (r : List String) :
    (root.attach child spot).descend? (p.segments ++ r) =
      (child.rename spot.name).descend? r := by
  obtain ⟨name, info, hdir⟩ := h.held
  have hfind : find? spot.name (put (child.rename spot.name) spot.siblings) =
      some (child.rename spot.name) := by
    have hput := find?_put_self (child.rename spot.name) spot.siblings
    rwa [name_rename] at hput
  rw [attach, h.segments, List.append_assoc, descend?_update_append (keepsName_withChildren _), hdir]
  change (find? spot.name (put (child.rename spot.name) spot.siblings)).bind (descend? r) = _
  rw [hfind]
  rfl

theorem descend?_attach_self (child : Node) :
    (root.attach child spot).descend? p.segments = some (child.rename spot.name) := by
  have hself := descend?_attach_append h child []
  rwa [List.append_nil] at hself

end Spot

/-- The last name of a path with a place is the name there. -/
theorem IsPlace.fileName?_eq {root : Node} {p : Path} {spot : Place} (h : IsPlace root p spot) :
    p.fileName? = some spot.name := by
  rw [Path.fileName?_eq_getLast?, h.segments]
  exact List.getLast?_concat

/-- A node bears the last name of the path to it. -/
theorem name_of_fileName? {root n : Node} {p : Path} {name : String}
    (h : root.descend? p.segments = some n) (hname : p.fileName? = some name) : n.name = name := by
  rw [Path.fileName?_eq_getLast?] at hname
  rw [← List.dropLast_append_getLast? name hname] at h
  exact name_of_descend? h

/-- The node with another time of creation. -/
def createdAt (now : Instant) (n : Node) : Node :=
  n.withInfo fun info => { info with created := now }

end Node

/-- What a move has taken out is gone, unless it goes on under the target. -/
theorem PathMap.entry_move_eq_none {m m' : PathMap} {source target q : List String}
    (h : m.move source target = .ok m') (ht : ¬ target <+: q)
    (hs : source <+: q ∨ m.entry q = none) : m'.entry q = none := by
  rw [move] at h
  split at h
  · cases h
  · cases he : m.entry source with
    | none =>
      rw [he] at h
      cases h
    | some item =>
      rw [he] at h
      obtain ⟨⟨parent, name⟩, _, h⟩ := exists_ok_of_bind_eq_ok h
      obtain ⟨⟨sourceParent, sourceName⟩, _, h⟩ := exists_ok_of_bind_eq_ok h
      obtain rfl := Except.ok.inj h
      refine (entry_graft_of_not_under _ ht).trans ?_
      change (if source <+: q then none else m.entry q) = none
      split
      · rfl
      · exact hs.resolve_left ‹_›

namespace Store

open Node

variable {s : Store} {source target : Path} {now : Instant} {q : List String}

/-! ## Copies -/

/-- What a successful copy has found and what it has made of the tree. -/
theorem copy_eq_ok (h : (s.copy source target now).1 = .ok ()) :
    ∃ n spot, s.root.descend? source.segments = some n ∧ IsPlace s.root target spot ∧
      target.startsWith source = false ∧
      (s.copy source target now).2 = { s with root := s.root.attach (n.createdAt now) spot } := by
  obtain ⟨root, hroot, hs⟩ := commit_eq_ok h
  obtain ⟨n, spot, hn, hspot, hout, rfl⟩ := Node.copy_eq_ok hroot
  exact ⟨n, spot, hn, hspot, hout, hs⟩

theorem descend?_copy_of_apart (h : (s.copy source target now).1 = .ok ())
    (hq : Apart target.segments q) :
    (s.copy source target now).2.root.descend? q = s.root.descend? q := by
  obtain ⟨n, spot, _, hspot, _, hs⟩ := copy_eq_ok h
  rw [hs]
  exact descend?_attach_of_apart hspot _ hq

/-- A copy that keeps the name of its source is the node at the source, created now. -/
theorem descend?_copy_target (h : (s.copy source target now).1 = .ok ())
    (hname : target.fileName? = source.fileName?) :
    ∃ n, s.root.descend? source.segments = some n ∧
      (s.copy source target now).2.root.descend? target.segments = some (n.createdAt now) := by
  obtain ⟨n, spot, hn, hspot, _, hs⟩ := copy_eq_ok h
  refine ⟨n, hn, ?_⟩
  have hnamed : (n.createdAt now).name = spot.name :=
    (name_withInfo _ n).trans (name_of_fileName? hn (hname.symm.trans hspot.fileName?_eq))
  rw [hs, descend?_attach_self hspot, ← hnamed, rename_self]

/-! ## Moves -/

theorem move_eq_ok (h : (s.move source target).1 = .ok ()) :
    ∃ n here there, IsPlace s.root source here ∧ s.root.descend? source.segments = some n ∧
      let rest := s.root.update (withChildren (remove here.name)) here.directory.segments
      IsPlace rest target there ∧ target.startsWith source = false ∧
        (s.move source target).2 = { s with root := rest.attach n there } := by
  rw [move] at h ⊢
  cases hm : s.root.startMove source target with
  | error fault =>
    rw [hm] at h
    cases h
  | ok r =>
    obtain ⟨n, rest⟩ := r
    obtain ⟨_, _, hout, _, hd⟩ := startMove_eq_ok hm
    obtain ⟨here, hhere, hn, rfl⟩ := detach_eq_ok hd
    rw [hm] at h
    obtain ⟨root, hroot, hs⟩ := commit_eq_ok h
    cases ht : place target _ with
    | error fault =>
      rw [ht] at hroot
      cases hroot
    | ok there =>
      rw [ht] at hroot
      obtain rfl := Except.ok.inj hroot
      exact ⟨n, here, there, hhere, hn, isPlace_of_place ht, hout, hs⟩

theorem descend?_move_of_apart (h : (s.move source target).1 = .ok ())
    (hsource : Apart source.segments q) (htarget : Apart target.segments q) :
    (s.move source target).2.root.descend? q = s.root.descend? q := by
  obtain ⟨n, here, there, hhere, _, hthere, _, hs⟩ := move_eq_ok h
  rw [hs]
  exact (descend?_attach_of_apart hthere _ htarget).trans
    (descend?_removed_of_apart hhere hsource)

/-- A node that keeps its name arrives as it was. -/
theorem descend?_move_target (h : (s.move source target).1 = .ok ())
    (hname : target.fileName? = source.fileName?) :
    ∃ n, s.root.descend? source.segments = some n ∧
      (s.move source target).2.root.descend? target.segments = some n := by
  obtain ⟨n, here, there, _, hn, hthere, _, hs⟩ := move_eq_ok h
  refine ⟨n, hn, ?_⟩
  have hnamed : n.name = there.name :=
    name_of_fileName? hn (hname.symm.trans hthere.fileName?_eq)
  rw [hs, descend?_attach_self hthere, ← hnamed, rename_self]

/-- Where nothing was, or the source of a move, nothing is afterwards, unless the target is above. -/
theorem descend?_move_eq_none (hw : s.root.WellFormed) (hsource : source.absolute = true)
    (htarget : target.absolute = true) (h : (s.move source target).1 = .ok ())
    (hq : ¬ target.segments <+: q) (hnone : source.segments <+: q ∨ s.root.descend? q = none) :
    (s.move source target).2.root.descend? q = none := by
  obtain ⟨_, source⟩ := source
  obtain ⟨_, target⟩ := target
  obtain rfl : _ = true := hsource
  obtain rfl : _ = true := htarget
  have hagrees := agrees_move source target hw
  cases hm : s.root.paths.move source target with
  | error fault =>
    rw [hm] at hagrees
    rw [show s.move ⟨true, source⟩ ⟨true, target⟩ = (.error fault, s) from hagrees] at h
    cases h
  | ok m =>
    rw [hm] at hagrees
    obtain ⟨root, hresult, hroot⟩ := hagrees
    have hentry : m.entry q = none := by
      refine PathMap.entry_move_eq_none hm hq (hnone.imp id fun hnone => ?_)
      rw [entry_paths, hnone, Option.map_none]
    rw [hresult]
    rw [← hroot, entry_paths] at hentry
    exact Option.map_eq_none_iff.mp hentry

end Store

end DesktopTerminal

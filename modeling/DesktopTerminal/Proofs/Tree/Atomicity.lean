import DesktopTerminal.Desktop
import DesktopTerminal.Proofs.Tree.Edit
import DesktopTerminal.Proofs.Tree.Export

/-!
# Failed operations

A failed operation leaves the tree as it was, but for one case. A move takes its source out before
it looks for the place of its target again. The check that the target is not inside the source tells
absolute from relative paths, and the look-up does not. So a source that is above its target, with
the other mark, is taken out together with the place of the target, and then it is lost.
-/
namespace DesktopTerminal

namespace Node

/-- The tree with what the path names taken out. -/
def without (root : Node) (p : Path) : Node :=
  match root.detach p with
  | .ok (_, rest) => rest
  | .error _ => root

/-- Moving the source takes the place of the target away. -/
structure LosesSource (root : Node) (source target : Path) : Prop where
  marks : source.absolute ≠ target.absolute
  named : source.segments ≠ []
  inside : source.segments <+: target.segments.dropLast
  stood : root.HoldsDirectory target.segments.dropLast
  fallen : ¬ (root.without source).HoldsDirectory target.segments.dropLast

/-! ## Places -/

/-- Whoever stands in a tree has a place there. -/
theorem holdsDirectory_dropLast {root n : Node} {q : List String} (hne : q ≠ [])
    (h : root.descend? q = some n) : root.HoldsDirectory q.dropLast := by
  rw [← List.dropLast_append_getLast hne, descend?_snoc] at h
  obtain ⟨parent, hparent, hc⟩ := Option.bind_eq_some_iff.mp h
  cases parent with
  | file => cases hc
  | directory name info children => exact holdsDirectory_iff.mpr ⟨name, info, children, hparent⟩

theorem exists_descend?_above {root n : Node} {p q : List String} (hpq : p <+: q)
    (h : root.descend? q = some n) : ∃ m, root.descend? p = some m := by
  obtain ⟨r, rfl⟩ := hpq
  rw [descend?_append] at h
  obtain ⟨m, hm, _⟩ := Option.bind_eq_some_iff.mp h
  exact ⟨m, hm⟩

/-! ## Taking out -/

theorem without_eq {root n rest : Node} {p : Path} (h : root.detach p = .ok (n, rest)) :
    root.without p = rest := by
  rw [without, h]

/-- What stands can be taken out, unless it is the root. -/
theorem exists_detach {root n : Node} {p : Path} (hne : p.segments ≠ [])
    (h : root.descend? p.segments = some n) :
    root.detach p = .ok (n, root.without p) := by
  obtain ⟨spot, hs⟩ := place_eq_ok_iff.mpr ⟨hne, holdsDirectory_dropLast hne h⟩
  have hf : find? spot.name spot.siblings = some n :=
    (isPlace_of_place hs).descend?_eq.symm.trans h
  have hd : root.detach p =
      .ok (n, root.update (withChildren (remove spot.name)) spot.directory.segments) := by
    simp only [detach, hs, bind, Except.bind, hf]
  rw [hd, without_eq hd]

/-- Directories that are not inside what is taken out stay. -/
theorem holdsDirectory_without {root : Node} {p : Path} {q : List String}
    (hpq : ¬ p.segments <+: q) (h : root.HoldsDirectory q) :
    (root.without p).HoldsDirectory q := by
  cases hd : root.detach p with
  | error fault =>
    rw [without, hd]
    exact h
  | ok r =>
    obtain ⟨n, rest⟩ := r
    obtain ⟨spot, hs, _, hr⟩ := detach_eq_ok hd
    rw [without_eq hd, hr]
    have hk := keepsName_withChildren (remove spot.name)
    by_cases hq : spot.directory.segments <+: q
    · obtain ⟨q, rfl⟩ := hq
      rw [HoldsDirectory, descend?_append] at h
      rw [HoldsDirectory, descend?_update_append hk]
      obtain ⟨name, info, hdir⟩ := hs.held
      rw [hdir] at h ⊢
      cases q with
      | nil => exact h
      | cons a q =>
        have hne : spot.name ≠ a := by
          rintro rfl
          rw [hs.segments, List.prefix_append_right_inj] at hpq
          exact hpq (List.cons_prefix_cons.mpr ⟨rfl, List.nil_prefix⟩)
        simp only [Option.bind_some, withChildren, descend?_cons, children] at h ⊢
        rw [find?_remove_ne hne]
        exact h
    · rw [HoldsDirectory, map_descend?_update hk (fun m g _ => kind_withChildren g m) hq]
      exact h

/-- Among distinct names nothing is left of what is taken out. -/
theorem descend?_without {root : Node} {p : Path} {q : List String}
    (hw : Everywhere List.Nodup root) (hne : p.segments ≠ []) (hpq : p.segments <+: q) :
    (root.without p).descend? q = none := by
  obtain ⟨q, rfl⟩ := hpq
  rw [descend?_append]
  cases hn : root.descend? p.segments with
  | none =>
    have hd : root.without p = root := by
      rw [without]
      cases hd : root.detach p with
      | error fault => rfl
      | ok r =>
        obtain ⟨m, rest⟩ := r
        obtain ⟨_, _, hm, _⟩ := detach_eq_ok hd
        cases hn.symm.trans hm
    rw [hd, hn]
    rfl
  | some n =>
    obtain ⟨spot, hs, _, hr⟩ := detach_eq_ok (exists_detach hne hn)
    obtain ⟨name, info, hdir⟩ := hs.held
    have hdistinct : (names spot.siblings).Nodup := (hw.descend? hdir).here
    have hnone : (root.without p).descend? p.segments = none := by
      rw [hr, hs.segments, descend?_update_append (keepsName_withChildren _), hdir]
      change (find? spot.name (remove spot.name spot.siblings)).bind _ = none
      rw [find?_remove_self hdistinct]
      rfl
    rw [hnone]
    rfl

/-- In a well-formed tree it is enough that the place of the target is inside the source. -/
theorem losesSource_iff {root : Node} {source target : Path} (hw : Everywhere List.Nodup root) :
    root.LosesSource source target ↔
      source.absolute ≠ target.absolute ∧ source.segments ≠ [] ∧
        source.segments <+: target.segments.dropLast ∧
        root.HoldsDirectory target.segments.dropLast := by
  constructor
  · intro h
    exact ⟨h.marks, h.named, h.inside, h.stood⟩
  · rintro ⟨hmarks, hne, hin, hstood⟩
    refine ⟨hmarks, hne, hin, hstood, ?_⟩
    rw [HoldsDirectory, descend?_without hw hne hin]
    simp

end Node

namespace Store

open Node

theorem exported_eq_iff {s t : Store} : s.exported = t.exported ↔ s.root = t.root :=
  ⟨toDocument_true_injective, fun h => congrArg (toDocument true) h⟩

theorem commit_of_error {s : Store} {result : Except Fault Node} {fault : Fault}
    (h : (s.commit result).1 = .error fault) : (s.commit result).2 = s := by
  cases result with
  | error fault => rfl
  | ok root => cases h

/-- A failed move has changed nothing, or it has lost its source. -/
theorem move_of_error {source target : Path} {s : Store} {fault : Fault}
    (h : (s.move source target).1 = .error fault) :
    (s.move source target).2 = s ∨ s.root.LosesSource source target := by
  rw [move] at h ⊢
  cases hm : s.root.startMove source target with
  | error fault => exact Or.inl rfl
  | ok r =>
    obtain ⟨n, rest⟩ := r
    obtain ⟨hs, ht, hst, hplace, hd⟩ := startMove_eq_ok hm
    obtain ⟨hne, hstood⟩ := place_eq_ok_iff.mp hplace
    obtain ⟨spot, hspot, _, _⟩ := detach_eq_ok hd
    have hrest : ¬ rest.HoldsDirectory target.segments.dropLast := by
      intro hrest
      obtain ⟨spot, hspot⟩ := place_eq_ok_iff.mpr ⟨hne, hrest⟩
      simp [hm, hspot, commit, Except.map] at h
    have hfallen : ¬ (s.root.without source).HoldsDirectory target.segments.dropLast := by
      rwa [without_eq hd]
    have hin : source.segments <+: target.segments.dropLast := by
      by_contra hin
      exact hfallen (holdsDirectory_without hin hstood)
    have hmarks : source.absolute ≠ target.absolute := by
      intro hmarks
      have hstarts : target.startsWith source = true :=
        Path.startsWith_iff.mpr ⟨hmarks.symm, hin.trans (List.dropLast_prefix _)⟩
      rw [hst] at hstarts
      cases hstarts
    exact Or.inr ⟨hmarks, hspot.ne_nil, hin, hstood, hfallen⟩

/-- A move that loses its source fails with the source taken out. -/
theorem move_of_losesSource {source target : Path} {s : Store}
    (h : s.root.LosesSource source target) :
    (∃ fault, (s.move source target).1 = .error fault) ∧
      (s.move source target).2.root = s.root.without source := by
  obtain ⟨hmarks, hne, hin, hstood, hfallen⟩ := h
  have htne : target.segments ≠ [] := by
    intro ht
    rw [ht] at hin
    exact hne (List.prefix_nil.mp hin)
  obtain ⟨_, _, _, hdir⟩ := holdsDirectory_iff.mp hstood
  obtain ⟨n, hn⟩ := exists_descend?_above hin hdir
  obtain ⟨spot, hspot⟩ := place_eq_ok_iff.mpr ⟨htne, hstood⟩
  have hguard : (source.isRoot || target.isRoot || target.startsWith source) = false := by
    simp [Path.isRoot, Path.startsWith, hne, htne, hmarks.symm]
  have hstart : s.root.startMove source target = .ok (n, s.root.without source) := by
    rw [startMove, if_neg (by simp [hguard]), lookup, hn, hspot]
    exact exists_detach hne hn
  cases hplace : (s.root.without source).place target with
  | error fault =>
    have hmove : s.move source target =
        (.error fault, { s with root := s.root.without source }) := by
      simp only [move, hstart, hplace, Except.map, commit]
    rw [hmove]
    exact ⟨⟨fault, rfl⟩, rfl⟩
  | ok spot => exact absurd (place_eq_ok_iff.mp ⟨spot, hplace⟩).2 hfallen

/-- A failed operation has changed nothing, or it is a move that has lost its source. -/
theorem apply_of_error {op : Operation} {now : Instant} {s : Store} {fault : Fault}
    (h : (s.apply op now).1 = .error fault) :
    (s.apply op now).2 = s ∨
      ∃ source target, op = .move source target ∧ s.root.LosesSource source target := by
  cases op with
  | write p content => exact .inl (commit_of_error h)
  | append p content => exact .inl (commit_of_error h)
  | makeDirectory p => exact .inl (commit_of_error h)
  | delete p => exact .inl (commit_of_error h)
  | copy source target => exact .inl (commit_of_error h)
  | changeMode p text => exact .inl (commit_of_error h)
  | move source target => exact (move_of_error h).imp_right fun hloses => ⟨source, target, rfl, hloses⟩

/-- A failed operation has changed the tree exactly if it is a move that loses its source. Among
distinct names that is any move with the place of its target inside its source and only one of the two
paths absolute. -/
theorem failed_apply_changes_iff (op : Operation) (now : Instant) (s : Store) :
    ((∃ fault, (s.apply op now).1 = .error fault) ∧ (s.apply op now).2.exported ≠ s.exported ↔
      ∃ source target, op = .move source target ∧ s.root.LosesSource source target) ∧
    (Everywhere List.Nodup s.root → ∀ source target, s.root.LosesSource source target ↔
      source.absolute ≠ target.absolute ∧ source.segments ≠ [] ∧
        source.segments <+: target.segments.dropLast ∧
        s.root.HoldsDirectory target.segments.dropLast) := by
  refine ⟨⟨?_, ?_⟩, fun hw _ _ => losesSource_iff hw⟩
  · rintro ⟨⟨fault, herror⟩, hchanged⟩
    refine (apply_of_error herror).resolve_left fun hsame => ?_
    exact hchanged (congrArg exported hsame)
  · rintro ⟨source, target, rfl, hloses⟩
    obtain ⟨herror, hroot⟩ := move_of_losesSource hloses
    refine ⟨herror, fun hsame => ?_⟩
    have heq : s.root.without source = s.root := hroot.symm.trans (exported_eq_iff.mp hsame)
    apply hloses.fallen
    rw [heq]
    exact hloses.stood

/-- In the tree of a new desktop names are distinct, so moving `/home` to `home/user/x` loses
`/home`. -/
theorem home_lost_among_distinct_names :
    let s := Desktop.newStore Config.standard ⟨0, 0⟩
    let source : Path := ⟨true, ["home"]⟩
    let target : Path := ⟨false, ["home", "user", "x"]⟩
    Everywhere List.Nodup s.root ∧ s.root.LosesSource source target ∧
      (∃ fault, (s.apply (.move source target) ⟨1, 0⟩).1 = .error fault) ∧
      (s.apply (.move source target) ⟨1, 0⟩).2.exported ≠ s.exported := by
  intro s source target
  obtain ⟨hchanges, hloses⟩ := failed_apply_changes_iff (.move source target) ⟨1, 0⟩ s
  have hw : Everywhere List.Nodup s.root := by decide
  have hin : source.segments <+: target.segments.dropLast := ⟨["user"], rfl⟩
  have hlost : s.root.LosesSource source target :=
    (hloses hw source target).mpr ⟨by decide, by decide, hin, rfl⟩
  exact ⟨hw, hlost, hchanges.mpr ⟨source, target, rfl, hlost⟩⟩

/-- Moving `/home` to `home/user/x` takes `/home` out and fails. -/
theorem move_home_into_itself_loses_home :
    let s := Desktop.newStore Config.standard ⟨0, 0⟩
    let result := s.move ⟨true, ["home"]⟩ ⟨false, ["home", "user", "x"]⟩
    result.1 = .error (.notFound ⟨false, ["home", "user"]⟩) ∧
      result.2.kind ⟨true, ["home"]⟩ = .error (.notFound ⟨true, ["home"]⟩) ∧
      s.kind ⟨true, ["home"]⟩ = .ok .directory ∧ result.2.exported ≠ s.exported := by
  intro s result
  refine ⟨rfl, rfl, rfl, fun hsame => ?_⟩
  have hroot : result.2.root = s.root := exported_eq_iff.mp hsame
  have hcount := congrArg (fun n : Node => n.children.length) hroot
  revert hcount
  decide

end Store

end DesktopTerminal

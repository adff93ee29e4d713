import DesktopTerminal.Proofs.Tree.Edit
import DesktopTerminal.Proofs.Tree.PathMap

/-!
# Trees as path maps

A tree is seen as the map of its paths. Each change of a node is a change of its map; distinct names
among siblings are needed where a node is taken out. The map is finite, and a tree with distinct
names is determined by its map and the name of its root.
-/
namespace DesktopTerminal

namespace Node

/-- What a path map holds for the node. -/
def item : Node → Item
  | .file _ info content => .file info content
  | .directory _ info _ => .directory info

/-- The tree as a path map. -/
def paths (root : Node) : PathMap where
  entry p := (root.descend? p).map item
  order p := ((root.descend? p).map fun n => names n.children).getD []

theorem entry_paths (root : Node) (p : List String) :
    root.paths.entry p = (root.descend? p).map item := rfl

/-- In every directory the names are distinct. -/
abbrev WellFormed (root : Node) : Prop := Everywhere List.Nodup root

/-! ## Changes of a node -/

theorem paths_below {root n : Node} {p : List String} (h : root.descend? p = some n) :
    root.paths.below p = n.paths := by
  ext1
  all_goals
    funext q
    simp only [PathMap.below, paths, descend?_append, h, Option.bind_some]

/-- A change at the end of a path is a graft there. -/
theorem paths_update {f : Node → Node} (hf : KeepsName f) {root n : Node} {p : List String}
    (h : root.descend? p = some n) : (root.update f p).paths = root.paths.graft p (f n).paths := by
  ext1
  · funext q
    by_cases hp : p <+: q
    · obtain ⟨q, rfl⟩ := hp
      simp [PathMap.graft, paths, descend?_update_append hf, h]
    · simp only [PathMap.graft, paths, if_neg hp]
      refine map_descend?_update hf (fun m g _ => ?_) hp root
      cases m <;> rfl
  · funext q
    by_cases hp : p <+: q
    · obtain ⟨q, rfl⟩ := hp
      simp [PathMap.graft, paths, descend?_update_append hf, h]
    · simp only [PathMap.graft, paths, if_neg hp]
      congr 1
      refine map_descend?_update hf (fun m g hg => ?_) hp root
      cases m with
      | file => rfl
      | directory => exact hg

@[simp] theorem paths_rename (name : String) (n : Node) : (n.rename name).paths = n.paths := by
  ext1
  all_goals
    funext q
    cases q with
    | nil => cases n <;> rfl
    | cons a q => simp [paths]

theorem paths_withInfo (f : Info → Info) (n : Node) :
    (n.withInfo f).paths = n.paths.set [] (n.item.withInfo f) := by
  ext1
  all_goals
    funext q
    cases q with
    | nil => cases n <;> rfl
    | cons a q => simp [paths, PathMap.set]

theorem paths_withContent (f : String → String) (name : String) (info : Info) (content : String) :
    ((Node.file name info content).withContent f).paths =
      (Node.file name info content).paths.set [] (.file info (f content)) := by
  ext1
  all_goals
    funext q
    cases q <;> rfl

/-- Putting a child into a directory is a graft under its name. -/
theorem paths_put (child : Node) (name : String) (info : Info) (siblings : List Node) :
    ((Node.directory name info siblings).withChildren (put child)).paths =
      ((Node.directory name info siblings).paths.graft [child.name] child.paths).enlist []
        child.name := by
  ext1
  all_goals
    funext q
    cases q with
    | nil =>
      simp [paths, PathMap.graft, PathMap.enlist, descend?, withChildren, names_put, children, item]
    | cons a q =>
      by_cases ha : child.name = a
      · subst ha
        simp [paths, PathMap.graft, PathMap.enlist, descend?_cons, withChildren, children,
          find?_put_self]
      · simp [paths, PathMap.graft, PathMap.enlist, descend?_cons, withChildren, children,
          find?_put_ne ha, ha]

/-- Taking a child out of a directory leaves nothing under its name, if no other child bears it. -/
theorem paths_remove {siblings : List Node} (hd : (names siblings).Nodup) (child name : String)
    (info : Info) :
    ((Node.directory name info siblings).withChildren (remove child)).paths =
      ((Node.directory name info siblings).paths.graft [child] PathMap.empty).delist [] child := by
  ext1
  all_goals
    funext q
    cases q with
    | nil => simp [paths, PathMap.graft, PathMap.delist, descend?, withChildren, names_remove,
        children, item]
    | cons a q =>
      by_cases ha : child = a
      · subst ha
        simp [paths, PathMap.graft, PathMap.delist, PathMap.empty, descend?_cons, withChildren,
          children, find?_remove_self hd]
      · simp [paths, PathMap.graft, PathMap.delist, descend?_cons, withChildren, children,
          find?_remove_ne ha, ha]

theorem paths_of_no_children {n : Node} (h : n.children = []) :
    n.paths = PathMap.empty.set [] n.item := by
  ext1
  all_goals
    funext q
    cases q with
    | nil => simp [paths, PathMap.set, PathMap.empty, descend?, h, names]
    | cons a q => simp [paths, PathMap.set, PathMap.empty, descend?_cons, h, find?]

/-! ## Changes of a tree -/

/-- Nothing is under a path at which there is nothing. -/
theorem graft_empty_paths {root : Node} {p : List String} (h : root.descend? p = none) :
    root.paths.graft p PathMap.empty = root.paths := by
  ext1
  all_goals
    funext q
    by_cases hp : p <+: q
    · obtain ⟨q, rfl⟩ := hp
      simp [PathMap.graft, PathMap.empty, paths, descend?_append, h]
    · simp [PathMap.graft, hp]

theorem paths_update_withInfo (f : Info → Info) {root n : Node} {p : List String}
    (h : root.descend? p = some n) :
    (root.update (withInfo f) p).paths = root.paths.set p (n.item.withInfo f) := by
  rw [paths_update (keepsName_withInfo f) h, paths_withInfo, PathMap.graft_set, ← paths_below h,
    PathMap.graft_below]

theorem paths_update_withContent (f : String → String) {root : Node} {p : List String}
    {name : String} {info : Info} {content : String}
    (h : root.descend? p = some (.file name info content)) :
    (root.update (withContent f) p).paths = root.paths.set p (.file info (f content)) := by
  rw [paths_update (keepsName_withContent f) h, paths_withContent, PathMap.graft_set,
    ← paths_below h, PathMap.graft_below]

section Spot

variable {root : Node} {p : Path} {spot : Place} (h : IsPlace root p spot)
include h

theorem paths_attach (child : Node) :
    (root.attach child spot).paths =
      root.paths.attach p.segments spot.directory.segments spot.name child.paths := by
  obtain ⟨name, info, hd⟩ := h.held
  rw [attach, paths_update (keepsName_withChildren _) hd, paths_put, name_rename, paths_rename,
    PathMap.graft_enlist, ← paths_below hd, PathMap.graft_graft_below, ← h.segments]
  rfl

/-- A new node without children is an entry at its path and a name in its directory. -/
theorem paths_attach_leaf (hf : find? spot.name spot.siblings = none) (leaf : Node)
    (hc : leaf.children = []) :
    (root.attach leaf spot).paths =
      (root.paths.set p.segments leaf.item).enlist spot.directory.segments spot.name := by
  rw [paths_attach h, PathMap.attach, paths_of_no_children hc, PathMap.graft_set,
    graft_empty_paths (h.descend?_eq.trans hf)]

theorem paths_detached (hw : root.WellFormed) :
    (root.update (withChildren (remove spot.name)) spot.directory.segments).paths =
      root.paths.detach p.segments spot.directory.segments spot.name := by
  obtain ⟨name, info, hd⟩ := h.held
  have hn : (names spot.siblings).Nodup := (hw.descend? hd).here
  rw [paths_update (keepsName_withChildren _) hd, paths_remove hn, PathMap.graft_delist,
    ← paths_below hd, PathMap.graft_graft_below, ← h.segments]
  rfl

theorem entry_eq_find? :
    root.paths.entry p.segments = (find? spot.name spot.siblings).map item := by
  rw [← h.descend?_eq]
  rfl

end Spot

theorem place_paths (root : Node) (k : List String) :
    root.paths.place k =
      (root.place ⟨true, k⟩).map fun spot => (spot.directory.segments, spot.name) := by
  rw [PathMap.place, place, Path.split?]
  cases k.getLast? with
  | none => rfl
  | some name =>
    simp only [paths, Option.map_some]
    cases root.descend? k.dropLast with
    | none => rfl
    | some n => cases n <;> rfl

/-! ## The map of a well-formed tree -/

theorem finite_paths (root : Node) : {p | root.paths.entry p ≠ none}.Finite := by
  induction root using induct with
  | step n ih =>
    have hchildren : (⋃ c ∈ {c | c ∈ n.children},
        List.cons c.name '' {p | c.paths.entry p ≠ none}).Finite :=
      Set.Finite.biUnion (List.finite_toSet n.children) fun c hc => (ih c hc).image _
    refine ((Set.finite_singleton []).union hchildren).subset fun p hp => ?_
    cases p with
    | nil => exact Or.inl rfl
    | cons name p =>
      change ((find? name n.children).bind (descend? p)).map item ≠ none at hp
      cases hc : find? name n.children with
      | none => simp [hc] at hp
      | some c =>
        rw [hc] at hp
        obtain rfl := find?_name hc
        exact Or.inr (Set.mem_biUnion (mem_of_find? hc) ⟨p, hp, rfl⟩)

theorem proper_paths {root : Node} (hd : root.kind = .directory) (hw : root.WellFormed) :
    root.paths.Proper where
  finite := finite_paths root
  root := by
    cases root with
    | file => cases hd
    | directory name info children => exact ⟨info, rfl⟩
  parent := by
    intro p name h
    rw [entry_paths, descend?_snoc] at h
    rw [entry_paths]
    cases hp : root.descend? p with
    | none => simp [hp] at h
    | some n =>
      cases n with
      | file => simp [hp, child?, children, find?] at h
      | directory name info children => exact ⟨info, rfl⟩
  mem_order := by
    intro p name
    rw [entry_paths, descend?_snoc]
    change name ∈ ((root.descend? p).map fun n => names n.children).getD [] ↔ _
    cases root.descend? p with
    | none => simp
    | some n =>
      change name ∈ names n.children ↔ ((find? name n.children).map item) ≠ none
      rw [← not_iff_not, ← find?_eq_none_iff]
      simp
  nodup_order := by
    intro p
    change (((root.descend? p).map fun n => names n.children).getD []).Nodup
    cases hp : root.descend? p with
    | none => exact List.nodup_nil
    | some n => exact (hw.descend? hp).here

/-- Two lists with the same names are one if nodes of the same name are. -/
theorem eq_of_names_eq {ms ns : List Node} (hn : names ms = names ns)
    (h : ∀ m ∈ ms, ∀ n ∈ ns, m.name = n.name → m = n) : ms = ns := by
  induction ms generalizing ns with
  | nil => exact (List.map_eq_nil_iff.mp hn.symm).symm
  | cons m ms ih =>
    cases ns with
    | nil => cases hn
    | cons n ns =>
      obtain ⟨hm, hn⟩ := List.cons.inj hn
      rw [h m List.mem_cons_self n List.mem_cons_self hm,
        ih hn fun m hm n hn => h m (List.mem_cons_of_mem _ hm) n (List.mem_cons_of_mem _ hn)]

/-- A well-formed tree is determined by its map and the name of its root. -/
theorem eq_of_paths_eq {m n : Node} (hm : m.WellFormed) (hn : n.WellFormed)
    (hname : m.name = n.name) (h : m.paths = n.paths) : m = n := by
  induction m using induct generalizing n with
  | step m ih =>
    have hitem : m.item = n.item :=
      Option.some.inj (congrFun (congrArg PathMap.entry h) [])
    have hnames : names m.children = names n.children :=
      congrFun (congrArg PathMap.order h) []
    have hchildren : m.children = n.children := by
      refine eq_of_names_eq hnames fun c hc d hd hcd => ?_
      refine ih c hc (hm.inside c hc) (hn.inside d hd) hcd ?_
      have hmc : m.descend? [c.name] = some c := by
        rw [descend?_cons, find?_of_mem hm.here hc]
        rfl
      have hnd : n.descend? [c.name] = some d := by
        rw [hcd, descend?_cons, find?_of_mem hn.here hd]
        rfl
      rw [← paths_below hmc, ← paths_below hnd, h]
    cases m with
    | file a i content =>
      cases n with
      | file b j content' =>
        obtain ⟨rfl, rfl⟩ := Item.file.inj hitem
        obtain rfl : a = b := hname
        rfl
      | directory => cases hitem
    | directory a i ms =>
      cases n with
      | file => cases hitem
      | directory b j ns =>
        obtain rfl := Item.directory.inj hitem
        obtain rfl : a = b := hname
        obtain rfl : ms = ns := hchildren
        rfl

end Node

end DesktopTerminal

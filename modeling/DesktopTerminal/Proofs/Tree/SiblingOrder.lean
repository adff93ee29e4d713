import DesktopTerminal.Proofs.Tree.PathView
import Mathlib.Data.List.Forall2

/-!
# The order of siblings

Two trees are the same but for the order of siblings if one becomes the other by letting the children
of single directories change places. Where names are distinct, that is so as soon as the same stands
at every path.
-/
namespace DesktopTerminal.Node

/-- The second tree is the first with siblings in another order, in any of its directories. -/
inductive Reordered : Node → Node → Prop
  | refl (n : Node) : Reordered n n
  | trans {l m n : Node} : Reordered l m → Reordered m n → Reordered l n
  | siblings (name : String) (info : Info) {ms ns : List Node} : ms.Perm ns →
    Reordered (.directory name info ms) (.directory name info ns)
  | inside (name : String) (info : Info) (front back : List Node) {m n : Node} : Reordered m n →
    Reordered (.directory name info (front ++ m :: back)) (.directory name info (front ++ n :: back))

/-- All children may be reordered inside. -/
theorem reordered_children (name : String) (info : Info) {ms ns : List Node}
    (h : List.Forall₂ Reordered ms ns) (front : List Node) :
    Reordered (.directory name info (front ++ ms)) (.directory name info (front ++ ns)) := by
  induction h generalizing front with
  | nil => exact .refl _
  | @cons m n ms ns hmn _ ih =>
    have hfirst : Reordered (.directory name info (front ++ m :: ms))
        (.directory name info (front ++ n :: ms)) := .inside name info front ms hmn
    have hlater := ih (front ++ [n])
    rw [List.append_assoc, List.append_assoc] at hlater
    exact hfirst.trans hlater

/-- If every node of the first list has a namesake in the second, and the second has no other names,
then the namesakes are the second list in another order. -/
theorem perm_map_namesake {ms ns : List Node} (hms : (names ms).Nodup) (hns : (names ns).Nodup)
    {namesake : Node → Node} (hfind : ∀ c ∈ ms, find? c.name ns = some (namesake c))
    (hnames : ∀ d ∈ ns, d.name ∈ names ms) : (ms.map namesake).Perm ns := by
  have hsame : names (ms.map namesake) = names ms := by
    rw [names, names, List.map_map]
    exact List.map_congr_left fun c hc => find?_name (hfind c hc)
  have hdistinct : (names (ms.map namesake)).Nodup := hsame ▸ hms
  refine (List.perm_ext_iff_of_nodup (.of_map _ hdistinct) (.of_map _ hns)).mpr fun d => ?_
  constructor
  · intro hd
    obtain ⟨c, hc, rfl⟩ := List.mem_map.mp hd
    exact mem_of_find? (hfind c hc)
  · intro hd
    obtain ⟨c, hc, hname⟩ := List.mem_map.mp (hnames d hd)
    have hfound : find? c.name ns = some d := hname ▸ find?_of_mem hns hd
    exact List.mem_map.mpr ⟨c, hc, Option.some.inj ((hfind c hc).symm.trans hfound)⟩

/-- The same stands at every path of the two trees. -/
def SameEntries (m n : Node) : Prop := ∀ p, m.paths.entry p = n.paths.entry p

theorem SameEntries.symm {m n : Node} (h : SameEntries m n) : SameEntries n m := fun p => (h p).symm

/-- A child has a namesake in the other tree, with the same entries. -/
theorem SameEntries.namesake {m n c : Node} (h : SameEntries m n) (hm : (names m.children).Nodup)
    (hc : c ∈ m.children) : ∃ d, find? c.name n.children = some d ∧ SameEntries c d := by
  have hfind : m.descend? [c.name] = some c := by
    rw [descend?_cons, find?_of_mem hm hc]
    rfl
  have hentry : n.paths.entry [c.name] = some c.item := by
    rw [← h [c.name], entry_paths, hfind]
    rfl
  rw [entry_paths] at hentry
  obtain ⟨d, hd, _⟩ := Option.map_eq_some_iff.mp hentry
  refine ⟨d, ?_, fun q => ?_⟩
  · rw [descend?_cons] at hd
    obtain ⟨e, he, hed⟩ := Option.bind_eq_some_iff.mp hd
    obtain rfl : e = d := Option.some.inj hed
    exact he
  · have hcq : m.paths.entry ([c.name] ++ q) = c.paths.entry q :=
      congrFun (congrArg PathMap.entry (paths_below hfind)) q
    have hdq : n.paths.entry ([c.name] ++ q) = d.paths.entry q :=
      congrFun (congrArg PathMap.entry (paths_below hd)) q
    rw [← hcq, ← hdq, h]

/-- Where names are distinct, trees with the same entries differ in the order of siblings only. -/
theorem reordered_of_sameEntries {m n : Node} (hm : m.WellFormed) (hn : n.WellFormed)
    (hname : m.name = n.name) (h : SameEntries m n) : Reordered m n := by
  induction m using induct generalizing n with
  | step m ih =>
    have hitem : m.item = n.item := Option.some.inj (h [])
    cases m with
    | file a i content =>
      cases n with
      | file b j content' =>
        obtain ⟨rfl, rfl⟩ := Item.file.inj hitem
        obtain rfl : a = b := hname
        exact .refl _
      | directory => cases hitem
    | directory a i ms =>
      cases n with
      | file => cases hitem
      | directory b j ns =>
        obtain rfl := Item.directory.inj hitem
        obtain rfl : a = b := hname
        -- the children of the first tree turn into their namesakes, and these change places
        have hpartner : ∀ c ∈ ms, ∃ d, find? c.name ns = some d ∧ SameEntries c d :=
          fun c hc => h.namesake hm.here hc
        have hnames : ∀ d ∈ ns, d.name ∈ names ms := by
          intro d hd
          obtain ⟨c, hfind, _⟩ := h.symm.namesake hn.here hd
          exact mem_names_of_find? hfind
        let namesake (c : Node) : Node := (find? c.name ns).getD c
        have hfind : ∀ c ∈ ms, find? c.name ns = some (namesake c) := by
          intro c hc
          obtain ⟨d, hd, _⟩ := hpartner c hc
          simp only [namesake, hd, Option.getD_some]
        have hinside : List.Forall₂ Reordered ms (ms.map namesake) := by
          rw [List.forall₂_map_right_iff, List.forall₂_same]
          intro c hc
          obtain ⟨d, hd, hcd⟩ := hpartner c hc
          obtain rfl : namesake c = d := Option.some.inj ((hfind c hc).symm.trans hd)
          exact ih c hc (hm.inside c hc) (hn.inside _ (mem_of_find? hd)) (find?_name hd).symm hcd
        have hperm : (ms.map namesake).Perm ns := perm_map_namesake hm.here hn.here hfind hnames
        exact (reordered_children a i hinside []).trans (.siblings a i hperm)

end DesktopTerminal.Node

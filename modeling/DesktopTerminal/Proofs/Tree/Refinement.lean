import DesktopTerminal.Desktop
import DesktopTerminal.Proofs.Tree.PathView

/-!
# The store as an engine of path maps

Each operation of the store does to the map of its tree what the operation of the same name does to
maps, with the same fault where it fails. A tree with distinct names among siblings keeps them.
-/
namespace DesktopTerminal

namespace Node

/-! ## Operations on trees -/

section Operations

variable (root : Node) (k source target : List String) (owner : Identity) (now : Instant)

theorem writeWith_paths (f : String → String) (content : String) :
    root.paths.writeWith f k content owner now =
      (root.writeWith f ⟨true, k⟩ content owner now).map paths := by
  rw [PathMap.writeWith, writeWith, place_paths]
  cases h : root.place ⟨true, k⟩ with
  | error fault => rfl
  | ok spot =>
    have hs := isPlace_of_place h
    have hd := hs.descend?_eq
    simp only [Except.map, bind, Except.bind, entry_eq_find? hs]
    cases hf : find? spot.name spot.siblings with
    | none =>
      simp only [Option.map_none, paths_attach_leaf hs hf (newFile ..) rfl]
      rfl
    | some n =>
      rw [hf] at hd
      cases n with
      | file name info old => simp only [Option.map_some, item, paths_update_withContent f hd]
      | directory name info children => rfl

theorem makeDirectory_paths :
    root.paths.makeDirectory k owner now =
      (root.makeDirectory ⟨true, k⟩ owner now).map paths := by
  rw [PathMap.makeDirectory, makeDirectory, place_paths]
  cases k with
  | nil => rfl
  | cons a k =>
    rw [if_neg (List.cons_ne_nil a k), if_neg (by simp [Path.isRoot])]
    cases h : root.place ⟨true, a :: k⟩ with
    | error fault => rfl
    | ok spot =>
      have hs := isPlace_of_place h
      simp only [Except.map, bind, Except.bind, entry_eq_find? hs]
      cases hf : find? spot.name spot.siblings with
      | none =>
        simp only [Option.map_none, paths_attach_leaf hs hf (newDirectory ..) rfl]
        rfl
      | some n => rfl

theorem delete_paths (hw : root.WellFormed) :
    root.paths.delete k = (root.delete ⟨true, k⟩).map paths := by
  rw [PathMap.delete, delete, place_paths]
  cases k with
  | nil => rfl
  | cons a k =>
    rw [if_neg (List.cons_ne_nil a k), if_neg (by simp [Path.isRoot]), detach]
    cases h : root.place ⟨true, a :: k⟩ with
    | error fault => rfl
    | ok spot =>
      have hs := isPlace_of_place h
      simp only [Except.map, bind, Except.bind, entry_eq_find? hs]
      cases hf : find? spot.name spot.siblings with
      | none => rfl
      | some n => simp only [Option.map_some, paths_detached hs hw]

theorem changeMode_paths (text : String) :
    root.paths.changeMode k text = (root.changeMode ⟨true, k⟩ text).map paths := by
  rw [PathMap.changeMode, changeMode, lookup]
  rw [entry_paths]
  cases h : root.descend? k with
  | none => rfl
  | some n =>
    simp only [Option.map_some, bind, Except.bind]
    cases ModeChange.parse? text with
    | none => rfl
    | some change => exact congrArg Except.ok (paths_update_withInfo _ h).symm

theorem guard_copy :
    (Path.isRoot ⟨true, target⟩ || Path.startsWith ⟨true, target⟩ ⟨true, source⟩) = true ↔
      target = [] ∨ source <+: target := by
  simp [Path.isRoot_iff, Path.startsWith_iff]

theorem copy_paths :
    root.paths.copy source target now =
      (root.copy ⟨true, source⟩ ⟨true, target⟩ now).map paths := by
  rw [PathMap.copy, copy]
  by_cases hg : target = [] ∨ source <+: target
  · rw [if_pos hg, if_pos ((guard_copy source target).mpr hg)]
    rfl
  · rw [if_neg hg, if_neg (fun h => hg ((guard_copy source target).mp h)), lookup, place_paths,
      entry_paths]
    cases hn : root.descend? source with
    | none => rfl
    | some n =>
      simp only [Option.map_some, bind, Except.bind]
      cases ht : root.place ⟨true, target⟩ with
      | error fault => rfl
      | ok spot =>
        refine congrArg Except.ok ?_
        rw [paths_attach (isPlace_of_place ht), paths_withInfo, ← paths_below hn]

theorem guard_move :
    (Path.isRoot ⟨true, source⟩ || Path.isRoot ⟨true, target⟩ ||
      Path.startsWith ⟨true, target⟩ ⟨true, source⟩) = true ↔
      source = [] ∨ target = [] ∨ source <+: target := by
  simp [Path.isRoot_iff, Path.startsWith_iff, or_assoc]

end Operations

end Node

namespace Store

/-- A call has come to what a path map came to: to the same fault with nothing changed, or to the
tree of that map. -/
def Agrees (s : Store) (result : Except Fault Unit × Store) : Except Fault PathMap → Prop
  | .error fault => result = (.error fault, s)
  | .ok m => ∃ root, result = (.ok (), { s with root }) ∧ root.paths = m

theorem agrees_commit {s : Store} {result : Except Fault Node} {expected : Except Fault PathMap}
    (h : expected = result.map Node.paths) : s.Agrees (s.commit result) expected := by
  subst h
  cases result with
  | error fault => rfl
  | ok root => exact ⟨root, rfl, rfl⟩

/-- The target of a move keeps its place when the source is taken out, for it is not under the
source. -/
theorem place_detached {source target : List String} {root rest : Node} {here there : Node.Place}
    (hst : ¬ source <+: target)
    (hrest : rest.paths = root.paths.detach source here.directory.segments here.name)
    (ht : root.place ⟨true, target⟩ = .ok there) :
    ∃ spot, rest.place ⟨true, target⟩ = .ok spot ∧
      spot.directory.segments = there.directory.segments ∧ spot.name = there.name := by
  have hp : ¬ source <+: target.dropLast := fun hp => hst (hp.trans (List.dropLast_prefix target))
  have hplace : rest.paths.place target = root.paths.place target := by
    rw [hrest]
    simp [PathMap.place, PathMap.detach, PathMap.delist, PathMap.graft, hp]
  rw [Node.place_paths, Node.place_paths, ht] at hplace
  cases h : rest.place ⟨true, target⟩ with
  | error fault => simp [h, Except.map] at hplace
  | ok spot =>
    rw [h] at hplace
    obtain ⟨hd, hn⟩ := Prod.mk.inj (Except.ok.inj hplace)
    exact ⟨spot, rfl, hd, hn⟩

theorem agrees_move (source target : List String) {s : Store} (hw : s.root.WellFormed) :
    s.Agrees (s.move ⟨true, source⟩ ⟨true, target⟩) (s.root.paths.move source target) := by
  rw [move, Node.startMove, PathMap.move]
  by_cases hg : source = [] ∨ target = [] ∨ source <+: target
  · rw [if_pos hg, if_pos ((Node.guard_move source target).mpr hg)]
    rfl
  rw [if_neg hg, if_neg (fun h => hg ((Node.guard_move source target).mp h)), Node.lookup,
    Node.place_paths, Node.place_paths, Node.detach, Node.entry_paths]
  cases hn : s.root.descend? source with
  | none => rfl
  | some n =>
    cases ht : s.root.place ⟨true, target⟩ with
    | error fault => rfl
    | ok there =>
      cases hs : s.root.place ⟨true, source⟩ with
      | error fault => rfl
      | ok here =>
        have hplace := Node.isPlace_of_place hs
        have hfind : Node.find? here.name here.siblings = some n :=
          hplace.descend?_eq.symm.trans hn
        have hst : ¬ source <+: target := fun h => hg (Or.inr (Or.inr h))
        have hrest := Node.paths_detached hplace hw
        obtain ⟨spot, hspot, hd, hname⟩ := place_detached hst hrest ht
        simp only [bind, Except.bind, Except.map, Option.map_some, hfind, hspot]
        refine ⟨_, rfl, ?_⟩
        rw [Node.paths_attach (Node.isPlace_of_place hspot), hrest, hd, hname,
          ← Node.paths_below hn]

/-- Each operation on absolute paths does to the map of a well-formed tree what it does to maps. -/
theorem agrees_apply (op : Operation) (now : Instant) {s : Store} (hw : s.root.WellFormed)
    (hop : ∀ p ∈ op.paths, p.absolute = true) :
    s.Agrees (s.apply op now) (s.root.paths.perform op s.identity now) := by
  have habs : ∀ {p : Path}, p ∈ op.paths → p = ⟨true, p.segments⟩ := by
    intro p hp
    rw [← hop p hp]
  cases op with
  | write p content =>
    rw [habs List.mem_cons_self]
    exact agrees_commit (Node.writeWith_paths ..)
  | append p content =>
    rw [habs List.mem_cons_self]
    exact agrees_commit (Node.writeWith_paths ..)
  | makeDirectory p =>
    rw [habs List.mem_cons_self]
    exact agrees_commit (Node.makeDirectory_paths ..)
  | delete p =>
    rw [habs List.mem_cons_self]
    exact agrees_commit (Node.delete_paths _ _ hw)
  | copy source target =>
    rw [habs List.mem_cons_self, habs (List.mem_cons_of_mem _ List.mem_cons_self)]
    exact agrees_commit (Node.copy_paths ..)
  | move source target =>
    rw [habs List.mem_cons_self, habs (List.mem_cons_of_mem _ List.mem_cons_self)]
    exact agrees_move _ _ hw
  | changeMode p text =>
    rw [habs List.mem_cons_self]
    exact agrees_commit (Node.changeMode_paths ..)

/-- What a call has come to is what it leaves; a fault leaves what there was. -/
theorem Agrees.paths_eq {s : Store} {result : Except Fault Unit × Store}
    {expected : Except Fault PathMap} (h : s.Agrees result expected) :
    result.2.root.paths = expected.toOption.getD s.root.paths ∧ result.2.identity = s.identity := by
  cases expected with
  | error fault =>
    rw [Agrees] at h
    rw [h]
    exact ⟨rfl, rfl⟩
  | ok m =>
    obtain ⟨root, hresult, hroot⟩ := h
    rw [hresult]
    exact ⟨hroot, rfl⟩

theorem wellFormed_apply (op : Operation) (now : Instant) {s : Store} (hw : s.root.WellFormed) :
    (s.apply op now).2.root.WellFormed := by
  have hnames : Node.Everywhere (fun ns => ns.Nodup ∧ ∀ name ∈ ns, True) s.root :=
    hw.imp fun ns hn => ⟨hn, fun _ _ => trivial⟩
  have h := (edited_apply op now s).everywhere (Node.stable_nodup fun _ => True)
    (fun _ _ _ _ => trivial) hnames
  exact h.imp fun ns hn => hn.1

/-- A run on absolute paths does to the map of a well-formed tree what the same run does to maps. -/
theorem paths_run (ops : List (Operation × Instant)) {s : Store} (hw : s.root.WellFormed)
    (hops : ∀ op ∈ ops, ∀ p ∈ op.1.paths, p.absolute = true) :
    (run ops s).root.paths = s.root.paths.run s.identity ops := by
  induction ops generalizing s with
  | nil => rfl
  | cons op rest ih =>
    obtain ⟨op, now⟩ := op
    obtain ⟨hpaths, hidentity⟩ := (agrees_apply op now hw (hops _ List.mem_cons_self)).paths_eq
    rw [run, ih (wellFormed_apply op now hw) fun op hop => hops op (List.mem_cons_of_mem _ hop),
      PathMap.run, hidentity, hpaths]

/-- At a path that an operation does not touch there stands the same after it, whatever it has come
to. -/
theorem entry_apply (op : Operation) (now : Instant) {s : Store} (hw : s.root.WellFormed)
    (hop : ∀ p ∈ op.paths, p.absolute = true) {q : List String} (hq : ¬ op.Touches q) :
    (s.apply op now).2.root.paths.entry q = s.root.paths.entry q := by
  obtain ⟨hpaths, -⟩ := (agrees_apply op now hw hop).paths_eq
  rw [hpaths]
  cases hm : s.root.paths.perform op s.identity now with
  | error fault => rfl
  | ok m => exact PathMap.entry_perform hm hq

/-- The store is an engine of path maps: its tree is no more and no less than a finite map, each
operation does to it what the operation on maps does, and the tree stays well-formed. At paths that an
operation does not touch there stands what stood there. A run of operations does to the map what the
same run does to maps. -/
theorem apply_refines_perform (op : Operation) (now : Instant) {s : Store}
    (hd : s.root.kind = .directory) (hw : s.root.WellFormed)
    (hop : ∀ p ∈ op.paths, p.absolute = true) :
    s.root.paths.Proper ∧
      (∀ root, root.WellFormed → root.name = s.root.name → root.paths = s.root.paths →
        root = s.root) ∧
      s.Agrees (s.apply op now) (s.root.paths.perform op s.identity now) ∧
      (s.apply op now).2.root.WellFormed ∧ (s.apply op now).2.root.kind = .directory ∧
      (∀ q, ¬ op.Touches q →
        (s.apply op now).2.root.paths.entry q = s.root.paths.entry q) ∧
      ∀ ops : List (Operation × Instant), (∀ o ∈ ops, ∀ p ∈ o.1.paths, p.absolute = true) →
        (run ops s).root.paths = s.root.paths.run s.identity ops :=
  ⟨Node.proper_paths hd hw, fun _ hr hname h => Node.eq_of_paths_eq hr hw hname h,
    agrees_apply op now hw hop, wellFormed_apply op now hw,
    (edited_apply op now s).kind_eq.trans hd, fun _ hq => entry_apply op now hw hop hq,
    fun ops hops => paths_run ops hw hops⟩

/-- A directory can be copied over one above it. -/
theorem agrees_copy_over_ancestor :
    let s := Desktop.newStore Config.standard ⟨0, 0⟩
    let source : Path := ⟨true, ["home", "user", "Documents"]⟩
    let target : Path := ⟨true, ["home"]⟩
    s.root.WellFormed ∧ (s.copy source target ⟨1, 0⟩).1 = .ok () ∧
      s.Agrees (s.copy source target ⟨1, 0⟩)
        (s.root.paths.copy source.segments target.segments ⟨1, 0⟩) := by
  intro s source target
  have hw : s.root.WellFormed := by decide
  have hop : ∀ p ∈ (Operation.copy source target).paths, p.absolute = true := by decide
  obtain ⟨_, _, h, _⟩ := apply_refines_perform (.copy source target) ⟨1, 0⟩ rfl hw hop
  exact ⟨hw, rfl, h⟩

end Store

end DesktopTerminal

import DesktopTerminal.Proofs.Tree.Operation
import DesktopTerminal.Proofs.Tree.Place
import Mathlib.Data.List.Nodup

/-!
# Edits

Whatever an operation of the store makes of a tree, it makes by four edits: of the content of a
file, of the data of a node, by taking a child out of a directory and by putting one into it. The
children of what is put in are none or those of a node that the tree had. An invariant of the tree
has to be shown for the edits only.
-/
namespace DesktopTerminal

namespace Node

/-- The children of a node are none, or they are those of a node of the tree. -/
def MadeFrom (root child : Node) : Prop :=
  child.children = [] ∨ ∃ q n, root.descend? q = some n ∧ child.children = n.children

/-- The second tree comes from the first by edits, and only at the paths `ps` are children put in or
taken out. -/
inductive Edited (ps : List Path) (root : Node) : Node → Prop
  | same : Edited ps root root
  | content {n : Node} (f : String → String) (q : List String) :
    Edited ps root n → Edited ps root (n.update (withContent f) q)
  | info {n : Node} (f : Info → Info) (q : List String) :
    Edited ps root n → Edited ps root (n.update (withInfo f) q)
  | remove {n : Node} {p : Path} {spot : Place} : Edited ps root n → p ∈ ps → IsPlace n p spot →
    Edited ps root (n.update (withChildren (remove spot.name)) spot.directory.segments)
  | put {n child : Node} {p : Path} {spot : Place} : Edited ps root n → p ∈ ps → IsPlace n p spot →
    MadeFrom root child → Edited ps root (n.attach child spot)

/-! ## What edits keep -/

/-- The names in a directory may be fewer or one legible name more. -/
structure Stable (P : List String → Prop) (legible : String → Prop) : Prop where
  nil : P []
  erase : ∀ {ns : List String} (name : String), P ns → P (ns.erase name)
  snoc : ∀ {ns : List String} {name : String}, P ns → name ∉ ns → legible name → P (ns ++ [name])

/-- Distinct names stay distinct, and a property of each name stays one if new names have it. -/
theorem stable_nodup (legible : String → Prop) :
    Stable (fun ns => ns.Nodup ∧ ∀ name ∈ ns, legible name) legible where
  nil := ⟨List.nodup_nil, fun _ h => absurd h List.not_mem_nil⟩
  erase name h := ⟨h.1.erase name, fun n hn => h.2 n (List.mem_of_mem_erase hn)⟩
  snoc h hnew hlegible := by
    refine ⟨?_, fun n hn => ?_⟩
    · rw [← List.concat_eq_append]
      exact h.1.concat hnew
    · rcases List.mem_append.mp hn with hn | hn
      · exact h.2 n hn
      · rwa [List.mem_singleton.mp hn]

namespace Edited

variable {ps : List Path} {root n : Node}

theorem name_eq (h : Edited ps root n) : n.name = root.name := by
  induction h with
  | same => rfl
  | content f q _ ih => exact (keepsName_update (keepsName_withContent f) q _).trans ih
  | info f q _ ih => exact (keepsName_update (keepsName_withInfo f) q _).trans ih
  | remove _ _ _ ih => exact (keepsName_update (keepsName_withChildren _) _ _).trans ih
  | put _ _ _ _ ih => exact (keepsName_update (keepsName_withChildren _) _ _).trans ih

theorem kind_eq (h : Edited ps root n) : n.kind = root.kind := by
  induction h with
  | same => rfl
  | content f q _ ih => exact (kind_update (kind_withContent f) q _).trans ih
  | info f q _ ih => exact (kind_update (kind_withInfo f) q _).trans ih
  | remove _ _ _ ih => exact (kind_update (kind_withChildren _) _ _).trans ih
  | put _ _ _ _ ih => exact (kind_update (kind_withChildren _) _ _).trans ih

/-- A stable property of the names in every directory is kept if the paths have legible segments. -/
theorem everywhere {P : List String → Prop} {legible : String → Prop} (hP : Stable P legible)
    (hps : ∀ p ∈ ps, ∀ name ∈ p.segments, legible name) (hr : Everywhere P root)
    (h : Edited ps root n) : Everywhere P n := by
  induction h with
  | same => exact hr
  | content f q _ ih =>
    exact ih.update (keepsName_withContent f) fun m hm =>
      (ih.descend? hm).congr (children_withContent f m)
  | info f q _ ih =>
    exact ih.update (keepsName_withInfo f) fun m hm =>
      (ih.descend? hm).congr (children_withInfo f m)
  | @remove _ _ spot _ _ hs ih =>
    obtain ⟨name, info, hd⟩ := hs.held
    refine ih.update (keepsName_withChildren _) fun m hm => ?_
    obtain rfl := Option.some.inj (hd.symm.trans hm)
    have hdir := ih.descend? hd
    refine .intro ?_ fun c hc => hdir.inside c (mem_of_mem_remove hc)
    change P (names (Node.remove spot.name spot.siblings))
    rw [names_remove]
    exact hP.erase _ hdir.here
  | @put _ child p spot _ hp hs hc ih =>
    obtain ⟨name, info, hd⟩ := hs.held
    have hchild : Everywhere P (child.rename spot.name) := by
      rcases hc with hc | ⟨q, m, hm, hc⟩
      · exact .of_no_children hP.nil ((children_rename _ _).trans hc)
      · exact (hr.descend? hm).congr ((children_rename _ _).trans hc)
    have hlegible : legible spot.name :=
      hps p hp _ (by rw [hs.segments]; exact List.mem_append_right _ List.mem_cons_self)
    refine ih.update (keepsName_withChildren _) fun m hm => ?_
    obtain rfl := Option.some.inj (hd.symm.trans hm)
    have hdir := ih.descend? hd
    refine .intro ?_ fun c hc => ?_
    · change P (names (Node.put (child.rename spot.name) spot.siblings))
      rw [names_put, name_rename]
      split
      · exact hdir.here
      · exact hP.snoc hdir.here ‹_› hlegible
    · rcases mem_put hc with rfl | hc
      · exact hchild
      · exact hdir.inside c hc

end Edited

/-! ## Operations are edits -/

section Operations

variable {root root' : Node} {ps : List Path}

theorem edited_writeWith {f : String → String} {p : Path} {content : String} {owner : Identity}
    {now : Instant} (hp : p ∈ ps) (h : root.writeWith f p content owner now = .ok root') :
    Edited ps root root' := by
  obtain ⟨spot, hs, h⟩ := exists_ok_of_bind_eq_ok h
  split at h
  · cases h
  · obtain rfl := Except.ok.inj h
    exact .content f p.segments .same
  · obtain rfl := Except.ok.inj h
    exact .put .same hp (isPlace_of_place hs) (Or.inl rfl)

theorem edited_makeDirectory {p : Path} {owner : Identity} {now : Instant} (hp : p ∈ ps)
    (h : root.makeDirectory p owner now = .ok root') : Edited ps root root' := by
  rw [makeDirectory] at h
  split at h
  · cases h
  · obtain ⟨spot, hs, h⟩ := exists_ok_of_bind_eq_ok h
    split at h
    · cases h
    · obtain rfl := Except.ok.inj h
      exact .put .same hp (isPlace_of_place hs) (Or.inl rfl)

/-- Detaching takes out the node at the path. -/
theorem detach_eq_ok {p : Path} {n rest : Node} (h : root.detach p = .ok (n, rest)) :
    ∃ spot, IsPlace root p spot ∧ root.descend? p.segments = some n ∧
      rest = root.update (withChildren (Node.remove spot.name)) spot.directory.segments := by
  obtain ⟨spot, hs, h⟩ := exists_ok_of_bind_eq_ok h
  have hp := isPlace_of_place hs
  split at h
  · cases h
  · rename_i m hf
    obtain ⟨rfl, rfl⟩ := Prod.mk.inj (Except.ok.inj h)
    exact ⟨spot, hp, hp.descend?_eq.trans hf, rfl⟩

theorem edited_delete {p : Path} (hp : p ∈ ps) (h : root.delete p = .ok root') :
    Edited ps root root' := by
  rw [delete] at h
  split at h
  · cases h
  · cases hd : root.detach p with
    | error fault => simp [hd, Except.map] at h
    | ok r =>
      obtain ⟨spot, hs, _, hr⟩ := detach_eq_ok hd
      rw [hd] at h
      obtain rfl := Except.ok.inj h
      change Edited ps root r.2
      rw [hr]
      exact .remove .same hp hs

theorem lookup_eq_ok {p : Path} {n : Node} (h : root.lookup p = .ok n) :
    root.descend? p.segments = some n := by
  rw [lookup] at h
  split at h
  · rename_i m hm
    obtain rfl := Except.ok.inj h
    exact hm
  · cases h

theorem lookup_eq_ok_iff {p : Path} {n : Node} :
    root.lookup p = .ok n ↔ root.descend? p.segments = some n := by
  refine ⟨lookup_eq_ok, fun h => ?_⟩
  rw [lookup, h]

/-- A successful copy has put the node at the source, created now, at a target outside. -/
theorem copy_eq_ok {source target : Path} {now : Instant}
    (h : root.copy source target now = .ok root') :
    ∃ n spot, root.descend? source.segments = some n ∧ IsPlace root target spot ∧
      target.startsWith source = false ∧
      root' = root.attach (n.withInfo fun info => { info with created := now }) spot := by
  rw [copy] at h
  split at h
  · cases h
  · rename_i hg
    obtain ⟨n, hn, h⟩ := exists_ok_of_bind_eq_ok h
    obtain ⟨spot, hs, h⟩ := exists_ok_of_bind_eq_ok h
    simp only [Bool.or_eq_true, not_or, Bool.not_eq_true] at hg
    exact ⟨n, spot, lookup_eq_ok hn, isPlace_of_place hs, hg.2, (Except.ok.inj h).symm⟩

theorem edited_copy {source target : Path} {now : Instant} (hp : target ∈ ps)
    (h : root.copy source target now = .ok root') : Edited ps root root' := by
  obtain ⟨n, spot, hn, hs, _, rfl⟩ := copy_eq_ok h
  exact .put .same hp hs (Or.inr ⟨_, n, hn, children_withInfo _ n⟩)

/-- A move is under way once both ends have been found and the source has been taken out. -/
theorem startMove_eq_ok {source target : Path} {n rest : Node}
    (h : root.startMove source target = .ok (n, rest)) :
    source.isRoot = false ∧ target.isRoot = false ∧ target.startsWith source = false ∧
      (∃ spot, root.place target = .ok spot) ∧ root.detach source = .ok (n, rest) := by
  rw [startMove] at h
  split at h
  · cases h
  · rename_i hg
    obtain ⟨m, _, h⟩ := exists_ok_of_bind_eq_ok h
    obtain ⟨spot, hs, h⟩ := exists_ok_of_bind_eq_ok h
    simp only [Bool.or_eq_true, not_or, Bool.not_eq_true] at hg
    exact ⟨hg.1.1, hg.1.2, hg.2, ⟨spot, hs⟩, h⟩

theorem edited_changeMode {p : Path} {text : String} (h : root.changeMode p text = .ok root') :
    Edited ps root root' := by
  obtain ⟨n, _, h⟩ := exists_ok_of_bind_eq_ok h
  split at h
  · cases h
  · obtain rfl := Except.ok.inj h
    exact .info _ _ .same

end Operations

end Node

namespace Store

theorem edited_commit {ps : List Path} {s : Store} {result : Except Fault Node}
    (h : ∀ root, result = .ok root → Node.Edited ps s.root root) :
    Node.Edited ps s.root (s.commit result).2.root := by
  cases result with
  | error fault => exact .same
  | ok root => exact h root rfl

theorem edited_move (source target : Path) (s : Store) :
    Node.Edited [source, target] s.root (s.move source target).2.root := by
  rw [move]
  cases h : s.root.startMove source target with
  | error fault => exact .same
  | ok r =>
    obtain ⟨n, rest⟩ := r
    obtain ⟨_, _, _, _, hd⟩ := Node.startMove_eq_ok h
    obtain ⟨spot, hs, hn, hr⟩ := Node.detach_eq_ok hd
    have hrest : Node.Edited [source, target] s.root rest := by
      rw [hr]
      exact .remove .same List.mem_cons_self hs
    change Node.Edited _ _ (commit _ ((rest.place target).map _)).2.root
    cases ht : rest.place target with
    | error fault => exact hrest
    | ok spot' =>
      have hmem : target ∈ [source, target] := by simp
      exact .put hrest hmem (Node.isPlace_of_place ht) (Or.inr ⟨_, n, hn, rfl⟩)

/-- The tree after an operation, whether it failed or not, comes from the tree before by edits. -/
theorem edited_apply (op : Operation) (now : Instant) (s : Store) :
    Node.Edited op.paths s.root (s.apply op now).2.root := by
  have hp : ∀ {p : Path} {ps : List Path}, p ∈ p :: ps := List.mem_cons_self
  cases op with
  | write p content => exact edited_commit fun _ h => Node.edited_writeWith hp h
  | append p content => exact edited_commit fun _ h => Node.edited_writeWith hp h
  | makeDirectory p => exact edited_commit fun _ h => Node.edited_makeDirectory hp h
  | delete p => exact edited_commit fun _ h => Node.edited_delete hp h
  | copy source target =>
    exact edited_commit fun _ h => Node.edited_copy (List.mem_cons_of_mem _ hp) h
  | move source target => exact edited_move source target s
  | changeMode p text => exact edited_commit fun _ h => Node.edited_changeMode h

end Store

end DesktopTerminal

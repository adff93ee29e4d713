import DesktopTerminal.Proofs.Tree.Siblings

/-!
# Descent

What a change at the end of a path does to the look-up by path. A change that keeps the names of
nodes is seen at its path and under it; at any other path a node keeps its kind, its data, its
content and the names of its children. A property of the names in single directories is kept by a
change that keeps it at its own place.
-/
namespace DesktopTerminal.Node

/-- Induction over a tree: what holds of a node may rest on its children. -/
@[elab_as_elim]
theorem induct {motive : Node → Prop} (step : ∀ n, (∀ c ∈ n.children, motive c) → motive n)
    (n : Node) : motive n := by
  refine @Node.rec motive (fun ns => ∀ c ∈ ns, motive c)
    (fun name info content => ?_) (fun name info children ih => ?_) ?_ (fun n ns hn hns => ?_) n
  · exact step _ fun c hc => absurd hc List.not_mem_nil
  · exact step _ ih
  · exact fun c hc => absurd hc List.not_mem_nil
  · intro c hc
    rcases List.mem_cons.mp hc with rfl | hc
    · exact hn
    · exact hns c hc

/-! ## Small facts about nodes -/

@[simp] theorem name_rename (name : String) (n : Node) : (n.rename name).name = name := by
  cases n <;> rfl

@[simp] theorem children_rename (name : String) (n : Node) :
    (n.rename name).children = n.children := by
  cases n <;> rfl

@[simp] theorem name_withInfo (f : Info → Info) (n : Node) : (n.withInfo f).name = n.name := by
  cases n <;> rfl

@[simp] theorem children_withInfo (f : Info → Info) (n : Node) :
    (n.withInfo f).children = n.children := by
  cases n <;> rfl

@[simp] theorem name_withContent (f : String → String) (n : Node) :
    (n.withContent f).name = n.name := by
  cases n <;> rfl

@[simp] theorem children_withContent (f : String → String) (n : Node) :
    (n.withContent f).children = n.children := by
  cases n <;> rfl

@[simp] theorem name_withChildren (f : List Node → List Node) (n : Node) :
    (n.withChildren f).name = n.name := by
  cases n <;> rfl

/-- A file stays without children when one of them is changed. -/
@[simp] theorem children_withChildren_change (name : String) (f : Node → Node) (n : Node) :
    (n.withChildren (change name f)).children = change name f n.children := by
  cases n <;> rfl

theorem keepsName_withInfo (f : Info → Info) : KeepsName (withInfo f) := name_withInfo f

theorem keepsName_withContent (f : String → String) : KeepsName (withContent f) :=
  name_withContent f

theorem keepsName_withChildren (f : List Node → List Node) : KeepsName (withChildren f) :=
  name_withChildren f

theorem keepsName_update {f : Node → Node} (hf : KeepsName f) (p : List String) :
    KeepsName (update f p) := by
  intro n
  cases p with
  | nil => exact hf n
  | cons name p => exact name_withChildren _ n

@[simp] theorem kind_withInfo (f : Info → Info) (n : Node) : (n.withInfo f).kind = n.kind := by
  cases n <;> rfl

@[simp] theorem kind_withContent (f : String → String) (n : Node) :
    (n.withContent f).kind = n.kind := by
  cases n <;> rfl

@[simp] theorem kind_withChildren (f : List Node → List Node) (n : Node) :
    (n.withChildren f).kind = n.kind := by
  cases n <;> rfl

theorem kind_update {f : Node → Node} (hf : ∀ n, (f n).kind = n.kind) (p : List String)
    (n : Node) : (n.update f p).kind = n.kind := by
  cases p with
  | nil => exact hf n
  | cons name p => exact kind_withChildren _ n

/-! ## Descending -/

theorem descend?_cons (name : String) (p : List String) (n : Node) :
    n.descend? (name :: p) = (find? name n.children).bind (descend? p) := rfl

theorem descend?_append (p q : List String) (n : Node) :
    n.descend? (p ++ q) = (n.descend? p).bind (descend? q) := by
  induction p generalizing n with
  | nil => rfl
  | cons name p ih =>
    rw [List.cons_append, descend?_cons, descend?_cons, Option.bind_assoc]
    congr 1
    funext m
    exact ih m

theorem descend?_snoc (p : List String) (name : String) (n : Node) :
    n.descend? (p ++ [name]) = (n.descend? p).bind (child? name) := by
  rw [descend?_append]
  congr 1
  funext m
  rw [descend?_cons, child?]
  cases find? name m.children <;> rfl

/-- A node that is not the root bears the last name of its path. -/
theorem name_of_descend? {root n : Node} {front : List String} {name : String}
    (h : root.descend? (front ++ [name]) = some n) : n.name = name := by
  rw [descend?_snoc] at h
  obtain ⟨_, _, hc⟩ := Option.bind_eq_some_iff.mp h
  exact find?_name hc

@[simp] theorem descend?_rename_cons (name a : String) (q : List String) (n : Node) :
    (n.rename name).descend? (a :: q) = n.descend? (a :: q) := by
  rw [descend?_cons, descend?_cons, children_rename]

@[simp] theorem descend?_withInfo_cons (f : Info → Info) (a : String) (q : List String) (n : Node) :
    (n.withInfo f).descend? (a :: q) = n.descend? (a :: q) := by
  rw [descend?_cons, descend?_cons, children_withInfo]

/-! ## Changing at the end of a path -/

section Update

variable {f : Node → Node} (hf : KeepsName f)
include hf

/-- The change is seen at its path and under it. -/
theorem descend?_update_append (p q : List String) (n : Node) :
    (n.update f p).descend? (p ++ q) = (n.descend? p).bind fun m => (f m).descend? q := by
  induction p generalizing n with
  | nil => rfl
  | cons name p ih =>
    rw [List.cons_append, update, descend?_cons, children_withChildren_change,
      find?_change_self (keepsName_update hf p), descend?_cons]
    cases find? name n.children with
    | none => rfl
    | some c => exact ih c

theorem descend?_update_self (p : List String) (n : Node) :
    (n.update f p).descend? p = (n.descend? p).map f := by
  have h := descend?_update_append hf p [] n
  rw [List.append_nil] at h
  rw [h]
  cases n.descend? p <;> rfl

/-- What is not at the path of a change or under it looks the same to whoever sees nothing of the
children but their names. -/
theorem map_descend?_update {α : Type} {face : Node → α}
    (hface : ∀ (n : Node) (g : List Node → List Node), names (g n.children) = names n.children →
      face (n.withChildren g) = face n)
    {p q : List String} (hpq : ¬ p <+: q) (n : Node) :
    ((n.update f p).descend? q).map face = (n.descend? q).map face := by
  induction p generalizing n q with
  | nil => exact absurd List.nil_prefix hpq
  | cons name p ih =>
    have hn := keepsName_update hf p
    cases q with
    | nil =>
      change some (face (n.withChildren (change name (update f p)))) = some (face n)
      rw [hface n _ (names_change hn name n.children)]
    | cons other q =>
      rw [update, descend?_cons, descend?_cons, children_withChildren_change]
      by_cases he : name = other
      · subst he
        rw [find?_change_self hn]
        cases find? name n.children with
        | none => rfl
        | some c => exact ih (fun h => hpq (List.cons_prefix_cons.mpr ⟨rfl, h⟩)) c
      · rw [find?_change_ne hn he]

end Update

/-! ## Properties of the names in every directory -/

/-- The names in every directory of the tree have a property. -/
inductive Everywhere (P : List String → Prop) : Node → Prop
  | intro {n : Node} : P (names n.children) → (∀ c ∈ n.children, Everywhere P c) → Everywhere P n

namespace Everywhere

variable {P Q : List String → Prop} {n : Node}

theorem here (h : Everywhere P n) : P (names n.children) := by
  cases h with
  | intro hp _ => exact hp

theorem inside (h : Everywhere P n) : ∀ c ∈ n.children, Everywhere P c := by
  cases h with
  | intro _ hc => exact hc

theorem imp (hPQ : ∀ ns, P ns → Q ns) (h : Everywhere P n) : Everywhere Q n := by
  induction h with
  | intro hp _ ih => exact .intro (hPQ _ hp) ih

/-- Nodes with the same children share the property. -/
theorem congr {m : Node} (hc : m.children = n.children) (h : Everywhere P n) : Everywhere P m :=
  .intro (hc ▸ h.here) (hc ▸ h.inside)

theorem of_no_children (hP : P []) (hc : n.children = []) : Everywhere P n :=
  .intro (hc ▸ hP) (by rw [hc]; intro c h; cases h)

theorem descend? {p : List String} {m : Node} (h : Everywhere P n) (hm : n.descend? p = some m) :
    Everywhere P m := by
  induction p generalizing n with
  | nil =>
    obtain rfl := Option.some.inj hm
    exact h
  | cons name p ih =>
    rw [descend?_cons] at hm
    obtain ⟨c, hc, hm⟩ := Option.bind_eq_some_iff.mp hm
    exact ih (h.inside c (mem_of_find? hc)) hm

/-- Only the place of the change has to be looked at. -/
theorem update {f : Node → Node} (hf : KeepsName f) {p : List String} (h : Everywhere P n)
    (hm : ∀ m, n.descend? p = some m → Everywhere P (f m)) : Everywhere P (n.update f p) := by
  induction p generalizing n with
  | nil => exact hm n rfl
  | cons name p ih =>
    have hn := keepsName_update hf p
    rw [Node.update]
    refine .intro ?_ ?_
    · rw [children_withChildren_change, names_change hn]
      exact h.here
    · rw [children_withChildren_change]
      intro c hc
      rcases mem_change hc with hc | ⟨c, hfind, rfl⟩
      · exact h.inside c hc
      · refine ih (h.inside c (mem_of_find? hfind)) fun m hd => hm m ?_
        rw [descend?_cons, hfind]
        exact hd

section Decide

variable [DecidablePred P]

mutual

def decide : (n : Node) → Decidable (Everywhere P n)
  | .file .. => decidable_of_iff (P []) ⟨fun h => .of_no_children h rfl, fun h => h.here⟩
  | .directory _ _ children =>
    have := decideAll children
    decidable_of_iff (P (names children) ∧ ∀ c ∈ children, Everywhere P c)
      ⟨fun h => .intro h.1 h.2, fun h => ⟨h.here, h.inside⟩⟩

def decideAll : (ns : List Node) → Decidable (∀ c ∈ ns, Everywhere P c)
  | [] => .isTrue fun _ hc => absurd hc List.not_mem_nil
  | n :: ns =>
    have := decide n
    have := decideAll ns
    decidable_of_iff (Everywhere P n ∧ ∀ c ∈ ns, Everywhere P c) List.forall_mem_cons.symm

end

instance (n : Node) : Decidable (Everywhere P n) := decide n

end Decide

end Everywhere

end DesktopTerminal.Node

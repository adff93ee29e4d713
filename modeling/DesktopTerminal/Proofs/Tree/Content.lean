import DesktopTerminal.Proofs.Tree.Descent

/-!
# Contents

A tree with other contents in its files has the same shape: the same nodes are found at the same
paths, and putting, removing and changing nodes goes on in the same way.
-/
namespace DesktopTerminal.Node

mutual

/-- The tree with the content of every file changed. -/
def mapContent (f : String → String) : Node → Node
  | .file name info content => .file name info (f content)
  | .directory name info children => .directory name info (mapContents f children)

def mapContents (f : String → String) : List Node → List Node
  | [] => []
  | n :: ns => n.mapContent f :: mapContents f ns

end

/-- The tree with every file emptied. -/
abbrev bare (n : Node) : Node := n.mapContent fun _ => ""

theorem mapContents_eq_map (f : String → String) (ns : List Node) :
    mapContents f ns = ns.map (mapContent f) := by
  induction ns with
  | nil => rfl
  | cons n ns ih => rw [mapContents, ih, List.map_cons]

section MapContent

variable (f : String → String)

@[simp] theorem name_mapContent (n : Node) : (n.mapContent f).name = n.name := by
  cases n <;> rfl

@[simp] theorem kind_mapContent (n : Node) : (n.mapContent f).kind = n.kind := by
  cases n <;> rfl

@[simp] theorem children_mapContent (n : Node) :
    (n.mapContent f).children = n.children.map (mapContent f) := by
  cases n with
  | file => rfl
  | directory name info children => exact mapContents_eq_map f children

@[simp] theorem mapContent_rename (name : String) (n : Node) :
    (n.rename name).mapContent f = (n.mapContent f).rename name := by
  cases n <;> rfl

@[simp] theorem mapContent_withInfo (g : Info → Info) (n : Node) :
    (n.withInfo g).mapContent f = (n.mapContent f).withInfo g := by
  cases n <;> rfl

theorem mapContent_withChildren {g h : List Node → List Node}
    (hgh : ∀ ns, (g ns).map (mapContent f) = h (ns.map (mapContent f))) (n : Node) :
    (n.withChildren g).mapContent f = (n.mapContent f).withChildren h := by
  cases n with
  | file => rfl
  | directory name info children =>
    simp only [withChildren, mapContent, mapContents_eq_map, hgh]

end MapContent

theorem mapContent_mapContent (f g : String → String) (n : Node) :
    (n.mapContent f).mapContent g = n.mapContent (g ∘ f) := by
  induction n using induct with
  | step n ih =>
    cases n with
    | file => rfl
    | directory name info children =>
      simp only [mapContent, mapContents_eq_map, List.map_map]
      exact congrArg _ (List.map_congr_left ih)

theorem mapContent_id (n : Node) : n.mapContent id = n := by
  induction n using induct with
  | step n ih =>
    cases n with
    | file => rfl
    | directory name info children =>
      simp only [mapContent, mapContents_eq_map]
      exact congrArg _ ((List.map_congr_left ih).trans (List.map_id' children))

theorem bare_bare (n : Node) : n.bare.bare = n.bare := mapContent_mapContent _ _ n

/-! ## Siblings and paths -/

section Commute

variable {g h k : Node → Node} (hg : KeepsName g)
include hg

theorem find?_map (name : String) (ns : List Node) :
    find? name (ns.map g) = (find? name ns).map g := by
  induction ns with
  | nil => rfl
  | cons n ns ih =>
    rw [List.map_cons, find?, find?, hg n]
    split
    · rfl
    · exact ih

theorem map_put (child : Node) (ns : List Node) :
    (put child ns).map g = put (g child) (ns.map g) := by
  induction ns with
  | nil => rfl
  | cons n ns ih =>
    rw [List.map_cons, put, put, hg n, hg child]
    split
    · rfl
    · rw [List.map_cons, ih]

theorem map_remove (name : String) (ns : List Node) :
    (remove name ns).map g = remove name (ns.map g) := by
  induction ns with
  | nil => rfl
  | cons n ns ih =>
    rw [List.map_cons, remove, remove, hg n]
    split
    · rfl
    · rw [List.map_cons, ih]

theorem map_change (hk : ∀ n, g (h n) = k (g n)) (name : String) (ns : List Node) :
    (change name h ns).map g = change name k (ns.map g) := by
  induction ns with
  | nil => rfl
  | cons n ns ih =>
    rw [List.map_cons, change, change, hg n]
    split
    · rw [List.map_cons, hk]
    · rw [List.map_cons, ih]

end Commute

section Path

variable (f : String → String)

theorem descend?_mapContent (p : List String) (n : Node) :
    (n.mapContent f).descend? p = (n.descend? p).map (mapContent f) := by
  induction p generalizing n with
  | nil => rfl
  | cons name p ih =>
    rw [descend?_cons, descend?_cons, children_mapContent, find?_map (name_mapContent f)]
    cases find? name n.children with
    | none => rfl
    | some c => exact ih c

theorem mapContent_update {h k : Node → Node}
    (hk : ∀ n, (h n).mapContent f = k (n.mapContent f)) (p : List String) (n : Node) :
    (n.update h p).mapContent f = (n.mapContent f).update k p := by
  induction p generalizing n with
  | nil => exact hk n
  | cons name p ih =>
    exact mapContent_withChildren f (map_change (name_mapContent f) ih name) n

end Path

end DesktopTerminal.Node

import DesktopTerminal.Proofs.Permissions
import DesktopTerminal.Proofs.Tree.Content
import DesktopTerminal.Tree.Store

/-!
# What a document tells of its tree

The exported document tells everything of the tree. The outline tells everything but the contents of
the files.
-/
namespace DesktopTerminal

namespace Node

theorem toDocuments_eq_map (contents : Bool) (ns : List Node) :
    toDocuments contents ns = ns.map (toDocument contents) := by
  induction ns with
  | nil => rfl
  | cons n ns ih => rw [toDocuments, ih, List.map_cons]

theorem withoutContentsIn_eq_map (ds : List Document) :
    Document.withoutContentsIn ds = ds.map Document.withoutContents := by
  induction ds with
  | nil => rfl
  | cons d ds ih => rw [Document.withoutContentsIn, ih, List.map_cons]

/-- Leaving the contents out of the whole document gives the outline. -/
theorem withoutContents_toDocument (contents : Bool) (n : Node) :
    (n.toDocument contents).withoutContents = n.toDocument false := by
  induction n using induct with
  | step n ih =>
    cases n with
    | file => rfl
    | directory name info children =>
      have hchildren : (children.map (toDocument contents)).map Document.withoutContents =
          children.map (toDocument false) := by
        rw [List.map_map]
        exact List.map_congr_left ih
      simp only [toDocument, Document.withoutContents, Document.withoutContentsIn?,
        toDocuments_eq_map, withoutContentsIn_eq_map, hchildren]

/-- What a document shows of a content. -/
def seen (contents : Bool) (content : String) : String := if contents then content else ""

theorem toDocument_mapContent_seen (contents : Bool) (n : Node) :
    (n.mapContent (seen contents)).toDocument contents = n.toDocument contents := by
  induction n using induct with
  | step n ih =>
    cases n with
    | file => cases contents <;> rfl
    | directory name info children =>
      have hchildren : (children.map (mapContent (seen contents))).map (toDocument contents) =
          children.map (toDocument contents) := by
        rw [List.map_map]
        exact List.map_congr_left ih
      simp only [mapContent, toDocument, mapContents_eq_map, toDocuments_eq_map, hchildren]

/-- The fields of a document that come from the data of a node tell all of it. -/
theorem info_eq_of_fields {kind : Kind} {i j : Info}
    (hp : Permissions.render ⟨kind, i.mode⟩ = Permissions.render ⟨kind, j.mode⟩)
    (ho : i.owner = j.owner) (hg : i.group = j.group) (hc : i.created = j.created) : i = j := by
  obtain ⟨_, hm⟩ := Permissions.mk.inj (Permissions.render_injective hp)
  obtain ⟨mode, owner, group, created⟩ := i
  exact Info.mk.injEq .. ▸ ⟨hm, ho, hg, hc⟩

theorem map_eq_map_of_map_eq {α β γ : Type} {d : α → β} {g : α → γ} {ms ns : List α}
    (hdg : ∀ m ∈ ms, ∀ {n}, d m = d n → g m = g n) (h : ms.map d = ns.map d) :
    ms.map g = ns.map g := by
  induction ms generalizing ns with
  | nil => rw [List.map_eq_nil_iff.mp h.symm]
  | cons m ms ih =>
    cases ns with
    | nil => cases h
    | cons n ns =>
      obtain ⟨hm, hms⟩ := List.cons.inj h
      rw [List.map_cons, List.map_cons, hdg m List.mem_cons_self hm,
        ih (fun m hm => hdg m (List.mem_cons_of_mem _ hm)) hms]

/-- Nodes with the same document differ at most in what the document does not show. -/
theorem mapContent_seen_eq {contents : Bool} {m n : Node}
    (h : m.toDocument contents = n.toDocument contents) :
    m.mapContent (seen contents) = n.mapContent (seen contents) := by
  induction m using induct generalizing n with
  | step m ih =>
    cases m with
    | file a i content =>
      cases n with
      | file b j content' =>
        obtain ⟨rfl, _, hp, ho, hg, hc, hcontent, _⟩ := Document.mk.inj h
        obtain rfl := info_eq_of_fields hp ho hg hc
        cases contents with
        | false => rfl
        | true => rw [Option.some.inj hcontent]
      | directory => cases (Document.mk.inj h).2.1
    | directory a i ms =>
      cases n with
      | file => cases (Document.mk.inj h).2.1
      | directory b j ns =>
        obtain ⟨rfl, _, hp, ho, hg, hc, _, hchildren⟩ := Document.mk.inj h
        obtain rfl := info_eq_of_fields hp ho hg hc
        rw [mapContent, mapContent, mapContents_eq_map, mapContents_eq_map]
        refine congrArg _ (map_eq_map_of_map_eq ih ?_)
        rw [← toDocuments_eq_map, ← toDocuments_eq_map]
        exact Option.some.inj hchildren

theorem toDocument_true_injective {m n : Node} (h : m.toDocument true = n.toDocument true) :
    m = n := by
  have hseen := mapContent_seen_eq h
  change m.mapContent id = n.mapContent id at hseen
  rwa [mapContent_id, mapContent_id] at hseen

theorem toDocument_false_eq_iff {m n : Node} :
    m.toDocument false = n.toDocument false ↔ m.bare = n.bare := by
  refine ⟨mapContent_seen_eq, fun h => ?_⟩
  have hdoc := congrArg (toDocument false) h
  change (m.mapContent (seen false)).toDocument false =
    (n.mapContent (seen false)).toDocument false at hdoc
  rwa [toDocument_mapContent_seen, toDocument_mapContent_seen] at hdoc

end Node

end DesktopTerminal

import DesktopTerminal.Proofs.Tree.Restoration

/-!
# Which documents are accepted

A document is accepted exactly if each of its nodes passes a check that looks at that node and at the
names of its children. The tree it gives is exported as the same document with nothing missing and
nothing idle in it: a file has a content, a directory has children and no content.
-/
namespace DesktopTerminal

namespace Document

/-- The nodes of a document: the document, and the nodes of its children. -/
inductive IsNode : Document → Document → Prop
  | self (d : Document) : IsNode d d
  | child {c d e : Document} : c ∈ d.children.getD [] → IsNode e c → IsNode e d

/-- What a node of a document is checked for. -/
structure Checked (d : Document) : Prop where
  permissions : Permissions.Written d.kind d.permissions
  name : '/' ∉ d.name.toList
  file : d.kind = .file → d.children = none
  directory : d.kind = .directory →
    (∀ c ∈ d.children.getD [], c.name ≠ "") ∧ ((d.children.getD []).map Document.name).Nodup

theorem forall_isNode_iff {P : Document → Prop} {d : Document} :
    (∀ e, IsNode e d → P e) ↔ P d ∧ ∀ c ∈ d.children.getD [], ∀ e, IsNode e c → P e := by
  constructor
  · exact fun h => ⟨h d (.self d), fun c hc e he => h e (.child hc he)⟩
  · rintro ⟨hd, hchildren⟩ e he
    cases he with
    | self => exact hd
    | child hc he => exact hchildren _ hc e he

mutual

/-- The document with nothing missing in it, and without the contents of directories. -/
def filled : Document → Document
  | ⟨name, kind, permissions, owner, group, created, content, children⟩ =>
    match kind with
    | .file => ⟨name, .file, permissions, owner, group, created, some (content.getD ""), children⟩
    | .directory =>
      ⟨name, .directory, permissions, owner, group, created, none, some (filledIn? children)⟩

def filledIn? : Option (List Document) → List Document
  | none => []
  | some ds => filledIn ds

def filledIn : List Document → List Document
  | [] => []
  | d :: ds => d.filled :: filledIn ds

end

theorem filledIn?_eq_map (children : Option (List Document)) :
    filledIn? children = (children.getD []).map filled := by
  cases children with
  | none => rfl
  | some ds =>
    change filledIn ds = ds.map filled
    induction ds with
    | nil => rfl
    | cons d ds ih => rw [filledIn, ih, List.map_cons]

/-- A change of documents that keeps the count of each keeps the count of all. -/
theorem countIn_map {f : Document → Document} {ds : List Document}
    (h : ∀ d ∈ ds, (f d).count = d.count) : countIn (ds.map f) = countIn ds := by
  induction ds with
  | nil => rfl
  | cons d ds ih =>
    obtain ⟨hd, hds⟩ := List.forall_mem_cons.mp h
    rw [List.map_cons, countIn, countIn, hd, ih hds]

theorem count_withoutContents (d : Document) : d.withoutContents.count = d.count := by
  induction d using induct with
  | step d ih =>
    obtain ⟨name, kind, permissions, owner, group, created, content, children⟩ := d
    cases children with
    | none => rfl
    | some ds =>
      have hchildren : countIn (ds.map withoutContents) = countIn ds := countIn_map ih
      rw [withoutContents, withoutContentsIn?, Node.withoutContentsIn_eq_map, count, countIn?,
        hchildren]
      rfl

theorem count_filled (d : Document) : d.filled.count = d.count := by
  induction d using induct with
  | step d ih =>
    obtain ⟨name, kind, permissions, owner, group, created, content, children⟩ := d
    cases kind with
    | file => rfl
    | directory =>
      rw [filled, filledIn?_eq_map, count, countIn?, countIn_map ih]
      cases children <;> rfl

end Document

namespace Node

/-! ## Acceptance -/

section Fields

variable {name permissions owner group : String} {kind : Kind} {created : Instant}
  {content : Option String} {children : Option (List Document)} {n : Node}

/-- The checks that files and directories share. -/
theorem passed_of_ofDocument
    (h : ofDocument ⟨name, kind, permissions, owner, group, created, content, children⟩ = .ok n) :
    '/' ∉ name.toList ∧ ∃ mode, Permissions.parse? permissions = some ⟨kind, mode⟩ := by
  rw [ofDocument] at h
  split at h
  · cases h
  next p hp =>
    obtain ⟨read, mode⟩ := p
    split at h
    · cases h
    next hkind =>
      obtain rfl := not_not.mp hkind
      split at h
      · cases h
      next hslash => exact ⟨by simpa using hslash, mode, hp⟩

theorem ofDocument_file_eq_ok_iff :
    ofDocument ⟨name, .file, permissions, owner, group, created, content, children⟩ = .ok n ↔
      children = none ∧ '/' ∉ name.toList ∧ ∃ mode,
        Permissions.parse? permissions = some ⟨.file, mode⟩ ∧
          .file name ⟨mode, owner, group, created⟩ (content.getD "") = n := by
  constructor
  · intro h
    obtain ⟨hslash, mode, hp⟩ := passed_of_ofDocument h
    cases children with
    | some ds => simp [ofDocument, hp, hslash] at h
    | none => exact ⟨rfl, hslash, mode, hp, by simpa [ofDocument, hp, hslash] using h⟩
  · rintro ⟨rfl, hslash, mode, hp, rfl⟩
    simp [ofDocument, hp, hslash]

theorem ofDocument_directory_eq_ok_iff :
    ofDocument ⟨name, .directory, permissions, owner, group, created, content, children⟩ = .ok n ↔
      '/' ∉ name.toList ∧ ∃ mode, Permissions.parse? permissions = some ⟨.directory, mode⟩ ∧
        ∃ ns, ofDocuments name [] (children.getD []) = .ok ns ∧
          .directory name ⟨mode, owner, group, created⟩ ns = n := by
  have hchildren : ofDocuments? name children = ofDocuments name [] (children.getD []) := by
    cases children <;> rfl
  have hbody (mode : Mode) (hslash : '/' ∉ name.toList)
      (hp : Permissions.parse? permissions = some ⟨.directory, mode⟩) :
      ofDocument ⟨name, .directory, permissions, owner, group, created, content, children⟩ =
        (ofDocuments name [] (children.getD [])).bind fun ns =>
          .ok (.directory name ⟨mode, owner, group, created⟩ ns) := by
    simp [ofDocument, hp, hslash, ← hchildren, bind]
  constructor
  · intro h
    obtain ⟨hslash, mode, hp⟩ := passed_of_ofDocument h
    rw [hbody mode hslash hp] at h
    obtain ⟨ns, hns, h⟩ := exists_ok_of_bind_eq_ok h
    exact ⟨hslash, mode, hp, ns, hns, Except.ok.inj h⟩
  · rintro ⟨hslash, mode, hp, ns, hns, rfl⟩
    rw [hbody mode hslash hp, hns]
    rfl

end Fields

/-- Siblings are accepted if each of them is, and if each name is new when its turn comes. -/
theorem ofDocuments_eq_ok_iff {parent : String} {elder : List String} {ds : List Document}
    {ns : List Node} :
    ofDocuments parent elder ds = .ok ns ↔
      (∀ d ∈ ds, d.name ≠ "" ∧ d.name ∉ elder) ∧ (ds.map Document.name).Nodup ∧
        List.Forall₂ (fun d n => ofDocument d = .ok n) ds ns := by
  induction ds generalizing elder ns with
  | nil =>
    rw [ofDocuments, Except.ok.injEq, List.forall₂_nil_left_iff, eq_comm]
    simp
  | cons d ds ih =>
    rw [ofDocuments]
    constructor
    · intro h
      split at h
      · cases h
      next hd =>
        obtain ⟨n, hn, h⟩ := exists_ok_of_bind_eq_ok h
        obtain ⟨ns, hns, h⟩ := exists_ok_of_bind_eq_ok h
        obtain rfl := Except.ok.inj h
        obtain ⟨hnew, hnodup, hall⟩ := ih.mp hns
        have hrest : ∀ c ∈ ds, c.name ≠ "" ∧ c.name ∉ elder ∧ c.name ≠ d.name := by
          intro c hc
          simpa [not_or] using hnew c hc
        refine ⟨List.forall_mem_cons.mpr ⟨not_or.mp hd, fun c hc => ⟨(hrest c hc).1,
          (hrest c hc).2.1⟩⟩, List.nodup_cons.mpr ⟨fun hmem => ?_, hnodup⟩, .cons hn hall⟩
        obtain ⟨c, hc, hcd⟩ := List.mem_map.mp hmem
        exact (hrest c hc).2.2 hcd
    · rintro ⟨hnew, hnodup, hall⟩
      obtain ⟨hd, hrest⟩ := List.forall_mem_cons.mp hnew
      obtain ⟨hdnew, hnodup⟩ := List.nodup_cons.mp hnodup
      cases hall with
      | cons hn hall =>
        have hyounger : ∀ c ∈ ds, c.name ≠ "" ∧ c.name ∉ elder ++ [d.name] := by
          intro c hc
          refine ⟨(hrest c hc).1, fun hmem => ?_⟩
          rcases List.mem_append.mp hmem with hmem | hmem
          · exact (hrest c hc).2 hmem
          · exact hdnew (List.mem_singleton.mp hmem ▸ List.mem_map_of_mem hc)
        rw [if_neg (not_or.mpr hd), hn, ih.mpr ⟨hyounger, hnodup, hall⟩]
        rfl

theorem exists_forall₂ {α β : Type} {R : α → β → Prop} {as : List α} (h : ∀ a ∈ as, ∃ b, R a b) :
    ∃ bs, List.Forall₂ R as bs := by
  induction as with
  | nil => exact ⟨[], .nil⟩
  | cons a as ih =>
    obtain ⟨⟨b, hb⟩, hrest⟩ := List.forall_mem_cons.mp h
    obtain ⟨bs, hbs⟩ := ih hrest
    exact ⟨b :: bs, .cons hb hbs⟩

/-- One node is accepted if it passes its check and its children are accepted. -/
theorem exists_ofDocument_iff (d : Document) :
    (∃ n, ofDocument d = .ok n) ↔
      d.Checked ∧ ∀ c ∈ d.children.getD [], ∃ n, ofDocument c = .ok n := by
  obtain ⟨name, kind, permissions, owner, group, created, content, children⟩ := d
  cases kind with
  | file =>
    constructor
    · rintro ⟨n, h⟩
      obtain ⟨rfl, hslash, mode, hp, -⟩ := ofDocument_file_eq_ok_iff.mp h
      exact ⟨⟨Permissions.written_iff.mpr ⟨mode, hp⟩, hslash, fun _ => rfl, (nomatch ·)⟩,
        fun c hc => absurd hc List.not_mem_nil⟩
    · rintro ⟨h, -⟩
      obtain ⟨mode, hp⟩ := Permissions.written_iff.mp h.permissions
      exact ⟨_, ofDocument_file_eq_ok_iff.mpr ⟨h.file rfl, h.name, mode, hp, rfl⟩⟩
  | directory =>
    constructor
    · rintro ⟨n, h⟩
      obtain ⟨hslash, mode, hp, ns, hns, -⟩ := ofDocument_directory_eq_ok_iff.mp h
      obtain ⟨hnew, hnodup, hall⟩ := ofDocuments_eq_ok_iff.mp hns
      refine ⟨⟨Permissions.written_iff.mpr ⟨mode, hp⟩, hslash, (nomatch ·),
        fun _ => ⟨fun c hc => (hnew c hc).1, hnodup⟩⟩, fun c hc => ?_⟩
      obtain ⟨i, hi, rfl⟩ := List.getElem_of_mem hc
      exact ⟨_, hall.get hi (hall.length_eq ▸ hi)⟩
    · rintro ⟨h, hchildren⟩
      obtain ⟨mode, hp⟩ := Permissions.written_iff.mp h.permissions
      obtain ⟨hne, hnodup⟩ := h.directory rfl
      obtain ⟨ns, hall⟩ := exists_forall₂ hchildren
      have hns : ofDocuments name [] (children.getD []) = .ok ns :=
        ofDocuments_eq_ok_iff.mpr ⟨fun c hc => ⟨hne c hc, List.not_mem_nil⟩, hnodup, hall⟩
      exact ⟨_, ofDocument_directory_eq_ok_iff.mpr ⟨h.name, mode, hp, ns, hns, rfl⟩⟩

theorem exists_ofDocument_iff_forall (d : Document) :
    (∃ n, ofDocument d = .ok n) ↔ ∀ e, Document.IsNode e d → e.Checked := by
  induction d using Document.induct with
  | step d ih =>
    rw [exists_ofDocument_iff, Document.forall_isNode_iff]
    exact and_congr_right' (forall₂_congr ih)

/-! ## The normal form -/

/-- The tree of an accepted document tells all of it that is neither missing nor idle. -/
theorem toDocument_ofDocument {d : Document} {n : Node} (h : ofDocument d = .ok n) :
    n.toDocument true = d.filled := by
  induction d using Document.induct generalizing n with
  | step d ih =>
    obtain ⟨name, kind, permissions, owner, group, created, content, children⟩ := d
    cases kind with
    | file =>
      obtain ⟨rfl, -, mode, hp, rfl⟩ := ofDocument_file_eq_ok_iff.mp h
      rw [toDocument, Permissions.parse?_eq_some_iff.mp hp, Document.filled]
      rfl
    | directory =>
      obtain ⟨-, mode, hp, ns, hns, rfl⟩ := ofDocument_directory_eq_ok_iff.mp h
      have hall := (List.forall₂_and_left _ _).mpr ⟨ih, (ofDocuments_eq_ok_iff.mp hns).2.2⟩
      have heach : List.Forall₂ (fun d n => d.filled = n.toDocument true) (children.getD []) ns :=
        hall.imp fun d n hdn => (hdn.1 hdn.2).symm
      have hdocuments : (children.getD []).map Document.filled = ns.map (toDocument true) := by
        rw [← List.forall₂_eq_eq_eq, List.forall₂_map_left_iff, List.forall₂_map_right_iff]
        exact heach
      rw [toDocument, Permissions.parse?_eq_some_iff.mp hp, Document.filled,
        Document.filledIn?_eq_map, hdocuments, toDocuments_eq_map]

/-- A document is accepted exactly if all of its nodes pass their checks. What it gives is exported
as the document with nothing missing, which gives the same tree again; and the outline of any tree is
its whole document without the contents, node by node. -/
theorem documents_accepted_filled_and_stripped :
    (∀ d : Document,
      ((∃ n, ofDocument d = .ok n) ↔ ∀ e, Document.IsNode e d → e.Checked) ∧
      ∀ n, ofDocument d = .ok n →
        n.toDocument true = d.filled ∧ (n.toDocument true).count = d.count ∧
          ofDocument (n.toDocument true) = .ok n) ∧
    ∀ n : Node, n.toDocument false = (n.toDocument true).withoutContents ∧
      (n.toDocument false).count = (n.toDocument true).count := by
  refine ⟨fun d => ⟨exists_ofDocument_iff_forall d, fun n h => ?_⟩, fun n => ?_⟩
  · have hfilled := toDocument_ofDocument h
    exact ⟨hfilled, hfilled ▸ d.count_filled, sound_iff.mp (sound_of_ofDocument h)⟩
  · have hstripped := withoutContents_toDocument true n
    exact ⟨hstripped.symm, hstripped ▸ Document.count_withoutContents _⟩

/-- A directory with a content, a file without one and a directory without children are accepted. -/
theorem sparse_document_filled :
    let sparse : Document := ⟨"", .directory, "drwxr-xr-x", "root", "root", ⟨0, 0⟩, some "idle",
      some [⟨"a", .file, "-rw-r--r--", "u", "u", ⟨0, 0⟩, none, none⟩,
        ⟨"b", .directory, "d---------", "u", "u", ⟨0, 0⟩, none, none⟩]⟩
    ∃ n, ofDocument sparse = .ok n ∧ ofDocument (n.toDocument true) = .ok n ∧
      n.toDocument true = ⟨"", .directory, "drwxr-xr-x", "root", "root", ⟨0, 0⟩, none,
        some [⟨"a", .file, "-rw-r--r--", "u", "u", ⟨0, 0⟩, some "", none⟩,
          ⟨"b", .directory, "d---------", "u", "u", ⟨0, 0⟩, none, some []⟩]⟩ := by
  intro sparse
  have haccepted : ofDocument sparse = .ok (.directory "" ⟨0o755#9, "root", "root", ⟨0, 0⟩⟩
      [.file "a" ⟨0o644#9, "u", "u", ⟨0, 0⟩⟩ "", .directory "b" ⟨0#9, "u", "u", ⟨0, 0⟩⟩ []]) := rfl
  obtain ⟨hfilled, -, hagain⟩ := (documents_accepted_filled_and_stripped.1 sparse).2 _ haccepted
  exact ⟨_, haccepted, hagain, hfilled⟩

end Node

end DesktopTerminal

import DesktopTerminal.Desktop
import DesktopTerminal.Proofs.Path
import DesktopTerminal.Proofs.Tree.Edit
import DesktopTerminal.Proofs.Tree.Export

/-!
# Restoring what was saved

A tree can be restored from its document exactly if it is sound: the names in each directory are
distinct and legible, and the name of the root has no slash. A tree that was restored is sound, and
operations keep it so as long as their paths are legible. Every path that comes from a text is
legible, unless the home directory is not.
-/
namespace DesktopTerminal

/-- Induction over a document: what holds of it may rest on the documents of its children. -/
@[elab_as_elim]
theorem Document.induct {motive : Document → Prop}
    (step : ∀ d : Document, (∀ c ∈ d.children.getD [], motive c) → motive d) (d : Document) :
    motive d := by
  refine @Document.rec motive (fun children => ∀ c ∈ children.getD [], motive c)
    (fun ds => ∀ c ∈ ds, motive c) (fun name kind permissions owner group created content children
      ih => step _ ih) ?_ (fun ds ih => ih) ?_ (fun d ds hd hds => ?_) d
  · exact fun c hc => absurd hc List.not_mem_nil
  · exact fun c hc => absurd hc List.not_mem_nil
  · intro c hc
    rcases List.mem_cons.mp hc with rfl | hc
    · exact hd
    · exact hds c hc

namespace Node

/-- The names in a directory are distinct and legible. -/
def SoundNames (ns : List String) : Prop := ns.Nodup ∧ ∀ name ∈ ns, Legible name

structure Sound (n : Node) : Prop where
  name : '/' ∉ n.name.toList
  inside : Everywhere SoundNames n

theorem Sound.child {n c : Node} (h : n.Sound) (hc : c ∈ n.children) : c.Sound :=
  ⟨(h.inside.here.2 c.name (List.mem_map_of_mem hc)).2, h.inside.inside c hc⟩

theorem legible_of_descend? {root n : Node} {front : List String} {name : String}
    (hr : Everywhere SoundNames root) (h : root.descend? (front ++ [name]) = some n) :
    Legible name := by
  rw [descend?_snoc] at h
  obtain ⟨parent, hparent, hc⟩ := Option.bind_eq_some_iff.mp h
  exact (hr.descend? hparent).here.2 name (mem_names_of_find? hc)

/-! ## From documents -/

/-- What a document that is accepted has been checked for. -/
theorem ofDocument_eq_ok {d : Document} {n : Node} (h : ofDocument d = .ok n) :
    n.name = d.name ∧ '/' ∉ d.name.toList ∧
      (n.children = [] ∨ ofDocuments? d.name d.children = .ok n.children) := by
  obtain ⟨name, kind, permissions, owner, group, created, content, children⟩ := d
  rw [ofDocument] at h
  split at h
  · cases h
  split at h
  · cases h
  split at h
  · cases h
  rename_i hslash
  have hname : '/' ∉ name.toList := by simpa using hslash
  split at h
  · cases h
  · obtain rfl := Except.ok.inj h
    exact ⟨rfl, hname, Or.inl rfl⟩
  · obtain ⟨nodes, hnodes, h⟩ := exists_ok_of_bind_eq_ok h
    obtain rfl := Except.ok.inj h
    exact ⟨rfl, hname, Or.inr hnodes⟩

/-- Accepted siblings have the names of their documents, which are new and not empty. -/
theorem ofDocuments_eq_ok {parent : String} {elder : List String} {ds : List Document}
    {ns : List Node} (h : ofDocuments parent elder ds = .ok ns) :
    (names ns).Nodup ∧ (∀ name ∈ names ns, name ≠ "" ∧ name ∉ elder) ∧
      ∀ n ∈ ns, ∃ d ∈ ds, ofDocument d = .ok n := by
  induction ds generalizing elder ns with
  | nil =>
    rw [ofDocuments] at h
    obtain rfl := Except.ok.inj h
    simp [names]
  | cons d ds ih =>
    rw [ofDocuments] at h
    split at h
    · cases h
    rename_i hd
    obtain ⟨n, hn, h⟩ := exists_ok_of_bind_eq_ok h
    obtain ⟨ns, hns, h⟩ := exists_ok_of_bind_eq_ok h
    obtain rfl := Except.ok.inj h
    obtain ⟨hnodup, hnew, hfrom⟩ := ih hns
    have hname : n.name = d.name := (ofDocument_eq_ok hn).1
    refine ⟨List.nodup_cons.mpr ⟨fun hmem => ?_, hnodup⟩, fun name hmem => ?_, fun m hm => ?_⟩
    · refine (hnew n.name hmem).2 ?_
      rw [hname]
      exact List.mem_append_right _ List.mem_cons_self
    · rcases List.mem_cons.mp hmem with rfl | hmem
      · rw [hname]
        exact not_or.mp hd
      · obtain ⟨hne, helder⟩ := hnew name hmem
        exact ⟨hne, fun he => helder (List.mem_append_left _ he)⟩
    · rcases List.mem_cons.mp hm with rfl | hm
      · exact ⟨d, List.mem_cons_self, hn⟩
      · obtain ⟨c, hc, hm⟩ := hfrom m hm
        exact ⟨c, List.mem_cons_of_mem _ hc, hm⟩

theorem sound_of_ofDocument {d : Document} {n : Node} (h : ofDocument d = .ok n) : n.Sound := by
  induction d using Document.induct generalizing n with
  | step d ih =>
    obtain ⟨hname, hslash, hchildren⟩ := ofDocument_eq_ok h
    refine ⟨hname ▸ hslash, ?_⟩
    rcases hchildren with hnone | hchildren
    · exact .of_no_children ⟨List.nodup_nil, fun _ h => absurd h List.not_mem_nil⟩ hnone
    · have hds : ofDocuments d.name [] (d.children.getD []) = .ok n.children := by
        cases hc : d.children with
        | none => rwa [hc] at hchildren
        | some ds => rwa [hc] at hchildren
      obtain ⟨hnodup, hnew, hfrom⟩ := ofDocuments_eq_ok hds
      have hsound : ∀ c ∈ n.children, c.Sound := by
        intro c hc
        obtain ⟨d', hd', hc'⟩ := hfrom c hc
        exact ih d' hd' hc'
      refine .intro ⟨hnodup, fun name hmem => ?_⟩ fun c hc => (hsound c hc).inside
      obtain ⟨c, hc, rfl⟩ := List.mem_map.mp hmem
      exact ⟨(hnew c.name hmem).1, (hsound c hc).name⟩

/-! ## To documents and back -/

theorem name_toDocument (contents : Bool) (n : Node) : (n.toDocument contents).name = n.name := by
  cases n <;> rfl

theorem ofDocuments_toDocuments {parent : String} {elder : List String} {ns : List Node}
    (hn : (elder ++ names ns).Nodup) (hne : ∀ n ∈ ns, n.name ≠ "")
    (h : ∀ n ∈ ns, ofDocument (n.toDocument true) = .ok n) :
    ofDocuments parent elder (toDocuments true ns) = .ok ns := by
  induction ns generalizing elder with
  | nil => rfl
  | cons n ns ih =>
    have hsplit : (elder ++ [n.name] ++ names ns).Nodup := by
      rw [List.append_assoc]
      exact hn
    have hnew : n.name ∉ elder := by
      intro hmem
      exact (List.nodup_append.mp hn).2.2 _ hmem _ List.mem_cons_self rfl
    have hcond : ¬ (n.name = "" ∨ n.name ∈ elder) := not_or.mpr ⟨hne n List.mem_cons_self, hnew⟩
    rw [toDocuments, ofDocuments, name_toDocument, if_neg hcond, h n List.mem_cons_self,
      ih hsplit (fun m hm => hne m (List.mem_cons_of_mem _ hm)) fun m hm =>
        h m (List.mem_cons_of_mem _ hm)]
    rfl

/-- A sound tree is restored from its document as it was. -/
theorem ofDocument_toDocument {n : Node} (h : n.Sound) :
    ofDocument (n.toDocument true) = .ok n := by
  induction n using induct with
  | step n ih =>
    cases n with
    | file name info content =>
      have hslash : '/' ∉ name.toList := h.name
      rw [toDocument, ofDocument, Permissions.parse?_render]
      simp only [ne_eq, not_true_eq_false, if_false]
      rw [if_neg (by simpa using hslash)]
      rfl
    | directory name info children =>
      have hchildren : ofDocuments name [] (toDocuments true children) = .ok children := by
        refine ofDocuments_toDocuments h.inside.here.1 (fun c hc => ?_) fun c hc =>
          ih c hc (h.child hc)
        exact (h.inside.here.2 c.name (List.mem_map_of_mem hc)).1
      have hslash : '/' ∉ name.toList := h.name
      rw [toDocument, ofDocument, Permissions.parse?_render]
      simp only [ne_eq, not_true_eq_false, if_false]
      rw [if_neg (by simpa using hslash), ofDocuments?, hchildren]
      rfl

/-- Soundness is just what saving and restoring asks of a tree. -/
theorem sound_iff {n : Node} : n.Sound ↔ ofDocument (n.toDocument true) = .ok n :=
  ⟨ofDocument_toDocument, sound_of_ofDocument⟩

end Node

namespace Store

/-- Nothing is lost when the store is saved: its document can be restored, and gives its tree. -/
structure Restorable (s : Store) : Prop where
  root : s.root.kind = .directory
  names : Node.Everywhere Node.SoundNames s.root
  permissions : ∀ q n, s.root.descend? q = some n →
    Permissions.parse? (n.toDocument true).permissions = some ⟨n.kind, n.info.mode⟩ ∧
      n.info.mode.toNat ≤ 0o777
  restored : Node.ofDocument s.exported = .ok s.root

theorem parse?_permissions_toDocument (n : Node) :
    Permissions.parse? (n.toDocument true).permissions = some ⟨n.kind, n.info.mode⟩ := by
  cases n with
  | file => exact Permissions.parse?_render _
  | directory => exact Permissions.parse?_render _

/-- A store is restorable exactly if its tree is a sound one under a directory. -/
theorem restorable_iff {s : Store} : s.Restorable ↔ s.root.kind = .directory ∧ s.root.Sound := by
  constructor
  · intro h
    exact ⟨h.root, Node.sound_iff.mpr h.restored⟩
  · rintro ⟨hd, hsound⟩
    exact ⟨hd, hsound.inside, fun _ n _ => ⟨parse?_permissions_toDocument n, by omega⟩,
      Node.sound_iff.mp hsound⟩

/-! ## Runs -/

theorem sound_apply {op : Operation} (hop : ∀ p ∈ op.paths, p.Legible) (now : Instant) {s : Store}
    (h : s.root.Sound) : (s.apply op now).2.root.Sound := by
  have hedit := edited_apply op now s
  refine ⟨?_, hedit.everywhere (Node.stable_nodup Legible) hop h.inside⟩
  rw [hedit.name_eq]
  exact h.name

theorem sound_run {ops : List (Operation × Instant)}
    (hops : ∀ op ∈ ops, ∀ p ∈ op.1.paths, p.Legible) {s : Store} (hd : s.root.kind = .directory)
    (h : s.root.Sound) : (run ops s).root.kind = .directory ∧ (run ops s).root.Sound := by
  induction ops generalizing s with
  | nil => exact ⟨hd, h⟩
  | cons op ops ih =>
    obtain ⟨op, now⟩ := op
    refine ih (fun op hop => hops op (List.mem_cons_of_mem _ hop)) ?_ ?_
    · exact (edited_apply op now s).kind_eq.trans hd
    · exact sound_apply (hops _ List.mem_cons_self) now h

theorem ofDocument_eq_ok {d : Document} {identity : Identity} {home : Path} {s : Store}
    (h : ofDocument d identity home = .ok s) : s.root.kind = .directory ∧ s.root.Sound := by
  obtain ⟨root, hroot, h⟩ := exists_ok_of_bind_eq_ok h
  rw [ofNode] at h
  split at h
  · cases h
  · rename_i hd
    obtain rfl := Except.ok.inj h
    exact ⟨hd, Node.sound_of_ofDocument hroot⟩

/-! ## Home directories that cannot be written -/

/-- A directory that holds one directory that holds the next, and so on down the path. -/
def nest (name : String) (info : Info) : List String → Node
  | [] => .directory name info []
  | next :: path => .directory name info [nest next info path]

theorem descend?_nest (name : String) (info : Info) (path : List String) :
    ∃ last, (nest name info path).descend? path = some (.directory last info []) := by
  induction path generalizing name with
  | nil => exact ⟨name, rfl⟩
  | cons next path ih =>
    obtain ⟨last, h⟩ := ih next
    refine ⟨last, ?_⟩
    have hname : (nest next info path).name = next := by cases path <;> rfl
    rw [nest, Node.descend?_cons, Node.children, Node.find?, if_pos hname]
    exact h

theorem sound_nest {name : String} (info : Info) {path : List String} (hname : '/' ∉ name.toList)
    (hpath : ∀ next ∈ path, Legible next) : (nest name info path).Sound := by
  induction path generalizing name with
  | nil => exact ⟨hname, .of_no_children ⟨List.nodup_nil, fun _ h => absurd h List.not_mem_nil⟩ rfl⟩
  | cons next path ih =>
    obtain ⟨hnext, hpath⟩ := List.forall_mem_cons.mp hpath
    have hinside := (ih hnext.2 hpath).inside
    have hnames : Node.names [nest next info path] = [next] := by cases path <;> rfl
    refine ⟨hname, .intro ?_ fun c hc => ?_⟩
    · change Node.SoundNames (Node.names [nest next info path])
      rw [hnames]
      exact ⟨List.nodup_singleton next, fun other ho => List.mem_singleton.mp ho ▸ hnext⟩
    · obtain rfl := List.mem_singleton.mp hc
      exact hinside

/-- A directory can be made in an empty one under any name. -/
theorem descend?_makeDirectory {s : Store} {now : Instant} {front : List String}
    {name last : String} {info : Info}
    (h : s.root.descend? front = some (.directory last info [])) :
    ∃ made, (s.makeDirectory ⟨true, front ++ [name]⟩ now).2.root.descend? (front ++ [name]) =
      some made := by
  have hplace : s.root.place ⟨true, front ++ [name]⟩ = .ok ⟨⟨true, front⟩, name, []⟩ := by
    simp [Node.place, Path.split?, h]
  have hmade : s.root.makeDirectory ⟨true, front ++ [name]⟩ s.identity now =
      .ok (s.root.attach (Node.newDirectory name s.identity now) ⟨⟨true, front⟩, name, []⟩) := by
    rw [Node.makeDirectory, if_neg (by simp [Path.isRoot]), hplace]
    rfl
  rw [makeDirectory, hmade]
  change ∃ made, (s.root.attach _ _).descend? (front ++ [name]) = some made
  rw [Node.descend?_snoc, Node.attach, Node.descend?_update_self (Node.keepsName_withChildren _), h]
  exact ⟨_, Node.find?_put_self (Node.newDirectory name s.identity now) []⟩

/-- Every run from an accepted document on paths that come from texts leaves a tree that can be
saved and restored, exactly if the home directory has legible segments. -/
theorem restorable_run_iff (home : Path) :
    (∀ (d : Document) (identity : Identity) (s : Store), ofDocument d identity home = .ok s →
      ∀ ops : List (Operation × Instant), (∀ op ∈ ops, ∀ p ∈ op.1.paths, Path.Produced home p) →
        (run ops s).Restorable) ↔ home.Legible := by
  constructor
  · intro h
    by_contra hhome
    obtain ⟨front, name, hprefix, hfront, hname⟩ := Path.exists_first_illegible hhome
    let info : Info := ⟨Mode.initial .directory, "", "", ⟨0, 0⟩⟩
    let s : Store := ⟨nest "" info front, ⟨"", ""⟩, home⟩
    have hstart : ofDocument (s.root.toDocument true) s.identity home = .ok s := by
      rw [ofDocument, Node.sound_iff.mp (sound_nest info (by decide) hfront)]
      cases hf : front <;> simp [s, hf, nest, ofNode, Node.kind, bind, Except.bind]
    have hproduced : Path.Produced home ⟨true, front ++ [name]⟩ := Path.produced_above hprefix
    have hrun := h _ _ s hstart [(.makeDirectory ⟨true, front ++ [name]⟩, ⟨0, 0⟩)] (by
      intro op hop p hp
      obtain rfl := List.mem_singleton.mp hop
      obtain rfl := List.mem_singleton.mp hp
      exact hproduced)
    obtain ⟨last, hlast⟩ := descend?_nest "" info front
    obtain ⟨made, hmade⟩ : ∃ made,
        (s.makeDirectory ⟨true, front ++ [name]⟩ ⟨0, 0⟩).2.root.descend? (front ++ [name]) =
          some made := descend?_makeDirectory hlast
    exact hname (Node.legible_of_descend? hrun.names hmade)
  · intro hhome d identity s hs ops hops
    obtain ⟨hd, hsound⟩ := ofDocument_eq_ok hs
    obtain ⟨hd, hsound⟩ := sound_run (fun op hop p hp => (hops op hop p hp).legible hhome) hd hsound
    exact restorable_iff.mpr ⟨hd, hsound⟩

/-- The home directory of the user `a/b` is made as one directory, and cannot be restored. -/
theorem home_of_slashed_user_not_restored :
    let config := Config.standard.withUser "a/b"
    let s : Store := ⟨nest "" ⟨Mode.initial .directory, "root", "root", ⟨0, 0⟩⟩ ["home"],
      config.identity, config.homePath⟩
    let made := s.makeDirectory (s.resolve Path.root "~") ⟨0, 0⟩
    ofDocument s.exported s.identity s.home = .ok s ∧ made.1 = .ok () ∧
      Node.ofDocument made.2.exported ≠ .ok made.2.root ∧ ¬ made.2.Restorable := by
  intro config s made
  have hstart : Node.ofDocument s.exported = .ok s.root :=
    Node.sound_iff.mp (sound_nest _ (by decide) (by decide))
  have hlost : ¬ Node.Everywhere Node.SoundNames made.2.root := by
    intro hnames
    have hlegible : Legible "a/b" :=
      @Node.legible_of_descend? made.2.root _ ["home"] "a/b" hnames rfl
    revert hlegible
    decide
  refine ⟨?_, rfl, fun h => hlost (Node.sound_iff.mpr h).inside, fun h => hlost h.names⟩
  rw [ofDocument, hstart]
  rfl

end Store

namespace Config

/-- The home directory is legible unless it takes its name from a user whose name is not. -/
theorem legible_homePath_iff (c : Config) :
    c.homePath.Legible ↔ c.home ≠ none ∨ Legible c.user := by
  rw [homePath]
  cases c.home with
  | none =>
    have hhome : Legible "home" := by decide
    simp [Path.Legible, hhome]
  | some home =>
    simp [Path.legible_parse]

end Config

end DesktopTerminal

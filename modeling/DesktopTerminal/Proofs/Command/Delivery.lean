import DesktopTerminal.Proofs.Command.Transfer

/-!
# Many sources, one directory

Several sources go into one directory, each under its own name. All of them arrive, as they were
before the command, if no two different ones go under one name and none lies where an earlier one
goes, for there it would be overwritten before its turn; and of a move no source may lie inside a
later one, which would arrive without it. A source at or inside an earlier source of a move is missing
when its turn comes, so such a command does not succeed.
-/
namespace DesktopTerminal.Command

open PathMap (Apart)
open Workspace (forEach done)

/-- Neither a source `p` nor a later source `q` of one command keeps the other from arriving. -/
structure Compatible (into p q : Path) : Prop where
  names : p.fileName? = q.fileName? → p = q
  apart : ∀ name, p.fileName? = some name → ¬ (into.join name).segments <+: q.segments

/-- Moving a source `p` away does not change a later source `q`. A later source that goes away with
`p` is missed, if no other node goes by the same path. -/
structure Movable (root : Node) (p q : Path) : Prop where
  whole : q.segments <+: p.segments → q = p
  distinct : p.segments <+: q.segments → root.WellFormed

/-- The node that was at `p` is in the directory `into` afterwards, under its name. -/
def Arrives (carried : Instant → Node → Node) (into p : Path) (w w' : Workspace) : Prop :=
  ∃ name n, p.fileName? = some name ∧ w.store.root.lookup p = .ok n ∧
    w'.store.root.lookup (into.join name) = .ok (carried w.now n)

/-- The directory looks the same to a path if the node at the path is the same. -/
theorem Arrives.congr {carried : Instant → Node → Node} {into p : Path} {w v w' : Workspace}
    (h : Arrives carried into p v w') (hnow : v.now = w.now)
    (hsame : v.store.root.descend? p.segments = w.store.root.descend? p.segments) :
    Arrives carried into p w w' := by
  obtain ⟨name, n, hname, hn, harrived⟩ := h
  rw [Node.lookup_eq_ok_iff, hsame, ← Node.lookup_eq_ok_iff] at hn
  exact ⟨name, n, hname, hn, hnow ▸ harrived⟩

theorem apart_join (p : Path) {name other : String} (hne : name ≠ other) :
    Apart (p.join name).segments (p.join other).segments := by
  have hnot : ∀ {a b : String}, a ≠ b → ¬ (p.join a).segments <+: (p.join b).segments := by
    intro a b hab hpre
    obtain ⟨_, htail⟩ := List.append_inj' (hpre.eq_of_length (by simp [Path.join])) rfl
    exact hab (List.singleton_inj.mp htail)
  exact ⟨hnot hne, hnot hne.symm⟩

/-! ## Into a directory -/

section Into

variable {takes : Prop} {carried : Instant → Node → Node} {d : Destination}
  (hinto : d.isDirectory = true)
include hinto

/-- A source that goes through has a name, under which it goes into the directory. -/
theorem Turn.exists_name {p : Path} {w w' : Workspace} (h : Turn takes carried d p w w') :
    ∃ name, p.fileName? = some name ∧ targetOf p d.path d.isDirectory = d.path.join name := by
  cases hname : p.fileName? with
  | some name => exact ⟨name, rfl, hinto ▸ targetOf_eq_join hname⟩
  | none =>
    rw [Path.fileName?_eq_getLast?, List.getLast?_eq_none_iff] at hname
    exact absurd (hname ▸ List.nil_prefix) (h.outside p)

/-- A source that goes through arrives in the directory under its name. -/
theorem Turn.delivers {p : Path} {w w' : Workspace} (h : Turn takes carried d p w w') :
    ∃ name n, p.fileName? = some name ∧
      targetOf p d.path d.isDirectory = d.path.join name ∧
      w.store.root.descend? p.segments = some n ∧
      w'.store.root.descend? (d.path.join name).segments = some (carried w.now n) := by
  obtain ⟨name, hname, htarget⟩ := h.exists_name hinto
  obtain ⟨n, hn, harrived⟩ := h.arrived (by rw [htarget, Path.fileName?_join, hname])
  exact ⟨name, n, hname, htarget, hn, htarget ▸ harrived⟩

variable {handle : String → Workspace → Option String × Workspace}
  (h : Transports takes carried d handle) {rest : List String} {w : Workspace}
include h

/-- What stands in the directory under a name of its own stays, unless a source holds it. -/
theorem Transports.kept (name : String) (hsilent : (forEach handle rest w).1 = [])
    (hnames : ∀ y ∈ rest, (w.resolve y).fileName? ≠ some name)
    (hsources : ∀ y ∈ rest, Apart (w.resolve y).segments (d.path.join name).segments) :
    (forEach handle rest w).2.store.root.descend? (d.path.join name).segments =
      w.store.root.descend? (d.path.join name).segments := by
  have hdone := Workspace.done_of_silent hsilent
  refine h.descend?_forEach (fun y hy => ?_) fun _ y hy => hsources y (hdone ▸ hy)
  obtain ⟨_, hturn⟩ := h.turn_of_done hy
  obtain ⟨other, hother, htarget⟩ := hturn.exists_name hinto
  rw [htarget]
  exact apart_join d.path fun heq => hnames y (hdone ▸ hy) (heq ▸ hother)

/-- If all go through and no two are in each other's way, all arrive. -/
theorem Transports.arrives (hsilent : (forEach handle rest w).1 = [])
    (hcompatible : (rest.map w.resolve).Pairwise (Compatible d.path))
    (htaken : takes → (rest.map w.resolve).Pairwise fun p q => Apart p.segments q.segments) :
    ∀ x ∈ rest, Arrives carried d.path (w.resolve x) w (forEach handle rest w).2 := by
  induction rest generalizing w with
  | nil => exact fun x hx => absurd hx List.not_mem_nil
  | cons first rest ih =>
    obtain ⟨hfirst, hrest⟩ := Workspace.forEach_cons_silent hsilent
    have hturn := h.turn hfirst
    have hdone := Workspace.done_of_silent hrest
    obtain ⟨name, n, hname, htarget, hn, harrived⟩ := hturn.delivers hinto
    rw [List.map_cons, List.pairwise_cons] at hcompatible
    obtain ⟨hcompatible, hcompatible'⟩ := hcompatible
    have hmem : ∀ y ∈ rest, w.resolve y ∈ rest.map w.resolve := fun y hy => List.mem_map_of_mem hy
    -- the first goes past the later sources, and no later one holds a target
    have hpast : ∀ y ∈ rest, Apart (d.path.join name).segments (w.resolve y).segments := by
      intro y hy
      have houtside := h.outside (hdone.symm ▸ hy) (w.resolve first)
      rw [hturn.resolve y, htarget] at houtside
      exact ⟨(hcompatible _ (hmem y hy)).apart name hname, houtside⟩
    have hlater : ∀ y ∈ rest, Arrives carried d.path (w.resolve y) w
        (forEach handle rest (handle first w).2).2 := by
      intro y hy
      have harrives := ih hrest (hturn.map_resolve rest ▸ hcompatible')
        (fun ht => hturn.map_resolve rest ▸ (List.pairwise_cons.mp (htaken ht)).2) y hy
      rw [hturn.resolve y] at harrives
      refine harrives.congr hturn.now (hturn.frame _ (htarget ▸ hpast y hy) fun ht => ?_)
      exact (List.pairwise_cons.mp (htaken ht)).1 _ (hmem y hy)
    intro x hx
    rcases List.mem_cons.mp hx with rfl | hx
    · by_cases hagain : ∃ y ∈ rest, (w.resolve y).fileName? = some name
      · -- what goes under the same name is the same source once more
        obtain ⟨y, hy, hyname⟩ := hagain
        rw [(hcompatible _ (hmem y hy)).names (hname.trans hyname.symm)]
        exact hlater y hy
      · have hkept := h.kept hinto name hrest
          (fun y hy hyname => hagain ⟨y, hy, hturn.resolve y ▸ hyname⟩)
          (fun y hy => hturn.resolve y ▸ (hpast y hy).symm)
        exact ⟨name, n, hname, Node.lookup_eq_ok_iff.mpr hn,
          Node.lookup_eq_ok_iff.mpr (hkept.trans harrived)⟩
    · exact hlater x hx

/-- A source that is missing when a move begins is reported. -/
theorem Transports.not_missing (htakes : takes) (hw : w.store.root.WellFormed)
    (hsilent : (forEach handle rest w).1 = [])
    (hcompatible : (rest.map w.resolve).Pairwise (Compatible d.path)) {x : String} (hx : x ∈ rest) :
    w.store.root.descend? (w.resolve x).segments ≠ none := by
  intro hmissing
  induction rest generalizing w with
  | nil => cases hx
  | cons first rest ih =>
    obtain ⟨hfirst, hrest⟩ := Workspace.forEach_cons_silent hsilent
    have hturn := h.turn hfirst
    obtain ⟨name, n, hname, htarget, hn, _⟩ := hturn.delivers hinto
    rw [List.map_cons, List.pairwise_cons] at hcompatible
    rcases List.mem_cons.mp hx with rfl | hx
    · cases hmissing.symm.trans hn
    · refine ih (hturn.wellFormed hw) hrest (hturn.map_resolve rest ▸ hcompatible.2) hx ?_
      rw [hturn.resolve x]
      refine hturn.missing htakes hw _ ?_ (.inr hmissing)
      rw [htarget]
      exact (hcompatible.1 _ (List.mem_map_of_mem hx)).apart name hname

/-- The sources of a move that goes through do not hold each other. -/
theorem Transports.apart (htakes : takes) (hsilent : (forEach handle rest w).1 = [])
    (hcompatible : (rest.map w.resolve).Pairwise (Compatible d.path))
    (hmovable : (rest.map w.resolve).Pairwise (Movable w.store.root)) :
    (rest.map w.resolve).Pairwise fun p q => Apart p.segments q.segments := by
  induction rest generalizing w with
  | nil => exact List.Pairwise.nil
  | cons first rest ih =>
    obtain ⟨hfirst, hrest⟩ := Workspace.forEach_cons_silent hsilent
    have hturn := h.turn hfirst
    have hmap := hturn.map_resolve rest
    obtain ⟨name, hname, htarget⟩ := hturn.exists_name hinto
    rw [List.map_cons, List.pairwise_cons] at hcompatible hmovable ⊢
    have hcompatible' : (rest.map (handle first w).2.resolve).Pairwise (Compatible d.path) :=
      hmap ▸ hcompatible.2
    -- what the first turn has taken away is missing when its own turn comes
    have hdown : ∀ y ∈ rest, ¬ (w.resolve first).segments <+: (w.resolve y).segments := by
      intro y hy hpre
      have hmem : w.resolve y ∈ rest.map w.resolve := List.mem_map_of_mem hy
      have hwell := (hmovable.1 _ hmem).distinct hpre
      refine h.not_missing hinto htakes (hturn.wellFormed hwell) hrest hcompatible' hy ?_
      rw [hturn.resolve y]
      exact hturn.missing htakes hwell _ (htarget ▸ (hcompatible.1 _ hmem).apart name hname)
        (.inl hpre)
    refine ⟨?_, ?_⟩
    · intro q hq
      obtain ⟨y, hy, rfl⟩ := List.mem_map.mp hq
      refine ⟨hdown y hy, fun hpre => hdown y hy ?_⟩
      rw [(hmovable.1 _ hq).whole hpre]
    · refine hmap ▸ ih hrest hcompatible' (hmap ▸ hmovable.2.imp fun hpair => ?_)
      exact ⟨hpair.whole, fun hpre => hturn.wellFormed (hpair.distinct hpre)⟩

end Into

/-! ## Whole commands -/

theorem reports_eq_nil {reports : List String} {w : Workspace}
    (h : (finishSilently (reports, w)).1.code = 0) : reports = [] := by
  unfold finishSilently Outcome.ofDiagnostics at h
  split at h
  · rename_i hempty
    exact List.isEmpty_iff.mp hempty
  · exact absurd h Nat.one_ne_zero

/-- A transfer that succeeds has taken up its sources, and none had anything to report. -/
theorem transfer_succeeded {tool : String}
    {one : Destination → String → Workspace → Option String × Workspace} {a : Arguments}
    {sources : List String} {operand : String} {w : Workspace}
    (ha : a.positional = sources ++ [operand]) (hcode : (transfer tool one a w).1.code = 0) :
    let r := forEach (one (destinationOf operand w)) sources w
    r.1 = [] ∧ (transfer tool one a w).2 = r.2 := by
  rcases transfer_cases ha w with ⟨hrefused, _⟩ | hran
  · exact absurd hcode hrefused
  · rw [hran] at hcode ⊢
    exact ⟨reports_eq_nil hcode, rfl⟩

/-- All the sources of a copy or a move into a directory that succeeds arrive there as they were, but
for the time of creation that a copy gets, if no two are in each other's way. -/
theorem every_source_arrives (a : Arguments) (sources : List String) (operand : String)
    (w : Workspace) (ha : a.positional = sources ++ [operand])
    (hdir : w.store.kind (w.resolve operand) = .ok .directory) :
    let into := w.resolve operand
    let paths := sources.map w.resolve
    ((cp a w).1.code = 0 → paths.Pairwise (Compatible into) →
      ∀ p ∈ paths, Arrives Node.createdAt into p w (cp a w).2) ∧
    ((mv a w).1.code = 0 → paths.Pairwise (Compatible into) →
      paths.Pairwise (Movable w.store.root) →
      ∀ p ∈ paths, Arrives (fun _ n => n) into p w (mv a w).2) := by
  intro into paths
  have hinto : (destinationOf operand w).isDirectory = true := by
    simp only [destinationOf, hdir]
  have hd := absolute_destinationOf operand w
  refine ⟨fun hcode hcompatible p hp => ?_, fun hcode hcompatible hmovable p hp => ?_⟩ <;>
    obtain ⟨x, hx, rfl⟩ := List.mem_map.mp hp <;>
    obtain ⟨hsilent, hw⟩ := transfer_succeeded ha hcode
  · rw [cp, hw]
    exact (transports_cp _ hd).arrives hinto hsilent hcompatible False.elim x hx
  · have hapart := (transports_mv hd).apart hinto trivial hsilent hcompatible hmovable
    rw [mv, hw]
    exact (transports_mv hd).arrives hinto hsilent hcompatible (fun _ => hapart) x hx

/-- A directory and a file go into the directory next to them. -/
theorem documents_and_profile_arrive :
    let s := Desktop.newStore Config.standard ⟨0, 0⟩
    let w : Workspace := ⟨s, Windows.empty, "desktop", s.home, none, none, [], ⟨1, 0⟩⟩
    let a : Arguments := ⟨["Documents", ".bashrc", "Downloads"], [], ["recursive"]⟩
    let into : Path := ⟨true, ["home", "user", "Downloads"]⟩
    let documents : Path := ⟨true, ["home", "user", "Documents"]⟩
    s.kind into = .ok .directory ∧
      (cp a w).1.code = 0 ∧ Arrives Node.createdAt into documents w (cp a w).2 ∧
      (mv a w).1.code = 0 ∧ Arrives (fun _ n => n) into documents w (mv a w).2 := by
  intro s w a into documents
  have hpaths : ["Documents", ".bashrc"].map w.resolve =
      [documents, ⟨true, ["home", "user", ".bashrc"]⟩] := rfl
  have hcompatible : (["Documents", ".bashrc"].map w.resolve).Pairwise (Compatible into) := by
    rw [hpaths, List.pairwise_pair]
    refine ⟨fun hnames => absurd hnames (by decide), fun name hname => ?_⟩
    obtain rfl := Option.some.inj hname
    decide
  have hmovable : (["Documents", ".bashrc"].map w.resolve).Pairwise (Movable s.root) := by
    rw [hpaths, List.pairwise_pair]
    exact ⟨fun hpre => absurd hpre (by decide), fun hpre => absurd hpre (by decide)⟩
  have hdir : s.kind into = .ok .directory := rfl
  have hcopied : (cp a w).1.code = 0 := by decide +kernel
  have hmoved : (mv a w).1.code = 0 := by decide +kernel
  have hmem : documents ∈ ["Documents", ".bashrc"].map w.resolve := List.mem_cons_self
  obtain ⟨hcp, hmv⟩ := every_source_arrives a ["Documents", ".bashrc"] "Downloads" w rfl hdir
  exact ⟨hdir, hcopied, hcp hcopied hcompatible documents hmem, hmoved,
    hmv hmoved hcompatible hmovable documents hmem⟩

/-- Commands that succeed, after which a source is not where it went: another one came under its name,
one before it was put in its place, one that left before it came from inside it, or it was inside one
that left before it and that had a namesake. -/
theorem sources_in_the_way_of_each_other :
    let info (kind : Kind) : Info := ⟨Mode.initial kind, "user", "user", ⟨0, 0⟩⟩
    let folder (name : String) (children : List Node) :=
      Node.directory name (info .directory) children
    let file (name content : String) := Node.file name (info .file) content
    let on (children : List Node) : Workspace := ⟨⟨folder "" children, ⟨"user", "user"⟩, Path.root⟩,
      Windows.empty, "desktop", Path.root, none, none, [], ⟨1, 0⟩⟩
    let moving (sources : List String) : Arguments := ⟨sources ++ ["box"], [], []⟩
    let copying (sources : List String) : Arguments := ⟨sources ++ ["box"], [], ["recursive"]⟩
    let contentAt (segments : List String) (w : Workspace) := w.store.read ⟨true, segments⟩
    let namesakes := on [folder "a" [file "f" "one"], folder "b" [file "f" "two"], folder "box" []]
    let covered := on [folder "a" [file "x" "new"], folder "box" [folder "a" [file "x" "old"]]]
    let nested := on [folder "a" [file "f" "one"], folder "box" []]
    let twins := on [folder "a" [file "f" "one"], folder "a" [file "f" "two"], folder "box" []]
    (mv (moving ["a/f", "b/f"]) namesakes).1.code = 0 ∧
      (cp (copying ["a/f", "b/f"]) namesakes).1.code = 0 ∧
      contentAt ["a", "f"] namesakes = .ok "one" ∧
      contentAt ["box", "f"] (mv (moving ["a/f", "b/f"]) namesakes).2 = .ok "two" ∧
      contentAt ["box", "f"] (cp (copying ["a/f", "b/f"]) namesakes).2 = .ok "two" ∧
      (mv (moving ["a", "box/a/x"]) covered).1.code = 0 ∧
      (cp (copying ["a", "box/a/x"]) covered).1.code = 0 ∧
      contentAt ["box", "a", "x"] covered = .ok "old" ∧
      contentAt ["box", "x"] (mv (moving ["a", "box/a/x"]) covered).2 = .ok "new" ∧
      contentAt ["box", "x"] (cp (copying ["a", "box/a/x"]) covered).2 = .ok "new" ∧
      (mv (moving ["a/f", "a"]) nested).1.code = 0 ∧
      contentAt ["a", "f"] nested = .ok "one" ∧
      contentAt ["box", "a", "f"] (mv (moving ["a/f", "a"]) nested).2 =
        .error (.notFound ⟨true, ["box", "a", "f"]⟩) ∧
      (mv (moving ["a", "a/f"]) twins).1.code = 0 ∧
      contentAt ["a", "f"] twins = .ok "one" ∧
      contentAt ["box", "f"] (mv (moving ["a", "a/f"]) twins).2 = .ok "two" :=
  ⟨rfl, rfl, rfl, rfl, rfl, rfl, rfl, rfl, rfl, rfl, rfl, rfl, rfl, rfl, rfl, rfl⟩

end DesktopTerminal.Command

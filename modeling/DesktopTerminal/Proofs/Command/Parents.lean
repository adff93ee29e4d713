import DesktopTerminal.Command.Files
import DesktopTerminal.Desktop
import DesktopTerminal.Proofs.Tree.Refinement

/-!
# Missing parents

The directories that are missing on the way to the end of a path are made one by one, each under the
one before. Where one is missing nothing is further on, so a file on the way is met before anything
has been made. What is made is seen in the map of the tree's paths: all that the map has stays, and
what comes to it are the missing directories.
-/
namespace DesktopTerminal

namespace PathMap

variable {p : List String} {info : Info} {m m' m'' : PathMap}

theorem prefix_enlist (m : PathMap) (k : List String) (name : String) (q : List String) :
    m.order q <+: (m.enlist k name).order q := by
  by_cases hq : q = k
  · subst hq
    simp only [enlist, Function.update_self]
    split
    · exact List.prefix_rfl
    · exact List.prefix_append _ _
  · simp only [enlist, Function.update_of_ne hq]
    exact List.prefix_rfl

/-- The second map has what the first has, and else only directories on the way to the end of `p`. -/
structure Grown (p : List String) (info : Info) (m m' : PathMap) : Prop where
  entry : ∀ q, m'.entry q = m.entry q ∨
    (q <+: p ∧ m.entry q = none) ∧ m'.entry q = some (.directory info)
  order : ∀ q, m.order q <+: m'.order q

namespace Grown

theorem refl (p : List String) (info : Info) (m : PathMap) : Grown p info m m :=
  ⟨fun _ => .inl rfl, fun _ => List.prefix_rfl⟩

theorem trans (h : Grown p info m m') (h' : Grown p info m' m'') : Grown p info m m'' where
  entry q := by
    rcases h'.entry q with hsame | ⟨⟨hq, hnone⟩, hmade⟩
    · rw [hsame]
      exact h.entry q
    · rcases h.entry q with hsame | ⟨_, hmade'⟩
      · exact .inr ⟨⟨hq, hsame ▸ hnone⟩, hmade⟩
      · cases hnone.symm.trans hmade'
  order q := (h.order q).trans (h'.order q)

theorem kept (h : Grown p info m m') {q : List String} {item : Item}
    (hq : m.entry q = some item) : m'.entry q = some item := by
  rcases h.entry q with hsame | ⟨⟨_, hnone⟩, _⟩
  · exact hsame.trans hq
  · cases hnone.symm.trans hq

/-- Every file was there before. -/
theorem file (h : Grown p info m m') {q : List String} {i : Info} {content : String}
    (hq : m'.entry q = some (.file i content)) : m.entry q = some (.file i content) := by
  rcases h.entry q with hsame | ⟨_, hmade⟩
  · exact hsame.symm.trans hq
  · cases hmade.symm.trans hq

/-- If the way has no gaps afterwards, exactly the gaps have been filled. -/
theorem entry_eq (h : Grown p info m m') (hall : ∀ q, q <+: p → m'.entry q ≠ none)
    (q : List String) :
    m'.entry q = if q <+: p ∧ m.entry q = none then some (.directory info) else m.entry q := by
  split
  · rename_i hgap
    rcases h.entry q with hsame | ⟨_, hmade⟩
    · exact absurd (hsame.trans hgap.2) (hall q hgap.1)
    · exact hmade
  · rename_i hgap
    rcases h.entry q with hsame | ⟨hgap', _⟩
    · exact hsame
    · exact absurd hgap' hgap

theorem made {k : List String} {name : String} (hk : k ++ [name] <+: p)
    (hnone : m.entry (k ++ [name]) = none) :
    Grown p info m ((m.set (k ++ [name]) (.directory info)).enlist k name) where
  entry q := by
    by_cases hq : q = k ++ [name]
    · subst hq
      exact .inr ⟨⟨hk, hnone⟩, Function.update_self ..⟩
    · exact .inl (Function.update_of_ne hq ..)
  order q := prefix_enlist (m.set (k ++ [name]) (.directory info)) k name q

end Grown

end PathMap

namespace Node

variable {root : Node} {q : List String}

theorem holdsDirectory_iff_entry :
    root.HoldsDirectory q ↔ ∃ info, root.paths.entry q = some (.directory info) := by
  rw [HoldsDirectory, entry_paths]
  cases root.descend? q with
  | none => simp
  | some n => cases n <;> simp [Node.kind, item]

theorem kind_eq_file_iff_entry :
    (root.descend? q).map Node.kind = some .file ↔
      ∃ info content, root.paths.entry q = some (.file info content) := by
  rw [entry_paths]
  cases root.descend? q with
  | none => simp
  | some n => cases n <;> simp [Node.kind, item]

theorem entry_of_missing (h : root.descend? q = none) : root.paths.entry q = none := by
  rw [entry_paths, h]
  rfl

end Node

namespace Store

variable {s : Store}

theorem kind_eq_ok_iff {p : Path} {kind : Kind} :
    s.kind p = .ok kind ↔ (s.root.descend? p.segments).map Node.kind = some kind := by
  rw [Store.kind, Node.lookup]
  cases s.root.descend? p.segments <;> simp [Except.map]

theorem kind_eq_directory_iff {q : List String} :
    s.kind ⟨true, q⟩ = .ok .directory ↔ s.root.HoldsDirectory q := kind_eq_ok_iff

/-- Nothing, a directory or a file is at a path. -/
theorem standing_cases (s : Store) (q : List String) :
    s.root.descend? q = none ∨ s.root.HoldsDirectory q ∨ s.kind ⟨true, q⟩ = .ok .file := by
  rw [kind_eq_ok_iff, Node.HoldsDirectory]
  cases s.root.descend? q with
  | none => exact .inl rfl
  | some n => cases n <;> simp [Node.kind]

/-- Nothing is further on than a file. -/
theorem eq_nil_of_file {q front : List String} {kind : Kind} (h : s.kind ⟨true, q⟩ = .ok .file)
    (hfront : s.kind ⟨true, q ++ front⟩ = .ok kind) : front = [] := by
  rw [kind_eq_ok_iff] at h hfront
  obtain ⟨n, hn, hkind⟩ := Option.map_eq_some_iff.mp h
  rw [Node.descend?_append, hn] at hfront
  cases n with
  | file name info content =>
    cases front with
    | nil => rfl
    | cons first front => cases hfront
  | directory name info children => cases hkind

/-- The data of a directory that is made now. -/
def madeInfo (now : Instant) (s : Store) : Info :=
  ⟨Mode.initial .directory, s.identity.user, s.identity.group, now⟩

/-- Under a directory a missing one can be made. It is an entry more, at the end of the directory. -/
theorem makeDirectory_missing {above : List String} {name : String} (now : Instant)
    (hd : s.root.HoldsDirectory above) (hnone : s.root.descend? (above ++ [name]) = none) :
    ∃ root, s.makeDirectory ⟨true, above ++ [name]⟩ now = (.ok (), { s with root }) ∧
      root.paths =
        (s.root.paths.set (above ++ [name]) (.directory (s.madeInfo now))).enlist above name := by
  obtain ⟨info, habove⟩ := Node.holdsDirectory_iff_entry.mp hd
  have hplace : s.root.paths.place (above ++ [name]) = .ok (above, name) := by
    rw [PathMap.place, List.getLast?_concat, List.dropLast_concat, habove]
  have hpaths := Node.makeDirectory_paths s.root (above ++ [name]) s.identity now
  rw [PathMap.makeDirectory, if_neg (List.append_ne_nil_of_right_ne_nil _ (List.cons_ne_nil _ _)),
    hplace] at hpaths
  simp only [bind, Except.bind, Node.entry_of_missing hnone] at hpaths
  cases hmade : s.root.makeDirectory ⟨true, above ++ [name]⟩ s.identity now with
  | error fault =>
    rw [hmade] at hpaths
    cases hpaths
  | ok root =>
    rw [hmade] at hpaths
    refine ⟨root, ?_, (Except.ok.inj hpaths).symm⟩
    rw [makeDirectory, hmade]
    rfl

end Store

namespace Command

variable {now : Instant} {above : List String} {segment : String} {rest : List String} {s : Store}

/-! ## One step of the way -/

theorem makeParents_directory (h : s.kind ⟨true, above ++ [segment]⟩ = .ok .directory) :
    makeParents now ⟨true, above⟩ (segment :: rest) s =
      makeParents now ⟨true, above ++ [segment]⟩ rest s := by
  simp only [makeParents, Path.join, h]

theorem makeParents_file (h : s.kind ⟨true, above ++ [segment]⟩ = .ok .file) :
    makeParents now ⟨true, above⟩ (segment :: rest) s =
      (.error (.notADirectory ⟨true, above ++ [segment]⟩), s) := by
  simp only [makeParents, Path.join, h]

theorem makeParents_missing {s' : Store} (h : s.root.descend? (above ++ [segment]) = none)
    (hmade : s.makeDirectory ⟨true, above ++ [segment]⟩ now = (.ok (), s')) :
    makeParents now ⟨true, above⟩ (segment :: rest) s =
      makeParents now ⟨true, above ++ [segment]⟩ rest s' := by
  have hkind : s.kind ⟨true, above ++ [segment]⟩ =
      .error (.notFound ⟨true, above ++ [segment]⟩) := by
    rw [Store.kind, Node.lookup, h]
    rfl
  simp only [makeParents, Path.join, hkind, Fault.isNotFound, if_true, hmade]

/-! ## The whole way -/

/-- A file on the way, which begins at a directory, stops the making before anything is made. -/
theorem makeParents_blocked {front segments : List String}
    (hd : s.root.HoldsDirectory above) (hfront : front <+: segments)
    (hfile : s.kind ⟨true, above ++ front⟩ = .ok .file) :
    makeParents now ⟨true, above⟩ segments s =
      (.error (.notADirectory ⟨true, above ++ front⟩), s) := by
  induction front generalizing above segments with
  | nil =>
    rw [List.append_nil, Store.kind_eq_directory_iff.mpr hd] at hfile
    cases hfile
  | cons first front ih =>
    obtain ⟨more, rfl⟩ := hfront
    rw [List.append_cons] at hfile ⊢
    rcases s.standing_cases (above ++ [first]) with hnone | hnext | hblock
    · rw [Store.kind_eq_ok_iff, Node.descend?_append, hnone] at hfile
      cases hfile
    · rw [List.cons_append, makeParents_directory (Store.kind_eq_directory_iff.mpr hnext)]
      exact ih hnext (List.prefix_append front more) hfile
    · obtain rfl := Store.eq_nil_of_file hblock hfile
      rw [List.cons_append, makeParents_file hblock, List.append_nil]

/-- What is left where directories were made on the way from `above` along `segments`. -/
structure Paved (info : Info) (above segments : List String) (root root' : Node) : Prop where
  grown : PathMap.Grown (above ++ segments) info root.paths root'.paths
  directories : ∀ front, front <+: segments → root'.HoldsDirectory (above ++ front)
  wellFormed : root.WellFormed → root'.WellFormed

/-- The first directory of the way is there or is made, and then the others. -/
theorem Paved.cons {info : Info} {root middle root' : Node} (hd : root.HoldsDirectory above)
    (hgrown : PathMap.Grown (above ++ segment :: rest) info root.paths middle.paths)
    (hwell : root.WellFormed → middle.WellFormed)
    (h : Paved info (above ++ [segment]) rest middle root') :
    Paved info above (segment :: rest) root root' := by
  have hgrown' := hgrown.trans (List.append_cons above segment rest ▸ h.grown)
  refine ⟨hgrown', fun front hfront => ?_, fun hw => h.wellFormed (hwell hw)⟩
  cases front with
  | nil =>
    obtain ⟨i, hi⟩ := Node.holdsDirectory_iff_entry.mp hd
    rw [List.append_nil]
    exact Node.holdsDirectory_iff_entry.mpr ⟨i, hgrown'.kept hi⟩
  | cons first front =>
    obtain ⟨rfl, hrest⟩ := List.cons_prefix_cons.mp hfront
    exact List.append_cons above first front ▸ h.directories front hrest

/-- Making the next directory of a way that has none there. -/
theorem makes_next (now : Instant) (rest : List String) (hd : s.root.HoldsDirectory above)
    (hnone : s.root.descend? (above ++ [segment]) = none) :
    ∃ middle, s.makeDirectory ⟨true, above ++ [segment]⟩ now = (.ok (), { s with root := middle }) ∧
      middle.HoldsDirectory (above ++ [segment]) ∧
      PathMap.Grown (above ++ segment :: rest) (s.madeInfo now) s.root.paths middle.paths ∧
      (s.root.WellFormed → middle.WellFormed) := by
  obtain ⟨middle, hmade, hpaths⟩ := Store.makeDirectory_missing now hd hnone
  have hway : above ++ [segment] <+: above ++ segment :: rest :=
    List.append_cons above segment rest ▸ List.prefix_append _ _
  refine ⟨middle, hmade, ?_, hpaths ▸ .made hway (Node.entry_of_missing hnone), fun hw => ?_⟩
  · rw [Node.holdsDirectory_iff_entry, hpaths]
    exact ⟨_, Function.update_self ..⟩
  · have happly := Store.wellFormed_apply (.makeDirectory ⟨true, above ++ [segment]⟩) now hw
    rwa [Store.apply, hmade] at happly

/-- If no file is on the way, the way is made to its end. -/
theorem makeParents_free (now : Instant) {segments : List String} (hd : s.root.HoldsDirectory above)
    (hfree : ∀ front, front <+: segments → s.kind ⟨true, above ++ front⟩ ≠ .ok .file) :
    ∃ root, makeParents now ⟨true, above⟩ segments s = (.ok (), { s with root }) ∧
      Paved (s.madeInfo now) above segments s.root root := by
  induction segments generalizing above s with
  | nil =>
    refine ⟨s.root, rfl, .refl _ _ _, fun front hfront => ?_, id⟩
    obtain rfl := List.prefix_nil.mp hfront
    rwa [List.append_nil]
  | cons segment rest ih =>
    have hlater : ∀ front, front <+: rest →
        s.kind ⟨true, (above ++ [segment]) ++ front⟩ ≠ .ok .file := fun front hfront =>
      List.append_cons above segment front ▸ hfree _ (List.cons_prefix_cons.mpr ⟨rfl, hfront⟩)
    rcases s.standing_cases (above ++ [segment]) with hnone | hnext | hblock
    · obtain ⟨middle, hstep, hnext, hgrown, hwell⟩ := makes_next now rest hd hnone
      -- what is made on the way brings no file to it
      have hlater' : ∀ front, front <+: rest →
          ({ s with root := middle } : Store).kind ⟨true, (above ++ [segment]) ++ front⟩ ≠
            .ok .file := by
        intro front hfront hfile
        refine hlater front hfront ?_
        rw [Store.kind_eq_ok_iff, Node.kind_eq_file_iff_entry] at hfile ⊢
        obtain ⟨info, content, hfile⟩ := hfile
        exact ⟨info, content, hgrown.file hfile⟩
      obtain ⟨root, hmade, hpaved⟩ := ih hnext hlater'
      refine ⟨root, ?_, .cons hd hgrown hwell hpaved⟩
      rw [makeParents_missing hnone hstep, hmade]
    · obtain ⟨root, hmade, hpaved⟩ := ih hnext hlater
      refine ⟨root, ?_, .cons hd (.refl _ _ _) id hpaved⟩
      rw [makeParents_directory (Store.kind_eq_directory_iff.mpr hnext), hmade]
    · exact absurd (by rwa [List.append_nil]) (hlater [] List.nil_prefix)

/-- A way that is there is gone to its end, and nothing is made. -/
theorem makeParents_standing {segments : List String}
    (h : ∀ front, front <+: segments → s.root.HoldsDirectory (above ++ front)) :
    makeParents now ⟨true, above⟩ segments s = (.ok (), s) := by
  induction segments generalizing above with
  | nil => rfl
  | cons segment rest ih =>
    have hnext := h [segment] (List.cons_prefix_cons.mpr ⟨rfl, List.nil_prefix⟩)
    rw [makeParents_directory (Store.kind_eq_directory_iff.mpr hnext)]
    exact ih fun front hfront =>
      List.append_cons above segment front ▸ h _ (List.cons_prefix_cons.mpr ⟨rfl, hfront⟩)

/-- Making the missing directories on the way to an operand fails exactly if a file is on the way,
and then nothing changes. Else every directory of the way is there afterwards; those that were missing
are all that is new, all that was there is as it was, and a second time there is nothing to make. -/
theorem parents_made_or_nothing (operand : String) (w : Workspace)
    (hroot : w.store.root.kind = .directory) :
    let way := (w.resolve operand).segments
    let before := w.store
    let result := (makeParents w.now Path.root way before).1
    let after := (makeParents w.now Path.root way before).2
    (∀ fault, result = .error fault ↔ ∃ front, front <+: way ∧
      before.kind ⟨true, front⟩ = .ok .file ∧ fault = .notADirectory ⟨true, front⟩) ∧
    (result ≠ .ok () → after = before) ∧
    (result = .ok () →
      (∀ q, q <+: way → after.kind ⟨true, q⟩ = .ok .directory) ∧
      (∀ q, after.root.paths.entry q =
        if q <+: way ∧ before.root.paths.entry q = none then
          some (.directory (before.madeInfo w.now))
        else before.root.paths.entry q) ∧
      (∀ q, before.root.paths.order q <+: after.root.paths.order q) ∧
      (before.root.WellFormed → after.root.WellFormed) ∧
      after = { before with root := after.root } ∧
      ∀ later, makeParents later Path.root way after = (.ok (), after)) := by
  intro way before result after
  have hd : before.root.HoldsDirectory [] := congrArg some hroot
  have hstopped : ∀ {front}, front <+: way → before.kind ⟨true, front⟩ = .ok .file →
      makeParents w.now Path.root way before = (.error (.notADirectory ⟨true, front⟩), before) :=
    fun hfront hfile => makeParents_blocked hd hfront hfile
  by_cases hfree : ∀ front, front <+: way → before.kind ⟨true, front⟩ ≠ .ok .file
  · obtain ⟨root, hmade, hpaved⟩ := makeParents_free w.now hd hfree
    have hresult : result = .ok () := congrArg Prod.fst hmade
    have hafter : after = { before with root } := congrArg Prod.snd hmade
    have hentry : ∀ q, q <+: way → root.paths.entry q ≠ none := by
      intro q hq hnone
      obtain ⟨info, hinfo⟩ := Node.holdsDirectory_iff_entry.mp (hpaved.directories q hq)
      cases hnone.symm.trans hinfo
    rw [hresult, hafter]
    refine ⟨fun fault => ⟨fun h => (by cases h), ?_⟩, fun h => absurd rfl h, fun _ => ⟨?_, ?_⟩⟩
    · rintro ⟨front, hfront, hfile, _⟩
      exact absurd hfile (hfree front hfront)
    · exact fun q hq => Store.kind_eq_directory_iff.mpr (hpaved.directories q hq)
    · exact ⟨hpaved.grown.entry_eq hentry, hpaved.grown.order, hpaved.wellFormed, rfl,
        fun later => makeParents_standing hpaved.directories⟩
  · simp only [ne_eq, not_forall, not_not] at hfree
    obtain ⟨front, hfront, hfile⟩ := hfree
    have hresult : result = .error (.notADirectory ⟨true, front⟩) :=
      congrArg Prod.fst (hstopped hfront hfile)
    have hafter : after = before := congrArg Prod.snd (hstopped hfront hfile)
    refine ⟨fun fault => ⟨fun h => ?_, ?_⟩, fun _ => hafter, fun h => ?_⟩
    · exact ⟨front, hfront, hfile, Except.error.inj (h.symm.trans hresult)⟩
    · rintro ⟨other, hother, hfile, rfl⟩
      exact congrArg Prod.fst (hstopped hother hfile)
    · cases h.symm.trans hresult

/-- One directory is made below another that is missing, and a file is no directory. -/
theorem projects_made_and_profile_refused :
    let s := Desktop.newStore Config.standard ⟨0, 0⟩
    let w : Workspace := ⟨s, Windows.empty, "desktop", s.home, none, none, [], ⟨1, 0⟩⟩
    let way := (w.resolve "Documents/projects/demo").segments
    let after := (makeParents w.now Path.root way s).2
    s.root.kind = .directory ∧
      after.kind ⟨true, ["home", "user", "Documents", "projects", "demo"]⟩ = .ok .directory ∧
      after.root.paths.order ["home", "user", "Documents", "projects"] = ["demo"] ∧
      makeParents ⟨2, 0⟩ Path.root way after = (.ok (), after) ∧
      (makeParents w.now Path.root (w.resolve ".bashrc/demo").segments s).1 =
        .error (.notADirectory ⟨true, ["home", "user", ".bashrc"]⟩) := by
  intro s w way after
  have hroot : s.root.kind = .directory := rfl
  obtain ⟨_, _, hmade⟩ := parents_made_or_nothing "Documents/projects/demo" w hroot
  obtain ⟨hrefused, _, _⟩ := parents_made_or_nothing ".bashrc/demo" w hroot
  obtain ⟨hkind, _, _, _, _, hagain⟩ := hmade rfl
  refine ⟨hroot, hkind _ ?_, rfl, hagain ⟨2, 0⟩, ?_⟩
  · decide +kernel
  · exact (hrefused _).mpr ⟨["home", "user", ".bashrc"], by decide +kernel, rfl, rfl⟩

end Command

end DesktopTerminal

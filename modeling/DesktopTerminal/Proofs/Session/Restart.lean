import DesktopTerminal.Proofs.Command.Footprint
import DesktopTerminal.Proofs.Session.System
import DesktopTerminal.Proofs.Session.Turn
import DesktopTerminal.Proofs.Tree.Restoration

/-!
# Starting again from what was saved

A desktop that has been saved at any time is to start again with the same tree. The tree it started
with has been made from its configuration without a check, and a saved tree is checked. Every other
name in the tree comes from what was typed at a terminal, where no name has a slash. So it is the name
of the user alone that decides.
-/
namespace DesktopTerminal

variable {Q : Path → Prop}

/-! ## What is done at the terminals -/

namespace Session

/-- The current directory and the one before have the property. -/
structure Dwells (Q : Path → Prop) (s : Session) : Prop where
  cwd : Q s.cwd
  previous : ∀ p, s.previous = some p → Q p

/-- A line that runs here works only at paths with the property. -/
theorem leads_runLine {line : String} {w w' : Workspace} {o : Outcome}
    (h : runLine line w = .completed o w') (hw : w.Dwells Q) : w.Leads Q w' := by
  unfold runLine at h
  cases hparse : Line.parse line with
  | error m =>
    simp only [hparse] at h
    split at h
    · cases h
    · split at h <;> cases h
  | ok pipeline =>
    have hran : w.Leads Q (runPipeline pipeline w).2 := confined_runPipeline pipeline w hw
    simp only [hparse] at h
    split at h
    · rename_i o' after hpipeline
      obtain ⟨-, rfl⟩ := LineResult.completed.inj h
      rwa [hpipeline] at hran
    · cases h

/-- What is done at a terminal leaves it at paths with the property and works only there. -/
structure LeadsTo (Q : Path → Prop) (d : Desktop) (r : Desktop × Session) : Prop where
  worked : d.store.WorkedAt Q r.1.store
  dwells : r.2.Dwells Q

variable {d : Desktop} {s : Session}

theorem leadsTo_settle {line : String} {r : LineResult} {w : Workspace}
    (hstore : w.store = d.store)
    (hr : ∀ o w', r = .completed o w' → w.Leads Q w') (hs : s.Dwells Q) :
    LeadsTo Q d (s.settle line d r).2 := by
  cases r with
  | completed o w' =>
    obtain ⟨hdwells, hworked⟩ := hr o w' rfl
    rw [hstore] at hworked
    unfold settle
    simp only
    split
    · exact ⟨hworked, hdwells.cwd, hdwells.previous⟩
    · exact ⟨hworked, hdwells.cwd, hdwells.previous⟩
  | malformed cause => exact ⟨.refl _, hs.cwd, hs.previous⟩
  | delegate command => exact ⟨.refl _, hs.cwd, hs.previous⟩

theorem leadsTo_submit (now : Instant) (line : String) (hclosed : Path.Closed d.store.home Q)
    (hs : s.Dwells Q) : LeadsTo Q d (s.submit now line d).2 := by
  rw [submit_eq]
  split
  · exact ⟨.refl _, hs⟩
  · split
    · exact ⟨.refl _, hs.cwd, hs.previous⟩
    · have hw : ((s.entered line d).workspace now d).Dwells Q := ⟨hclosed, hs.cwd, hs.previous⟩
      exact leadsTo_settle rfl (fun o w' h => leads_runLine h hw) ⟨hs.cwd, hs.previous⟩

theorem dwells_withRecall (r : Recall × History) (hs : s.Dwells Q) : (s.withRecall r).Dwells Q := by
  unfold withRecall
  split <;> exact ⟨hs.cwd, hs.previous⟩

theorem leadsTo_act (now : Instant) (a : Action) (hclosed : Path.Closed d.store.home Q)
    (hs : s.Dwells Q) : LeadsTo Q d (s.act now a d).2 := by
  cases a with
  | submit line => exact leadsTo_submit now line hclosed hs
  | submitInput =>
    have htaken : Dwells Q { s with input := "" } := ⟨hs.cwd, hs.previous⟩
    exact leadsTo_submit now s.input hclosed htaken
  | historyPrevious => exact ⟨.refl _, dwells_withRecall s.history.previous hs⟩
  | historyNext => exact ⟨.refl _, dwells_withRecall s.history.next hs⟩
  | complete =>
    change LeadsTo Q d (d, (s.complete d).2)
    unfold complete
    split <;> exact ⟨.refl _, hs.cwd, hs.previous⟩
  | copy text =>
    change LeadsTo Q d (s.copy text d)
    unfold copy
    split <;> exact ⟨.refl _, hs.cwd, hs.previous⟩
  | paste =>
    change LeadsTo Q d (d, (s.paste d).2)
    unfold paste
    split <;> exact ⟨.refl _, hs.cwd, hs.previous⟩
  | setInput text => exact ⟨.refl _, hs.cwd, hs.previous⟩
  | interrupt => exact ⟨.refl _, hs.cwd, hs.previous⟩
  | finish answer => exact ⟨.refl _, hs.cwd, hs.previous⟩

end Session

namespace System

/-- Every terminal is at paths with the property, which commands keep. -/
structure Dwells (Q : Path → Prop) (y : System) : Prop where
  closed : Path.Closed y.desktop.store.home Q
  sessions : ∀ s ∈ y.sessions, s.Dwells Q

/-- Step: an event works only at paths with the property. -/
theorem dwells_step {y : System} (h : y.Dwells Q) (now : Instant) (e : Event) :
    (y.step now e).2.Dwells Q ∧ y.desktop.store.WorkedAt Q (y.step now e).2.desktop.store := by
  cases e with
  | start =>
    refine ⟨⟨h.closed, fun s hs => ?_⟩, .refl _⟩
    rcases List.mem_append.mp hs with hs | hs
    · exact h.sessions s hs
    · obtain rfl := List.mem_singleton.mp hs
      exact ⟨h.closed.atHome, fun p hp => by cases hp⟩
  | act i action =>
    unfold step
    simp only
    split
    · exact ⟨h, .refl _⟩
    · rename_i s hs
      obtain ⟨hworked, hdwells⟩ :=
        Session.leadsTo_act now action h.closed (h.sessions s (List.mem_of_getElem? hs))
      refine ⟨⟨hworked.home_eq ▸ h.closed, fun t ht => ?_⟩, hworked⟩
      rcases List.mem_or_eq_of_mem_set ht with ht | rfl
      · exact h.sessions t ht
      · exact hdwells

/-- Run: so do any number of events. -/
theorem dwells_run {y : System} (h : y.Dwells Q) (es : List (Event × Instant)) :
    (run es y).Dwells Q ∧ y.desktop.store.WorkedAt Q (run es y).desktop.store := by
  induction es generalizing y with
  | nil => exact ⟨h, .refl _⟩
  | cons e es ih =>
    obtain ⟨e, now⟩ := e
    obtain ⟨hstep, hworked⟩ := dwells_step h now e
    obtain ⟨hrun, hlater⟩ := ih hstep
    exact ⟨hrun, hworked.trans hlater⟩

end System

/-! ## Sound trees -/

namespace Node

/-- A directory with these names is sound inside if the names are and the children are. -/
theorem everywhere_folder (name : String) (owner : Identity) (now : Instant) {children : List Node}
    (ns : List String) (hchildren : names children = ns) (hns : SoundNames ns)
    (hinside : ∀ c ∈ children, Everywhere SoundNames c) :
    Everywhere SoundNames ((newDirectory name owner now).withChildren fun _ => children) :=
  .intro (hchildren ▸ hns) hinside

theorem soundNames_nil : SoundNames [] := ⟨List.nodup_nil, fun _ h => absurd h List.not_mem_nil⟩

end Node

open Node (Everywhere SoundNames everywhere_folder soundNames_nil) in
/-- The tree that a desktop starts with is sound exactly if the name of its user is legible. -/
theorem sound_initialTree_iff (owner : Identity) (hostname : String) (now : Instant) :
    (initialTree owner hostname now).Sound ↔ Legible owner.user := by
  constructor
  · intro h
    have hhome : (initialTree owner hostname now).descend? ["home"] = some (.directory "home" _ [_]) :=
      rfl
    have hnames := (h.inside.descend? hhome).here
    exact hnames.2 owner.user List.mem_cons_self
  · intro huser
    have hempty : ∀ (name : String) (owner : Identity), Everywhere SoundNames
        ((Node.newDirectory name owner now).withChildren fun _ => []) :=
      fun name owner => .of_no_children soundNames_nil rfl
    have hfile : ∀ (name content : String) (owner : Identity),
        Everywhere SoundNames (Node.newFile name content owner now) :=
      fun name content owner => .of_no_children soundNames_nil rfl
    have hdocuments := everywhere_folder "Documents" owner now ["readme.txt"] rfl
      ⟨by decide, by decide⟩ (List.forall_mem_singleton.mpr (hfile "readme.txt" welcomeText owner))
    have hfolder := everywhere_folder owner.user owner now
      ["Desktop", "Documents", "Downloads", ".bashrc"] rfl ⟨by decide, by decide⟩
      (List.forall_mem_cons.mpr ⟨hempty "Desktop" owner, List.forall_mem_cons.mpr ⟨hdocuments,
        List.forall_mem_cons.mpr ⟨hempty "Downloads" owner,
          List.forall_mem_singleton.mpr (hfile ".bashrc" shellProfile owner)⟩⟩⟩)
    have hhome := everywhere_folder "home" superuser now [owner.user] rfl
      ⟨List.nodup_singleton _, List.forall_mem_singleton.mpr huser⟩
      (List.forall_mem_singleton.mpr hfolder)
    have hetc := everywhere_folder "etc" superuser now ["hostname"] rfl ⟨by decide, by decide⟩
      (List.forall_mem_singleton.mpr (hfile "hostname" hostname superuser))
    have hroot := everywhere_folder "" superuser now ["home", "etc", "tmp", "bin"] rfl
      ⟨by decide, by decide⟩
      (List.forall_mem_cons.mpr ⟨hhome, List.forall_mem_cons.mpr ⟨hetc,
        List.forall_mem_cons.mpr ⟨hempty "tmp" superuser,
          List.forall_mem_singleton.mpr (hempty "bin" superuser)⟩⟩⟩)
    have hname : '/' ∉ "".toList := by decide
    exact ⟨hname, hroot⟩

namespace Store

theorem sound_worked {s t : Store} (h : s.WorkedAt Path.Legible t)
    (hd : s.root.kind = .directory) (hs : s.root.Sound) :
    t.root.kind = .directory ∧ t.root.Sound := by
  induction h with
  | refl => exact ⟨hd, hs⟩
  | tail _ hstep ih =>
    cases hstep with
    | apply op now _ hop =>
      exact ⟨(edited_apply op now _).kind_eq.trans ih.1, sound_apply hop now ih.2⟩

end Store

namespace Desktop

theorem start_withSeed (saved : Document) (c : Config) (now : Instant) :
    start (c.withSeed saved) now =
      match Store.ofDocument saved c.identity c.homePath with
      | .ok store => .ok (ofStore c.hostname store)
      | .error fault => .error ⟨fault⟩ := rfl

/-- A desktop starts with the tree of a store, as it was saved, exactly if that tree is sound. -/
theorem restarts_iff_sound {s : Store} (hd : s.root.kind = .directory) (c : Config) (now : Instant) :
    (∃ d, start (c.withSeed s.exported) now = .ok d ∧ d.store.root = s.root) ↔ s.root.Sound := by
  rw [start_withSeed]
  constructor
  · rintro ⟨d, hd', hroot⟩
    cases hstore : Store.ofDocument s.exported c.identity c.homePath with
    | error fault =>
      rw [hstore] at hd'
      cases hd'
    | ok store =>
      rw [hstore] at hd'
      obtain rfl := Except.ok.inj hd'
      have hsound : store.root.Sound := (Store.ofDocument_eq_ok hstore).2
      exact hroot ▸ hsound
  · intro hsound
    have hdocument : Node.ofDocument s.exported = .ok s.root := Node.sound_iff.mp hsound
    have hstore : Store.ofDocument s.exported c.identity c.homePath =
        .ok ⟨s.root, c.identity, c.homePath⟩ := by
      simp only [Store.ofDocument, hdocument, bind, Except.bind, Store.ofNode, hd]
    rw [hstore]
    exact ⟨_, rfl, rfl⟩

/-- A desktop without a saved tree can be started again from what was saved after every run of its
terminals, whatever it is started with, exactly if the name of its user is legible. -/
theorem always_restarts_iff (c : Config) :
    (∀ boot d, start { c with seed := none } boot = .ok d → ∀ (es : List (Event × Instant))
        (c' : Config) (now : Instant),
      let saved := (System.run es ⟨d, []⟩).desktop.store
      ∃ d', start (c'.withSeed saved.exported) now = .ok d' ∧ d'.store.root = saved.root) ↔
      Legible c.user := by
  constructor
  · intro h
    have hd : (newStore c ⟨0, 0⟩).root.kind = .directory := rfl
    have hrestart := h ⟨0, 0⟩ (ofStore c.hostname (newStore c ⟨0, 0⟩)) rfl [] c ⟨0, 0⟩
    have hsound : (newStore c ⟨0, 0⟩).root.Sound := (restarts_iff_sound hd c ⟨0, 0⟩).mp hrestart
    exact (sound_initialTree_iff c.identity c.hostname ⟨0, 0⟩).mp hsound
  · intro huser boot d hstart es c' now saved
    obtain rfl : ofStore c.hostname (newStore c boot) = d := Except.ok.inj hstart
    have hhome : c.homePath.Legible := c.legible_homePath_iff.mpr (.inr huser)
    have hdwells : System.Dwells Path.Legible ⟨ofStore c.hostname (newStore c boot), []⟩ :=
      ⟨Path.closed_legible hhome, fun s hs => absurd hs List.not_mem_nil⟩
    have hworked := (System.dwells_run hdwells es).2
    have hsound : (newStore c boot).root.Sound :=
      (sound_initialTree_iff c.identity c.hostname boot).mpr huser
    obtain ⟨hd, hsaved⟩ := Store.sound_worked hworked rfl hsound
    exact (restarts_iff_sound hd c' now).mpr hsaved

/-- The new desktop of the user `a/b` cannot be started again. -/
theorem slashed_user_never_restarts :
    let c := Config.standard.withUser "a/b"
    let d := ofStore c.hostname (newStore c ⟨0, 0⟩)
    start c ⟨0, 0⟩ = .ok d ∧
      start (c.withSeed d.store.exported) ⟨1, 0⟩ = .error ⟨.invalidNode "a/b" .name⟩ := by
  intro c d
  refine ⟨rfl, ?_⟩
  have hdocument : Store.ofDocument d.store.exported c.identity c.homePath =
      .error (.invalidNode "a/b" .name) := by
    cbv
  rw [start_withSeed, hdocument]

end Desktop

end DesktopTerminal

import DesktopTerminal.Command.Files
import DesktopTerminal.Desktop
import DesktopTerminal.Proofs.Path.Normal
import DesktopTerminal.Proofs.Tree.Atomicity
import DesktopTerminal.Proofs.Tree.Transplant

/-!
# Turns of a transfer

Copying and moving take their sources one after another, and each source finds the tree that those
before it have left. A turn that reports something has changed nothing. Any other turn has put the
node at the source at its target, and what stands apart from the target, and of a move from the
source too, is as before. `Turn` says this once for both commands, and a whole command is a run of
turns.

A target may lie above its source. Then the copy takes the place of a directory that holds the
source, and the source is gone with it; in no other case does a copy change its source.
-/
namespace DesktopTerminal

open PathMap (Apart)

namespace Workspace

variable {handle : String → Workspace → Option String × Workspace}

/-- The operands that were handled with nothing to report, in order. -/
def done (handle : String → Workspace → Option String × Workspace) :
    List String → Workspace → List String
  | [], _ => []
  | operand :: rest, w =>
    let r := handle operand w
    (if r.1 = none then [operand] else []) ++ done handle rest r.2

theorem forEach_cons_silent {operand : String} {rest : List String} {w : Workspace}
    (h : (forEach handle (operand :: rest) w).1 = []) :
    (handle operand w).1 = none ∧ (forEach handle rest (handle operand w).2).1 = [] := by
  obtain ⟨hfirst, hrest⟩ := List.append_eq_nil_iff.mp h
  exact ⟨Option.toList_eq_nil_iff.mp hfirst, hrest⟩

/-- If there is nothing to report, all operands were handled. -/
theorem done_of_silent {operands : List String} {w : Workspace}
    (h : (forEach handle operands w).1 = []) : done handle operands w = operands := by
  induction operands generalizing w with
  | nil => rfl
  | cons operand rest ih =>
    obtain ⟨hfirst, hrest⟩ := forEach_cons_silent h
    rw [done, if_pos hfirst, ih hrest]
    rfl

end Workspace

namespace Command

open Workspace (forEach done)

/-! ## Targets -/

theorem targetOf_eq_join {source destination : Path} {name : String}
    (hname : source.fileName? = some name) :
    targetOf source destination true = destination.join name := by
  simp only [targetOf, hname]

/-- A target is the destination, or it is right under it. -/
theorem targetOf_cases (source destination : Path) (into : Bool) :
    targetOf source destination into = destination ∨
      into = true ∧ ∃ name, source.fileName? = some name ∧
        targetOf source destination into = destination.join name := by
  unfold targetOf
  split
  · rename_i name hname
    exact .inr ⟨rfl, name, hname, rfl⟩
  · exact .inl rfl

theorem absolute_targetOf {source destination : Path} {into : Bool}
    (h : destination.absolute = true) : (targetOf source destination into).absolute = true := by
  rcases targetOf_cases source destination into with he | ⟨_, name, _, he⟩ <;> rw [he] <;> exact h

/-- A source that neither is its target nor holds it holds no target of another source. -/
theorem not_prefix_targetOf {p destination : Path} {into : Bool} (hp : p.absolute = true)
    (hd : destination.absolute = true) (hne : targetOf p destination into ≠ p)
    (hout : (targetOf p destination into).startsWith p = false) (q : Path) :
    ¬ p.segments <+: (targetOf q destination into).segments := by
  have hown : ¬ p.segments <+: (targetOf p destination into).segments := by
    intro hpre
    have habs : (targetOf p destination into).absolute = p.absolute :=
      (absolute_targetOf hd).trans hp.symm
    rw [Path.startsWith_iff.mpr ⟨habs, hpre⟩] at hout
    cases hout
  have houtside : ¬ p.segments <+: destination.segments := by
    intro hpre
    apply hown
    rcases targetOf_cases p destination into with he | ⟨_, name, _, he⟩ <;> rw [he]
    · exact hpre
    · exact hpre.trans (List.prefix_append _ _)
  rcases targetOf_cases q destination into with he | ⟨hinto, name, hname, he⟩
  · rwa [he]
  · rw [he]
    intro hpre
    rcases List.prefix_concat_iff.mp hpre with hsame | hpre
    · -- the source is right under the destination, where it would go itself
      have hlast : p.fileName? = some name := by
        rw [Path.fileName?_eq_getLast?, hsame]
        exact List.getLast?_concat
      apply hne
      rw [hinto, targetOf_eq_join hlast]
      exact Path.mk.injEq .. |>.mpr ⟨hd.trans hp.symm, hsame.symm⟩
    · exact houtside hpre

/-! ## One turn -/

/-- What a turn that reports nothing does with the node at `p`. Where `takes` holds it takes the node
away from there; `carried` is what becomes of the node. -/
structure Turn (takes : Prop) (carried : Instant → Node → Node) (d : Destination) (p : Path)
    (w w' : Workspace) : Prop where
  resolve : ∀ text, w'.resolve text = w.resolve text
  now : w'.now = w.now
  outside : ∀ q, ¬ p.segments <+: (targetOf q d.path d.isDirectory).segments
  arrived : (targetOf p d.path d.isDirectory).fileName? = p.fileName? →
    ∃ n, w.store.root.descend? p.segments = some n ∧
      w'.store.root.descend? (targetOf p d.path d.isDirectory).segments = some (carried w.now n)
  frame : ∀ q, Apart (targetOf p d.path d.isDirectory).segments q →
    (takes → Apart p.segments q) → w'.store.root.descend? q = w.store.root.descend? q
  wellFormed : w.store.root.WellFormed → w'.store.root.WellFormed
  missing : takes → w.store.root.WellFormed →
    ∀ q, ¬ (targetOf p d.path d.isDirectory).segments <+: q →
      p.segments <+: q ∨ w.store.root.descend? q = none → w'.store.root.descend? q = none

theorem Turn.map_resolve {takes : Prop} {carried : Instant → Node → Node} {d : Destination}
    {p : Path} {w w' : Workspace} (h : Turn takes carried d p w w') (operands : List String) :
    operands.map w'.resolve = operands.map w.resolve :=
  List.map_congr_left fun text _ => h.resolve text

/-- Whatever operand the command takes up, it reports something and changes nothing, or it makes a
turn. -/
def Transports (takes : Prop) (carried : Instant → Node → Node) (d : Destination)
    (handle : String → Workspace → Option String × Workspace) : Prop :=
  ∀ operand w, ((handle operand w).1 ≠ none ∧ (handle operand w).2 = w) ∨
    ((handle operand w).1 = none ∧
      Turn takes carried d (w.resolve operand) w (handle operand w).2)

theorem resolve_apply (op : Store.Operation) (now : Instant) (w : Workspace) (text : String) :
    ({ w with store := (w.store.apply op now).2 } : Workspace).resolve text = w.resolve text := by
  simp only [Workspace.resolve, Store.resolve, Store.home_apply]

theorem absolute_workspace_resolve (w : Workspace) (text : String) :
    (w.resolve text).absolute = true :=
  Path.absolute_resolve w.cwd text w.store.home

theorem cpFault_eq_none_iff {d : Destination} {operand : String} {result : Except Fault Unit} :
    cpFault d operand result = none ↔ result = .ok () := by
  unfold cpFault
  split <;> simp

theorem mvFault_eq_none_iff {d : Destination} {operand : String} {result : Except Fault Unit} :
    mvFault d operand result = none ↔ result = .ok () := by
  unfold mvFault
  split <;> simp

section Turns

variable {d : Destination} {operand : String} {w : Workspace}

/-- A turn of `cp` reports something and changes nothing, or it copies. -/
theorem cpOne_cases (recursive : Bool) (d : Destination) (operand : String) (w : Workspace) :
    let source := w.resolve operand
    let target := targetOf source d.path d.isDirectory
    ((cpOne recursive d operand w).1 ≠ none ∧ (cpOne recursive d operand w).2 = w) ∨
      ((cpOne recursive d operand w).1 = none ∧ target ≠ source ∧
        (w.store.copy source target w.now).1 = .ok () ∧
        (cpOne recursive d operand w).2 =
          { w with store := (w.store.copy source target w.now).2 }) := by
  intro source target
  rw [cpOne]
  split
  · exact .inl ⟨by simp, rfl⟩
  · split
    · exact .inl ⟨by simp, rfl⟩
    · simp only
      split
      · exact .inl ⟨by simp, rfl⟩
      · rename_i hne
        cases h : (w.store.copy source target w.now).1 with
        | ok => exact .inr ⟨cpFault_eq_none_iff.mpr h, hne, rfl, rfl⟩
        | error fault =>
          have hs : (w.store.copy source target w.now).2 = w.store := Store.commit_of_error h
          refine .inl ⟨fun hnone => ?_, congrArg (fun store => { w with store }) hs⟩
          cases h.symm.trans (cpFault_eq_none_iff.mp hnone)

theorem transports_cp (recursive : Bool) (hd : d.path.absolute = true) :
    Transports False Node.createdAt d (cpOne recursive d) := by
  intro operand w
  rcases cpOne_cases recursive d operand w with hsame | ⟨hsilent, hne, hok, hw⟩
  · exact .inl hsame
  refine .inr ⟨hsilent, ?_⟩
  rw [hw]
  obtain ⟨_, _, _, _, hout, _⟩ := Store.copy_eq_ok hok
  exact {
    resolve := resolve_apply (.copy _ _) w.now w
    now := rfl
    outside := not_prefix_targetOf (absolute_workspace_resolve w operand) hd hne hout
    arrived := Store.descend?_copy_target hok
    frame := fun q hq _ => Store.descend?_copy_of_apart hok hq
    wellFormed := Store.wellFormed_apply (.copy _ _) w.now
    missing := False.elim }

/-- A move between absolute paths that fails has changed nothing. -/
theorem move_unchanged {source target : Path} {s : Store} {fault : Fault}
    (hs : source.absolute = true) (ht : target.absolute = true)
    (h : (s.move source target).1 = .error fault) : (s.move source target).2 = s := by
  rcases Store.move_of_error h with hsame | hloses
  · exact hsame
  · exact absurd (hs.trans ht.symm) hloses.marks

/-- A turn of `mv` reports something and changes nothing, or it moves. -/
theorem mvOne_cases (hd : d.path.absolute = true) (operand : String) (w : Workspace) :
    let source := w.resolve operand
    let target := targetOf source d.path d.isDirectory
    ((mvOne d operand w).1 ≠ none ∧ (mvOne d operand w).2 = w) ∨
      ((mvOne d operand w).1 = none ∧ target ≠ source ∧
        (w.store.move source target).1 = .ok () ∧
        (mvOne d operand w).2 = { w with store := (w.store.move source target).2 }) := by
  intro source target
  rw [mvOne]
  split
  · exact .inl ⟨by simp, rfl⟩
  · simp only
    split
    · exact .inl ⟨by simp, rfl⟩
    · rename_i hne
      cases h : (w.store.move source target).1 with
      | ok => exact .inr ⟨mvFault_eq_none_iff.mpr h, hne, rfl, rfl⟩
      | error fault =>
        have hs : (w.store.move source target).2 = w.store :=
          move_unchanged (absolute_workspace_resolve w operand) (absolute_targetOf hd) h
        refine .inl ⟨fun hnone => ?_, congrArg (fun store => { w with store }) hs⟩
        cases h.symm.trans (mvFault_eq_none_iff.mp hnone)

theorem transports_mv (hd : d.path.absolute = true) :
    Transports True (fun _ n => n) d (mvOne d) := by
  intro operand w
  have hsource := absolute_workspace_resolve w operand
  rcases mvOne_cases hd operand w with hsame | ⟨hsilent, hne, hok, hw⟩
  · exact .inl hsame
  refine .inr ⟨hsilent, ?_⟩
  rw [hw]
  obtain ⟨_, _, _, _, _, _, hout, _⟩ := Store.move_eq_ok hok
  exact {
    resolve := resolve_apply (.move _ _) w.now w
    now := rfl
    outside := not_prefix_targetOf hsource hd hne hout
    arrived := Store.descend?_move_target hok
    frame := fun q hq htaken => Store.descend?_move_of_apart hok (htaken trivial) hq
    wellFormed := Store.wellFormed_apply (.move _ _) w.now
    missing := fun _ hwell q hq hnone =>
      Store.descend?_move_eq_none hwell hsource (absolute_targetOf hd) hok hq hnone }

end Turns

/-! ## Runs of turns -/

namespace Transports

variable {takes : Prop} {carried : Instant → Node → Node} {d : Destination}
  {handle : String → Workspace → Option String × Workspace}
  (h : Transports takes carried d handle) {sources : List String} {w : Workspace}
include h

theorem turn {operand : String} (hsilent : (handle operand w).1 = none) :
    Turn takes carried d (w.resolve operand) w (handle operand w).2 := by
  rcases h operand w with ⟨hreport, _⟩ | ⟨_, hturn⟩
  · exact absurd hsilent hreport
  · exact hturn

theorem resolve (operand text : String) : (handle operand w).2.resolve text = w.resolve text := by
  rcases h operand w with ⟨_, hsame⟩ | ⟨_, hturn⟩
  · rw [hsame]
  · exact hturn.resolve text

/-- Each source that goes through has made its turn somewhere along the run. -/
theorem turn_of_done {operand : String} (hdone : operand ∈ done handle sources w) :
    ∃ v, Turn takes carried d (w.resolve operand) v (handle operand v).2 := by
  induction sources generalizing w with
  | nil => cases hdone
  | cons first rest ih =>
    rw [done, List.mem_append] at hdone
    rcases hdone with hfirst | hrest
    · split at hfirst
      · rename_i hsilent
        obtain rfl := List.mem_singleton.mp hfirst
        exact ⟨w, h.turn hsilent⟩
      · cases hfirst
    · have hlater := ih hrest
      rwa [h.resolve] at hlater

/-- No source that goes through holds a target. -/
theorem outside {operand : String} (hdone : operand ∈ done handle sources w) (q : Path) :
    ¬ (w.resolve operand).segments <+: (targetOf q d.path d.isDirectory).segments := by
  obtain ⟨_, hturn⟩ := h.turn_of_done hdone
  exact hturn.outside q

/-- What stands apart from every target, and from the sources that are taken, stays. -/
theorem descend?_forEach {q : List String}
    (htargets : ∀ x ∈ done handle sources w,
      Apart (targetOf (w.resolve x) d.path d.isDirectory).segments q)
    (hsources : takes → ∀ x ∈ done handle sources w, Apart (w.resolve x).segments q) :
    (forEach handle sources w).2.store.root.descend? q = w.store.root.descend? q := by
  induction sources generalizing w with
  | nil => rfl
  | cons first rest ih =>
    have hrest : ∀ x ∈ done handle rest (handle first w).2, x ∈ done handle (first :: rest) w :=
      fun x hx => List.mem_append_right _ hx
    have hlater := ih (w := (handle first w).2)
      (fun x hx => by
        rw [h.resolve]
        exact htargets x (hrest x hx))
      (fun ht x hx => by
        rw [h.resolve]
        exact hsources ht x (hrest x hx))
    refine hlater.trans ?_
    rcases h first w with ⟨_, hsame⟩ | ⟨hsilent, hturn⟩
    · rw [hsame]
    · have hfirst : first ∈ done handle (first :: rest) w := by
        rw [done, if_pos hsilent]
        exact List.mem_cons_self
      exact hturn.frame q (htargets first hfirst) fun ht => hsources ht first hfirst

end Transports

/-! ## Whole commands -/

theorem splitOperands_snoc (tool : String) {sources : List String} (h : sources ≠ [])
    (operand : String) :
    splitOperands tool (sources ++ [operand]) = .ok (sources, operand) := by
  obtain ⟨first, rest, rfl⟩ := List.exists_cons_of_ne_nil h
  cases rest with
  | nil => rfl
  | cons second rest =>
    rw [List.cons_append, List.cons_append, splitOperands, ← List.cons_append, ← List.cons_append,
      List.dropLast_concat, List.getLast?_concat]
    rfl

/-- A transfer refuses outright, or it takes up its sources. -/
theorem transfer_cases {tool : String}
    {one : Destination → String → Workspace → Option String × Workspace} {a : Arguments}
    {sources : List String} {operand : String} (ha : a.positional = sources ++ [operand])
    (w : Workspace) :
    ((transfer tool one a w).1.code ≠ 0 ∧ (transfer tool one a w).2 = w) ∨
      transfer tool one a w = finishSilently (forEach (one (destinationOf operand w)) sources w) := by
  by_cases hnil : sources = []
  · subst hnil
    rw [transfer, ha]
    exact .inl ⟨Nat.one_ne_zero, rfl⟩
  rw [transfer, ha, splitOperands_snoc tool hnil]
  simp only
  split
  · exact .inl ⟨Nat.one_ne_zero, rfl⟩
  · exact .inr rfl

theorem absolute_destinationOf (operand : String) (w : Workspace) :
    (destinationOf operand w).path.absolute = true :=
  absolute_workspace_resolve w operand

/-! ## Sources of copies -/

/-- A successful copy leaves its source as it was, exactly if its target is not above the source. -/
theorem copy_unchanged_iff {s : Store} {source target : Path} {now : Instant}
    (hs : source.absolute = true) (ht : target.absolute = true)
    (h : (s.copy source target now).1 = .ok ()) :
    (s.copy source target now).2.root.descend? source.segments =
        s.root.descend? source.segments ↔ ¬ target.segments <+: source.segments := by
  obtain ⟨n, spot, hn, hspot, hout, hcopied⟩ := Store.copy_eq_ok h
  have hup : ¬ source.segments <+: target.segments := by
    intro hpre
    rw [Path.startsWith_iff.mpr ⟨ht.trans hs.symm, hpre⟩] at hout
    cases hout
  constructor
  · rintro hsame ⟨r, hr⟩
    -- under its target the source would be a node below itself
    have hr0 : r ≠ [] := by
      rintro rfl
      rw [List.append_nil] at hr
      exact hup (hr ▸ List.prefix_rfl)
    obtain ⟨name, r, rfl⟩ := List.exists_cons_of_ne_nil hr0
    rw [hn, hcopied, ← hr, Node.descend?_attach_append hspot, Node.descend?_rename_cons,
      Node.createdAt, Node.descend?_withInfo_cons] at hsame
    exact Node.descend?_ne_self hr0 hsame
  · exact fun hdown => Store.descend?_copy_of_apart h ⟨hdown, hup⟩

/-- A copy that succeeds leaves the subtree at its source as it was, unless its target is above the
source; then it does not. So does each turn of `cp` that reports nothing, and the whole command
leaves every source alone that it has copied and that lies under no target of what it has copied. -/
theorem copy_spares_source_iff :
    (∀ (s : Store) (source target : Path) (now : Instant),
      source.absolute = true → target.absolute = true →
      (s.copy source target now).1 = .ok () →
      ((s.copy source target now).2.root.descend? source.segments =
          s.root.descend? source.segments ↔ ¬ target.segments <+: source.segments)) ∧
    (∀ (recursive : Bool) (destination operand : String) (start w : Workspace),
      let d := destinationOf destination start
      let turn := cpOne recursive d operand w
      let source := (w.resolve operand).segments
      turn.1 = none →
      (turn.2.store.root.descend? source = w.store.root.descend? source ↔
        ¬ (targetOf (w.resolve operand) d.path d.isDirectory).segments <+: source)) ∧
    (∀ (a : Arguments) (sources : List String) (operand : String) (w : Workspace),
      a.positional = sources ++ [operand] →
      let d := destinationOf operand w
      let copied := done (cpOne (a.hasFlag "recursive") d) sources w
      ∀ x ∈ copied,
        (∀ y ∈ copied, ¬ (targetOf (w.resolve y) d.path d.isDirectory).segments <+:
          (w.resolve x).segments) →
        (cp a w).2.store.root.descend? (w.resolve x).segments =
          w.store.root.descend? (w.resolve x).segments) := by
  refine ⟨fun s source target now => copy_unchanged_iff, ?_, ?_⟩
  · intro recursive destination operand start w d turn source hsilent
    have hd := absolute_destinationOf destination start
    rcases cpOne_cases recursive d operand w with ⟨hreport, _⟩ | ⟨_, _, hok, hw⟩
    · exact absurd hsilent hreport
    · have hstore : turn.2.store = _ := congrArg Workspace.store hw
      rw [hstore]
      exact copy_unchanged_iff (absolute_workspace_resolve w operand) (absolute_targetOf hd) hok
  · intro a sources operand w ha d copied x hx hdown
    have hcp := transports_cp (a.hasFlag "recursive") (absolute_destinationOf operand w)
    rcases transfer_cases ha w with ⟨_, hsame⟩ | hran
    · exact congrArg (fun w : Workspace => w.store.root.descend? _) hsame
    · rw [cp, hran]
      refine hcp.descend?_forEach (fun y hy => ⟨hdown y hy, hcp.outside hx _⟩) False.elim

/-- A directory is copied into the one next to it, and a file with it; neither changes. -/
theorem copied_next_door_unchanged :
    let s := Desktop.newStore Config.standard ⟨0, 0⟩
    let source : Path := ⟨true, ["home", "user", "Documents"]⟩
    let target : Path := ⟨true, ["home", "user", "Downloads", "Documents"]⟩
    let w : Workspace := ⟨s, Windows.empty, "desktop", s.home, none, none, [], ⟨1, 0⟩⟩
    let a : Arguments := ⟨["Documents", ".bashrc", "Downloads"], [], ["recursive"]⟩
    let d := destinationOf "Downloads" w
    (s.copy source target ⟨1, 0⟩).1 = .ok () ∧
      (s.copy source target ⟨1, 0⟩).2.root.descend? source.segments =
        s.root.descend? source.segments ∧
      (cpOne true d "Documents" w).1 = none ∧
      (cpOne true d "Documents" w).2.store.root.descend? source.segments =
        s.root.descend? source.segments ∧
      (cp a w).1.code = 0 ∧
      (cp a w).2.store.root.descend? ["home", "user", ".bashrc"] =
        s.root.descend? ["home", "user", ".bashrc"] := by
  intro s source target w a d
  obtain ⟨hcopy, hturn, hcp⟩ := copy_spares_source_iff
  have hok : (s.copy source target ⟨1, 0⟩).1 = .ok () := rfl
  have hsilent : (cpOne true d "Documents" w).1 = none := by decide +kernel
  have hcode : (cp a w).1.code = 0 := by decide +kernel
  have hcopied : done (cpOne true d) ["Documents", ".bashrc"] w = ["Documents", ".bashrc"] := by
    decide +kernel
  refine ⟨hok, (hcopy s source target ⟨1, 0⟩ rfl rfl hok).mpr (by decide), hsilent,
    (hturn true "Downloads" "Documents" w w hsilent).mpr (by decide), hcode, ?_⟩
  refine hcp a ["Documents", ".bashrc"] "Downloads" w rfl ".bashrc" (hcopied.symm ▸ ?_) ?_
  · decide
  · intro y hy
    have hy : y ∈ ["Documents", ".bashrc"] := hcopied ▸ hy
    revert y
    decide

/-- A directory whose name is that of the one above it is copied over that one, and is gone. -/
theorem namesake_copied_over_directory_above :
    let folder (name : String) (children : List Node) : Node :=
      .directory name ⟨Mode.initial .directory, "user", "user", ⟨0, 0⟩⟩ children
    let file : Node := .newFile "note" "text" ⟨"user", "user"⟩ ⟨0, 0⟩
    let s : Store := ⟨folder "" [folder "x" [folder "a" [folder "a" [file]]]],
      ⟨"user", "user"⟩, Path.root⟩
    let w : Workspace := ⟨s, Windows.empty, "desktop", Path.root, none, none, [], ⟨1, 0⟩⟩
    let after := (cp ⟨["x/a/a", "x"], [], ["recursive"]⟩ w).2.store
    (cp ⟨["x/a/a", "x"], [], ["recursive"]⟩ w).1 = Outcome.success "" ∧
      s.copy ⟨true, ["x", "a", "a"]⟩ ⟨true, ["x", "a"]⟩ ⟨1, 0⟩ = (.ok (), after) ∧
      s.read ⟨true, ["x", "a", "a", "note"]⟩ = .ok "text" ∧
      after.root.descend? ["x", "a", "a"] = none :=
  ⟨rfl, rfl, rfl, rfl⟩

end Command

end DesktopTerminal

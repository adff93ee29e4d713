import DesktopTerminal.Proofs.Secrecy.Line
import DesktopTerminal.Proofs.Session.System
import DesktopTerminal.Proofs.Session.Turn
import DesktopTerminal.Proofs.Tree.Export
import Mathlib.Data.List.Forall2

/-!
# Contents stay at home

Two systems whose files differ in contents only, and whose terminals differ in what is on their
screens only, cannot be told apart by what they send to the gateway. Whatever is done at their
terminals, the same lines are delegated with the same requests, the same directories, histories and
inputs are there, and the trees go on differing in contents only.
-/
namespace DesktopTerminal

namespace Completion

theorem candidates_bare (rest : List Char) (es : List Entry) :
    candidates rest (es.map Entry.bare) = (candidates rest es).map Entry.bare := by
  rw [candidates, candidates]
  rw [← List.map_mergeSort (r := fun a b => decide (a.name ≤ b.name)) fun a _ b _ => rfl]
  rw [List.filter_map]
  rfl

/-- Completion looks at names and kinds. -/
theorem completeLine_bare (schemas : List Schema) (store : Store) (cwd : Path) (input : String) :
    completeLine schemas store.bare cwd input = completeLine schemas store cwd input := by
  have hpath : ∀ token, pathFor store.bare cwd token = pathFor store cwd token := by
    intro token
    rw [pathFor, pathFor]
    have hdirectory : ∀ part, directoryFor store.bare cwd part = directoryFor store cwd part :=
      fun _ => rfl
    simp only [hdirectory, Store.entries_bare]
    cases store.entries (directoryFor store cwd (splitDirectory token).1) with
    | error fault => rfl
    | ok es =>
      simp only [Except.map, candidates_bare, List.head?_map, Option.map_map]
      rfl
  simp only [completeLine, hpath]

end Completion

/-- The desktop without contents and without the name of the host. -/
def Desktop.bare (d : Desktop) : Desktop := { d with store := d.store.bare, hostname := "" }

namespace Session

/-- The session with an empty screen. -/
def unlogged (s : Session) : Session := { s with log := [] }

/-- Sessions that agree but for their screens are one session with two logs. -/
theorem exists_log {s s' : Session} (h : s.unlogged = s'.unlogged) :
    ∃ log, s' = { s with log := log } := by
  refine ⟨s'.log, ?_⟩
  change s' = { s.unlogged with log := s'.log }
  rw [h]
  rfl

/-- The same came back, and what is left differs in contents and on the screen only. -/
structure Alike {α : Type} (r r' : α × Desktop × Session) : Prop where
  reply : r.1 = r'.1
  desktop : r.2.1.bare = r'.2.1.bare
  session : r.2.2.unlogged = r'.2.2.unlogged

theorem outline_eq_of_bare {d d' : Desktop} (h : d.bare = d'.bare) :
    d.store.outline = d'.store.outline := by
  have hroot : d.store.root.bare = d'.store.root.bare := congrArg (fun d => d.store.root) h
  exact Node.toDocument_false_eq_iff.mpr hroot

theorem workspace_bare (now : Instant) {d d' : Desktop} {s s' : Session}
    (hd : d.bare = d'.bare) (hs : s.unlogged = s'.unlogged) :
    (s.workspace now d).bare = (s'.workspace now d').bare := by
  obtain ⟨log, rfl⟩ := exists_log hs
  have hstore : d.store.bare = d'.store.bare := congrArg (·.store) hd
  have hwindows : d.windows = d'.windows := congrArg (·.windows) hd
  simp only [workspace, Workspace.bare, hstore, hwindows]

/-! ## What is done at one terminal -/

theorem settle_alike (line : String) {d d' : Desktop} {s s' : Session} (hd : d.bare = d'.bare)
    (hs : s.unlogged = s'.unlogged) {r r' : LineResult} (hr : r.Alike r') :
    Alike (s.settle line d r) (s'.settle line d' r') := by
  obtain ⟨log, rfl⟩ := exists_log hs
  cases r with
  | completed o w =>
    cases r' with
    | completed o' w' =>
      obtain ⟨hclear, hw⟩ := hr
      have hdesktop : ({ d with store := w.store, windows := w.windows } : Desktop).bare =
          ({ d' with store := w'.store, windows := w'.windows } : Desktop).bare := by
        change ({ d.bare with store := w.bare.store, windows := w.bare.windows } : Desktop) =
          { d'.bare with store := w'.bare.store, windows := w'.bare.windows }
        rw [hd, hw]
      have hsession : (s.follow w).unlogged = (s.follow w').unlogged := by
        change ({ s.unlogged with cwd := w.bare.cwd, previous := w.bare.previous } : Session) =
          { s.unlogged with cwd := w'.bare.cwd, previous := w'.bare.previous }
        rw [hw]
      have hended := congrArg (moveTo .idle) hsession
      rw [settle, settle, hclear]
      split
      · exact ⟨rfl, hdesktop, hended⟩
      · exact ⟨rfl, hdesktop, hended⟩
    | delegate command => exact hr.elim
    | malformed cause => exact hr.elim
  | delegate command =>
    cases r' with
    | completed o' w' => exact hr.elim
    | delegate command' =>
      obtain rfl : command = command' := hr
      rw [settle, settle, outline_eq_of_bare hd]
      exact ⟨rfl, hd, rfl⟩
    | malformed cause => exact hr.elim
  | malformed cause =>
    cases r' with
    | completed o' w' => exact hr.elim
    | delegate command' => exact hr.elim
    | malformed cause' => exact ⟨rfl, hd, rfl⟩

theorem submit_alike (now : Instant) (line : String) {d d' : Desktop} {s s' : Session}
    (hd : d.bare = d'.bare) (hs : s.unlogged = s'.unlogged) :
    Alike (s.submit now line d) (s'.submit now line d') := by
  have hentered : (s.entered line d).unlogged = (s'.entered line d').unlogged := by
    obtain ⟨log, rfl⟩ := exists_log hs
    rfl
  have hrunning : ((s.entered line d).moveTo .processing).unlogged =
      ((s'.entered line d').moveTo .processing).unlogged :=
    congrArg (moveTo .processing) hentered
  have hbusy : s.isBusy = s'.isBusy := by
    obtain ⟨log, rfl⟩ := exists_log hs
    rfl
  rw [submit_eq, submit_eq, hbusy]
  split
  · exact ⟨rfl, hd, hs⟩
  · split
    · exact ⟨rfl, hd, congrArg (endTurn .rendered) hentered⟩
    · exact settle_alike line hd hrunning (runLine_alike line (workspace_bare now hd hentered))

section Act

variable {d d' : Desktop} (hd : d.bare = d'.bare) (s : Session) (log : List LogEntry)
include hd

theorem complete_alike :
    (s.complete d).1 = (({ s with log := log } : Session).complete d').1 ∧
      (s.complete d).2.unlogged = (({ s with log := log } : Session).complete d').2.unlogged := by
  have hstore : d.store.bare = d'.store.bare := congrArg (·.store) hd
  have hline : Completion.completeLine Builtin.schemas d.store s.cwd s.input =
      Completion.completeLine Builtin.schemas d'.store s.cwd s.input := by
    rw [← Completion.completeLine_bare, hstore, Completion.completeLine_bare]
  simp only [complete, hline]
  cases Completion.completeLine Builtin.schemas d'.store s.cwd s.input <;> exact ⟨rfl, rfl⟩

theorem paste_alike :
    (s.paste d).1 = (({ s with log := log } : Session).paste d').1 ∧
      (s.paste d).2.unlogged = (({ s with log := log } : Session).paste d').2.unlogged := by
  have hclipboard : d.clipboard = d'.clipboard := congrArg (·.clipboard) hd
  have hpasted : s.pasted? d = ({ s with log := log } : Session).pasted? d' := by
    rw [pasted?, pasted?, hclipboard]
  rw [paste, paste, hpasted]
  split <;> exact ⟨rfl, rfl⟩

theorem copy_alike (text : String) :
    (s.copy text d).1.bare = (({ s with log := log } : Session).copy text d').1.bare ∧
      (s.copy text d).2.unlogged = (({ s with log := log } : Session).copy text d').2.unlogged := by
  rw [copy, copy]
  split
  · exact ⟨hd, rfl⟩
  · exact ⟨congrArg (fun d : Desktop => { d with clipboard := some text }) hd, rfl⟩

end Act

theorem unlogged_withRecall (r : Recall × History) (s : Session) (log : List LogEntry) :
    (s.withRecall r).unlogged = (({ s with log := log } : Session).withRecall r).unlogged := by
  rw [withRecall, withRecall]
  split <;> rfl

/-- Whatever is done at the terminal, the same comes back. -/
theorem act_alike (now : Instant) (a : Action) {d d' : Desktop} {s s' : Session}
    (hd : d.bare = d'.bare) (hs : s.unlogged = s'.unlogged) :
    Alike (s.act now a d) (s'.act now a d') := by
  obtain ⟨log, rfl⟩ := exists_log hs
  cases a with
  | submit line =>
    obtain ⟨hreply, hdesktop, hsession⟩ := submit_alike now line hd hs
    exact ⟨congrArg Reply.turn hreply, hdesktop, hsession⟩
  | submitInput =>
    have hcleared : ({ s with input := "" } : Session).unlogged =
        ({ s with input := "", log := log } : Session).unlogged := rfl
    obtain ⟨hreply, hdesktop, hsession⟩ := submit_alike now s.input hd hcleared
    exact ⟨congrArg Reply.turn hreply, hdesktop, hsession⟩
  | setInput text => exact ⟨rfl, hd, rfl⟩
  | historyPrevious => exact ⟨rfl, hd, unlogged_withRecall s.history.previous s log⟩
  | historyNext => exact ⟨rfl, hd, unlogged_withRecall s.history.next s log⟩
  | complete =>
    obtain ⟨hchanged, hsession⟩ := complete_alike hd s log
    exact ⟨congrArg Reply.completed hchanged, hd, hsession⟩
  | copy text =>
    obtain ⟨hdesktop, hsession⟩ := copy_alike hd s log text
    exact ⟨rfl, hdesktop, hsession⟩
  | paste =>
    obtain ⟨htext, hsession⟩ := paste_alike hd s log
    exact ⟨congrArg Reply.pasted htext, hd, hsession⟩
  | interrupt => exact ⟨rfl, hd, rfl⟩
  | finish answer => exact ⟨rfl, hd, rfl⟩

theorem hostname_submit (now : Instant) (line : String) (d : Desktop) (s : Session) :
    (s.submit now line d).2.1.hostname = d.hostname := by
  rw [submit_eq]
  split
  · rfl
  · split
    · rfl
    · cases runLine line ((s.entered line d).workspace now d) with
      | completed o w =>
        rw [settle]
        split <;> rfl
      | delegate command => rfl
      | malformed cause => rfl

theorem hostname_act (now : Instant) (a : Action) (d : Desktop) (s : Session) :
    (s.act now a d).2.1.hostname = d.hostname := by
  cases a with
  | submit line => exact hostname_submit now line d s
  | submitInput => exact hostname_submit now s.input d { s with input := "" }
  | copy text =>
    rw [act, copy]
    split <;> rfl
  | _ => rfl

end Session

/-! ## Systems -/

namespace System

/-- Two systems that differ in contents and on screens only, and in the name of the host unless it
is known to be the same. -/
structure Alike (sameHost : Prop) (y z : System) : Prop where
  desktop : y.desktop.bare = z.desktop.bare
  sessions : y.sessions.map Session.unlogged = z.sessions.map Session.unlogged
  hostname : sameHost → y.desktop.hostname = z.desktop.hostname

/-- What came back and what is to be seen besides contents and screens. -/
structure SameView (sameHost : Prop) (a b : Reply × System) : Prop where
  reply : a.1 = b.1
  outline : a.2.desktop.store.outline = b.2.desktop.store.outline
  sessions : List.Forall₂ (fun s t : Session =>
    s.cwd = t.cwd ∧ s.displayCwd a.2.desktop = t.displayCwd b.2.desktop ∧
      s.history = t.history ∧ s.input = t.input ∧
      (sameHost → s.prompt a.2.desktop = t.prompt b.2.desktop)) a.2.sessions b.2.sessions

variable {sameHost : Prop} {y z : System}

theorem step_alike (now : Instant) (e : Event) (h : Alike sameHost y z) :
    (y.step now e).1 = (z.step now e).1 ∧ Alike sameHost (y.step now e).2 (z.step now e).2 := by
  obtain ⟨hdesktop, hsessions, hhost⟩ := h
  cases e with
  | start =>
    have hhome : y.desktop.store.home = z.desktop.store.home := congrArg (·.store.home) hdesktop
    have hstart : (Session.start y.desktop).unlogged = (Session.start z.desktop).unlogged := by
      rw [Session.start, Session.start, hhome]
    refine ⟨rfl, hdesktop, ?_, hhost⟩
    simp only [step, List.map_append, List.map_cons, List.map_nil, hsessions, hstart]
  | act i action =>
    have hget : (y.sessions[i]?).map Session.unlogged = (z.sessions[i]?).map Session.unlogged := by
      rw [← List.getElem?_map, hsessions, List.getElem?_map]
    rw [step, step]
    cases hy : y.sessions[i]? with
    | none =>
      cases hz : z.sessions[i]? with
      | none => exact ⟨rfl, hdesktop, hsessions, hhost⟩
      | some t => simp [hy, hz] at hget
    | some s =>
      cases hz : z.sessions[i]? with
      | none => simp [hy, hz] at hget
      | some t =>
        have hst : s.unlogged = t.unlogged := by simpa [hy, hz] using hget
        obtain ⟨hreply, hd, hs⟩ := Session.act_alike now action hdesktop hst
        refine ⟨hreply, hd, ?_, fun hsame => ?_⟩
        · simp only [List.map_set, hsessions, hs]
        · simp only [Session.hostname_act]
          exact hhost hsame

theorem Alike.sameView {r r' : Reply} (hr : r = r') (h : Alike sameHost y z) :
    SameView sameHost (r, y) (r', z) := by
  obtain ⟨hdesktop, hsessions, hhost⟩ := h
  have hidentity : y.desktop.store.identity = z.desktop.store.identity :=
    congrArg (·.store.identity) hdesktop
  have hhome : y.desktop.store.home = z.desktop.store.home := congrArg (·.store.home) hdesktop
  refine ⟨hr, Session.outline_eq_of_bare hdesktop, ?_⟩
  have hforall : List.Forall₂ (fun s t : Session => s.unlogged = t.unlogged) y.sessions
      z.sessions := by
    have heq : List.Forall₂ Eq (y.sessions.map Session.unlogged)
        (z.sessions.map Session.unlogged) := List.forall₂_eq_eq_eq ▸ hsessions
    rwa [List.forall₂_map_left_iff, List.forall₂_map_right_iff] at heq
  refine hforall.imp fun s t hst => ?_
  obtain ⟨log, rfl⟩ := Session.exists_log hst
  have hdisplay :
      s.displayCwd y.desktop = ({ s with log := log } : Session).displayCwd z.desktop := by
    rw [Session.displayCwd, Session.displayCwd, hhome]
  refine ⟨rfl, hdisplay, rfl, rfl, fun hsame => ?_⟩
  rw [Session.prompt, Session.prompt, hidentity, hhost hsame, hdisplay]

theorem trace_alike (es : List (Event × Instant)) (h : Alike sameHost y z) :
    List.Forall₂ (SameView sameHost) (trace es y) (trace es z) := by
  induction es generalizing y z with
  | nil => exact .nil
  | cons e rest ih =>
    obtain ⟨e, now⟩ := e
    obtain ⟨hreply, hnext⟩ := step_alike now e h
    exact .cons (hnext.sameView hreply) (ih hnext)

/-- Two desktops that differ in contents only, and whatever is done at their terminals: at every
step the same comes back, requests to the gateway among it, and the same is to be seen. -/
theorem trace_blind_to_contents
    (hidentity : y.desktop.store.identity = z.desktop.store.identity)
    (hhome : y.desktop.store.home = z.desktop.store.home)
    (hwindows : y.desktop.windows = z.desktop.windows)
    (hclipboard : y.desktop.clipboard = z.desktop.clipboard)
    (houtline : y.desktop.store.outline = z.desktop.store.outline)
    (hsessions : y.sessions.map Session.unlogged = z.sessions.map Session.unlogged)
    (es : List (Event × Instant)) :
    List.Forall₂ (SameView (y.desktop.hostname = z.desktop.hostname)) (trace es y)
      (trace es z) := by
  have hroot : y.desktop.store.root.bare = z.desktop.store.root.bare :=
    Node.toDocument_false_eq_iff.mp houtline
  have hdesktop : y.desktop.bare = z.desktop.bare := by
    simp only [Desktop.bare, Store.bare, hidentity, hhome, hwindows, hclipboard, hroot]
  exact trace_alike es ⟨hdesktop, hsessions, id⟩

/-- A file can be copied, and a line be delegated afterwards: what the file holds stays secret. -/
theorem trace_blind_to_readme :
    let readme : Path := ⟨true, ["home", "user", "Documents", "readme.txt"]⟩
    let store := Desktop.newStore Config.standard ⟨0, 0⟩
    let changed := (store.write readme "another text" ⟨0, 0⟩).2
    let y : System := ⟨Desktop.ofStore "desktop" store, []⟩
    let z : System := ⟨Desktop.ofStore "desktop" changed, []⟩
    let es : List (Event × Instant) := [(.start, ⟨0, 0⟩),
      (.act 0 (.submit "cat Documents/readme.txt > copy"), ⟨1, 0⟩),
      (.act 0 (.submit "summarize copy"), ⟨2, 0⟩)]
    store.read readme ≠ changed.read readme ∧
      List.Forall₂ (SameView (y.desktop.hostname = z.desktop.hostname)) (trace es y)
        (trace es z) := by
  intro readme store changed y z es
  refine ⟨?_, @trace_blind_to_contents y z rfl rfl rfl rfl rfl rfl es⟩
  decide

end System

end DesktopTerminal

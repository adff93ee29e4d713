import DesktopTerminal.Proofs.Command.Piping
import DesktopTerminal.Proofs.Path.Normal
import DesktopTerminal.Proofs.Session.Restart

/-!
# The current directory and its names

The current directory is shown in two ways: `pwd` prints it in full, and the prompt puts a `~` in the
place of the home directory. Whatever is done at the terminals, the directory stays normal, and then
each of the two texts leads back to it from everywhere.
-/
namespace DesktopTerminal

theorem Path.closed_normal {home : Path} (hhome : home.Normal) : Closed home Path.Normal where
  atHome := hhome
  resolve text hbase := normal_resolve text hbase hhome
  above hp hfront := ⟨rfl, fun name hname => hp.segments name (hfront.subset hname)⟩
  join hp hq hname := ⟨hp.absolute, fun other hother =>
    (mem_join hname hother).elim (hp.segments other) (hq.segments other)⟩

/-! ## The home directory -/

namespace Config

/-- The home directory is given as an absolute path without steps, or it is named after a user with an
ordinary name. -/
def PlainHome (c : Config) : Prop :=
  match c.home with
  | some home => (Path.parse home).absolute = true ∧
      ∀ name ∈ (Path.parse home).segments, name ≠ "." ∧ name ≠ ".."
  | none => Ordinary c.user

theorem normal_homePath_iff (c : Config) : c.homePath.Normal ↔ c.PlainHome := by
  rw [homePath, PlainHome]
  cases c.home with
  | none =>
    refine ⟨fun h => h.segments c.user (by simp), fun huser => ⟨rfl, fun name hname => ?_⟩⟩
    rcases List.mem_pair.mp hname with rfl | rfl
    · decide
    · exact huser
  | some home =>
    refine ⟨fun h => ⟨h.absolute, fun name hname => (h.segments name hname).2⟩, ?_⟩
    rintro ⟨habsolute, hsteps⟩
    exact ⟨habsolute, fun name hname => ⟨Path.legible_parse home name hname, hsteps name hname⟩⟩

end Config

theorem Store.home_ofDocument {saved : Document} {owner : Identity} {home : Path} {s : Store}
    (h : ofDocument saved owner home = .ok s) : s.home = home := by
  unfold ofDocument at h
  cases hroot : Node.ofDocument saved with
  | error fault =>
    rw [hroot] at h
    cases h
  | ok root =>
    rw [hroot] at h
    change ofNode root owner home = .ok s at h
    unfold ofNode at h
    split at h
    · cases h
    · obtain rfl := Except.ok.inj h
      rfl

/-- A desktop has the home directory of its configuration, with a new tree or a saved one. -/
theorem Desktop.home_start {c : Config} {boot : Instant} {d : Desktop} (h : start c boot = .ok d) :
    d.store.home = c.homePath := by
  unfold start at h
  split at h
  · obtain rfl := Except.ok.inj h
    rfl
  · split at h
    · rename_i store hstore
      obtain rfl := Except.ok.inj h
      exact Store.home_ofDocument hstore
    · cases h

/-! ## What is shown of the directory -/

/-- The prompt shows a text that leads to the directory. -/
theorem Session.denotes_displayCwd {d : Desktop} {s : Session} (hhome : d.store.home.Normal)
    (hcwd : s.cwd.Normal) : Path.Denotes d.store.home (s.displayCwd d) s.cwd := by
  unfold displayCwd
  simp only
  split
  · rename_i hat
    intro base
    rw [Path.resolve_tilde, hat]
    exact hhome.eq_mk.symm
  · split
    · rename_i hunder
      obtain ⟨hstarts, -⟩ := (Bool.and_eq_true _ _).mp hunder
      obtain ⟨-, rest, hrest⟩ := Path.startsWith_iff.mp hstarts
      have hnames : ∀ name ∈ rest, Ordinary name := fun name hname =>
        hcwd.segments name (hrest ▸ List.mem_append_right _ hname)
      have hbehind : s.cwd.segments.drop d.store.home.segments.length = rest := by
        rw [← hrest, List.drop_left]
      rw [hbehind, hcwd.eq_mk, ← hrest]
      exact Path.denotes_tilde _ hnames
    · exact Path.denotes_render _ hcwd

/-- Known commands run, and then `pwd`. -/
structure EndsInPwd (line : String) (before : List Line.Command) : Prop where
  notBlank : Text.isBlankText line = false
  known : ∀ c ∈ before, Builtin.Known c.name
  reads : ∃ words a, Line.parse line = .ok ⟨before ++ [⟨"pwd", words⟩], none⟩ ∧
    readArguments Builtin.pwd.schema words = .ok a

/-- The output of a line that ends in `pwd` is the directory to which the commands before have gone, and
`pwd` does not wipe the log. -/
theorem runPipeline_pwd {before : List Line.Command} {is : List Invocation}
    (hbefore : resolveAll before = .ok is) {words : List String} {a : Arguments}
    (hwords : readArguments Builtin.pwd.schema words = .ok a) (w : Workspace) :
    let ran := runSegments is none .start w
    ∃ o w', runPipeline ⟨before ++ [⟨"pwd", words⟩], none⟩ w = (.completed o, w') ∧
      o.display = ran.2.cwd.render ∧ o.clear = ran.1.clear ∧ w'.cwd = ran.2.cwd := by
  intro ran
  have hall := resolveAll_append hbefore (resolveAll_builtin .pwd words)
  have hrun : ∀ input v, Invocation.run ⟨.pwd, words⟩ input v =
      (.success v.cwd.render, { v with stdin := none }) := by
    intro input v
    rw [Invocation.run, hwords]
    rfl
  have hlast : runSegments (is ++ [⟨.pwd, words⟩]) none .start w =
      (ran.1.add (.success ran.2.cwd.render), { ran.2 with stdin := none }) := by
    rw [runSegments_append]
    simp only [runSegments, hrun, ran]
  refine ⟨_, _, runPipeline_plain hall w, ?_⟩
  rw [hlast]
  exact ⟨rfl, Bool.or_false _, rfl⟩

namespace Session

variable {d : Desktop} {s : Session} {line : String} {before : List Line.Command}

/-- The line shows in full the directory that it leaves the terminal in, unless it wipes the log. -/
theorem submit_pwd (hline : EndsInPwd line before) (hclosed : Path.Closed d.store.home Path.Normal)
    (hs : s.Dwells Path.Normal) (hidle : s.isBusy = false) (now : Instant) :
    let r := s.submit now line d
    r.1 = .ok .cleared ∧ r.2.2.log = [] ∨ r.1 = .ok .rendered ∧
      ∃ more, r.2.2.log =
        s.log ++ .command (s.prompt d) line :: .output r.2.2.cwd.render :: more := by
  intro r
  obtain ⟨hblank, hknown, words, a, hparse, hwords⟩ := hline
  obtain ⟨is, hbefore⟩ := exists_resolveAll hknown
  let w := (s.entered line d).workspace now d
  have hw : w.Dwells Path.Normal := ⟨hclosed, hs.cwd, hs.previous⟩
  obtain ⟨o, w', hran, hdisplay, -, hcwd⟩ := runPipeline_pwd hbefore hwords w
  have hnormal : w'.cwd.Normal := by
    have hleads := confined_runPipeline ⟨before ++ [⟨"pwd", words⟩], none⟩ w hw
    rw [hran] at hleads
    exact hleads.dwells.cwd
  have hshown : o.display ≠ "" := by
    rw [hdisplay, ← hcwd, Path.render, hnormal.absolute]
    simp
  have hsubmit : r = _ := submit_of_completed hidle hblank hparse hran
  rw [hsubmit, settle]
  cases o.clear with
  | true => exact .inl ⟨rfl, rfl⟩
  | false =>
    refine .inr ⟨rfl, if o.err = "" then [] else [.error o.err], ?_⟩
    change (s.log ++ [.command (s.prompt d) line]) ++ outcomeEntries o =
      s.log ++ .command (s.prompt d) line :: .output w'.cwd.render :: _
    rw [outcomeEntries, if_neg hshown, hdisplay, hcwd]
    simp

/-- With nothing before it, `pwd` wipes nothing and goes nowhere. -/
theorem submit_pwd_alone (hline : EndsInPwd line []) (hidle : s.isBusy = false) (now : Instant) :
    let r := s.submit now line d
    r.1 = .ok .rendered ∧ r.2.2.cwd = s.cwd := by
  intro r
  obtain ⟨hblank, -, words, a, hparse, hwords⟩ := hline
  let w := (s.entered line d).workspace now d
  obtain ⟨o, w', hran, -, hclear, hcwd⟩ := @runPipeline_pwd [] [] rfl words a hwords w
  have hkept : o.clear = false := hclear
  have hsubmit : r = _ := submit_of_completed hidle hblank hparse hran
  rw [hsubmit, settle, hkept]
  exact ⟨rfl, hcwd⟩

end Session

/-- Whatever is done at the terminals of a desktop with a plain home directory, at each of them the
current directory and the one before are normal; and from every directory, what the prompt shows of the
current one leads to it, and so does what `pwd` prints, alone or behind other commands. -/
theorem directory_leads_back {c : Config} (hc : c.PlainHome) {boot : Instant} {d : Desktop}
    (hd : Desktop.start c boot = .ok d) (es : List (Event × Instant)) :
    let y := System.run es ⟨d, []⟩
    ∀ s ∈ y.sessions, s.cwd.Normal ∧ (∀ p, s.previous = some p → p.Normal) ∧
      Path.Denotes c.homePath (s.displayCwd y.desktop) s.cwd ∧
      ∀ now line before, s.isBusy = false → EndsInPwd line before →
        let r := s.submit now line y.desktop
        (before = [] → r.1 = .ok .rendered ∧ r.2.2.cwd = s.cwd) ∧
        (r.1 = .ok .cleared ∧ r.2.2.log = [] ∨ r.1 = .ok .rendered ∧ ∃ text more,
          r.2.2.log = s.log ++ .command (s.prompt y.desktop) line :: .output text :: more ∧
          Path.Denotes c.homePath text r.2.2.cwd) := by
  intro y s hs
  have hhome : d.store.home.Normal :=
    Desktop.home_start hd ▸ (c.normal_homePath_iff.mpr hc)
  have hstart : System.Dwells Path.Normal ⟨d, []⟩ :=
    ⟨Path.closed_normal hhome, fun s hs => absurd hs List.not_mem_nil⟩
  obtain ⟨hdwells, hworked⟩ := System.dwells_run hstart es
  have hplace : y.desktop.store.home = c.homePath := hworked.home_eq.trans (Desktop.home_start hd)
  have hat : s.Dwells Path.Normal := hdwells.sessions s hs
  refine ⟨hat.cwd, hat.previous, ?_, fun now line before hidle hline => ⟨?_, ?_⟩⟩
  · rw [← hplace]
    exact Session.denotes_displayCwd hdwells.closed.atHome hat.cwd
  · rintro rfl
    exact Session.submit_pwd_alone hline hidle now
  · have hmoved : (s.submit now line y.desktop).2.2.cwd.Normal :=
      (Session.leadsTo_submit now line hdwells.closed hat).dwells.cwd
    refine (Session.submit_pwd hline hdwells.closed hat hidle now).imp_right ?_
    rintro ⟨hturn, more, hlog⟩
    exact ⟨hturn, _, more, hlog, Path.denotes_render c.homePath hmoved⟩

/-- A directory may itself go by the name `~`. -/
theorem literal_tilde_leads_back :
    let c := Config.standard
    let d := Desktop.ofStore c.hostname (Desktop.newStore c ⟨0, 0⟩)
    let y := System.run [(.start, ⟨1, 0⟩), (.act 0 (.submit "mkdir ./~"), ⟨2, 0⟩),
      (.act 0 (.submit "cd ./~"), ⟨3, 0⟩)] ⟨d, []⟩
    let s := y.sessions.headD (Session.start d)
    s.cwd = ⟨true, ["home", "user", "~"]⟩ ∧ s.displayCwd y.desktop = "~/~" ∧
      Path.Denotes c.homePath "~/~" s.cwd ∧
      ∃ text more, (s.submit ⟨4, 0⟩ "cd .. | pwd" y.desktop).2.2.log =
          s.log ++ .command (s.prompt y.desktop) "cd .. | pwd" :: .output text :: more ∧
        Path.Denotes c.homePath text ⟨true, ["home", "user"]⟩ := by
  intro c d y s
  have hplain : Ordinary "user" := by decide
  have hs : s ∈ y.sessions := by decide +kernel
  have hcwd : s.cwd = ⟨true, ["home", "user", "~"]⟩ := by decide +kernel
  have hshown : s.displayCwd y.desktop = "~/~" := by decide +kernel
  have hline : EndsInPwd "cd .. | pwd" [⟨"cd", [".."]⟩] :=
    ⟨by decide, by decide, [], .empty, by decide +kernel, rfl⟩
  have hidle : s.isBusy = false := by decide +kernel
  obtain ⟨-, -, hprompt, hpwd⟩ := @directory_leads_back c hplain ⟨0, 0⟩ d rfl
    [(.start, ⟨1, 0⟩), (.act 0 (.submit "mkdir ./~"), ⟨2, 0⟩),
      (.act 0 (.submit "cd ./~"), ⟨3, 0⟩)] s hs
  refine ⟨hcwd, hshown, hshown ▸ hprompt, ?_⟩
  have hmoved : (s.submit ⟨4, 0⟩ "cd .. | pwd" y.desktop).2.2.cwd = ⟨true, ["home", "user"]⟩ := by
    decide +kernel
  have hkept : (s.submit ⟨4, 0⟩ "cd .. | pwd" y.desktop).2.2.log ≠ [] := by
    decide +kernel
  obtain ⟨-, ⟨-, hwiped⟩ | ⟨-, text, more, hlog, htext⟩⟩ := hpwd ⟨4, 0⟩ _ _ hidle hline
  · exact absurd hwiped hkept
  · exact ⟨text, more, hlog, hmoved ▸ htext⟩

end DesktopTerminal

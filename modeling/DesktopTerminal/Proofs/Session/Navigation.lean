import DesktopTerminal.Proofs.Command.Parents
import DesktopTerminal.Proofs.Path.Composition
import DesktopTerminal.Proofs.Session.Directory
import DesktopTerminal.Proofs.Session.Reports

/-!
# Going to a directory and back

A line that is `cd` alone leads to a directory or is refused, and changes neither the tree nor the
windows. What it leaves is remembered. So `cd ..` leads back from a child, and `cd -` goes to and fro
between two directories for as long as one likes. Without an operand it leads home, always by an
absolute path; the prompt knows the home directory by its path as it was configured, and so it shows a
`~` there exactly if that path is absolute.
-/
namespace DesktopTerminal

/-! ## Lines of one command -/

namespace Command

/-- The line is `cd` alone and has this operand. To have none is to have the home directory. -/
inductive CdLine (line : String) : String → Prop
  | operand {operand : String} (hline : Line.parse line = .ok ⟨[⟨"cd", [operand]⟩], none⟩)
      (hoption : isOption operand = false) : CdLine line operand
  | home (hline : Line.parse line = .ok ⟨[⟨"cd", []⟩], none⟩) : CdLine line "~"

theorem runPipeline_cd {words : List String} {a : Arguments}
    (hwords : readArguments Builtin.cd.schema words = .ok a) {w : Workspace} (hw : w.stdin = none) :
    runPipeline ⟨[⟨"cd", words⟩], none⟩ w =
      (.completed (cd a w).1, { (cd a w).2 with stdin := none }) := by
  have hsame : ({ w with stdin := none } : Workspace) = w := by rw [← hw]
  have hname : resolveAll [⟨"cd", words⟩] = .ok [⟨.cd, words⟩] := resolveAll_builtin .cd words
  have hrun : Invocation.run ⟨.cd, words⟩ none w =
      ((cd a w).1, { (cd a w).2 with stdin := none }) := by
    rw [Invocation.run, hwords]
    simp only [hsame]
    rfl
  have hran : runSegments [⟨.cd, words⟩] none .start w =
      (Progress.start.add (cd a w).1, { (cd a w).2 with stdin := none }) := by
    rw [runSegments, hrun]
    rfl
  rw [runPipeline_plain hname, hran, finish_add_start]

theorem stdin_cdTo (operand : String) (w : Workspace) : (cdTo operand w).2.stdin = w.stdin := by
  unfold cdTo
  split
  · rfl
  · split <;> rfl

/-- However the line is written, it does what `cd` does with the operand. -/
theorem CdLine.runs {line operand : String} (h : CdLine line operand) {w : Workspace}
    (hw : w.stdin = none) :
    ∃ p, Line.parse line = .ok p ∧ Text.isBlankText line = false ∧
      runPipeline p w = (.completed (cdTo operand w).1, (cdTo operand w).2) := by
  have hsame : ({ (cdTo operand w).2 with stdin := none } : Workspace) = (cdTo operand w).2 := by
    rw [← hw, ← stdin_cdTo operand w]
  cases h with
  | operand hline hoption =>
    have hwords : readArguments Builtin.cd.schema [operand] = .ok ⟨[operand], [], []⟩ := by
      change readWords Builtin.cd.schema [operand] Arguments.empty = _
      rw [readWords, hoption]
      rfl
    refine ⟨_, hline, not_blank_of_parse hline (resolveAll_builtin .cd _), ?_⟩
    rw [runPipeline_cd hwords hw]
    exact congrArg (Prod.mk _) hsame
  | home hline =>
    refine ⟨_, hline, not_blank_of_parse hline (resolveAll_builtin .cd _), ?_⟩
    rw [runPipeline_cd (a := .empty) rfl hw]
    exact congrArg (Prod.mk _) hsame

end Command

namespace Session

open Command (CdLine cdTo cdTarget)

/-- The line has led from one directory to another, which is where the terminal is now, idle again. The
log has got the line and what there is to show. -/
structure WentTo (d : Desktop) (s : Session) (line : String) (p : Path) (shown : List LogEntry)
    (r : Except Refusal Turn × Desktop × Session) : Prop where
  turn : r.1 = .ok .rendered
  desktop : r.2.1 = d
  idle : r.2.2.isBusy = false
  cwd : r.2.2.cwd = p
  previous : r.2.2.previous = some s.cwd
  log : r.2.2.log = s.log ++ .command (s.prompt d) line :: shown

variable {d : Desktop} {s : Session} {line operand : String} {p q : Path}

/-- A line of `cd` goes where there is a directory, and prints the directory if it has gone back. -/
theorem wentTo_submit (hline : CdLine line operand) (hidle : s.isBusy = false) (now : Instant)
    (htarget : cdTarget operand (s.workspace now d) = some p)
    (hdirectory : d.store.kind p = .ok .directory) :
    WentTo d s line p (outcomeEntries (.success (if operand = "-" then p.render else "")))
      (s.submit now line d) := by
  let w := (s.entered line d).workspace now d
  have htarget' : cdTarget operand w = some p := htarget
  have hdirectory' : w.store.kind p = .ok .directory := hdirectory
  have hwent : cdTo operand w =
      (.success (if operand = "-" then p.render else ""), w.enter p) := by
    simp only [cdTo, htarget', hdirectory']
  obtain ⟨pipeline, hparse, hblank, hran⟩ := hline.runs (w := w) rfl
  rw [hwent] at hran
  rw [submit_of_completed hidle hblank hparse hran]
  exact ⟨rfl, rfl, rfl, rfl, rfl, List.append_assoc _ _ _⟩

/-- Nothing is shown of a line that does not go back to where the terminal was before. -/
theorem wentTo_operand (hline : CdLine line operand) (hdash : operand ≠ "-")
    (hidle : s.isBusy = false) (now : Instant) (hplace : d.store.resolve s.cwd operand = p)
    (hdirectory : d.store.kind p = .ok .directory) :
    WentTo d s line p [] (s.submit now line d) := by
  have htarget : cdTarget operand (s.workspace now d) = some p := by
    rw [cdTarget, if_neg hdash]
    exact congrArg some hplace
  have hwent := wentTo_submit hline hidle now htarget hdirectory
  rw [if_neg hdash] at hwent
  exact hwent

end Session

/-! ## To a child and back -/

namespace Path

theorem resolve_child {base : Path} (hbase : base.absolute = true) {name : String}
    (h : Ordinary name) (htilde : name ≠ "~") (home : Path) :
    resolve base name home = base.join name := by
  have hsegments := resolve_name base home (.inl rfl) h
  rw [String.append_empty, if_neg htilde] at hsegments
  have hplace : resolve base name home = ⟨true, (resolve base name home).segments⟩ :=
    congrArg (Path.mk · _) (absolute_resolve base name home)
  rw [hplace, hsegments, join, hbase]

theorem resolve_parent_join {base : Path} (hbase : base.absolute = true) (name : String)
    (home : Path) : resolve (base.join name) ".." home = base := by
  rw [resolve_parent, join, List.dropLast_concat, ← hbase]

end Path

/-- The path is absolute, and a directory is there. -/
structure Store.HasDirectory (s : Store) (p : Path) : Prop where
  absolute : p.absolute = true
  kind : s.kind p = .ok .directory

/-- What has a child is a directory. -/
theorem Store.kind_of_join {s : Store} {p : Path} {name : String} {kind : Kind}
    (h : s.kind (p.join name) = .ok kind) : s.kind p = .ok .directory := by
  rw [kind_eq_ok_iff, Path.join, Node.descend?_snoc] at h
  rw [kind_eq_ok_iff]
  cases hp : s.root.descend? p.segments with
  | none =>
    rw [hp] at h
    cases h
  | some n =>
    rw [hp] at h
    cases n with
    | file => cases h
    | directory => rfl

namespace Session

open Command (CdLine cdTo cdTarget)

variable {d : Desktop} {s : Session} {line operand : String} {p q : Path}

/-- The terminal is idle in one of two directories and has come from the other. -/
structure Between (p q : Path) (s : Session) : Prop where
  idle : s.isBusy = false
  cwd : s.cwd = p
  previous : s.previous = some q

theorem WentTo.between {shown : List LogEntry} {r : Except Refusal Turn × Desktop × Session}
    (h : WentTo d s line p shown r) : r.2.2.Between p s.cwd :=
  ⟨h.idle, h.cwd, h.previous⟩

/-- Step: `cd -` goes to the other directory and prints it. -/
theorem Between.dash (h : s.Between p q) (hq : d.store.HasDirectory q) (now : Instant) :
    WentTo d s "cd -" q [.output q.render] (s.submit now "cd -" d) := by
  have hline : CdLine "cd -" "-" := .operand (by decide +kernel) rfl
  have hshown : outcomeEntries (.success q.render) = [.output q.render] := by
    have hne : q.render ≠ "" := by
      rw [Path.render, hq.absolute]
      simp
    simp [outcomeEntries, Outcome.display, Outcome.success, hne]
  have hwent := wentTo_submit hline h.idle now h.previous hq.kind
  rw [if_pos rfl, hshown] at hwent
  exact hwent

/-- Run: after any number of `cd -` the terminal is where it was if the number is even, and else in the
other directory. -/
theorem Between.dashes (h : s.Between p q) (hp : d.store.HasDirectory p)
    (hq : d.store.HasDirectory q) (times : List Instant) :
    let r := submitAll (times.map fun now => ("cd -", now)) d s
    r.1 = d ∧ if times.length % 2 = 0 then r.2.Between p q else r.2.Between q p := by
  intro r
  induction times generalizing s p q with
  | nil => exact ⟨rfl, h⟩
  | cons now times ih =>
    have hstep : WentTo d s "cd -" q [.output q.render] (s.submit now "cd -" d) := h.dash hq now
    have hother : (s.submit now "cd -" d).2.2.Between q p := h.cwd ▸ hstep.between
    obtain ⟨hdesktop, hplace⟩ := ih hother hq hp
    have hr : r = submitAll (times.map fun now => ("cd -", now)) d (s.submit now "cd -" d).2.2 := by
      change submitAll _ (s.submit now "cd -" d).2.1 _ = _
      rw [hstep.desktop]
    rw [hr, List.length_cons]
    refine ⟨hdesktop, ?_⟩
    by_cases heven : times.length % 2 = 0
    · rw [if_pos heven] at hplace
      rw [if_neg (by omega)]
      exact hplace
    · rw [if_neg heven] at hplace
      rw [if_pos (by omega)]
      exact hplace

/-- After any number of `cd -` one more goes to the other directory and prints it. -/
theorem Between.dash_again (h : s.Between p q) (hp : d.store.HasDirectory p)
    (hq : d.store.HasDirectory q) (times : List Instant) (now : Instant) :
    let r := submitAll (times.map fun now => ("cd -", now)) d s
    let next := if times.length % 2 = 0 then q else p
    WentTo d r.2 "cd -" next [.output next.render] (r.2.submit now "cd -" r.1) := by
  intro r next
  obtain ⟨hdesktop, hplace⟩ := h.dashes hp hq times
  rw [hdesktop]
  by_cases heven : times.length % 2 = 0
  · rw [if_pos heven] at hplace
    have hnext : next = q := if_pos heven
    rw [hnext]
    exact hplace.dash hq now
  · rw [if_neg heven] at hplace
    have hnext : next = p := if_neg heven
    rw [hnext]
    exact hplace.dash hp now

/-- From a child `cd ..` goes back. -/
theorem wentTo_parent {sub : String} (hidle : s.isBusy = false) (hcwd : s.cwd = p.join sub)
    (hp : d.store.HasDirectory p) (now : Instant) :
    WentTo d s "cd .." p [] (s.submit now "cd .." d) := by
  have hplace : d.store.resolve s.cwd ".." = p := by
    rw [hcwd]
    exact Path.resolve_parent_join hp.absolute sub d.store.home
  exact wentTo_operand (.operand (by decide +kernel) rfl) (by decide) hidle now hplace hp.kind

/-- At an idle terminal, whatever has been done before, a line goes to a child of the current directory,
and `cd ..` goes back. Then `cd -` goes to the child and prints it; and however often it is given, it goes
to and fro between the two directories and prints the one it goes to. -/
theorem child_and_back {sub : String} (hidle : s.isBusy = false) (hcwd : s.cwd.absolute = true)
    (hsub : sub ≠ "" ∧ '/' ∉ sub.toList ∧ startsWithDash sub = false ∧ sub ∉ ["~", ".", ".."])
    (hchild : d.store.kind (s.cwd.join sub) = .ok .directory)
    (hline : Line.Written ⟨[⟨"cd", [sub]⟩], none⟩ line.toList) (t₁ t₂ : Instant)
    (times : List Instant) (now : Instant) :
    let child := s.cwd.join sub
    let there := s.submit t₁ line d
    let back := there.2.2.submit t₂ "cd .." there.2.1
    let later := submitAll (times.map fun t => ("cd -", t)) back.2.1 back.2.2
    let next := if times.length % 2 = 0 then child else s.cwd
    WentTo d s line child [] there ∧
    WentTo d there.2.2 "cd .." s.cwd [] back ∧ back.2.2.previous = some child ∧
    WentTo d later.2 "cd -" next [.output next.render] (later.2.submit now "cd -" later.1) := by
  intro child there back later next
  obtain ⟨hne, hslash, hdash, hstep⟩ := hsub
  obtain ⟨htilde, hdot, hup⟩ : sub ≠ "~" ∧ sub ≠ "." ∧ sub ≠ ".." := by simpa using hstep
  have hnotDash : sub ≠ "-" := by
    rintro rfl
    cases hdash
  have hplace : d.store.resolve s.cwd sub = child :=
    Path.resolve_child hcwd ⟨⟨hne, hslash⟩, hdot, hup⟩ htilde d.store.home
  have hinside : d.store.HasDirectory child := ⟨hcwd, hchild⟩
  have houtside : d.store.HasDirectory s.cwd := ⟨hcwd, Store.kind_of_join hchild⟩
  have hthere : WentTo d s line child [] there :=
    wentTo_operand (.operand (Line.parse_of_written hline) (isOption_of_not_dash hdash)) hnotDash
      hidle t₁ hplace hchild
  have hback : WentTo d there.2.2 "cd .." s.cwd [] back := by
    change WentTo d _ _ _ _ (there.2.2.submit t₂ "cd .." there.2.1)
    rw [hthere.desktop]
    exact wentTo_parent hthere.idle hthere.cwd houtside t₂
  have hprevious : back.2.2.previous = some child := hthere.cwd ▸ hback.previous
  have hbetween : back.2.2.Between s.cwd child := ⟨hback.idle, hback.cwd, hprevious⟩
  have hlater : later = submitAll (times.map fun t => ("cd -", t)) d back.2.2 := by
    change submitAll _ back.2.1 _ = _
    rw [hback.desktop]
  refine ⟨hthere, hback, hprevious, ?_⟩
  rw [hlater]
  exact hbetween.dash_again houtside hinside times now

/-- A name that needs quotes; the third `cd -` is in the child again. -/
theorem quoted_child_and_back :
    let d₀ := Desktop.ofStore "desktop" (Desktop.newStore Config.standard ⟨0, 0⟩)
    let made := (start d₀).submit ⟨1, 0⟩ "mkdir 'my notes'" d₀
    let d := made.2.1
    let s := made.2.2
    let child : Path := ⟨true, ["home", "user", "my notes"]⟩
    let line := "cd \x22my notes\x22"
    let there := s.submit ⟨2, 0⟩ line d
    let back := there.2.2.submit ⟨3, 0⟩ "cd .." there.2.1
    let later := submitAll ([⟨4, 0⟩, ⟨5, 0⟩].map fun t => ("cd -", t)) back.2.1 back.2.2
    WentTo d s line child [] there ∧ WentTo d there.2.2 "cd .." ⟨true, ["home", "user"]⟩ [] back ∧
      WentTo d later.2 "cd -" child [.output "/home/user/my notes"]
        (later.2.submit ⟨6, 0⟩ "cd -" later.1) := by
  intro d₀ made d s child line there back later
  have hidle : s.isBusy = false := by decide +kernel
  have hcwd : s.cwd = ⟨true, ["home", "user"]⟩ := by decide +kernel
  have hchild : d.store.kind (s.cwd.join "my notes") = .ok .directory := by decide +kernel
  have hcd : Line.Spelling "cd" "cd".toList := .bare (by decide)
  have hquoted : Line.Spelling "my notes" "\x22my notes\x22".toList := .double
  have hnone : Line.Gap [] := by decide
  have hline : Line.Written ⟨[⟨"cd", ["my notes"]⟩], none⟩ "cd \x22my notes\x22".toList :=
    .plain (.last (c := ⟨"cd", ["my notes"]⟩)
      (.cons hcd Line.gap_blank (by decide) (.last hquoted))) hnone hnone
  obtain ⟨hthere, hback, -, hlater⟩ := child_and_back hidle (hcwd ▸ rfl) (by decide) hchild hline
    ⟨2, 0⟩ ⟨3, 0⟩ [⟨4, 0⟩, ⟨5, 0⟩] ⟨6, 0⟩
  rw [hcwd] at hthere hback
  simp only [hcwd] at hlater
  exact ⟨hthere, hback, hlater⟩

end Session

/-! ## Home -/

namespace Config

/-- A home directory that is given is given by an absolute path. -/
def RootedHome (c : Config) : Prop := ∀ home, c.home = some home → home.toList.head? = some '/'

theorem absolute_homePath_iff (c : Config) : c.homePath.absolute = true ↔ c.RootedHome := by
  rw [homePath, RootedHome]
  cases c.home with
  | none => simp
  | some home => simp [Path.parse]

end Config

namespace Session

open Command (CdLine cdTo cdTarget)

/-- The terminal takes the line, which runs here and ends with the code of success. -/
def Succeeds (now : Instant) (line : String) (d : Desktop) (s : Session) : Prop :=
  s.isBusy = false ∧ ∃ o w,
    runLine line ((s.entered line d).workspace now d) = .completed o w ∧ o.isOk = true

variable {d : Desktop} {s : Session} {line : String}

/-- The line home succeeds exactly if there is a directory where it goes. -/
theorem succeeds_home_iff (hline : CdLine line "~") (now : Instant) :
    s.Succeeds now line d ↔
      s.isBusy = false ∧ d.store.kind ⟨true, d.store.home.segments⟩ = .ok .directory := by
  let w := (s.entered line d).workspace now d
  obtain ⟨pipeline, hparse, -, hran⟩ := hline.runs (w := w) rfl
  have hresult : runLine line w = .completed (cdTo "~" w).1 (cdTo "~" w).2 := by
    rw [runLine, hparse]
    simp only [hran]
  have hok : (cdTo "~" w).1.isOk = true ↔
      d.store.kind ⟨true, d.store.home.segments⟩ = .ok .directory := by
    have htarget : cdTarget "~" w = some ⟨true, d.store.home.segments⟩ := rfl
    have hstore : w.store = d.store := rfl
    simp only [cdTo, htarget, hstore]
    cases d.store.kind ⟨true, d.store.home.segments⟩ with
    | error fault => simp [Outcome.isOk, Outcome.failure]
    | ok kind => cases kind <;> simp [Outcome.isOk, Outcome.failure, Outcome.success]
  refine and_congr_right fun _ => ?_
  change (∃ o w', runLine line w = .completed o w' ∧ o.isOk = true) ↔ _
  rw [hresult, ← hok]
  constructor
  · rintro ⟨o, w', hcompleted, ho⟩
    obtain ⟨rfl, -⟩ := LineResult.completed.inj hcompleted
    exact ho
  · exact fun ho => ⟨_, _, rfl, ho⟩

/-- A line home that succeeds leads where the `~` leads. -/
theorem wentTo_home (hline : CdLine line "~") {now : Instant} (h : s.Succeeds now line d) :
    WentTo d s line ⟨true, d.store.home.segments⟩ [] (s.submit now line d) := by
  obtain ⟨hidle, hdirectory⟩ := (succeeds_home_iff hline now).mp h
  exact wentTo_operand hline (by decide) hidle now rfl hdirectory

/-- Where the `~` leads, the prompt shows a `~` only if the home directory has an absolute path. -/
theorem displayCwd_eq_tilde_iff (hcwd : s.cwd = ⟨true, d.store.home.segments⟩) :
    s.displayCwd d = "~" ↔ d.store.home.absolute = true := by
  cases hmark : d.store.home.absolute with
  | true =>
    have hat : s.cwd = d.store.home := by rw [hcwd, ← hmark]
    simp [displayCwd, hat]
  | false =>
    have haway : s.cwd ≠ d.store.home := by
      intro hat
      rw [← hat, hcwd] at hmark
      cases hmark
    have hunder : s.cwd.startsWith d.store.home = false := by
      simp [Path.startsWith, hcwd, hmark]
    have hshown : s.displayCwd d = "/" ++ Text.joinWith "/" d.store.home.segments := by
      rw [displayCwd, if_neg haway, hunder]
      simp [Path.render, hcwd]
    refine iff_of_false (fun htilde => ?_) (by simp)
    have hhead := congrArg (fun t : String => t.toList.head?) (hshown.symm.trans htilde)
    simp at hhead

theorem prompt_eq_iff {shown : String} :
    s.prompt d = d.store.identity.user ++ "@" ++ d.hostname ++ ":" ++ shown ++ "$ " ↔
      s.displayCwd d = shown := by
  rw [prompt, String.append_left_inj, String.append_right_inj]

end Session

/-- At every terminal of a desktop, whatever has been done there, a line home that succeeds leads to the
path of the home directory, made absolute. This is the home directory, and the prompt shows it as `~`,
exactly if the home directory is configured by an absolute path or not at all. -/
theorem home_shown_iff_rooted {c : Config} {boot : Instant} {d : Desktop}
    (hd : Desktop.start c boot = .ok d) (es : List (Event × Instant)) :
    let y := System.run es ⟨d, []⟩
    ∀ s ∈ y.sessions, ∀ now line, Command.CdLine line "~" → s.Succeeds now line y.desktop →
      let r := s.submit now line y.desktop
      r.1 = .ok .rendered ∧ r.2.2.cwd = ⟨true, c.homePath.segments⟩ ∧
      (r.2.2.cwd = r.2.1.store.home ↔ c.RootedHome) ∧
      (r.2.2.prompt r.2.1 =
        r.2.1.store.identity.user ++ "@" ++ r.2.1.hostname ++ ":" ++ "~" ++ "$ " ↔ c.RootedHome) := by
  intro y s _ now line hline hsucceeds r
  have heverywhere : Path.Closed d.store.home fun _ => True :=
    ⟨trivial, fun _ _ => trivial, fun _ _ => trivial, fun _ _ _ => trivial⟩
  have hstart : System.Dwells (fun _ => True) ⟨d, []⟩ :=
    ⟨heverywhere, fun s hs => absurd hs List.not_mem_nil⟩
  have hplace : y.desktop.store.home = c.homePath :=
    (System.dwells_run hstart es).2.home_eq.trans (Desktop.home_start hd)
  have hwent := Session.wentTo_home hline hsucceeds
  have hdesktop : r.2.1 = y.desktop := hwent.desktop
  have hcwd : r.2.2.cwd = ⟨true, y.desktop.store.home.segments⟩ := hwent.cwd
  rw [hdesktop, Session.prompt_eq_iff, Session.displayCwd_eq_tilde_iff hcwd, hplace,
    c.absolute_homePath_iff]
  rw [hplace] at hcwd
  refine ⟨hwent.turn, hcwd, ?_, Iff.rfl⟩
  rw [hcwd, ← c.absolute_homePath_iff]
  refine ⟨fun h => h ▸ rfl, fun h => ?_⟩
  rw [← h]

/-- Slashes to spare in the path of the home directory make no difference. -/
theorem home_with_spare_slashes_shown :
    let c := Config.standard.withHome "/home//user/"
    let d := Desktop.ofStore c.hostname (Desktop.newStore c ⟨0, 0⟩)
    let y := System.run [(.start, ⟨1, 0⟩), (.act 0 (.submit "cd /etc"), ⟨2, 0⟩)] ⟨d, []⟩
    let s := y.sessions.headD (Session.start d)
    let r := s.submit ⟨3, 0⟩ "cd" y.desktop
    s.prompt y.desktop = "user@deskshell:/etc$ " ∧ s.Succeeds ⟨3, 0⟩ "cd" y.desktop ∧
      r.2.2.cwd = r.2.1.store.home ∧
      r.2.2.prompt r.2.1 =
        r.2.1.store.identity.user ++ "@" ++ r.2.1.hostname ++ ":" ++ "~" ++ "$ " := by
  intro c d y s r
  have hs : s ∈ y.sessions := by decide +kernel
  have hshown : s.prompt y.desktop = "user@deskshell:/etc$ " := by decide +kernel
  have hline : Command.CdLine "cd" "~" := .home (by decide +kernel)
  have hsucceeds : s.Succeeds ⟨3, 0⟩ "cd" y.desktop :=
    (Session.succeeds_home_iff hline _).mpr ⟨by decide +kernel, by decide +kernel⟩
  have hrooted : c.RootedHome := by
    rintro home ⟨⟩
    decide
  obtain ⟨-, -, hhome, hprompt⟩ := @home_shown_iff_rooted c ⟨0, 0⟩ d rfl
    [(.start, ⟨1, 0⟩), (.act 0 (.submit "cd /etc"), ⟨2, 0⟩)] s hs ⟨3, 0⟩ "cd" hline hsucceeds
  exact ⟨hshown, hsucceeds, hhome.mpr hrooted, hprompt.mpr hrooted⟩

/-- A home directory with a relative path is left by going home: the terminal starts there and shows it,
and after `cd` it does not. -/
theorem relative_home_shown_in_full :
    let c := Config.standard.withHome "home/user"
    let d := Desktop.ofStore c.hostname (Desktop.newStore c ⟨0, 0⟩)
    let s := Session.start d
    let r := s.submit ⟨1, 0⟩ "cd" d
    Desktop.start c ⟨0, 0⟩ = .ok d ∧ s.prompt d = "user@deskshell:~$ " ∧
      s.Succeeds ⟨1, 0⟩ "cd" d ∧ r.2.2.cwd ≠ r.2.1.store.home ∧
      r.2.2.prompt r.2.1 = "user@deskshell:/home/user$ " := by
  intro c d s r
  have hline : Command.CdLine "cd" "~" := .home (by decide +kernel)
  have hsucceeds : s.Succeeds ⟨1, 0⟩ "cd" d :=
    (Session.succeeds_home_iff hline _).mpr ⟨rfl, by decide +kernel⟩
  exact ⟨rfl, by decide +kernel, hsucceeds, by decide +kernel, by decide +kernel⟩

end DesktopTerminal

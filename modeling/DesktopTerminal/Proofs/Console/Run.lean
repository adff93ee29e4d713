import DesktopTerminal.Console.Basic
import DesktopTerminal.Proofs.Session.Run

/-!
# Runs of a console

A console submits lines, waits for the answers of the gateway, and prints what each line has added to
the log. In between come interrupts and lines for the console itself, which print nothing of the log.
What is printed accounts for the log: `Shows` relates the texts since the log was last wiped to its
entries, and every call preserves it.
-/
namespace DesktopTerminal

/-- The entry tells what has come of a line. The others repeat what was typed. -/
def LogEntry.visible : LogEntry → Bool
  | .output _ | .error _ | .delegated _ => true
  | .command .. | .interrupted .. => false

namespace Console

/-- An entry is printed exactly if it is visible. -/
theorem isSome_formatEntry (audience : Audience) (e : LogEntry) :
    (formatEntry audience e).isSome = e.visible := by
  cases e with
  | command => rfl
  | output => cases audience <;> rfl
  | error => cases audience <;> rfl
  | interrupted => rfl
  | delegated => rfl

/-- The text has a part for each visible entry, in their order, and nothing else; there is no text if
no entry is visible. -/
def Tells (audience : Audience) (entries : List LogEntry) (text : Option String) : Prop :=
  ∃ parts, List.Forall₂ (fun e part => formatEntry audience e = some part)
      (entries.filter LogEntry.visible) parts ∧
    text = if parts = [] then none else some (Text.joinWith "\n" parts)

theorem forall₂_filterMap_formatEntry (audience : Audience) (entries : List LogEntry) :
    List.Forall₂ (fun e part => formatEntry audience e = some part)
      (entries.filter LogEntry.visible) (entries.filterMap (formatEntry audience)) := by
  induction entries with
  | nil => exact .nil
  | cons e entries ih =>
    have hvisible : (formatEntry audience e).isSome = e.visible := isSome_formatEntry audience e
    rw [List.filter_cons, List.filterMap_cons, ← hvisible]
    cases he : formatEntry audience e with
    | none => exact ih
    | some part => exact .cons he ih

/-- What is printed of some entries leaves no visible one out. -/
theorem tells_formatEntries (audience : Audience) (entries : List LogEntry) :
    Tells audience entries (formatEntries audience entries) := by
  refine ⟨_, forall₂_filterMap_formatEntry audience entries, ?_⟩
  rw [formatEntries]
  cases entries.filterMap (formatEntry audience) with
  | nil => rfl
  | cons part parts => rfl

/-- The texts show the visible entries of the log, each of them once and in order. -/
def Shows (audience : Audience) (texts : List (Option String)) (log : List LogEntry) : Prop :=
  ∃ groups : List (List LogEntry), texts = groups.map (formatEntries audience) ∧
    groups.flatten.filter LogEntry.visible = log.filter LogEntry.visible

section Shows

variable {audience : Audience} {texts : List (Option String)} {log new : List LogEntry}

theorem shows_nil (audience : Audience) : Shows audience [] [] := ⟨[], rfl, rfl⟩

theorem Shows.snoc (h : Shows audience texts log) (new : List LogEntry) :
    Shows audience (texts ++ [formatEntries audience new]) (log ++ new) := by
  obtain ⟨groups, rfl, hgroups⟩ := h
  refine ⟨groups ++ [new], by simp, ?_⟩
  simp [hgroups]

/-- Entries that are not visible need no text. -/
theorem Shows.unseen (h : Shows audience texts log) (hnew : ∀ e ∈ new, e.visible = false) :
    Shows audience texts (log ++ new) := by
  obtain ⟨groups, rfl, hgroups⟩ := h
  have hnone : new.filter LogEntry.visible = [] := by
    rw [List.filter_eq_nil_iff]
    exact fun e he => by simp [hnew e he]
  exact ⟨groups, rfl, by simp [hgroups, hnone]⟩

end Shows

/-! ## What one line does -/

/-- The line goes to the session: it is no command of the console, it does not end it, and it is not
blank. -/
def IsForSession (line : String) : Prop :=
  (Text.trim line).toList.head? ≠ some '/' ∧
    Text.trim line ∉ ["exit", "quit", "logout", ""]

instance (line : String) : Decidable (IsForSession line) := inferInstanceAs (Decidable (_ ∧ _))

/-- The line is not refused. -/
def Reaction.Accepts : Reaction → Prop
  | .refused _ => False
  | _ => True

theorem Reaction.Accepts.ne_refused {r : Reaction} (h : r.Accepts) (cause : Refusal) :
    r ≠ .refused cause := by
  rintro rfl
  exact h

/-- The line is not refused and leaves the log alone. -/
structure Aside (c : Console) (r : Reaction × Console) : Prop where
  accepted : r.1.Accepts
  phase : r.2.session.phase = c.session.phase
  log : r.2.session.log = c.session.log
  audience : r.2.audience = c.audience

theorem aside_openWindow (rest : String) (c : Console) :
    Aside c (.shown (some (c.openWindow rest).1), (c.openWindow rest).2) := by
  unfold openWindow
  split <;> exact ⟨trivial, rfl, rfl, rfl⟩

theorem aside_runMeta (command rest : String) (c : Console) :
    Aside c (c.runMeta command rest) := by
  unfold runMeta
  split
  -- opening a window and copying change more than what is printed
  case h_8 => exact aside_openWindow rest c
  case h_11 =>
    split
    · exact ⟨trivial, rfl, rfl, rfl⟩
    · obtain ⟨-, hphase, hlog⟩ := Session.copy_keeps rest c.desktop c.session
      exact ⟨trivial, hphase, hlog, rfl⟩
  all_goals exact ⟨trivial, rfl, rfl, rfl⟩

variable {gateway : Gateway} {now : Instant} {line : String} {c : Console}

theorem aside_processLine (h : ¬ IsForSession line) : Aside c (c.processLine gateway now line) := by
  unfold processLine
  simp only
  split
  · split <;> exact aside_runMeta _ _ c
  · rename_i hmeta
    split
    · exact ⟨trivial, rfl, rfl, rfl⟩
    · rename_i hexit
      split
      · exact ⟨trivial, rfl, rfl, rfl⟩
      · rename_i hblank
        refine absurd ⟨by simpa using hmeta, ?_⟩ h
        simpa [hblank] using hexit

theorem processLine_of_isForSession (h : IsForSession line) :
    c.processLine gateway now line = c.submitLine gateway now line := by
  obtain ⟨hmeta, hwords⟩ := h
  simp only [List.mem_cons, List.not_mem_nil, or_false, not_or] at hwords
  obtain ⟨hexit, hquit, hlogout, hblank⟩ := hwords
  unfold processLine
  simp [hmeta, hexit, hquit, hlogout, hblank]

/-- How the session takes the line. -/
def turnOf (gateway : Gateway) (now : Instant) (line : String) (c : Console) : Except Refusal Turn :=
  (c.session.execute gateway now line c.desktop).1

/-- An idle session takes the line and is idle again. Unless the log is wiped, what is printed is what
the log has gained. -/
structure Taken (c : Console) (turn : Turn) (r : Reaction × Console) : Prop where
  accepted : r.1.Accepts
  phase : r.2.session.phase = .idle
  audience : r.2.audience = c.audience
  wiped : turn = .cleared → r.2.session.log = []
  shown : turn ≠ .cleared → ∃ new, r.2.session.log = c.session.log ++ new ∧
    r.1 = .shown (formatEntries c.audience new)

theorem submitLine_of_kept {turn : Turn} {d : Desktop} {s : Session}
    (hturn : c.session.execute gateway now line c.desktop = (.ok turn, d, s))
    (hkept : turn ≠ .cleared) :
    c.submitLine gateway now line =
      (.shown (formatEntries c.audience (s.log.drop c.session.log.length)),
        { c with desktop := d, session := s }) := by
  unfold submitLine
  simp only [hturn]

theorem taken_submitLine (gateway : Gateway) (now : Instant) (line : String)
    (hidle : c.session.phase = .idle) :
    ∃ turn, c.turnOf gateway now line = .ok turn ∧ Taken c turn (c.submitLine gateway now line) := by
  rcases Session.execute_cases gateway now line c.desktop c.session with
    ⟨hbusy, -⟩ | ⟨-, turn, d, s, hturn, hphase, -, hlog⟩
  · rw [Session.isBusy, hidle] at hbusy
    cases hbusy
  · refine ⟨turn, congrArg Prod.fst hturn, ?_⟩
    by_cases hwiped : turn = .cleared
    · subst hwiped
      unfold submitLine
      simp only [hturn]
      exact ⟨trivial, hphase, rfl, fun _ => hlog, fun hkept => absurd rfl hkept⟩
    · obtain ⟨new, hnew⟩ := hlog.grows hwiped
      have hgained : s.log.drop c.session.log.length = new := by
        rw [← hnew, List.drop_left]
      rw [submitLine_of_kept hturn hwiped, hgained]
      exact ⟨trivial, hphase, rfl, fun h => absurd h hwiped, fun _ => ⟨new, hnew.symm, rfl⟩⟩

/-! ## Runs -/

/-- What can be asked of a console. -/
inductive Call where
  | line (gateway : Gateway) (text : String)
  | interrupt

/-- The text that a reaction prints. -/
def Reaction.text? : Reaction → Option String
  | .shown text => text
  | _ => none

/-- Whether a turn wipes the log. -/
def wipes : Except Refusal Turn → Bool
  | .ok .cleared => true
  | _ => false

/-- A console with what it has printed for the lines of its session since one of them wiped the log. -/
structure Watched where
  console : Console
  texts : List (Option String)

namespace Watched

def start (d : Desktop) (audience : Audience) : Watched := ⟨ofDesktop d audience, []⟩

/-- The texts after another line of the session. -/
def textsAfter (turn : Except Refusal Turn) (text : Option String) (texts : List (Option String)) :
    List (Option String) :=
  if wipes turn then [] else texts ++ [text]

def step (now : Instant) (k : Call) (v : Watched) : Watched :=
  match k with
  | .line gateway line =>
    let r := v.console.processLine gateway now line
    ⟨r.2, if IsForSession line then
        textsAfter (v.console.turnOf gateway now line) r.1.text? v.texts
      else v.texts⟩
  | .interrupt => { v with console := v.console.interrupt }

/-- The console after some calls, each at its own time. -/
def run : List (Call × Instant) → Watched → Watched
  | [], v => v
  | (k, now) :: rest, v => run rest (v.step now k)

/-- The session waits for nothing, and what has been printed shows its log. -/
structure Sound (audience : Audience) (v : Watched) : Prop where
  idle : v.console.session.phase = .idle
  shows : Shows audience v.texts v.console.session.log
  audience : v.console.audience = audience

theorem sound_start (d : Desktop) (audience : Audience) : Sound audience (start d audience) :=
  ⟨rfl, shows_nil audience, rfl⟩

variable {audience : Audience} {v : Watched}

theorem Sound.aside (h : Sound audience v) {r : Reaction × Console} (haside : Aside v.console r) :
    Sound audience ⟨r.2, v.texts⟩ := by
  refine ⟨haside.phase.trans h.idle, ?_, haside.audience.trans h.audience⟩
  simp only
  rw [haside.log]
  exact h.shows

theorem Sound.taken (h : Sound audience v) {turn : Turn} {r : Reaction × Console}
    (htaken : Taken v.console turn r) :
    Sound audience ⟨r.2, textsAfter (.ok turn) r.1.text? v.texts⟩ := by
  refine ⟨htaken.phase, ?_, htaken.audience.trans h.audience⟩
  simp only
  by_cases hwiped : turn = .cleared
  · rw [htaken.wiped hwiped, hwiped]
    exact shows_nil audience
  · obtain ⟨new, hlog, hshown⟩ := htaken.shown hwiped
    have htexts : textsAfter (.ok turn) r.1.text? v.texts =
        v.texts ++ [formatEntries audience new] := by
      rw [hshown, h.audience]
      cases turn with
      | cleared => exact absurd rfl hwiped
      | rendered => rfl
      | delegated request => rfl
    rw [hlog, htexts]
    exact h.shows.snoc new

/-- Step: a line or an interrupt. -/
theorem sound_step (h : Sound audience v) (now : Instant) (k : Call) :
    Sound audience (v.step now k) := by
  cases k with
  | interrupt => exact ⟨h.idle, h.shows.unseen (List.forall_mem_singleton.mpr rfl), h.audience⟩
  | line gateway line =>
    unfold step
    simp only
    by_cases hline : IsForSession line
    · obtain ⟨turn, hturn, htaken⟩ := taken_submitLine gateway now line h.idle
      rw [if_pos hline, processLine_of_isForSession hline, hturn]
      exact h.taken htaken
    · rw [if_neg hline]
      exact h.aside (aside_processLine hline)

/-- Run: any number of them. -/
theorem sound_run (h : Sound audience v) (calls : List (Call × Instant)) :
    Sound audience (run calls v) := by
  induction calls generalizing v with
  | nil => exact h
  | cons call rest ih => exact ih (sound_step h call.2 call.1)

end Watched

/-- Whatever is asked of a new console: its session is idle; what has been printed since the log was
last wiped shows every visible entry of the log once and in order; and the next line is not refused, and
if it goes to the session and does not wipe the log, exactly what it adds to the log is printed. What is
printed of any entries has a part for each output, error and delegated answer among them, in their
order, so none of these is left out. -/
theorem entries_shown_once (d : Desktop) (audience : Audience) (calls : List (Call × Instant)) :
    let v := Watched.run calls (.start d audience)
    let c := v.console
    c.session.phase = .idle ∧ Shows audience v.texts c.session.log ∧
      (∀ entries, Tells audience entries (formatEntries audience entries)) ∧
      ∀ gateway now line,
        let r := c.processLine gateway now line
        (∀ cause, r.1 ≠ .refused cause) ∧
        (IsForSession line → c.turnOf gateway now line ≠ .ok .cleared →
          ∃ new, r.2.session.log = c.session.log ++ new ∧
            r.1 = .shown (formatEntries audience new)) := by
  intro v c
  obtain ⟨hidle, hshows, haudience⟩ := Watched.sound_run (Watched.sound_start d audience) calls
  refine ⟨hidle, hshows, tells_formatEntries audience, fun gateway now line => ?_⟩
  by_cases hline : IsForSession line
  · obtain ⟨turn, hturn, htaken⟩ := taken_submitLine gateway now line hidle
    simp only [processLine_of_isForSession hline]
    refine ⟨htaken.accepted.ne_refused, fun _ hkept => ?_⟩
    obtain ⟨new, hlog, hshown⟩ := htaken.shown fun hcleared => hkept (by rw [hturn, hcleared])
    exact ⟨new, hlog, haudience ▸ hshown⟩
  · have haside : Aside c (c.processLine gateway now line) := aside_processLine hline
    exact ⟨haside.accepted.ne_refused, fun h => absurd h hline⟩

/-- Behind an answer of the gateway, an interrupt and a line for the console, only the new output is
printed. -/
theorem answer_not_shown_again :
    let d := Desktop.ofStore "desktop" (Desktop.newStore Config.standard ⟨0, 0⟩)
    let gateway : Gateway := fun _ => .ok "noon"
    let v := Watched.run [(.line gateway "what time", ⟨1, 0⟩), (.interrupt, ⟨2, 0⟩),
      (.line gateway "/cwd", ⟨3, 0⟩)] (.start d .interactive)
    v.texts = [some "noon"] ∧ v.console.session.phase = .idle ∧
      ∃ new, (v.console.processLine gateway ⟨4, 0⟩ "echo hi").2.session.log =
          v.console.session.log ++ new ∧ formatEntries .interactive new = some "hi" := by
  intro d gateway v
  have hline : IsForSession "echo hi" := by decide
  have htexts : v.texts = [some "noon"] := by decide +kernel
  have hshown : (v.console.processLine gateway ⟨4, 0⟩ "echo hi").1 = .shown (some "hi") := by
    decide +kernel
  have hkept : wipes (v.console.turnOf gateway ⟨4, 0⟩ "echo hi") = false := by decide +kernel
  obtain ⟨hidle, -, -, hnext⟩ := entries_shown_once d .interactive
    [(.line gateway "what time", ⟨1, 0⟩), (.interrupt, ⟨2, 0⟩), (.line gateway "/cwd", ⟨3, 0⟩)]
  obtain ⟨-, hgained⟩ := hnext gateway ⟨4, 0⟩ "echo hi"
  obtain ⟨new, hlog, hnew⟩ := hgained hline fun hcleared => by
    rw [hcleared] at hkept
    cases hkept
  exact ⟨htexts, hidle, new, hlog, (Reaction.shown.inj (hshown.symm.trans hnew)).symm⟩

end Console

end DesktopTerminal

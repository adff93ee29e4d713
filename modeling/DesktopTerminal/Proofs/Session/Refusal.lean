import DesktopTerminal.Proofs.Session.Run

/-!
# Refused submissions

A line that comes to a busy terminal is refused before anything is touched. Submitting the input is
different: the input is taken first and offered then, so that a refusal loses what the user has typed
while waiting. That is all it loses. A refused submission therefore leaves the system as it was
exactly if it came with its own line, or the input was empty.
-/
namespace DesktopTerminal

namespace Session

/-- What a refused action leaves of the session. -/
def afterRefusal (a : Action) (s : Session) : Session :=
  match a with
  | .submitInput => { s with input := "" }
  | _ => s

theorem submit_refused_iff {now : Instant} {line : String} {d : Desktop} {s : Session} :
    (s.submit now line d).1 = .error .busy ↔ s.isBusy = true := by
  rcases submit_cases now line d s with ⟨hbusy, h⟩ | ⟨hbusy, turn, d', s', h, _⟩
  · rw [h, hbusy]
    exact iff_of_true rfl rfl
  · rw [h, hbusy]
    exact iff_of_false nofun nofun

theorem submit_of_busy {now : Instant} {line : String} {d : Desktop} {s : Session}
    (h : s.isBusy = true) : s.submit now line d = (.error .busy, d, s) := by
  rw [submit_eq, if_pos h]

/-- An action is refused if it submits something and the session is busy. Then the desktop stays as it
is, and the session but for the input that was taken. -/
theorem act_refused_iff {now : Instant} {a : Action} {d : Desktop} {s : Session} :
    (s.act now a d).1 = .turn (.error .busy) ↔
      s.isBusy = true ∧ ((∃ line, a = .submit line) ∨ a = .submitInput) := by
  cases a with
  | submit line =>
    have h : (s.act now (.submit line) d).1 = .turn (s.submit now line d).1 := rfl
    rw [h, Reply.turn.injEq, submit_refused_iff]
    simp
  | submitInput =>
    have h : (s.act now .submitInput d).1 =
        .turn (submit now s.input d { s with input := "" }).1 := rfl
    rw [h, Reply.turn.injEq, submit_refused_iff]
    simp [isBusy]
  | _ => simp [act]

theorem act_of_refused {now : Instant} {a : Action} {d : Desktop} {s : Session}
    (h : (s.act now a d).1 = .turn (.error .busy)) : (s.act now a d).2 = (d, s.afterRefusal a) := by
  obtain ⟨hbusy, hsubmits⟩ := act_refused_iff.mp h
  rcases hsubmits with ⟨line, rfl⟩ | rfl
  · exact congrArg Prod.snd (submit_of_busy hbusy)
  · have htaken : ({ s with input := "" } : Session).isBusy = true := hbusy
    exact congrArg Prod.snd (submit_of_busy htaken)

theorem afterRefusal_eq_iff {a : Action} {s : Session} :
    s.afterRefusal a = s ↔ a ≠ .submitInput ∨ s.input = "" := by
  cases a with
  | submitInput =>
    simp only [afterRefusal, ne_eq, not_true_eq_false, false_or]
    constructor
    · intro h
      exact (congrArg input h).symm
    · intro h
      rw [← h]
  | _ => simp [afterRefusal]

end Session

namespace System

variable {now : Instant} {a : Action} {i : Nat} {y : System}

/-- What comes of an action at a terminal that is there. -/
theorem step_act {s : Session} (hs : y.sessions[i]? = some s) :
    y.step now (.act i a) = ((s.act now a y.desktop).1,
      ⟨(s.act now a y.desktop).2.1, y.sessions.set i (s.act now a y.desktop).2.2⟩) := by
  rw [step, hs]

/-- An action is refused at a terminal that is there, is busy, and is to submit something. -/
theorem step_refused_iff :
    (y.step now (.act i a)).1 = .turn (.error .busy) ↔
      ∃ s, y.sessions[i]? = some s ∧ s.isBusy = true ∧
        ((∃ line, a = .submit line) ∨ a = .submitInput) := by
  cases hs : y.sessions[i]? with
  | none =>
    rw [step, hs]
    simp
  | some s =>
    rw [step_act hs, Session.act_refused_iff]
    simp

theorem step_of_refused {s : Session} (hs : y.sessions[i]? = some s)
    (h : (y.step now (.act i a)).1 = .turn (.error .busy)) :
    (y.step now (.act i a)).2 = ⟨y.desktop, y.sessions.set i (s.afterRefusal a)⟩ := by
  rw [step_act hs] at h ⊢
  rw [Session.act_of_refused h]

/-- Putting a session in its own place changes something if it is another. -/
theorem set_sessions_eq_iff {s t : Session} (hs : y.sessions[i]? = some s) :
    (⟨y.desktop, y.sessions.set i t⟩ : System) = y ↔ t = s := by
  obtain ⟨hi, rfl⟩ := List.getElem?_eq_some_iff.mp hs
  constructor
  · intro h
    have hset : y.sessions.set i t = y.sessions := congrArg sessions h
    have hget : (y.sessions.set i t)[i]? = y.sessions[i]? := by rw [hset]
    rw [List.getElem?_set_self hi, List.getElem?_eq_getElem hi] at hget
    exact Option.some.inj hget
  · rintro rfl
    rw [List.set_getElem_self hi]

/-- A refused submission is one at a busy terminal. It leaves the desktop, all other terminals and all
of its own session but the input; a line that was submitted leaves the input too, and submitting the
input empties it. So it changes something exactly if the input was submitted and there was one. -/
theorem refused_changes_iff (now : Instant) (a : Action) (i : Nat) (y : System) :
    ((y.step now (.act i a)).1 = .turn (.error .busy) ↔
      ∃ s, y.sessions[i]? = some s ∧ s.isBusy = true ∧
        ((∃ line, a = .submit line) ∨ a = .submitInput)) ∧
    ((y.step now (.act i a)).1 = .turn (.error .busy) →
      ∃ s, y.sessions[i]? = some s ∧
        (y.step now (.act i a)).2 = ⟨y.desktop, y.sessions.set i (s.afterRefusal a)⟩ ∧
        ((y.step now (.act i a)).2 ≠ y ↔ a = .submitInput ∧ s.input ≠ "")) := by
  refine ⟨step_refused_iff, fun h => ?_⟩
  obtain ⟨s, hs, _, _⟩ := step_refused_iff.mp h
  have hstep := step_of_refused hs h
  refine ⟨s, hs, hstep, ?_⟩
  rw [hstep, ne_eq, set_sessions_eq_iff hs, Session.afterRefusal_eq_iff]
  simp

/-- While the gateway is asked about one line, the next is half typed and submitted too soon. -/
theorem half_typed_input_is_lost :
    let d := Desktop.ofStore "desktop" (Desktop.newStore Config.standard ⟨0, 0⟩)
    let y := run [(.start, ⟨1, 0⟩), (.act 0 (.submit "frobnicate"), ⟨1, 0⟩),
      (.act 0 (.setInput "half typed"), ⟨1, 0⟩)] ⟨d, []⟩
    let z := (y.step ⟨2, 0⟩ (.act 0 .submitInput)).2
    (y.step ⟨2, 0⟩ (.act 0 .submitInput)).1 = .turn (.error .busy) ∧
      y.sessions.map (·.input) = ["half typed"] ∧ z.sessions.map (·.input) = [""] ∧ z ≠ y := by
  intro d y z
  have hforeign : foreignName? "frobnicate" = some "frobnicate" := by decide +kernel
  have hsubmit : ((Session.start d).submit ⟨1, 0⟩ "frobnicate" d).1 = .ok (.delegated _) :=
    Session.submit_eq_delegated_iff.mpr ⟨rfl, by decide, _, hforeign, rfl⟩
  have hleft := Session.submit_of_delegated hsubmit
  have hy : y = ⟨d, [(((Session.start d).entered "frobnicate" d).moveTo .delegated).setInput
      "half typed"]⟩ := by
    change System.mk ((Session.start d).submit ⟨1, 0⟩ "frobnicate" d).2.1
      [((Session.start d).submit ⟨1, 0⟩ "frobnicate" d).2.2.setInput "half typed"] = _
    rw [hleft]
  clear_value y
  subst hy
  have hlost : z.sessions.map (·.input) = [""] := rfl
  refine ⟨rfl, rfl, hlost, fun hz => ?_⟩
  rw [hz] at hlost
  have hinput : "half typed" = "" := (List.cons.inj hlost).1
  exact absurd hinput (by decide)

end System

end DesktopTerminal

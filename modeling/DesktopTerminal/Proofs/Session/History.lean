import DesktopTerminal.Session.History

/-!
# Walks over the history

The user stands at an entry or behind the newest one. A step to an older entry goes one place back, a
step to a newer one goes one place forth, and neither leaves the places there are. As long as the cursor
is in range, the entries and the place tell all of a history (`standAt_place`), and what a walk does is
arithmetic on places (`run_walk`). Only recording a line changes the entries, and it ends the walk.
-/
namespace DesktopTerminal.History

/-- The cursor is on an entry, if there is one. -/
def InRange (h : History) : Prop := ∀ i, h.cursor = some i → i < h.entries.length

theorem inRange_of_none {entries : List String} : InRange ⟨entries, none⟩ :=
  fun _ hi => by cases hi

theorem recallAt_snd (i : Nat) (h : History) :
    (h.recallAt i).2.entries = h.entries ∧ (h.InRange → (h.recallAt i).2.InRange) := by
  rw [recallAt]
  cases hi : h.entries[i]? with
  | none => exact ⟨rfl, id⟩
  | some line =>
    have hlt : i < h.entries.length := (List.getElem?_eq_some_iff.mp hi).1
    exact ⟨rfl, fun _ j hj => Option.some.inj hj ▸ hlt⟩

theorem previous_snd (h : History) :
    h.previous.2.entries = h.entries ∧ (h.InRange → h.previous.2.InRange) := by
  rw [previous]
  split <;> exact recallAt_snd _ h

theorem next_snd (h : History) :
    h.next.2.entries = h.entries ∧ (h.InRange → h.next.2.InRange) := by
  rw [next]
  split
  · exact ⟨rfl, id⟩
  · split
    · exact recallAt_snd _ h
    · exact ⟨rfl, fun _ => inRange_of_none⟩

theorem entries_push (line : String) (h : History) :
    (h.push line).entries = h.entries ++ [line].filter (fun line => !Text.isBlankText line) := by
  rw [push]
  cases hblank : Text.isBlankText line with
  | true => simp [hblank]
  | false => simp [hblank]

theorem inRange_push (line : String) (h : History) : (h.push line).InRange := by
  rw [push]
  split <;> exact inRange_of_none

/-! ## Places -/

/-- Where the user stands: at the entry on show, or behind the newest. -/
def place (h : History) : Nat := h.cursor.getD h.entries.length

/-- The history with the user at a place. Behind the newest entry there is no walk. -/
def standAt (p : Nat) (h : History) : History :=
  ⟨h.entries, if p < h.entries.length then some p else none⟩

/-- The entry on show. -/
def shown? (h : History) : Option String := h.cursor.bind fun i => h.entries[i]?

variable {h : History} {p : Nat}

theorem place_le (hr : h.InRange) : h.place ≤ h.entries.length := by
  rw [place]
  cases hcursor : h.cursor with
  | none => exact Nat.le_refl _
  | some i => exact Nat.le_of_lt (hr i hcursor)

theorem standAt_of_lt (hp : p < h.entries.length) : h.standAt p = ⟨h.entries, some p⟩ := by
  rw [standAt, if_pos hp]

theorem standAt_of_le (hp : h.entries.length ≤ p) : h.standAt p = ⟨h.entries, none⟩ := by
  rw [standAt, if_neg (Nat.not_lt.mpr hp)]

@[simp] theorem standAt_standAt (p q : Nat) (h : History) :
    (h.standAt p).standAt q = h.standAt q := rfl

@[simp] theorem place_standAt (p : Nat) (h : History) :
    (h.standAt p).place = min p h.entries.length := by
  rcases Nat.lt_or_ge p h.entries.length with hp | hp
  · rw [standAt_of_lt hp]
    exact (Nat.min_eq_left (Nat.le_of_lt hp)).symm
  · rw [standAt_of_le hp]
    exact (Nat.min_eq_right hp).symm

theorem inRange_standAt (p : Nat) (h : History) : (h.standAt p).InRange := by
  rcases Nat.lt_or_ge p h.entries.length with hp | hp
  · rw [standAt_of_lt hp]
    exact fun _ hi => Option.some.inj hi ▸ hp
  · rw [standAt_of_le hp]
    exact inRange_of_none

theorem standAt_place (hr : h.InRange) : h.standAt h.place = h := by
  obtain ⟨entries, cursor⟩ := h
  cases cursor with
  | none => exact standAt_of_le (Nat.le_refl _)
  | some i => exact standAt_of_lt (hr i rfl)

/-- All places behind the newest entry are one. -/
theorem standAt_min_add (p q : Nat) (h : History) :
    h.standAt (min p h.entries.length + q) = h.standAt (p + q) := by
  rcases Nat.le_total p h.entries.length with hp | hp
  · rw [Nat.min_eq_left hp]
  · rw [Nat.min_eq_right hp, standAt_of_le (Nat.le_add_right _ _),
      standAt_of_le (Nat.le_trans hp (Nat.le_add_right _ _))]

/-! ## One step -/

/-- The answer to a step is the entry at the cursor after it. Any other answer comes with no cursor. -/
def Tells (r : Recall × History) : Prop :=
  match r.1 with
  | .entry line => r.2.shown? = some line
  | .blank | .unchanged => r.2.cursor = none

theorem recallAt_of_lt (hp : p < h.entries.length) :
    h.recallAt p = (.entry h.entries[p], h.standAt p) := by
  rw [recallAt, List.getElem?_eq_getElem hp, standAt_of_lt hp]

theorem tells_recallAt (hp : p < h.entries.length) : Tells (h.recallAt p) := by
  rw [recallAt_of_lt hp, standAt_of_lt hp]
  exact List.getElem?_eq_getElem hp

theorem previous_eq (h : History) : h.previous = h.recallAt (h.place - 1) := by
  rw [previous, place]
  cases h.cursor <;> rfl

theorem previous_steps (hr : h.InRange) :
    h.previous.2 = h.standAt (h.place - 1) ∧ Tells h.previous := by
  rw [previous_eq]
  rcases Nat.eq_zero_or_pos h.entries.length with hnone | hsome
  · -- in an empty history there is no place but the one behind the newest
    obtain ⟨entries, cursor⟩ := h
    obtain rfl : entries = [] := List.eq_nil_of_length_eq_zero hnone
    cases cursor with
    | none => exact ⟨rfl, rfl⟩
    | some i => exact absurd (hr i rfl) (Nat.not_lt_zero i)
  · have hlt : h.place - 1 < h.entries.length := by
      have hle := place_le hr
      omega
    exact ⟨by rw [recallAt_of_lt hlt], tells_recallAt hlt⟩

theorem next_steps (hr : h.InRange) :
    h.next.2 = h.standAt (h.place + 1) ∧ Tells h.next := by
  obtain ⟨entries, cursor⟩ := h
  cases cursor with
  | none =>
    have hstays : standAt (entries.length + 1) ⟨entries, none⟩ = ⟨entries, none⟩ :=
      standAt_of_le (Nat.le_succ _)
    exact ⟨hstays.symm, rfl⟩
  | some i =>
    have hplace : place ⟨entries, some i⟩ = i := rfl
    rw [next, hplace]
    rcases Nat.lt_or_ge (i + 1) entries.length with hlt | hlast
    · simp only [if_pos hlt]
      exact ⟨by rw [recallAt_of_lt hlt], tells_recallAt hlt⟩
    · have hleaves : standAt (i + 1) ⟨entries, some i⟩ = ⟨entries, none⟩ := standAt_of_le hlast
      simp only [if_neg (Nat.not_lt.mpr hlast)]
      exact ⟨hleaves.symm, rfl⟩

/-! ## Runs -/

/-- What is done to a history. -/
inductive Step where
  | push (line : String)
  | previous
  | next
  | reset
deriving DecidableEq, Repr

/-- The line that a step records, unless it is blank. -/
def Step.recorded : Step → List String
  | .push line => [line].filter fun line => !Text.isBlankText line
  | .previous | .next | .reset => []

def after (h : History) : Step → History
  | .push line => h.push line
  | .previous => h.previous.2
  | .next => h.next.2
  | .reset => h.resetCursor

/-- The history after some steps. -/
def run (steps : List Step) (h : History) : History := steps.foldl after h

/-- Some steps to older entries, then some to newer ones. -/
def walk (back forth : Nat) : List Step :=
  List.replicate back .previous ++ List.replicate forth .next

theorem inRange_after (hr : h.InRange) (step : Step) : (h.after step).InRange := by
  cases step with
  | push line => exact inRange_push line h
  | previous => exact h.previous_snd.2 hr
  | next => exact h.next_snd.2 hr
  | reset => exact inRange_of_none

theorem entries_after (step : Step) (h : History) :
    (h.after step).entries = h.entries ++ step.recorded := by
  cases step with
  | push line => exact entries_push line h
  | previous => exact h.previous_snd.1.trans (List.append_nil _).symm
  | next => exact h.next_snd.1.trans (List.append_nil _).symm
  | reset => exact (List.append_nil _).symm

theorem inRange_run (hr : h.InRange) (steps : List Step) : (run steps h).InRange := by
  induction steps generalizing h with
  | nil => exact hr
  | cons step steps ih => exact ih (inRange_after hr step)

theorem entries_run (steps : List Step) (h : History) :
    (run steps h).entries = h.entries ++ steps.flatMap Step.recorded := by
  induction steps generalizing h with
  | nil => simp [run]
  | cons step steps ih =>
    have hrest := ih (h.after step)
    rw [entries_after, List.append_assoc] at hrest
    exact hrest

theorem run_back (hr : h.InRange) (back : Nat) :
    run (List.replicate back .previous) h = h.standAt (h.place - back) := by
  induction back generalizing h with
  | zero => exact (standAt_place hr).symm
  | succ back ih =>
    have hle := place_le hr
    have hstep : h.after .previous = h.standAt (h.place - 1) := (previous_steps hr).1
    have hplace : min (h.place - 1) h.entries.length - back = h.place - (back + 1) := by omega
    rw [List.replicate_succ, run, List.foldl_cons, hstep, ← run, ih (inRange_standAt _ h),
      standAt_standAt, place_standAt, hplace]

theorem run_forth (hr : h.InRange) (forth : Nat) :
    run (List.replicate forth .next) h = h.standAt (h.place + forth) := by
  induction forth generalizing h with
  | zero => exact (standAt_place hr).symm
  | succ forth ih =>
    have hstep : h.after .next = h.standAt (h.place + 1) := (next_steps hr).1
    rw [List.replicate_succ, run, List.foldl_cons, hstep, ← run, ih (inRange_standAt _ h),
      standAt_standAt, place_standAt, standAt_min_add, Nat.add_assoc, Nat.add_comm 1]

theorem run_walk (hr : h.InRange) (back forth : Nat) :
    run (walk back forth) h = h.standAt (h.place - back + forth) := by
  have hle := place_le hr
  rw [walk, run, List.foldl_append, ← run, ← run, run_back hr, run_forth (inRange_standAt _ h),
    standAt_standAt, place_standAt, standAt_min_add]

/-- After any steps from an empty history: the cursor is on an entry, if there is one; a step to an
older or a newer entry gives back the entry at the new cursor; a walk that starts behind the newest
entry stops at the oldest, comes back entry by entry, gives a blank when it passes the newest, and is
over then; and nothing but recording a line changes the entries. -/
theorem walk_clamped (steps : List Step) :
    let h := run steps empty
    (∀ i, h.cursor = some i → i < h.entries.length) ∧
    Tells h.previous ∧ Tells h.next ∧
    (h.cursor = none → ∀ back, 1 ≤ back → 1 ≤ h.entries.length →
      let way := min back h.entries.length
      (∀ forth, forth < way →
        (run (walk back forth) h).cursor = some (h.entries.length - way + forth)) ∧
      (run (walk back (way - 1)) h).next = (.blank, ⟨h.entries, none⟩) ∧
      ∀ forth, way ≤ forth →
        (run (walk back forth) h).next = (.unchanged, ⟨h.entries, none⟩)) ∧
    ∀ more, (run more h).entries = h.entries ++ more.flatMap Step.recorded := by
  intro h
  have hr : h.InRange := inRange_run inRange_of_none steps
  refine ⟨hr, (previous_steps hr).2, (next_steps hr).2, fun hnone back hback hentries => ?_,
    fun more => entries_run more h⟩
  intro way
  have hplace : h.place = h.entries.length := by rw [place, hnone, Option.getD_none]
  have hway : 1 ≤ way ∧ way ≤ h.entries.length ∧ h.place - back = h.entries.length - way := by
    omega
  have hwalk (forth : Nat) :
      run (walk back forth) h = h.standAt (h.entries.length - way + forth) := by
    rw [run_walk hr, hway.2.2]
  refine ⟨fun forth hforth => ?_, ?_, fun forth hforth => ?_⟩
  · rw [hwalk, standAt_of_lt (by omega)]
  · have hlast : h.entries.length - way + (way - 1) < h.entries.length := by omega
    have hpast : ¬h.entries.length - way + (way - 1) + 1 < h.entries.length := by omega
    rw [hwalk, standAt_of_lt hlast, next]
    exact if_neg hpast
  · rw [hwalk, standAt_of_le (by omega), next]

/-- Five steps back over three lines stop at the oldest. The third step forth passes the newest. -/
theorem three_lines_walked :
    let h := run [.push "A", .push "B", .previous, .push "  ", .push "C"] empty
    h.cursor = none ∧ h.entries = ["A", "B", "C"] ∧
      (run (walk 5 0) h).cursor = some 0 ∧ (run (walk 5 2) h).cursor = some 2 ∧
      (run (walk 5 2) h).next = (.blank, ⟨["A", "B", "C"], none⟩) ∧
      (run (walk 5 3) h).next = (.unchanged, ⟨["A", "B", "C"], none⟩) := by
  have hstart : run [.push "A", .push "B", .previous, .push "  ", .push "C"] empty =
      ⟨["A", "B", "C"], none⟩ := by decide
  obtain ⟨-, -, -, hwalk, -⟩ :=
    walk_clamped [.push "A", .push "B", .previous, .push "  ", .push "C"]
  rw [hstart] at hwalk ⊢
  obtain ⟨hforth, hblank, hover⟩ := hwalk rfl 5 (by decide) (by decide)
  exact ⟨rfl, rfl, hforth 0 (by decide), hforth 2 (by decide), hblank, hover 3 (by decide)⟩

end DesktopTerminal.History

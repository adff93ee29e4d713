import DesktopTerminal.Windows
import Mathlib.Data.List.Nodup

/-!
# Identifiers of windows

The windows that are opened are numbered by a counter, and no two of them share an identifier: the
number is what follows the last dash. But the counter starts at zero, whatever windows were there
before, so an opened window can get an identifier that one of those has. Closing takes away both.
-/
namespace DesktopTerminal.Windows

/-- The identifiers of the open windows. -/
def ids (s : Windows) : List String := s.windows.map Window.id

/-- The identifier of the window that is opened as the one of this number. -/
def numberedId (app : String) (number : Nat) : String := app ++ "-" ++ toString number

/-! ## Closing -/

theorem length_close (id : String) (s : Windows) :
    (s.close id).2.windows.length + s.ids.count id = s.windows.length := by
  rw [close, ids, List.count_eq_countP, List.countP_map, ← List.countP_eq_length_filter,
    s.windows.length_eq_countP_add_countP (·.id ≠ id)]
  congr 1
  refine List.countP_congr fun v _ => ?_
  simp

/-- No two windows share an identifier just if no call closes more than one. -/
theorem nodup_ids_iff_close {s : Windows} :
    s.ids.Nodup ↔ ∀ id, s.windows.length ≤ (s.close id).2.windows.length + 1 := by
  rw [List.nodup_iff_count_le_one]
  refine forall_congr' fun id => ?_
  have hlength := length_close id s
  omega

/-- Where no two windows share an identifier, closing one leaves all the others in their order. -/
theorem close_of_nodup {s : Windows} (h : s.ids.Nodup) {v : Window} {before after : List Window}
    (hs : s.windows = before ++ v :: after) :
    s.close v.id = (true, ⟨before ++ after, s.opened⟩) := by
  rw [ids, hs, List.map_append, List.map_cons, List.nodup_middle, List.nodup_cons,
    ← List.map_append] at h
  have hothers : ∀ u ∈ before ++ after, u.id ≠ v.id := fun u hu heq =>
    h.1 (heq ▸ List.mem_map_of_mem hu)
  have hkept : s.windows.filter (·.id ≠ v.id) = before ++ after := by
    rw [hs, List.filter_append, List.filter_cons_of_neg (by simp), ← List.filter_append]
    exact List.filter_eq_self.mpr fun u hu => decide_eq_true (hothers u hu)
  rw [close, hkept, hs]
  simp

/-! ## Numbers -/

/-- What follows the last dash of a text is the same for the same text. -/
theorem eq_of_append_dash {as bs xs ys : List Char} (hx : '-' ∉ xs) (hy : '-' ∉ ys)
    (h : as ++ '-' :: xs = bs ++ '-' :: ys) : xs = ys := by
  have hback {zs : List Char} (hz : '-' ∉ zs) (cs : List Char) :
      (cs ++ '-' :: zs).reverse.takeWhile (· ≠ '-') = zs.reverse := by
    rw [List.reverse_append, List.reverse_cons, List.append_assoc, List.takeWhile_append_of_pos]
    · simp
    · intro c hc
      exact decide_eq_true fun heq => hz (heq ▸ List.mem_reverse.mp hc)
  rw [← List.reverse_inj, ← hback hx as, ← hback hy bs, h]

theorem toList_numberedId (app : String) (number : Nat) :
    (numberedId app number).toList = app.toList ++ '-' :: Nat.toDigits 10 number := by
  simp [numberedId]

theorem numberedId_inj {app app' : String} {m n : Nat} (h : numberedId app m = numberedId app' n) :
    m = n := by
  have hdigits (k : Nat) : '-' ∉ Nat.toDigits 10 k := fun hmem =>
    absurd (Nat.isDigit_of_mem_toDigits (by decide) (by decide) hmem) (by decide)
  have hsame := congrArg String.toList h
  rw [toList_numberedId, toList_numberedId] at hsame
  have hnumber := congrArg (Nat.ofDigitChars 10 · 0)
    (eq_of_append_dash (hdigits m) (hdigits n) hsame)
  simpa only [Nat.ofDigitChars_ten_toDigits] using hnumber

/-- No window has an identifier that could be given to one that is opened. -/
def Unnumbered (ws : List Window) : Prop := ∀ v ∈ ws, ∀ app n, v.id ≠ numberedId app (n + 1)

/-- No window has an identifier that could be given to one of the first `most` that are opened. -/
def UnnumberedUpTo (most : Nat) (ws : List Window) : Prop :=
  ∀ v ∈ ws, ∀ app n, n < most → v.id ≠ numberedId app (n + 1)

theorem unnumbered_iff {ws : List Window} : Unnumbered ws ↔ ∀ most, UnnumberedUpTo most ws :=
  ⟨fun h _ v hv app n _ => h v hv app n, fun h v hv app n => h _ v hv app n (Nat.lt_succ_self n)⟩

/-! ## Calls -/

/-- What the windows are asked for. -/
inductive Call where
  | opens (app title : String)
  | closes (id : String)
deriving DecidableEq, Repr

def Call.isOpening : Call → Bool
  | .opens _ _ => true
  | .closes _ => false

/-- How many windows the calls open. -/
def openings (calls : List Call) : Nat := calls.countP Call.isOpening

def apply (s : Windows) : Call → Windows
  | .opens app title => (s.openWindow app title).2
  | .closes id => (s.close id).2

/-- The windows after some calls. -/
def run (calls : List Call) (s : Windows) : Windows := calls.foldl apply s

/-- The counter has counted the openings. -/
theorem opened_run (calls : List Call) (s : Windows) :
    (run calls s).opened = s.opened + openings calls := by
  induction calls generalizing s with
  | nil => rfl
  | cons call calls ih =>
    rw [run, List.foldl_cons, ← run, ih, openings, openings, List.countP_cons]
    cases call with
    | opens app title =>
      have hnumber : (s.apply (.opens app title)).opened = s.opened + 1 := rfl
      rw [hnumber, Call.isOpening, if_pos rfl]
      omega
    | closes id => rfl

theorem opened_run_ofList (calls : List Call) (ws : List Window) :
    (run calls (ofList ws)).opened = openings calls :=
  (opened_run calls (ofList ws)).trans (Nat.zero_add _)

/-- The windows that are left of those that were there at first, and those that were opened. -/
structure Grown (ws kept fresh : List Window) (s : Windows) : Prop where
  windows : s.windows = kept ++ fresh
  kept : kept.Sublist ws
  numbered : ∀ v ∈ fresh, ∃ number, number < s.opened ∧ v.id = numberedId v.app (number + 1)
  nodup : (fresh.map Window.id).Nodup

variable {ws kept fresh : List Window} {s : Windows}

theorem grown_ofList (ws : List Window) : Grown ws ws [] (ofList ws) where
  windows := (List.append_nil ws).symm
  kept := List.Sublist.refl ws
  numbered := fun _ h => absurd h List.not_mem_nil
  nodup := List.nodup_nil

theorem Grown.openWindow (h : Grown ws kept fresh s) (app title : String) :
    Grown ws kept (fresh ++ [⟨numberedId app (s.opened + 1), app, title⟩])
      (s.openWindow app title).2 where
  windows := by
    rw [← List.append_assoc, ← h.windows]
    rfl
  kept := h.kept
  numbered := by
    refine List.forall_mem_append.mpr ⟨fun v hv => ?_, List.forall_mem_singleton.mpr ?_⟩
    · obtain ⟨number, hlt, hid⟩ := h.numbered v hv
      exact ⟨number, Nat.lt_succ_of_lt hlt, hid⟩
    · exact ⟨s.opened, Nat.lt_succ_self _, rfl⟩
  nodup := by
    rw [List.map_append, List.map_singleton, ← List.concat_eq_append, List.nodup_concat]
    refine ⟨fun hmem => ?_, h.nodup⟩
    obtain ⟨v, hv, hid⟩ := List.mem_map.mp hmem
    obtain ⟨number, hlt, hnumbered⟩ := h.numbered v hv
    have hsame := numberedId_inj (hnumbered.symm.trans hid)
    omega

theorem Grown.close (h : Grown ws kept fresh s) (id : String) :
    Grown ws (kept.filter (·.id ≠ id)) (fresh.filter (·.id ≠ id)) (s.close id).2 where
  windows := by
    rw [← List.filter_append, ← h.windows]
    rfl
  kept := List.filter_sublist.trans h.kept
  numbered := fun v hv => h.numbered v (List.mem_of_mem_filter hv)
  nodup := h.nodup.sublist (List.filter_sublist.map _)

theorem Grown.run (h : Grown ws kept fresh s) (calls : List Call) :
    ∃ kept fresh, Grown ws kept fresh (run calls s) := by
  induction calls generalizing s kept fresh with
  | nil => exact ⟨kept, fresh, h⟩
  | cons call calls ih =>
    cases call with
    | opens app title => exact ih (h.openWindow app title)
    | closes id => exact ih (h.close id)

/-- Two windows with one identifier are one that was there at first and one that was opened. -/
theorem Grown.nodup_ids_iff (h : Grown ws kept fresh s) (hws : (ws.map Window.id).Nodup) :
    s.ids.Nodup ↔ ∀ v ∈ kept, ∀ u ∈ fresh, v.id ≠ u.id := by
  have hkept : (kept.map Window.id).Nodup := hws.sublist (h.kept.map _)
  rw [ids, h.windows, List.map_append, List.nodup_append]
  simp [hkept, h.nodup]

/-! ## Collisions -/

/-- Opening windows takes none away. -/
theorem ids_subset_run_opens (app title : String) (n : Nat) (s : Windows) :
    s.ids ⊆ (run (List.replicate n (.opens app title)) s).ids := by
  induction n generalizing s with
  | zero => exact List.Subset.refl _
  | succ n ih =>
    have hids : s.ids ⊆ (s.openWindow app title).2.ids :=
      List.map_subset _ (List.subset_append_left _ _)
    rw [List.replicate_succ, run, List.foldl_cons, ← run, apply]
    exact List.Subset.trans hids (ih _)

theorem openings_replicate (app title : String) (n : Nat) :
    openings (List.replicate n (.opens app title)) = n := by
  simp [openings, List.countP_replicate, Call.isOpening]

/-- A window whose identifier has a number is met again once as many windows have been opened. -/
theorem exists_collision {id app : String} {n : Nat} (hmem : id ∈ ws.map Window.id)
    (hid : id = numberedId app (n + 1)) :
    ∃ calls, openings calls = n + 1 ∧ ¬(run calls (ofList ws)).ids.Nodup := by
  let before : List Call := List.replicate n (.opens app "")
  let s := run before (ofList ws)
  have hnumber : s.opened = n := (opened_run_ofList before ws).trans (openings_replicate app "" n)
  have hids : (s.openWindow app "").2.ids = s.ids ++ [id] := by
    rw [hid, ← hnumber]
    exact List.map_append
  have hrun : run (before ++ [.opens app ""]) (ofList ws) = (s.openWindow app "").2 := by
    rw [run, List.foldl_append]
    rfl
  have hopenings : openings (before ++ [.opens app ""]) = n + 1 := by
    rw [openings, List.countP_append, ← openings, openings_replicate]
    rfl
  refine ⟨before ++ [.opens app ""], hopenings, ?_⟩
  rw [hrun, hids, ← List.concat_eq_append, List.nodup_concat]
  exact fun h => h.1 (ids_subset_run_opens app "" n (ofList ws) hmem)

/-- As long as no more than `most` windows are opened, a collision needs one of the first `most`
numbers. -/
theorem nodup_upTo_iff (hws : (ws.map Window.id).Nodup) (most : Nat) :
    (∀ calls, openings calls ≤ most → (run calls (ofList ws)).ids.Nodup) ↔
      UnnumberedUpTo most ws := by
  constructor
  · intro h v hv app n hn hid
    obtain ⟨calls, hopenings, hcalls⟩ := exists_collision (List.mem_map_of_mem hv) hid
    exact hcalls (h calls (hopenings ▸ hn))
  · intro h calls hmost
    obtain ⟨kept, fresh, hgrown⟩ := (grown_ofList ws).run calls
    refine (hgrown.nodup_ids_iff hws).mpr fun v hv u hu hvu => ?_
    obtain ⟨number, hlt, hid⟩ := hgrown.numbered u hu
    rw [opened_run_ofList] at hlt
    exact h v (hgrown.kept.subset hv) u.app number (Nat.lt_of_lt_of_le hlt hmost) (hvu.trans hid)

/-- Whatever windows are opened and closed, no two share an identifier, and no call closes more than
one, exactly if none of the windows that were there at first has an identifier with a number from one
up behind its last dash. Those that are opened never share one among themselves. Of runs that open no
more than `most` windows the same is true with the numbers up to `most`, which for a counter of 64
bits is `2 ^ 64 - 1`. -/
theorem ids_distinct_iff_unnumbered (ws : List Window) (hws : (ws.map Window.id).Nodup) :
    ((∀ calls, (run calls (ofList ws)).ids.Nodup) ↔ Unnumbered ws) ∧
    ((∀ calls id, (run calls (ofList ws)).windows.length ≤
        ((run calls (ofList ws)).close id).2.windows.length + 1) ↔ Unnumbered ws) ∧
    (∀ calls, ∃ kept fresh, Grown ws kept fresh (run calls (ofList ws)) ∧
      ((run calls (ofList ws)).ids.Nodup ↔ ∀ v ∈ kept, ∀ u ∈ fresh, v.id ≠ u.id)) ∧
    ∀ most,
      ((∀ calls, openings calls ≤ most → (run calls (ofList ws)).ids.Nodup) ↔
        UnnumberedUpTo most ws) ∧
      ((∀ calls, openings calls ≤ most → ∀ id, (run calls (ofList ws)).windows.length ≤
          ((run calls (ofList ws)).close id).2.windows.length + 1) ↔ UnnumberedUpTo most ws) := by
  have hiff : (∀ calls, (run calls (ofList ws)).ids.Nodup) ↔ Unnumbered ws := by
    rw [unnumbered_iff]
    constructor
    · intro h most
      exact (nodup_upTo_iff hws most).mp fun calls _ => h calls
    · intro h calls
      exact (nodup_upTo_iff hws _).mpr (h _) calls (Nat.le_refl _)
  refine ⟨hiff, ?_, fun calls => ?_, fun most => ⟨nodup_upTo_iff hws most, ?_⟩⟩
  · rw [← hiff]
    exact forall_congr' fun calls => nodup_ids_iff_close.symm
  · obtain ⟨kept, fresh, hgrown⟩ := (grown_ofList ws).run calls
    exact ⟨kept, fresh, hgrown, hgrown.nodup_ids_iff hws⟩
  · rw [← nodup_upTo_iff hws most]
    exact forall₂_congr fun calls _ => nodup_ids_iff_close.symm

/-- The first window of an application can meet one that was there before. -/
theorem number_given_twice :
    let ws : List Window := [⟨"notes-1", "notes", "a"⟩]
    let s := run [.opens "notes" "b"] (ofList ws)
    (ws.map Window.id).Nodup ∧ s.ids = ["notes-1", "notes-1"] ∧ ¬s.ids.Nodup ∧
      s.close "notes-1" = (true, ⟨[], 1⟩) := by
  decide

/-- The number zero is never given, a text without a dash has no number, and a number that a counter
of 64 bits does not reach is not given either. -/
theorem unnumbered_windows_stay_distinct :
    let ws : List Window := [⟨"main", "terminal", ""⟩, ⟨"notes-0", "notes", ""⟩]
    let far : List Window := [⟨numberedId "notes" UInt64.size, "notes", ""⟩]
    ((ws.map Window.id).Nodup ∧ ∀ calls, (run calls (ofList ws)).ids.Nodup) ∧
      (far.map Window.id).Nodup ∧
        ∀ calls, openings calls < UInt64.size → (run calls (ofList far)).ids.Nodup := by
  intro ws far
  have hws : (ws.map Window.id).Nodup := by decide
  have hfar : (far.map Window.id).Nodup := List.nodup_singleton _
  refine ⟨⟨hws, (ids_distinct_iff_unnumbered ws hws).1.mpr ?_⟩, hfar, fun calls hcalls => ?_⟩
  · refine List.forall_mem_cons.mpr
      ⟨fun app n h => ?_, List.forall_mem_singleton.mpr fun app n h => ?_⟩
    · have hdash : '-' ∈ (numberedId app (n + 1)).toList := by simp [toList_numberedId]
      rw [← h] at hdash
      exact absurd hdash (by decide)
    · have hzero : numberedId "notes" 0 = numberedId app (n + 1) := h
      exact absurd (numberedId_inj hzero) (Nat.succ_ne_zero n).symm
  · obtain ⟨-, -, -, hbounded⟩ := ids_distinct_iff_unnumbered far hfar
    refine (hbounded (UInt64.size - 1)).1.mpr ?_ calls (Nat.le_sub_one_of_lt hcalls)
    refine List.forall_mem_singleton.mpr fun app n hn h => ?_
    have hnumber : UInt64.size = n + 1 := numberedId_inj h
    omega

end DesktopTerminal.Windows

import DesktopTerminal.Session.Ring
import Mathlib.Data.List.Destutter

/-!
# Texts in the ring

A ring that has room for some texts shows the newest of what was pushed, where a text that was pushed
several times in a row counts once. A push looks only at the newest text and what falls off is the
oldest, so neither disturbs the other: `entries_pushAll` holds after every push, by induction on the
texts from the last one. A ring without room stays empty, and to it every text is new.
-/
namespace DesktopTerminal.Ring

/-- The ring after some texts have been pushed, one after another. -/
def pushAll (texts : List String) (r : Ring) : Ring := texts.foldl (fun r text => r.push text) r

theorem push_of_eq {r : Ring} {text : String} (h : r.head? = some text) : r.push text = r := by
  rw [push, if_pos h]

theorem entries_push_of_ne {r : Ring} {text : String} (h : r.head? ≠ some text) :
    (r.push text).entries = (text :: r.entries).take r.capacity := by
  rw [push, if_neg h]

theorem capacity_push (text : String) (r : Ring) : (r.push text).capacity = r.capacity := by
  rw [push]
  split <;> rfl

theorem head?_push {r : Ring} (hroom : 0 < r.capacity) (text : String) :
    (r.push text).head? = some text := by
  by_cases h : r.head? = some text
  · rw [push_of_eq h, h]
  · rw [head?, entries_push_of_ne h, List.head?_take, if_neg hroom.ne', List.head?_cons]

theorem pushAll_concat (texts : List String) (text : String) (r : Ring) :
    r.pushAll (texts ++ [text]) = (r.pushAll texts).push text := by
  rw [pushAll, List.foldl_append]
  rfl

theorem capacity_pushAll (texts : List String) (r : Ring) :
    (r.pushAll texts).capacity = r.capacity := by
  induction texts using List.reverseRecOn with
  | nil => rfl
  | append_singleton texts text ih => rw [pushAll_concat, capacity_push, ih]

/-- The newest text is the last one that was pushed. -/
theorem head?_pushAll {capacity : Nat} (hroom : 0 < capacity) (texts : List String) :
    (pushAll texts (ofCapacity capacity)).head? = texts.getLast? := by
  rcases List.eq_nil_or_concat texts with rfl | ⟨texts, text, rfl⟩
  · rfl
  · have hroomLeft : 0 < (pushAll texts (ofCapacity capacity)).capacity := by
      rwa [capacity_pushAll]
    rw [List.concat_eq_append, pushAll_concat, head?_push hroomLeft, List.getLast?_concat]

/-- A text in front of a log starts a new run unless the log starts with it. -/
theorem destutter_cons_text (text : String) (log : List String) :
    (text :: log).destutter (· ≠ ·) =
      if log.head? = some text then log.destutter (· ≠ ·) else text :: log.destutter (· ≠ ·) := by
  cases log with
  | nil => rfl
  | cons newest log =>
    rw [List.destutter_cons_cons, List.head?_cons, List.destutter_cons']
    by_cases h : newest = text
    · simp [h]
    · simp [h, Ne.symm h]

theorem entries_pushAll (capacity : Nat) (texts : List String) :
    (pushAll texts (ofCapacity capacity)).entries =
      (texts.reverse.destutter (· ≠ ·)).take capacity := by
  induction texts using List.reverseRecOn with
  | nil => exact List.take_nil.symm
  | append_singleton texts text ih =>
    let r := pushAll texts (ofCapacity capacity)
    have hcapacity : r.capacity = capacity := capacity_pushAll texts _
    rw [pushAll_concat, List.reverse_concat, destutter_cons_text]
    rcases Nat.eq_zero_or_pos capacity with rfl | hroom
    · have hempty : r.head? ≠ some text := by
        rw [head?, ih]
        simp
      rw [entries_push_of_ne hempty, hcapacity, List.take_zero, List.take_zero]
    · have hhead : r.head? = texts.reverse.head? := by
        rw [head?_pushAll hroom, List.head?_reverse]
      by_cases hrepeat : r.head? = some text
      · rw [push_of_eq hrepeat, if_pos (hhead ▸ hrepeat), ih]
      · obtain ⟨room, rfl⟩ := Nat.exists_eq_add_one.mpr hroom
        rw [entries_push_of_ne hrepeat, if_neg (hhead ▸ hrepeat), hcapacity, ih,
          List.take_succ_cons, List.take_succ_cons, List.take_take,
          Nat.min_eq_left (Nat.le_succ room)]

/-- For every capacity, and whatever is pushed: the ring holds the newest texts, as many as it has room
for, of the log from its end, in which each run of equal texts is collapsed to one. So there are never
more than it has room for, no two neighbours are equal, and if there is room for one it is the last. -/
theorem pushed_texts_collapsed (capacity : Nat) (texts : List String) :
    let r := pushAll texts (ofCapacity capacity)
    r.entries = (texts.reverse.destutter (· ≠ ·)).take capacity ∧
    r.entries.length ≤ capacity ∧
    r.entries.IsChain (· ≠ ·) ∧
    (1 ≤ capacity → r.head? = texts.getLast?) := by
  intro r
  have hentries : r.entries = (texts.reverse.destutter (· ≠ ·)).take capacity :=
    entries_pushAll capacity texts
  refine ⟨hentries, ?_, ?_, fun hroom => head?_pushAll hroom texts⟩
  · rw [hentries]
    exact List.length_take_le _ _
  · rw [hentries]
    exact (List.isChain_destutter _ _).take capacity

/-- A text is pushed again after it has fallen off, and then once more. -/
theorem text_back_after_eviction :
    let r := pushAll ["a", "b", "b", "c", "a", "a"] (ofCapacity 2)
    r.entries = ["a", "c"] ∧ r.head? = some "a" := by
  obtain ⟨hentries, -, -, hhead⟩ := pushed_texts_collapsed 2 ["a", "b", "b", "c", "a", "a"]
  exact ⟨hentries.trans (by decide), hhead (by decide)⟩

end DesktopTerminal.Ring

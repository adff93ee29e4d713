import Mathlib.Data.List.Pairwise
import Mathlib.Data.List.Sort
import DesktopTerminal.Proofs.Text.Search
import DesktopTerminal.Markup

/-!
# Which matches are marked

Marking goes through a line from left to right: it looks for the next match, wraps it and goes on
behind it. So it marks the matches that are chosen when each one is the first that does not overlap the
one before, and every other match overlaps one of them from the right. All that is cut out begins and
ends between characters.
-/
namespace DesktopTerminal.Markup

variable {ignoreCase : Bool} {needle line marked before found after : String} {spots : List Nat}

/-- Marking a text: if nothing is found it is done, and else the match is wrapped and what comes after
it is marked. -/
inductive Wraps (ignoreCase : Bool) (needle : String) : String → String → Prop
  | done {rest : String} : Text.find? rest needle ignoreCase = none →
      Wraps ignoreCase needle rest rest
  | wrap {before found after marked : String} :
      Text.find? (before ++ found ++ after) needle ignoreCase = some (Text.size before.toList) →
      Text.size found.toList = Text.size needle.toList →
      Wraps ignoreCase needle after marked →
      Wraps ignoreCase needle (before ++ found ++ after)
        (before ++ matchStart ++ found ++ reset ++ marked)

/-- A text of gaps and what is found behind each of them, with marks around what is found. -/
def between (start stop : String) : List (String × String) → String → String
  | [], tail => tail
  | (gap, found) :: pieces, tail => gap ++ start ++ found ++ stop ++ between start stop pieces tail

/-- The offsets of what is found in a text that begins at `n`. -/
def starts (n : Nat) : List (String × String) → List Nat
  | [] => []
  | (gap, found) :: pieces =>
    (n + Text.size gap.toList) :: starts (n + Text.size gap.toList + Text.size found.toList) pieces

/-- The matches that are chosen from the left: they do not overlap, and every other one overlaps a
chosen one that begins before it. -/
structure Leftmost (ignoreCase : Bool) (needle line : String) (spots : List Nat) : Prop where
  found : ∀ i ∈ spots, Text.ByteMatch ignoreCase needle line i
  apart : spots.Pairwise fun i j => i + Text.size needle.toList ≤ j
  covered : ∀ j, Text.RawMatch ignoreCase needle line j →
    ∃ i ∈ spots, i ≤ j ∧ j < i + Text.size needle.toList

theorem size_pos (h : needle ≠ "") : 0 < Text.size needle.toList :=
  Nat.pos_of_ne_zero fun hzero =>
    h (String.toList_eq_nil_iff.mp (Text.eq_nil_of_size_eq_zero hzero))

/-! ## The chosen matches -/

theorem leftmost_nil (h : Text.find? line needle ignoreCase = none) :
    Leftmost ignoreCase needle line [] where
  found := fun _ hi => absurd hi List.not_mem_nil
  apart := List.Pairwise.nil
  covered := fun j hj => absurd hj (Text.find?_eq_none_iff.mp h j)

/-- The first match is chosen, and behind it what is chosen in the rest. -/
theorem Leftmost.cons (hneedle : needle ≠ "")
    (hfind : Text.find? (before ++ found ++ after) needle ignoreCase = some (Text.size before.toList))
    (hsize : Text.size found.toList = Text.size needle.toList)
    (h : Leftmost ignoreCase needle after spots) :
    Leftmost ignoreCase needle (before ++ found ++ after)
      (Text.size before.toList ::
        spots.map (Text.size before.toList + Text.size needle.toList + ·)) := by
  obtain ⟨hmatch, hleast⟩ := Text.find?_eq_some_iff.mp hfind
  have hshift : ∀ k, Text.RawMatch ignoreCase needle (before ++ found ++ after)
      (Text.size before.toList + Text.size needle.toList + k) ↔
        Text.RawMatch ignoreCase needle after k := by
    intro k
    have hraw : Text.RawMatch ignoreCase needle (before ++ found ++ after)
        (Text.size (before ++ found).toList + k) ↔
          Text.RawMatch ignoreCase needle (String.ofList after.toList) k :=
      Text.rawMatch_append String.toList_append
    rwa [String.toList_append, Text.size_append, hsize, String.ofList_toList] at hraw
  refine ⟨List.forall_mem_cons.mpr ⟨hmatch.byteMatch hneedle, ?_⟩, List.pairwise_cons.mpr ⟨?_, ?_⟩, ?_⟩
  · intro i hi
    obtain ⟨k, hk, rfl⟩ := List.mem_map.mp hi
    exact ((hshift k).mpr (h.found k hk).rawMatch).byteMatch hneedle
  · intro i hi
    obtain ⟨k, -, rfl⟩ := List.mem_map.mp hi
    exact Nat.le_add_right _ k
  · refine List.pairwise_map.mpr (h.apart.imp fun hij => ?_)
    omega
  · intro j hj
    have hle : Text.size before.toList ≤ j := Nat.le_of_not_lt fun hlt => hleast j hlt hj
    by_cases hover : j < Text.size before.toList + Text.size needle.toList
    · exact ⟨_, List.mem_cons_self, hle, hover⟩
    · obtain ⟨k, rfl⟩ := Nat.exists_eq_add_of_le (Nat.le_of_not_lt hover)
      obtain ⟨i, hi, hik, hki⟩ := h.covered k ((hshift k).mp hj)
      refine ⟨_, List.mem_cons_of_mem _ (List.mem_map_of_mem hi), ?_, ?_⟩ <;> omega

/-- Two chosen matches do not overlap. -/
theorem Leftmost.le_of_lt {i j : Nat} (h : Leftmost ignoreCase needle line spots) (hi : i ∈ spots)
    (hj : j ∈ spots) (hij : i < j) : i + Text.size needle.toList ≤ j := by
  have heither : spots.Pairwise fun a b =>
      a + Text.size needle.toList ≤ b ∨ b + Text.size needle.toList ≤ a := h.apart.imp .inl
  have : Std.Symm fun a b =>
      a + Text.size needle.toList ≤ b ∨ b + Text.size needle.toList ≤ a := ⟨fun _ _ => Or.symm⟩
  have hapart := heither.forall hi hj (Nat.ne_of_lt hij)
  omega

/-- The matches before it decide whether a match is chosen. -/
theorem Leftmost.mem_of_mem {others : List Nat} {i : Nat}
    (h : Leftmost ignoreCase needle line spots) (hother : Leftmost ignoreCase needle line others)
    (hbefore : ∀ j < i, j ∈ others → j ∈ spots) (hi : i ∈ spots) : i ∈ others := by
  obtain ⟨j, hj, hji, hij⟩ := hother.covered i (h.found i hi).rawMatch
  obtain hlt | rfl := Nat.lt_or_eq_of_le hji
  · have hle := h.le_of_lt (hbefore j hlt hj) hi hlt
    exact absurd hle (Nat.not_le_of_gt hij)
  · exact hj

theorem Leftmost.mem_iff {others : List Nat} (h : Leftmost ignoreCase needle line spots)
    (hother : Leftmost ignoreCase needle line others) (i : Nat) : i ∈ spots ↔ i ∈ others := by
  induction i using Nat.strongRecOn with
  | ind i ih =>
    exact ⟨h.mem_of_mem hother fun j hj => (ih j hj).mpr,
      hother.mem_of_mem h fun j hj => (ih j hj).mp⟩

/-- The matches are chosen in one way only. -/
theorem Leftmost.eq {others : List Nat} (hneedle : needle ≠ "")
    (h : Leftmost ignoreCase needle line spots) (hother : Leftmost ignoreCase needle line others) :
    spots = others := by
  have hpos := size_pos hneedle
  have hlt : ∀ {chosen : List Nat}, Leftmost ignoreCase needle line chosen →
      chosen.Pairwise (· < ·) := fun hchosen => hchosen.apart.imp fun hij => by omega
  exact (hlt h).eq_of_mem_iff (hlt hother) (h.mem_iff hother)

/-! ## Marking -/

theorem starts_add (n k : Nat) (pieces : List (String × String)) :
    starts (n + k) pieces = (starts k pieces).map (n + ·) := by
  induction pieces generalizing k with
  | nil => rfl
  | cons piece pieces ih =>
    rw [starts, starts, List.map_cons, ← ih, Nat.add_assoc, Nat.add_assoc, Nat.add_assoc]

/-- A text that is marked is cut at the chosen matches. -/
theorem Wraps.exists_pieces (hneedle : needle ≠ "") (h : Wraps ignoreCase needle line marked) :
    ∃ pieces tail, line = between "" "" pieces tail ∧ marked = between matchStart reset pieces tail ∧
      (∀ piece ∈ pieces, Text.size piece.2.toList = Text.size needle.toList) ∧
      Leftmost ignoreCase needle line (starts 0 pieces) := by
  induction h with
  | @done rest hnone =>
    exact ⟨[], rest, rfl, rfl, fun _ hpiece => absurd hpiece List.not_mem_nil, leftmost_nil hnone⟩
  | @wrap before found after marked hfind hsize _ ih =>
    obtain ⟨pieces, tail, hafter, hmarked, hsizes, hleftmost⟩ := ih
    refine ⟨(before, found) :: pieces, tail, ?_, ?_, List.forall_mem_cons.mpr ⟨hsize, hsizes⟩, ?_⟩
    · simp [between, ← hafter]
    · rw [between, hmarked]
    · have hcons := hleftmost.cons hneedle hfind hsize
      rwa [← starts_add, Nat.add_zero, ← hsize, ← Nat.zero_add (Text.size before.toList)] at hcons

theorem highlightChars_of_none {n : Char} {ns cs : List Char}
    (h : Text.beforeMatch? (Text.sameChar ignoreCase) (n :: ns) cs = none) :
    highlightChars (Text.sameChar ignoreCase) n ns cs = cs := by
  induction cs with
  | nil => exact highlightChars.eq_1 ..
  | cons c cs ih =>
    rw [Text.beforeMatch?] at h
    split at h
    next => cases h
    next hmiss => rw [highlightChars, if_neg hmiss, ih (Option.map_eq_none_iff.mp h)]

/-- The first match is wrapped as it stands there, and it has as many bytes as what is looked for. -/
theorem highlightChars_of_some {n : Char} {ns cs front : List Char}
    (h : Text.beforeMatch? (Text.sameChar ignoreCase) (n :: ns) cs = some front) :
    ∃ found rest, cs = front ++ (found ++ rest) ∧ Text.size found = Text.size (n :: ns) ∧
      highlightChars (Text.sameChar ignoreCase) n ns cs = front ++ (matchStart.toList ++ (found ++
        (reset.toList ++ highlightChars (Text.sameChar ignoreCase) n ns rest))) := by
  induction cs generalizing front with
  | nil => cases h
  | cons c cs ih =>
    rw [Text.beforeMatch?] at h
    split at h
    next hmatch =>
      cases h
      refine ⟨c :: cs.take ns.length, cs.drop ns.length, ?_, ?_, ?_⟩
      · rw [List.nil_append, List.cons_append, List.take_append_drop]
      · have hprefix := List.prefix_iff_eq_take.mp (Text.matchesAt_iff.mp hmatch)
        rw [List.length_map, ← List.map_take, List.length_cons, List.take_succ_cons] at hprefix
        rw [← Text.size_map_folded ignoreCase, ← hprefix, Text.size_map_folded]
      · rw [highlightChars, if_pos hmatch]
        simp only [List.nil_append, List.append_assoc]
    next hmiss =>
      obtain ⟨front, hfront, rfl⟩ := Option.map_eq_some_iff.mp h
      obtain ⟨found, rest, hcs, hsize, hmarked⟩ := ih hfront
      refine ⟨found, rest, congrArg (c :: ·) hcs, hsize, ?_⟩
      rw [highlightChars, if_neg hmiss, hmarked]
      rfl

theorem highlight_of_none (h : Text.find? line needle ignoreCase = none) :
    highlight line needle ignoreCase = line := by
  rw [highlight]
  split
  next => rfl
  next n ns hneedle =>
    rw [Text.find?, hneedle, Option.map_eq_none_iff] at h
    rw [highlightChars_of_none h, String.ofList_toList]

theorem highlight_of_some (hneedle : needle ≠ "")
    (hfind : Text.find? (before ++ found ++ after) needle ignoreCase = some (Text.size before.toList))
    (hsize : Text.size found.toList = Text.size needle.toList) :
    highlight (before ++ found ++ after) needle ignoreCase =
      before ++ matchStart ++ found ++ reset ++ highlight after needle ignoreCase := by
  obtain ⟨n, ns, hchars⟩ := List.exists_cons_of_ne_nil (mt String.toList_eq_nil_iff.mp hneedle)
  rw [Text.find?, hchars] at hfind
  obtain ⟨front, hfront, hbefore⟩ := Option.map_eq_some_iff.mp hfind
  obtain ⟨same, rest, hcut, hsame, hmarked⟩ := highlightChars_of_some hfront
  rw [String.toList_append, String.toList_append, List.append_assoc] at hcut
  obtain ⟨rfl, hbehind⟩ := Text.append_inj_of_size_eq hcut hbefore.symm
  rw [← hchars, ← hsize] at hsame
  obtain ⟨rfl, rfl⟩ := Text.append_inj_of_size_eq hbehind hsame.symm
  rw [← String.toList_inj, highlight, highlight, hchars]
  simp only [String.toList_ofList, hmarked]
  simp only [String.toList_append, List.append_assoc, String.toList_ofList]

/-- Marking comes to an end, for there is less to look through behind a match. -/
theorem wraps_highlight (hneedle : needle ≠ "") (line : String) :
    Wraps ignoreCase needle line (highlight line needle ignoreCase) := by
  induction hlength : line.length using Nat.strongRecOn generalizing line with
  | ind n ih =>
    cases hfind : Text.find? line needle ignoreCase with
    | none =>
      rw [highlight_of_none hfind]
      exact .done hfind
    | some i =>
      obtain ⟨before, found, after, rfl, rfl, hsize⟩ := Text.exists_cut_of_find? hfind
      have hfound : 0 < found.length := by
        refine Nat.pos_of_ne_zero fun hzero => ?_
        rw [String.length_eq_zero_iff.mp hzero] at hsize
        exact absurd hsize (Nat.ne_of_lt (size_pos hneedle))
      rw [highlight_of_some hneedle hfind hsize]
      refine .wrap hfind hsize (ih after.length ?_ after rfl)
      rw [← hlength, String.length_append, String.length_append]
      omega

/-- Marking has one result. -/
theorem wraps_iff (hneedle : needle ≠ "") :
    Wraps ignoreCase needle line marked ↔ marked = highlight line needle ignoreCase := by
  refine ⟨fun h => ?_, fun h => h ▸ wraps_highlight hneedle line⟩
  induction h with
  | done hnone => exact (highlight_of_none hnone).symm
  | wrap hfind hsize _ ih => rw [highlight_of_some hneedle hfind hsize, ih]

/-- A search that ignores case is one in folded texts. Each search finds the first window of bytes that
agrees with the needle, and this one begins and ends between characters. So the matches that are chosen
from the left can be cut out, and they are what is wrapped. -/
theorem matches_marked (line needle : String) :
    Text.find? line needle true =
      Text.find? (Text.foldText line) (Text.foldText needle) false ∧
    (∀ ignoreCase i, Text.find? line needle ignoreCase = some i ↔
      Text.RawMatch ignoreCase needle line i ∧
        ∀ j < i, ¬Text.RawMatch ignoreCase needle line j) ∧
    (∀ ignoreCase, Text.find? line needle ignoreCase = none ↔
      ∀ i, ¬Text.RawMatch ignoreCase needle line i) ∧
    (∀ ignoreCase i, Text.find? line needle ignoreCase = some i →
      String.Pos.Raw.IsValid line ⟨i⟩ ∧
        String.Pos.Raw.IsValid line ⟨i + Text.size needle.toList⟩) ∧
    (∀ ignoreCase, highlight line "" ignoreCase = line) ∧
    (needle ≠ "" → ∀ ignoreCase,
      (∀ marked, Wraps ignoreCase needle line marked ↔
        marked = highlight line needle ignoreCase) ∧
      ∃ pieces tail, line = between "" "" pieces tail ∧
        highlight line needle ignoreCase = between matchStart reset pieces tail ∧
        (∀ piece ∈ pieces, Text.size piece.2.toList = Text.size needle.toList) ∧
        ∀ spots, Leftmost ignoreCase needle line spots ↔ spots = starts 0 pieces) := by
  refine ⟨Text.find?_foldText line needle, fun _ _ => Text.find?_eq_some_iff,
    fun _ => Text.find?_eq_none_iff, fun ignoreCase i h => ?_, fun _ => rfl,
    fun hneedle ignoreCase => ⟨fun marked => wraps_iff hneedle, ?_⟩⟩
  · obtain ⟨hmatch, -⟩ := Text.byteMatch_of_find? h
    exact ⟨hmatch.starts, hmatch.stops⟩
  · obtain ⟨pieces, tail, hline, hmarked, hsizes, hleftmost⟩ :=
      (wraps_highlight hneedle line).exists_pieces hneedle
    exact ⟨pieces, tail, hline, hmarked, hsizes, fun spots =>
      ⟨fun h => h.eq hneedle hleftmost, fun h => h ▸ hleftmost⟩⟩

/-- Of matches that overlap the left one is marked. -/
theorem overlapping_matches_marked :
    "aa" ≠ "" ∧ Text.find? "äAaAß" "aa" true = some 2 ∧
    Text.find? "äaaaß" "aa" false = some 2 ∧
    (∀ marked, Wraps true "aa" "äAaAß" marked ↔
      marked = "ä\x1b[1;31mAa\x1b[0mAß") := by
  have hneedle : "aa" ≠ "" := by decide
  have hfind : Text.find? "äAaAß" "aa" true = some 2 := by decide
  obtain ⟨hfold, -, -, -, -, hmarks⟩ := matches_marked "äAaAß" "aa"
  have hplain : Text.find? "äaaaß" "aa" false = some 2 := hfold ▸ hfind
  have hmarked : highlight "äAaAß" "aa" true = "ä\x1b[1;31mAa\x1b[0mAß" := by
    have hfirst : highlight ("ä" ++ "Aa" ++ "Aß") "aa" true =
        "ä" ++ matchStart ++ "Aa" ++ reset ++ highlight "Aß" "aa" true :=
      highlight_of_some hneedle hfind (by decide)
    have hrest : highlight "Aß" "aa" true = "Aß" := highlight_of_none (by decide)
    rw [hrest] at hfirst
    exact hfirst
  exact ⟨hneedle, hfind, hplain, fun marked => hmarked ▸ (hmarks hneedle true).1 marked⟩

end DesktopTerminal.Markup

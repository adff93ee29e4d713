import Mathlib.Data.List.DropRight
import DesktopTerminal.Text.Column
import DesktopTerminal.Text.Numeral
import DesktopTerminal.Text.Pieces
import DesktopTerminal.Text.Size

/-!
# Cutting and joining

Cutting a text at a separator and joining pieces with it undo each other: the pieces are those of
`List.splitOnP`, and joined pieces are an intercalation. Lines have the characters of their text only.
-/
namespace DesktopTerminal.Text

theorem joinWith_eq_intercalate (sep : String) (texts : List String) :
    joinWith sep texts = sep.intercalate texts := by
  induction texts with
  | nil => simp [joinWith]
  | cons s rest ih =>
    cases rest with
    | nil => simp [joinWith]
    | cons t rest => rw [joinWith, ih, String.intercalate_cons_cons]

/-- A text at the end of others makes them longer together, unless it is empty. -/
theorem length_joinWith_lt_snoc (sep : String) (texts : List String) {s : String}
    (hs : s ≠ "") : (joinWith sep texts).length < (joinWith sep (texts ++ [s])).length := by
  have hpos : 0 < s.length := Nat.pos_of_ne_zero fun h => hs (String.length_eq_zero_iff.mp h)
  induction texts with
  | nil => exact hpos
  | cons t rest ih =>
    cases rest with
    | nil =>
      simp only [List.cons_append, List.nil_append, joinWith, String.length_append]
      omega
    | cons u rest =>
      simp only [List.cons_append, joinWith, String.length_append] at ih ⊢
      omega

theorem cut_eq_splitOnP (p : Char → Bool) (cs : List Char) : cut p cs = cs.splitOnP p := by
  induction cs with
  | nil => rfl
  | cons c cs ih =>
    rw [List.splitOnP_cons_eq_if_modifyHead, ← ih, cut]
    obtain ⟨first, rest, hcut⟩ := List.exists_cons_of_ne_nil (cut_ne_nil p cs)
    cases hc : p c with
    | true => rfl
    | false => simp [hcut]

theorem eq_false_of_mem_cut {p : Char → Bool} {cs piece : List Char} (h : piece ∈ cut p cs) :
    ∀ c ∈ piece, p c = false := by
  induction cs generalizing piece with
  | nil =>
    obtain rfl := List.mem_singleton.mp h
    exact fun c hc => absurd hc List.not_mem_nil
  | cons c cs ih =>
    rw [cut] at h
    split at h
    · rcases List.mem_cons.mp h with rfl | h
      · exact fun c hc => absurd hc List.not_mem_nil
      · exact ih h
    · rename_i hcut
      exact absurd hcut (cut_ne_nil p cs)
    · rename_i first pieces hc hcut
      rw [hcut] at ih
      rcases List.mem_cons.mp h with rfl | h
      · intro d hd
        rcases List.mem_cons.mp hd with rfl | hd
        · exact hc
        · exact ih List.mem_cons_self d hd
      · exact ih (List.mem_cons_of_mem _ h)

/-- A character at the end that is no separator ends the last piece. -/
theorem getLast?_cut_concat {p : Char → Bool} {c : Char} (hc : p c = false) (cs : List Char) :
    ∃ last, (cut p (cs ++ [c])).getLast? = some (last ++ [c]) := by
  induction cs with
  | nil => exact ⟨[], by simp [cut, hc]⟩
  | cons d cs ih =>
    obtain ⟨last, hlast⟩ := ih
    obtain ⟨first, rest, hcut⟩ := List.exists_cons_of_ne_nil (cut_ne_nil p (cs ++ [c]))
    rw [hcut] at hlast
    rw [List.cons_append, cut, hcut]
    cases hd : p d with
    | true => exact ⟨last, by simpa using hlast⟩
    | false =>
      cases rest with
      | nil =>
        obtain rfl : first = last ++ [c] := by simpa using hlast
        exact ⟨d :: last, rfl⟩
      | cons second rest => exact ⟨last, by simpa using hlast⟩

/-- The first piece goes up to the first separator. -/
theorem head?_cut (p : Char → Bool) (cs : List Char) :
    (cut p cs).head? = some (cs.takeWhile (!p ·)) := by
  induction cs with
  | nil => rfl
  | cons c cs ih =>
    obtain ⟨first, rest, hcut⟩ := List.exists_cons_of_ne_nil (cut_ne_nil p cs)
    rw [hcut] at ih
    rw [cut, hcut]
    cases hc : p c with
    | true => simp [hc]
    | false => simpa [hc] using ih

/-- Before the first piece that is not empty stand separators, and it goes on up to the next one. -/
theorem exists_of_head?_filter_cut {p : Char → Bool} {cs first : List Char}
    (h : ((cut p cs).filter (!·.isEmpty)).head? = some first) :
    ∃ front rest, cs = front ++ (first ++ rest) ∧ (∀ c ∈ front, p c = true) ∧ first ≠ [] ∧
      (∀ c ∈ first, p c = false) ∧ ∀ c, rest.head? = some c → p c = true := by
  induction cs with
  | nil => simp [cut] at h
  | cons c cs ih =>
    obtain ⟨piece, pieces, hcut⟩ := List.exists_cons_of_ne_nil (cut_ne_nil p cs)
    cases hc : p c with
    | true =>
      have hlater : (cut p (c :: cs)).filter (!·.isEmpty) = (cut p cs).filter (!·.isEmpty) := by
        simp [cut, hcut, hc]
      obtain ⟨front, rest, rfl, hfront, hfirst⟩ := ih (hlater ▸ h)
      exact ⟨c :: front, rest, rfl, List.forall_mem_cons.mpr ⟨hc, hfront⟩, hfirst⟩
    | false =>
      have hpiece : piece = cs.takeWhile (!p ·) := by
        have hhead := head?_cut p cs
        rw [hcut] at hhead
        exact Option.some.inj hhead
      have hall : (cut p (c :: cs)).filter (!·.isEmpty) =
          (c :: piece) :: pieces.filter (!·.isEmpty) := by
        simp [cut, hcut, hc]
      rw [hall] at h
      obtain rfl := Option.some.inj h
      refine ⟨[], cs.dropWhile (!p ·), ?_, fun _ ha => absurd ha List.not_mem_nil,
        List.cons_ne_nil _ _, List.forall_mem_cons.mpr ⟨hc, fun a ha => ?_⟩, fun a ha => ?_⟩
      · rw [hpiece, List.nil_append, List.cons_append, List.takeWhile_append_dropWhile]
      · have hclear := List.mem_takeWhile_imp (hpiece ▸ ha)
        simpa using hclear
      · have hstop := List.head?_dropWhile_not (!p ·) cs
        rw [ha] at hstop
        simpa using hstop

/-- The first word stands behind blanks, and goes on up to the next one. -/
theorem exists_of_head?_words {s first : String} (h : (words s).head? = some first) :
    ∃ front rest, s.toList = front ++ (first.toList ++ rest) ∧ (∀ c ∈ front, isBlank c = true) ∧
      first ≠ "" ∧ (∀ c ∈ first.toList, isBlank c = false) ∧
      ∀ c, rest.head? = some c → isBlank c = true := by
  rw [words, List.head?_map] at h
  obtain ⟨cs, hcs, rfl⟩ := Option.map_eq_some_iff.mp h
  obtain ⟨front, rest, hs, hfront, hne, hclear, hstop⟩ := exists_of_head?_filter_cut hcs
  refine ⟨front, rest, ?_, hfront, ?_, ?_, hstop⟩
  · rwa [String.toList_ofList]
  · exact mt (fun hempty => String.ofList_inj.mp (hempty.trans String.ofList_nil.symm)) hne
  · rwa [String.toList_ofList]

theorem filter_cut_append {p : Char → Bool} {front : List Char} (h : ∀ c ∈ front, p c = true)
    (cs : List Char) :
    (cut p (front ++ cs)).filter (!·.isEmpty) = (cut p cs).filter (!·.isEmpty) := by
  induction front with
  | nil => rfl
  | cons c front ih =>
    obtain ⟨hc, hfront⟩ := List.forall_mem_cons.mp h
    rw [List.cons_append, cut, hc]
    exact ih hfront

/-- What stands behind blanks and before the next one is the first word. -/
theorem head?_words_of_blanks {s first : String} {front rest : List Char}
    (hs : s.toList = front ++ (first.toList ++ rest)) (hfront : ∀ c ∈ front, isBlank c = true)
    (hne : first ≠ "") (hfirst : ∀ c ∈ first.toList, isBlank c = false)
    (hrest : ∀ c, rest.head? = some c → isBlank c = true) : (words s).head? = some first := by
  obtain ⟨piece, pieces, hcut⟩ :=
    List.exists_cons_of_ne_nil (cut_ne_nil isBlank (first.toList ++ rest))
  have hpiece : piece = first.toList := by
    have hhead := head?_cut isBlank (first.toList ++ rest)
    rw [hcut, List.takeWhile_append_of_pos (by simpa using hfirst)] at hhead
    have hstop : rest.takeWhile (!isBlank ·) = [] := by
      cases rest with
      | nil => rfl
      | cons c rest => simp [hrest c rfl]
    simpa [hstop] using hhead
  rw [words, hs, filter_cut_append hfront, hcut, hpiece]
  simp [hne]

/-- Without separators at its end a text has no other pieces. -/
theorem cut_dropEndWhile_subset (p : Char → Bool) (cs : List Char) :
    cut p (dropEndWhile p cs) ⊆ cut p cs := by
  induction cs using List.reverseRecOn with
  | nil => exact List.Subset.refl _
  | append_singleton cs c ih =>
    have hdrop : dropEndWhile p (cs ++ [c]) = if p c then dropEndWhile p cs else cs ++ [c] :=
      List.rdropWhile_concat p cs c
    rw [hdrop]
    split
    next hc =>
      have hcut : cut p (cs ++ [c]) = cut p cs ++ [[]] := by
        simp only [cut_eq_splitOnP]
        exact List.splitOnP_append_cons cs [] hc
      rw [hcut]
      exact List.Subset.trans ih (List.subset_append_left _ _)
    next => exact List.Subset.refl _

/-- The end of a text is dropped up to the last character that is to stay. -/
theorem dropEndWhile_append_eq (p : Char → Bool) (cs ds : List Char) :
    dropEndWhile p (cs ++ ds) = if ds.all p then dropEndWhile p cs else cs ++ dropEndWhile p ds := by
  have hempty : (ds.reverse.dropWhile p).isEmpty = ds.all p := by
    rw [Bool.eq_iff_iff, List.isEmpty_iff, List.dropWhile_eq_nil_iff, List.all_eq_true]
    simp only [List.mem_reverse]
  rw [dropEndWhile, List.reverse_append, List.dropWhile_append, hempty]
  split
  · rfl
  · rw [List.reverse_append, List.reverse_reverse, dropEndWhile]

theorem dropEndWhile_append {p : Char → Bool} {c : Char} (hc : p c = false) (front cs : List Char) :
    dropEndWhile p (front ++ c :: cs) = front ++ c :: dropEndWhile p cs := by
  have hmove : front ++ c :: cs = (front ++ [c]) ++ cs := by simp
  have hfront : dropEndWhile p (front ++ [c]) = front ++ [c] :=
    List.rdropWhile_concat_neg p front c (by simp [hc])
  rw [hmove, dropEndWhile_append_eq, hfront]
  split
  next hall =>
    have hnone : dropEndWhile p cs = [] := List.rdropWhile_eq_nil_iff.mpr (List.all_eq_true.mp hall)
    rw [hnone]
  next => rw [List.append_assoc, List.singleton_append]

/-- The end of a text is dropped unless its last character is to stay. -/
theorem dropEndWhile_eq_self_iff {sep : Char} {cs : List Char} :
    dropEndWhile (· == sep) cs = cs ↔ cs.getLast? ≠ some sep := by
  have hiff : dropEndWhile (· == sep) cs = cs ↔ ∀ hcs : cs ≠ [], ¬(cs.getLast hcs == sep) = true :=
    List.rdropWhile_eq_self_iff
  rw [hiff]
  by_cases hcs : cs = []
  · subst hcs
    simp
  · simp [List.getLast?_eq_some_getLast hcs, hcs]

/-- A text is what stands before and after its first separator. -/
theorem splitFirst_of_mem {sep : Char} {s : String} (h : sep ∈ s.toList) :
    ∃ before after, splitFirst (· == sep) s = some (before, after) ∧
      s = before ++ String.singleton sep ++ after := by
  have hne : s.toList.dropWhile (!· == sep) ≠ [] := by
    intro hall
    have hclear := List.dropWhile_eq_nil_iff.mp hall sep h
    simp at hclear
  obtain ⟨c, after, hdrop⟩ := List.exists_cons_of_ne_nil hne
  have hsep : c = sep := by
    have hhead := List.head?_dropWhile_not (fun d => !(d == sep)) s.toList
    rw [hdrop] at hhead
    simpa using hhead
  subst hsep
  refine ⟨String.ofList (s.toList.takeWhile (!· == c)), String.ofList after, ?_, ?_⟩
  · rw [splitFirst, hdrop]
  · apply String.toList_inj.mp
    have happend := List.takeWhile_append_dropWhile (p := (!· == c)) (l := s.toList)
    rw [hdrop] at happend
    simpa using happend.symm

/-- A text behind another one that ends differently decides how the two end. -/
theorem getLast?_append_eq_some_iff {c : Char} {front cs : List Char}
    (h : front.getLast? ≠ some c) : (front ++ cs).getLast? = some c ↔ cs.getLast? = some c := by
  rw [List.getLast?_append]
  cases cs.getLast? with
  | none => simpa using h
  | some d => simp

theorem not_mem_of_mem_splitAt {sep : Char} {s piece : String} (h : piece ∈ splitAt sep s) :
    sep ∉ piece.toList := by
  obtain ⟨cs, hcs, rfl⟩ := List.mem_map.mp h
  rw [String.toList_ofList]
  intro hmem
  have hsep := eq_false_of_mem_cut hcs sep hmem
  simp at hsep

/-- What stands before the first separator is the first piece. -/
theorem splitAt_append {sep : Char} {front : String} (h : sep ∉ front.toList) (s : String) :
    splitAt sep (front ++ String.singleton sep ++ s) = front :: splitAt sep s := by
  have hfront : ∀ c ∈ front.toList, (c == sep) = false := by
    intro c hc
    exact beq_false_of_ne fun hsep => h (hsep ▸ hc)
  have hcut := List.splitOnP_append_cons_of_forall_mem hfront sep (beq_self_eq_true sep) s.toList
  simp [splitAt, cut_eq_splitOnP, hcut]

/-- The pieces on both sides of a separator are those of the two texts. -/
theorem splitAt_append_separator (sep : Char) (s t : String) :
    splitAt sep (s ++ String.singleton sep ++ t) = splitAt sep s ++ splitAt sep t := by
  have hcut := List.splitOnP_append_cons (p := (· == sep)) s.toList t.toList (beq_self_eq_true sep)
  simp [splitAt, cut_eq_splitOnP, hcut]

theorem splitAt_ne_nil (sep : Char) (s : String) : splitAt sep s ≠ [] :=
  fun h => cut_ne_nil _ _ (List.map_eq_nil_iff.mp h)

/-- Pieces without the separator come back when what they were joined to is cut. -/
theorem splitAt_joinWith {sep : Char} {pieces : List String} (hne : pieces ≠ [])
    (h : ∀ piece ∈ pieces, sep ∉ piece.toList) :
    splitAt sep (joinWith (String.singleton sep) pieces) = pieces := by
  have hpieces : ∀ cs ∈ pieces.map String.toList, sep ∉ cs := by
    intro cs hcs
    obtain ⟨piece, hpiece, rfl⟩ := List.mem_map.mp hcs
    exact h piece hpiece
  have hcut := List.splitOn_intercalate sep hpieces (by simpa using hne)
  rw [List.splitOn] at hcut
  rw [splitAt, joinWith_eq_intercalate, String.toList_intercalate, String.toList_singleton,
    cut_eq_splitOnP, hcut, List.map_map]
  simp

/-- A text without the separator is one piece. -/
theorem splitAt_of_not_mem {sep : Char} {s : String} (h : sep ∉ s.toList) : splitAt sep s = [s] :=
  splitAt_joinWith (List.cons_ne_nil s []) fun _ hmem => List.mem_singleton.mp hmem ▸ h

/-- Joining the pieces of a text gives the text. -/
theorem joinWith_splitAt (sep : Char) (s : String) :
    joinWith (String.singleton sep) (splitAt sep s) = s := by
  apply String.toList_inj.mp
  rw [joinWith_eq_intercalate, String.toList_intercalate, splitAt, List.map_map]
  have hid : String.toList ∘ String.ofList = id := funext fun _ => String.toList_ofList
  rw [hid, List.map_id, cut_eq_splitOnP, String.toList_singleton]
  exact List.intercalate_splitOn sep

theorem joinWith_cons (sep s : String) {texts : List String} (h : texts ≠ []) :
    joinWith sep (s :: texts) = s ++ sep ++ joinWith sep texts := by
  obtain ⟨t, rest, rfl⟩ := List.exists_cons_of_ne_nil h
  rfl

theorem joinWith_append (sep : String) {front back : List String} (hfront : front ≠ [])
    (hback : back ≠ []) :
    joinWith sep (front ++ back) = joinWith sep front ++ sep ++ joinWith sep back := by
  induction front with
  | nil => exact absurd rfl hfront
  | cons s rest ih =>
    by_cases hrest : rest = []
    · subst hrest
      exact joinWith_cons sep s hback
    · rw [List.cons_append, joinWith_cons sep s (List.append_ne_nil_of_left_ne_nil hrest back),
        joinWith_cons sep s hrest, ih hrest]
      simp only [String.append_assoc]

theorem prefix_joinWith_cons (sep s : String) (texts : List String) :
    s.toList <+: (joinWith sep (s :: texts)).toList := by
  cases texts with
  | nil => exact List.prefix_refl _
  | cons t rest =>
    rw [joinWith, String.toList_append, String.toList_append, List.append_assoc]
    exact List.prefix_append _ _

theorem mem_joinWith {sep : String} {c : Char} (hsep : c ∉ sep.toList) {texts : List String} :
    c ∈ (joinWith sep texts).toList ↔ ∃ s ∈ texts, c ∈ s.toList := by
  induction texts with
  | nil => simp [joinWith]
  | cons s rest ih =>
    by_cases hrest : rest = []
    · subst hrest
      simp [joinWith]
    · simp [joinWith_cons sep s hrest, ih, hsep]

/-- The lines of a text have its characters only. -/
theorem subset_of_mem_lineChars {cs : List Char} : ∀ line ∈ lineChars cs, line ⊆ cs := by
  fun_induction lineChars cs with
  | case1 => exact fun line h => absurd h List.not_mem_nil
  | case2 cs ih =>
    exact List.forall_mem_cons.mpr ⟨List.nil_subset _, fun line h =>
      List.subset_cons_of_subset _ (ih line h)⟩
  | case3 cs ih =>
    exact List.forall_mem_cons.mpr ⟨List.nil_subset _, fun line h =>
      List.subset_cons_of_subset _ (List.subset_cons_of_subset _ (ih line h))⟩
  | case4 c => exact List.forall_mem_singleton.mpr (List.Subset.refl _)
  | case5 c _ d cs _ hlines _ =>
    simp only [hlines]
    exact List.forall_mem_singleton.mpr (List.cons_subset_cons c (List.nil_subset _))
  | case6 c _ d cs first more _ hlines ih =>
    simp only [hlines] at ih ⊢
    obtain ⟨hfirst, hmore⟩ := List.forall_mem_cons.mp ih
    exact List.forall_mem_cons.mpr ⟨List.cons_subset_cons c hfirst, fun line h =>
      List.subset_cons_of_subset c (hmore line h)⟩

theorem mem_of_mem_lines {s line : String} (h : line ∈ lines s) {c : Char}
    (hc : c ∈ line.toList) : c ∈ s.toList := by
  obtain ⟨cs, hcs, rfl⟩ := List.mem_map.mp h
  rw [String.toList_ofList] at hc
  exact subset_of_mem_lineChars cs hcs hc

theorem utf8ByteSize_eq_size (s : String) : s.utf8ByteSize = size s.toList := by
  obtain ⟨cs, rfl⟩ : ∃ cs, s = String.ofList cs := ⟨s.toList, String.ofList_toList.symm⟩
  rw [String.toList_ofList]
  induction cs with
  | nil => rfl
  | cons c cs ih =>
    have hcons : String.ofList (c :: cs) = String.ofList [c] ++ String.ofList cs :=
      @String.ofList_append [c] cs
    rw [hcons, String.utf8ByteSize_append, ih]
    simp

/-! ## Numerals -/

theorem not_isBlank_of_isDigit {c : Char} (h : c.isDigit = true) : isBlank c = false := by
  have hfirst : 48 ≤ c.toNat := (Char.isDigit_iff_toNat.mp h).1
  have hlast : c.toNat ≤ 57 := (Char.isDigit_iff_toNat.mp h).2
  have hspace : c ≠ ' ' := fun heq => absurd (heq ▸ h) (by decide)
  simp [isBlank, hspace]
  omega

theorem isDigit_of_mem_zeroPadded {width n : Nat} {c : Char}
    (h : c ∈ (zeroPadded width n).toList) : c.isDigit = true := by
  rw [zeroPadded, String.toList_ofList] at h
  rcases List.mem_append.mp h with h | h
  · obtain rfl := List.eq_of_mem_replicate h
    decide
  · exact Nat.isDigit_of_mem_toDigits (by decide) (by decide) h

theorem toList_numeral (n : Nat) : (numeral n).toList = Nat.toDigits 10 n := by
  have hwidth : 1 - (Nat.toDigits 10 n).length = 0 :=
    Nat.sub_eq_zero_of_le Nat.length_toDigits_pos
  rw [numeral, zeroPadded, String.toList_ofList, hwidth, List.replicate_zero, List.nil_append]

theorem readDigits_eq_ofDigitChars {cs : List Char} (h : ∀ c ∈ cs, c.isDigit = true)
    (value : Nat) : readDigits value cs = some (Nat.ofDigitChars 10 cs value) := by
  induction cs generalizing value with
  | nil => rw [readDigits, Nat.ofDigitChars_nil]
  | cons c cs ih =>
    obtain ⟨hc, hcs⟩ := List.forall_mem_cons.mp h
    rw [readDigits, digitValue?, if_pos hc, Option.bind_some, ih hcs, Nat.ofDigitChars_cons]

/-- A numeral is read as the number it was written for. -/
theorem readUnsigned_numeral {bound n : Nat} (h : n < bound) :
    readUnsigned bound (numeral n) = some n := by
  have hdigits : ∀ c ∈ Nat.toDigits 10 n, c.isDigit = true := fun c hc =>
    Nat.isDigit_of_mem_toDigits (by decide) (by decide) hc
  have hread : readDigits 0 (Nat.toDigits 10 n) = some n := by
    rw [readDigits_eq_ofDigitChars hdigits, Nat.ofDigitChars_ten_toDigits]
  have hsome : (Nat.toDigits 10 n).isEmpty = false := by simp [Nat.toDigits_ne_nil]
  rw [readUnsigned, toList_numeral]
  split
  next rest hplus =>
    -- No digit is a plus sign.
    have hdigit := hdigits '+' (by simp [hplus])
    exact absurd hdigit (by decide)
  next => simp [hsome, hread, h]

end DesktopTerminal.Text

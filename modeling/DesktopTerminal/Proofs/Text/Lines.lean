import DesktopTerminal.Proofs.Text

/-!
# Lines put together and read again

Lines are put together with a line feed between each two, and a text is cut into lines that end with
one. So what is put together is not always read as it was: an empty line at the end is gone, and
before a line feed a carriage return is taken for a part of the ending. Nothing else changes.
-/
namespace DesktopTerminal.Text

/-- The line ends in a carriage return of its own. -/
def Returned (line : String) : Prop := line.toList.getLast? = some '\r'

instance (line : String) : Decidable (Returned line) := inferInstanceAs (Decidable (_ = _))

/-- What is read of a line that a line feed follows. -/
def beforeBreakChars (cs : List Char) : List Char :=
  if cs.getLast? = some '\r' then cs.dropLast else cs

def beforeBreak (line : String) : String := String.ofList (beforeBreakChars line.toList)

/-- The lines that are read of lines put together. -/
def reread (ls : List String) : List String :=
  ls.dropLast.map beforeBreak ++ ls.getLast?.toList.filter (· ≠ "")

/-- No line feed follows a carriage return in the lines, and they do not end with an empty line. -/
def Intact (ls : List String) : Prop :=
  (∀ line ∈ ls.dropLast, ¬Returned line) ∧ ls.getLast? ≠ some ""

theorem beforeBreak_eq_iff {line : String} : beforeBreak line = line ↔ ¬Returned line := by
  rw [← String.toList_inj, beforeBreak, String.toList_ofList, beforeBreakChars, Returned]
  split
  next hlast =>
    refine iff_of_false (fun heq => ?_) (not_not_intro hlast)
    have hne : line.toList ≠ [] := by
      intro hnil
      rw [hnil] at hlast
      cases hlast
    have hpos := List.length_pos_iff.mpr hne
    have hlength := congrArg List.length heq
    rw [List.length_dropLast] at hlength
    omega
  next hlast => exact iff_of_true rfl hlast

theorem map_beforeBreak_eq_iff {ls : List String} :
    ls.map beforeBreak = ls ↔ ∀ line ∈ ls, ¬Returned line := by
  have hself : ls.map beforeBreak = ls.map id ↔ ∀ line ∈ ls, beforeBreak line = line :=
    List.map_inj_left
  rw [List.map_id] at hself
  simp only [hself, beforeBreak_eq_iff]

/-! ## Cutting into lines -/

/-- A character that is part of no line ending is put in front of the first line. -/
theorem lineChars_cons {c : Char} {cs first : List Char} {more : List (List Char)}
    (hbreak : c ≠ '\n') (hreturn : ¬(c = '\r' ∧ cs.head? = some '\n'))
    (hcs : lineChars cs = first :: more) : lineChars (c :: cs) = (c :: first) :: more := by
  cases cs with
  | nil => cases hcs
  | cons d cs =>
    refine lineChars.eq_6 c d cs first more hbreak (fun rest hc hd => hreturn ⟨hc, ?_⟩) hcs
    rw [hd]
    rfl

theorem beforeBreakChars_cons {c : Char} {cs : List Char} (h : ¬(c = '\r' ∧ cs = [])) :
    beforeBreakChars (c :: cs) = c :: beforeBreakChars cs := by
  cases cs with
  | nil =>
    have hc : c ≠ '\r' := fun hc => h ⟨hc, rfl⟩
    simp [beforeBreakChars, hc]
  | cons d cs =>
    rw [beforeBreakChars, beforeBreakChars, List.getLast?_cons_cons, List.dropLast_cons_cons]
    split <;> rfl

/-- The first line of a text goes up to its first line feed. -/
theorem lineChars_append_break {cs : List Char} (h : '\n' ∉ cs) (rest : List Char) :
    lineChars (cs ++ '\n' :: rest) = beforeBreakChars cs :: lineChars rest := by
  induction cs with
  | nil => rfl
  | cons c cs ih =>
    obtain ⟨hc, hcs⟩ := not_or.mp (mt List.mem_cons.mpr h)
    by_cases hend : c = '\r' ∧ cs = []
    · obtain ⟨rfl, rfl⟩ := hend
      exact lineChars.eq_3 rest
    · have hreturn : ¬(c = '\r' ∧ (cs ++ '\n' :: rest).head? = some '\n') := by
        rintro ⟨rfl, hhead⟩
        cases cs with
        | nil => exact hend ⟨rfl, rfl⟩
        | cons d cs =>
          obtain rfl : d = '\n' := Option.some.inj hhead
          exact hcs List.mem_cons_self
      rw [List.cons_append, lineChars_cons (Ne.symm hc) hreturn (ih hcs),
        beforeBreakChars_cons hend]

/-- A text without a line feed is one line, unless it is empty. -/
theorem lineChars_of_not_mem {cs : List Char} (h : '\n' ∉ cs) (hne : cs ≠ []) :
    lineChars cs = [cs] := by
  induction cs with
  | nil => exact absurd rfl hne
  | cons c cs ih =>
    obtain ⟨hc, hcs⟩ := not_or.mp (mt List.mem_cons.mpr h)
    cases cs with
    | nil => exact lineChars.eq_4 c (Ne.symm hc) fun _ _ hd => by cases hd
    | cons d cs =>
      refine lineChars_cons (Ne.symm hc) ?_ (ih hcs (List.cons_ne_nil d cs))
      rintro ⟨-, hd⟩
      obtain rfl : d = '\n' := Option.some.inj hd
      exact hcs List.mem_cons_self

theorem not_mem_of_mem_lineChars {cs : List Char} : ∀ line ∈ lineChars cs, '\n' ∉ line := by
  fun_induction lineChars cs with
  | case1 => exact fun line h => absurd h List.not_mem_nil
  | case2 cs ih => exact List.forall_mem_cons.mpr ⟨List.not_mem_nil, ih⟩
  | case3 cs ih => exact List.forall_mem_cons.mpr ⟨List.not_mem_nil, ih⟩
  | case4 c hc => exact List.forall_mem_singleton.mpr (by simpa using Ne.symm hc)
  | case5 c hc _ _ _ hlines =>
    simp only [hlines]
    exact List.forall_mem_singleton.mpr (by simpa using Ne.symm hc)
  | case6 c hc d cs first more _ hlines ih =>
    simp only [hlines] at ih ⊢
    obtain ⟨hfirst, hmore⟩ := List.forall_mem_cons.mp ih
    refine List.forall_mem_cons.mpr ⟨?_, hmore⟩
    simpa using ⟨Ne.symm hc, hfirst⟩

theorem not_mem_of_mem_lines {s line : String} (h : line ∈ lines s) : '\n' ∉ line.toList := by
  obtain ⟨cs, hcs, rfl⟩ := List.mem_map.mp h
  rw [String.toList_ofList]
  exact not_mem_of_mem_lineChars cs hcs

/-! ## Lines put together -/

theorem lines_append_break {line : String} (h : '\n' ∉ line.toList) (s : String) :
    lines (line ++ "\n" ++ s) = beforeBreak line :: lines s := by
  have hchars : (line ++ "\n" ++ s).toList = line.toList ++ '\n' :: s.toList := by simp
  rw [lines, hchars, lineChars_append_break h, List.map_cons]
  rfl

theorem lines_of_not_mem {line : String} (h : '\n' ∉ line.toList) :
    lines line = [line].filter (· ≠ "") := by
  by_cases hempty : line = ""
  · subst hempty
    rfl
  · have hne : line.toList ≠ [] := mt String.toList_eq_nil_iff.mp hempty
    rw [lines, lineChars_of_not_mem h hne]
    simp [hempty]

/-- What is read of lines put together. -/
theorem lines_joinWith {ls : List String} (h : ∀ line ∈ ls, '\n' ∉ line.toList) :
    lines (joinWith "\n" ls) = reread ls := by
  induction ls with
  | nil => rfl
  | cons line ls ih =>
    obtain ⟨hline, hls⟩ := List.forall_mem_cons.mp h
    by_cases hnone : ls = []
    · subst hnone
      exact lines_of_not_mem hline
    · obtain ⟨next, rest, rfl⟩ := List.exists_cons_of_ne_nil hnone
      rw [joinWith_cons "\n" line hnone, lines_append_break hline, ih hls, reread, reread,
        List.dropLast_cons_cons, List.getLast?_cons_cons, List.map_cons, List.cons_append]

theorem splitAt_joinWith_break {ls : List String} (h : ∀ line ∈ ls, '\n' ∉ line.toList) :
    splitAt '\n' (joinWith "\n" ls) = if ls = [] then [""] else ls := by
  split
  next hnone =>
    subst hnone
    rfl
  next hsome => exact splitAt_joinWith hsome h

/-- Lines put together are the same text only if they are the same lines; but one empty line is like
none. -/
theorem joinWith_break_eq_iff {ls ms : List String} (hls : ∀ line ∈ ls, '\n' ∉ line.toList)
    (hms : ∀ line ∈ ms, '\n' ∉ line.toList) :
    joinWith "\n" ls = joinWith "\n" ms ↔
      ls = ms ∨ (ls = [] ∧ ms = [""]) ∨ (ls = [""] ∧ ms = []) := by
  have hcut : joinWith "\n" ls = joinWith "\n" ms ↔
      splitAt '\n' (joinWith "\n" ls) = splitAt '\n' (joinWith "\n" ms) := by
    refine ⟨congrArg (splitAt '\n'), fun h => ?_⟩
    rw [← joinWith_splitAt '\n' (joinWith "\n" ls), h, joinWith_splitAt]
  rw [hcut, splitAt_joinWith_break hls, splitAt_joinWith_break hms]
  by_cases hl : ls = [] <;> by_cases hm : ms = [] <;> simp [hl, hm, eq_comm]

/-! ## Selecting from what is read again -/

theorem reread_concat (ls : List String) {last : String} (h : last ≠ "") :
    reread (ls ++ [last]) = ls.map beforeBreak ++ [last] := by
  simp [reread, h]

theorem reread_concat_empty (ls : List String) : reread (ls ++ [""]) = ls.map beforeBreak := by
  simp [reread]

theorem reread_eq_nil_iff {ls : List String} : reread ls = [] ↔ ls = [] ∨ ls = [""] := by
  induction ls using List.reverseRecOn with
  | nil => exact iff_of_true rfl (.inl rfl)
  | append_singleton ls last _ =>
    by_cases hlast : last = ""
    · subst hlast
      rw [reread_concat_empty]
      cases ls <;> simp
    · rw [reread_concat ls hlast]
      cases ls <;> simp [hlast]

/-- The first lines stay as they are if no line feed follows a carriage return in them, and an empty
line at the end is not asked for. -/
theorem take_reread_eq_iff {n : Nat} {ls : List String} :
    (reread ls).take n = ls.take n ↔
      (∀ line ∈ ls.dropLast.take n, ¬Returned line) ∧
        (ls.length ≤ n → ls.getLast? ≠ some "") := by
  induction ls using List.reverseRecOn with
  | nil => simp [reread]
  | append_singleton ls last _ =>
    rw [List.dropLast_concat, List.getLast?_concat, List.length_append, List.length_singleton,
      ← map_beforeBreak_eq_iff, List.map_take]
    by_cases hlast : last = ""
    · subst hlast
      rw [reread_concat_empty]
      by_cases hn : n ≤ ls.length
      · rw [List.take_append_of_le_length hn]
        exact (and_iff_left fun hle => by omega).symm
      · refine iff_of_false (fun heq => ?_) (fun h => h.2 (by omega) rfl)
        have hlength := congrArg List.length heq
        simp only [List.length_take, List.length_map, List.length_append,
          List.length_singleton] at hlength
        omega
    · have hkept : ls.length + 1 ≤ n → some last ≠ some "" := fun _ => by simpa using hlast
      rw [reread_concat ls hlast, List.take_append, List.take_append, List.length_map,
        List.append_left_inj, and_iff_left hkept]

theorem length_reread_le (ls : List String) : (reread ls).length ≤ ls.length := by
  induction ls using List.reverseRecOn with
  | nil => exact Nat.le_refl 0
  | append_singleton ls last _ =>
    have hlast := List.length_filter_le (· ≠ "") [last]
    simp only [reread, List.dropLast_concat, List.getLast?_concat, Option.toList_some,
      List.length_append, List.length_map]
    omega

/-- The lines that are read again as they are. -/
theorem reread_eq_self_iff {ls : List String} : reread ls = ls ↔ Intact ls := by
  have htake := @take_reread_eq_iff ls.length ls
  have hdropLast : ls.dropLast.length ≤ ls.length := by
    rw [List.length_dropLast]
    omega
  rw [List.take_of_length_le (length_reread_le ls), List.take_length,
    List.take_of_length_le hdropLast] at htake
  exact htake.trans (and_congr_right fun _ => ⟨fun h => h (Nat.le_refl _), fun h _ => h⟩)

theorem map_rtake {f : String → String} {n : Nat} {ls : List String} :
    (ls.map f).rtake n = (ls.rtake n).map f := by
  rw [List.rtake, List.rtake, List.length_map, List.map_drop]

/-- The last lines stay as they are if no line feed follows a carriage return in them, and the text does
not end in an empty line. If it does, each of them is to be what is read of the line before it. -/
theorem rtake_reread_eq_iff {n : Nat} {ls : List String} :
    (reread ls).rtake n = ls.rtake n ↔
      (ls.getLast? ≠ some "" ∧ ∀ line ∈ (ls.rtake n).dropLast, ¬Returned line) ∨
        (ls.getLast? = some "" ∧ (ls.dropLast.rtake n).map beforeBreak = ls.rtake n) := by
  induction ls using List.reverseRecOn with
  | nil => simp [reread]
  | append_singleton ls last _ =>
    rw [List.dropLast_concat, List.getLast?_concat]
    by_cases hlast : last = ""
    · subst hlast
      rw [reread_concat_empty, map_rtake]
      simp
    · rw [reread_concat ls hlast]
      cases n with
      | zero => simp [hlast]
      | succ n =>
        rw [List.rtake_concat_succ, List.rtake_concat_succ, List.append_left_inj,
          List.dropLast_concat, map_rtake, map_beforeBreak_eq_iff]
        simp [hlast]

/-- What is selected of the lines that are read again makes the same text as what is selected of the
lines themselves only if they are the same, but for one empty line. -/
theorem joinWith_select_reread_iff {select : List String → List String}
    (hsub : ∀ ls, (select ls).Sublist ls)
    (hnone : (∀ ls, select ls = []) ∨ ∀ ls, select ls = [] → ls = [])
    {ls : List String} (h : ∀ line ∈ ls, '\n' ∉ line.toList) :
    joinWith "\n" (select (reread ls)) = joinWith "\n" (select ls) ↔
      ls = [""] ∨ select (reread ls) = select ls := by
  have hreread : ∀ line ∈ reread ls, '\n' ∉ line.toList := by
    rw [← lines_joinWith h]
    exact fun line hline => not_mem_of_mem_lines hline
  have hnil : select [] = [] := List.sublist_nil.mp (hsub [])
  rw [joinWith_break_eq_iff (fun line hline => hreread line ((hsub _).subset hline))
    (fun line hline => h line ((hsub _).subset hline))]
  rcases hnone with hnone | hnone
  · simp [hnone]
  constructor
  · rintro (hsame | ⟨hl, hm⟩ | ⟨hl, hm⟩)
    · exact .inr hsame
    · rcases reread_eq_nil_iff.mp (hnone _ hl) with rfl | hempty
      · rw [hnil] at hm
        cases hm
      · exact .inl hempty
    · obtain rfl := hnone ls hm
      have hgone : reread [] = [] := rfl
      rw [hgone, hnil] at hl
      cases hl
  · rintro (rfl | hsame)
    · have hgone : reread [""] = [] := rfl
      rw [hgone, hnil]
      rcases List.sublist_singleton.mp (hsub [""]) with hkept | hkept
      · exact .inl hkept.symm
      · exact .inr (.inl ⟨rfl, hkept⟩)
    · exact .inl hsame

end DesktopTerminal.Text

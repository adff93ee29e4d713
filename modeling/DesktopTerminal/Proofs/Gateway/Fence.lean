import DesktopTerminal.Proofs.Text.Lines
import DesktopTerminal.Gateway.Fence
import DesktopTerminal.Session.Basic

/-!
# Answers without their fences

What is shown of an answer are its lines without the fences, and of these neither the empty ones at
the front nor the blank ones at the end. An answer of this kind is shown as it is, as long as no line
feed in it follows a carriage return.
-/
namespace DesktopTerminal

/-- What is kept of the lines of an answer, and what is dropped before and behind it. -/
structure Unfenced (source front kept back : List String) : Prop where
  shared : source.filter (!isFence ·) = front ++ kept ++ back
  front_empty : ∀ line ∈ front, line = ""
  back_blank : ∀ line ∈ back, Text.isBlankText line = true
  first : kept.head? ≠ some ""
  last : ∀ line, kept.getLast? = some line → Text.isBlankText line = false

/-- Lines with no blanks at the end of the last one. -/
def trimLast (ls : List String) : List String := ls.dropLast ++ ls.getLast?.toList.map Text.trimEnd

/-- What is read of lines that have been put together with no blanks at the end. -/
def shownLines (ls : List String) : List String :=
  ls.dropLast.map Text.beforeBreak ++ ls.getLast?.toList.map Text.trimEnd

/-- Nothing is to be taken away from the answer. -/
structure Clean (answer : String) : Prop where
  unfenced : ∀ line ∈ Text.lines answer, isFence line = false
  first : answer.toList.head? ≠ some '\n'
  last : ∀ c, answer.toList.getLast? = some c → Text.isBlank c = false

/-- No line feed of the text follows a carriage return. -/
def PlainBreaks (text : String) : Prop :=
  ∀ line ∈ (Text.splitAt '\n' text).dropLast, ¬Text.Returned line

instance (text : String) : Decidable (PlainBreaks text) :=
  inferInstanceAs (Decidable (∀ line ∈ _, _))

namespace Text

variable {ls : List String}

/-- A text is put together from its lines again if no carriage return is taken away with a line feed,
and no line feed at its end. -/
theorem joinWith_lines {text : String} (hbreaks : PlainBreaks text)
    (hend : text.toList.getLast? ≠ some '\n') : joinWith "\n" (lines text) = text := by
  have htext : joinWith "\n" (splitAt '\n' text) = text := joinWith_splitAt '\n' text
  have hlines : lines (joinWith "\n" (splitAt '\n' text)) = reread (splitAt '\n' text) :=
    lines_joinWith fun _ => not_mem_of_mem_splitAt
  rw [htext] at hlines
  obtain hlast | hlast := ne_or_eq (splitAt '\n' text).getLast? (some "")
  · rw [hlines, reread_eq_self_iff.mpr ⟨hbreaks, hlast⟩, htext]
  · obtain ⟨front, hfront⟩ := List.getLast?_eq_some_iff.mp hlast
    rw [hfront] at htext
    by_cases hnone : front = []
    · subst hnone
      rw [← htext]
      rfl
    · -- The text would end with the line feed before its empty last piece.
      rw [joinWith_append "\n" hnone (List.cons_ne_nil _ _)] at htext
      exact absurd (by simp [← htext, joinWith]) hend

/-- Line feeds at the front are the ends of empty lines. -/
theorem dropWhile_joinWith (h : ∀ line ∈ ls, '\n' ∉ line.toList) :
    (joinWith "\n" ls).toList.dropWhile isLineFeed =
      (joinWith "\n" (ls.dropWhile (· == ""))).toList := by
  induction ls with
  | nil => rfl
  | cons line ls ih =>
    obtain ⟨hline, hls⟩ := List.forall_mem_cons.mp h
    by_cases hempty : line = ""
    · subst hempty
      have hdrop : ("" :: ls).dropWhile (· == "") = ls.dropWhile (· == "") := rfl
      rw [hdrop, ← ih hls]
      by_cases hnone : ls = []
      · subst hnone
        rfl
      · rw [joinWith_cons "\n" "" hnone]
        simp [isLineFeed]
    · have hkept : (line :: ls).dropWhile (· == "") = line :: ls := by simp [hempty]
      obtain ⟨rest, hrest⟩ := prefix_joinWith_cons "\n" line ls
      obtain ⟨c, cs, hcs⟩ := List.exists_cons_of_ne_nil (mt String.toList_eq_nil_iff.mp hempty)
      have hc : isLineFeed c = false := by
        refine beq_false_of_ne fun hfeed => hline ?_
        rw [hcs, hfeed]
        exact List.mem_cons_self
      rw [hkept, ← hrest, hcs, List.cons_append, List.dropWhile_cons_of_neg (by simp [hc])]

/-- The last line stands behind the others and a line feed, which is a blank. -/
theorem exists_joinWith_concat (ls : List String) :
    ∃ front : List Char,
      (∀ last, (joinWith "\n" (ls ++ [last])).toList = front ++ last.toList) ∧
        dropEndWhile isBlank front = dropEndWhile isBlank (joinWith "\n" ls).toList := by
  by_cases hnone : ls = []
  · subst hnone
    exact ⟨[], fun last => rfl, rfl⟩
  · refine ⟨(joinWith "\n" ls).toList ++ ['\n'], fun last => ?_, ?_⟩
    · rw [joinWith_append "\n" hnone (List.cons_ne_nil last []), String.toList_append,
        String.toList_append]
      rfl
    · rw [dropEndWhile_append_eq, if_pos (by decide)]

/-- Blanks at the end are those of blank lines, and those at the end of the last other line. -/
theorem dropEndWhile_joinWith (ls : List String) :
    dropEndWhile isBlank (joinWith "\n" ls).toList =
      (joinWith "\n" (trimLast (ls.rdropWhile isBlankText))).toList := by
  induction ls using List.reverseRecOn with
  | nil => rfl
  | append_singleton ls last ih =>
    obtain ⟨front, hfront, hblank⟩ := exists_joinWith_concat ls
    rw [List.rdropWhile_concat, hfront, dropEndWhile_append_eq, ← isBlankText]
    cases hlast : isBlankText last with
    | true =>
      rw [if_pos rfl, if_pos rfl, hblank, ih]
    | false =>
      rw [if_neg Bool.false_ne_true, if_neg Bool.false_ne_true, trimLast, List.dropLast_concat,
        List.getLast?_concat]
      exact ((hfront (trimEnd last)).trans (by rw [trimEnd, String.toList_ofList, trimEndChars])).symm

end Text

/-! ## Fences -/

theorem isFence_iff {line : String} :
    isFence line = true ↔ ∃ front rest, line.toList = front ++ ("```".toList ++ rest) ∧
      ∀ c ∈ front, Text.isBlank c = true := by
  rw [isFence, List.isPrefixOf_iff_prefix, Text.trimStartChars]
  constructor
  · rintro ⟨rest, hrest⟩
    refine ⟨line.toList.takeWhile Text.isBlank, rest, ?_, fun c hc => List.mem_takeWhile_imp hc⟩
    rw [hrest, List.takeWhile_append_dropWhile]
  · rintro ⟨front, rest, hline, hfront⟩
    rw [hline, List.dropWhile_append_of_pos hfront]
    exact ⟨rest, rfl⟩

/-- What a line begins with is no fence if the line is none. -/
theorem isFence_of_prefix {line cut : String} (h : cut.toList <+: line.toList)
    (hline : isFence line = false) : isFence cut = false := by
  refine eq_false_of_ne_true fun hcut => ?_
  obtain ⟨front, rest, heq, hfront⟩ := isFence_iff.mp hcut
  obtain ⟨more, hmore⟩ := h
  have hfence : isFence line = true := by
    refine isFence_iff.mpr ⟨front, rest ++ more, ?_, hfront⟩
    rw [← hmore, heq]
    simp only [List.append_assoc]
  rw [hfence] at hline
  exact Bool.noConfusion hline

theorem prefix_beforeBreak (line : String) : (Text.beforeBreak line).toList <+: line.toList := by
  rw [Text.beforeBreak, String.toList_ofList, Text.beforeBreakChars]
  split
  · exact List.dropLast_prefix _
  · exact List.prefix_refl _

theorem prefix_trimEnd (line : String) : (Text.trimEnd line).toList <+: line.toList := by
  rw [Text.trimEnd, String.toList_ofList]
  exact List.rdropWhile_prefix Text.isBlank line.toList

theorem trimEnd_eq_empty_iff {line : String} :
    Text.trimEnd line = "" ↔ Text.isBlankText line = true := by
  rw [← String.toList_eq_nil_iff, Text.trimEnd, String.toList_ofList, Text.isBlankText,
    List.all_eq_true]
  exact List.rdropWhile_eq_nil_iff

/-- Every line that is shown is the beginning of a line that is kept. -/
theorem exists_of_mem_shownLines {ls : List String} {line : String} (h : line ∈ shownLines ls) :
    ∃ source ∈ ls, line.toList <+: source.toList := by
  rcases List.mem_append.mp h with h | h
  · obtain ⟨source, hsource, rfl⟩ := List.mem_map.mp h
    exact ⟨source, List.dropLast_subset ls hsource, prefix_beforeBreak source⟩
  · obtain ⟨source, hsource, rfl⟩ := List.mem_map.mp h
    exact ⟨source, List.mem_of_getLast? (Option.mem_toList.mp hsource), prefix_trimEnd source⟩

/-! ## Answers -/

theorem eq_false_of_getLast?_rdropWhile {α : Type} {p : α → Bool} {l : List α} {a : α}
    (h : (l.rdropWhile p).getLast? = some a) : p a = false := by
  have hstop := List.head?_dropWhile_not p l.reverse
  rw [List.rdropWhile, List.getLast?_reverse] at h
  rwa [h] at hstop

theorem head?_of_head?_rdropWhile {α : Type} {p : α → Bool} {l : List α} {a : α}
    (h : (l.rdropWhile p).head? = some a) : l.head? = some a := by
  obtain ⟨rest, hrest⟩ := List.rdropWhile_prefix p l
  rw [← hrest, List.head?_append, h, Option.some_or]

/-- Taking the line feeds at the end away first makes no difference, for they are blanks. -/
theorem dropEndWhile_isLineFeed (cs : List Char) :
    Text.dropEndWhile Text.isBlank (Text.dropEndWhile isLineFeed cs) =
      Text.dropEndWhile Text.isBlank cs := by
  have hfeeds : (cs.rtakeWhile isLineFeed).all Text.isBlank = true := by
    refine List.all_eq_true.mpr fun c hc => ?_
    have hfeed : isLineFeed c = true := List.mem_rtakeWhile_imp hc
    rw [beq_iff_eq.mp hfeed]
    decide
  have hcut : Text.dropEndWhile isLineFeed cs ++ cs.rtakeWhile isLineFeed = cs :=
    List.rdropWhile_append_rtakeWhile ..
  have hblank := Text.dropEndWhile_append_eq Text.isBlank (Text.dropEndWhile isLineFeed cs)
    (cs.rtakeWhile isLineFeed)
  rw [hcut, if_pos hfeeds] at hblank
  exact hblank.symm

theorem toList_stripFences (text : String) :
    (stripFences text).toList = Text.dropEndWhile Text.isBlank
      ((Text.joinWith "\n" ((Text.lines text).filter (!isFence ·))).toList.dropWhile isLineFeed) := by
  rw [stripFences, String.toList_ofList, Text.trimEndChars, dropEndWhile_isLineFeed]

/-- What is shown is put together from the lines that are kept. -/
theorem exists_unfenced (text : String) : ∃ front kept back,
    Unfenced (Text.lines text) front kept back ∧
      stripFences text = Text.joinWith "\n" (trimLast kept) := by
  have hlines : ∀ line ∈ (Text.lines text).filter (!isFence ·), '\n' ∉ line.toList :=
    fun line hline => Text.not_mem_of_mem_lines (List.mem_of_mem_filter hline)
  have hjoin := toList_stripFences text
  rw [Text.dropWhile_joinWith hlines, Text.dropEndWhile_joinWith, String.toList_inj] at hjoin
  generalize hsource : (Text.lines text).filter (!isFence ·) = source at hjoin
  generalize hmain : source.dropWhile (· == "") = main at hjoin
  refine ⟨source.takeWhile (· == ""), main.rdropWhile Text.isBlankText,
    main.rtakeWhile Text.isBlankText, ⟨?_, ?_, ?_, ?_, ?_⟩, hjoin⟩
  · rw [hsource, List.append_assoc, List.rdropWhile_append_rtakeWhile, ← hmain,
      List.takeWhile_append_dropWhile]
  · intro line hline
    have hempty : (line == "") = true := List.mem_takeWhile_imp (p := (· == "")) hline
    exact beq_iff_eq.mp hempty
  · exact fun line hline => List.mem_rtakeWhile_imp hline
  · intro hfirst
    have hstop := List.head?_dropWhile_not (· == "") source
    rw [hmain, head?_of_head?_rdropWhile hfirst] at hstop
    exact absurd hstop (by decide)
  · exact fun line hline => eq_false_of_getLast?_rdropWhile hline

theorem Unfenced.subset {source front kept back : List String}
    (h : Unfenced source front kept back) : ∀ line ∈ kept, line ∈ source ∧ isFence line = false := by
  intro line hline
  have hmem : line ∈ source.filter (!isFence ·) := by
    rw [h.shared]
    exact List.mem_append_left back (List.mem_append_right front hline)
  simpa using List.mem_filter.mp hmem

@[simp] theorem trimLast_concat (ls : List String) (last : String) :
    trimLast (ls ++ [last]) = ls ++ [Text.trimEnd last] := by
  simp [trimLast]

theorem not_mem_of_mem_trimLast {c : Char} {ls : List String}
    (h : ∀ line ∈ ls, c ∉ line.toList) : ∀ line ∈ trimLast ls, c ∉ line.toList := by
  cases ls using List.reverseRecOn with
  | nil => exact h
  | append_singleton ls last _ =>
    rw [trimLast_concat, List.forall_mem_append, List.forall_mem_singleton] at *
    exact ⟨h.1, mt (fun hmem => (prefix_trimEnd last).subset hmem) h.2⟩

/-- The lines that are read of what is shown. -/
theorem lines_trimLast {source front kept back : List String} (h : Unfenced source front kept back)
    (hsource : ∀ line ∈ source, '\n' ∉ line.toList) :
    Text.lines (Text.joinWith "\n" (trimLast kept)) = shownLines kept := by
  have hlines : ∀ line ∈ kept, '\n' ∉ line.toList := fun line hline =>
    hsource line (h.subset line hline).1
  rw [Text.lines_joinWith (not_mem_of_mem_trimLast hlines)]
  cases kept using List.reverseRecOn with
  | nil => rfl
  | append_singleton kept last _ =>
    have hlast : Text.trimEnd last ≠ "" := by
      have hsome := h.last last (List.getLast?_concat ..)
      rwa [Ne, trimEnd_eq_empty_iff, Bool.not_eq_true]
    rw [trimLast_concat, Text.reread_concat kept hlast]
    simp [shownLines]

theorem clean_stripFences (text : String) : Clean (stripFences text) := by
  obtain ⟨front, kept, back, hkept, hjoin⟩ := exists_unfenced text
  have hlines := lines_trimLast hkept fun line => Text.not_mem_of_mem_lines
  rw [← hjoin] at hlines
  refine ⟨fun line hline => ?_, ?_, fun c hc => ?_⟩
  · rw [hlines] at hline
    obtain ⟨source, hsource, hprefix⟩ := exists_of_mem_shownLines hline
    exact isFence_of_prefix hprefix (hkept.subset source hsource).2
  · intro hfirst
    have hstop := List.head?_dropWhile_not isLineFeed
      (Text.joinWith "\n" ((Text.lines text).filter (!isFence ·))).toList
    rw [toList_stripFences] at hfirst
    rw [head?_of_head?_rdropWhile hfirst] at hstop
    exact absurd hstop (by decide)
  · rw [toList_stripFences] at hc
    exact eq_false_of_getLast?_rdropWhile hc

theorem Unfenced.sublist {source front kept back : List String}
    (h : Unfenced source front kept back) : kept.Sublist source := by
  have hfiltered : kept.Sublist (source.filter (!isFence ·)) := by
    rw [h.shared, List.append_assoc]
    exact (List.sublist_append_left kept back).trans (List.sublist_append_right front _)
  exact hfiltered.trans List.filter_sublist

/-- Nothing is dropped of an answer that is shown as it is, so what is read again of its lines is what
they were. -/
theorem plainBreaks_of_stripFences_eq {text : String} (h : stripFences text = text) :
    PlainBreaks text := by
  obtain ⟨front, kept, back, hkept, hjoin⟩ := exists_unfenced text
  have hlines := lines_trimLast hkept fun line => Text.not_mem_of_mem_lines
  have hfeeds : ∀ line ∈ trimLast kept, '\n' ∉ line.toList :=
    not_mem_of_mem_trimLast fun line hline =>
      Text.not_mem_of_mem_lines (hkept.subset line hline).1
  rw [h] at hjoin
  rw [← hjoin] at hlines
  cases kept using List.reverseRecOn with
  | nil =>
    rw [hjoin]
    decide
  | append_singleton init last _ =>
    have hall : init ++ [last] = Text.lines text := by
      refine hkept.sublist.eq_of_length ?_
      rw [hlines]
      simp [shownLines]
    have hpieces : Text.splitAt '\n' text = init ++ [Text.trimEnd last] := by
      rw [trimLast_concat] at hjoin hfeeds
      rw [hjoin]
      exact Text.splitAt_joinWith (List.append_ne_nil_of_right_ne_nil _ (List.cons_ne_nil _ _)) hfeeds
    have hreread : init = init.map Text.beforeBreak := by
      rw [← hall] at hlines
      simpa [shownLines] using congrArg List.dropLast hlines
    rw [PlainBreaks, hpieces, List.dropLast_concat]
    exact Text.map_beforeBreak_eq_iff.mp hreread.symm

/-- The answers that are shown as they are. -/
theorem stripFences_eq_self_iff {text : String} :
    stripFences text = text ↔ Clean text ∧ PlainBreaks text := by
  refine ⟨fun h => ⟨h ▸ clean_stripFences text, plainBreaks_of_stripFences_eq h⟩, ?_⟩
  rintro ⟨hclean, hbreaks⟩
  have hsource : (Text.lines text).filter (!isFence ·) = Text.lines text :=
    List.filter_eq_self.mpr fun line hline => by simp [hclean.unfenced line hline]
  have hend : text.toList.getLast? ≠ some '\n' := by
    intro hfeed
    exact absurd (hclean.last '\n' hfeed) (by decide)
  have hfront : text.toList.dropWhile isLineFeed = text.toList := by
    have hfirst := hclean.first
    cases htext : text.toList with
    | nil => rfl
    | cons c cs =>
      rw [htext] at hfirst
      exact List.dropWhile_cons_of_neg (by simpa [isLineFeed] using hfirst)
  have hback : Text.dropEndWhile Text.isBlank text.toList = text.toList := by
    refine List.rdropWhile_eq_self_iff.mpr fun hne => ?_
    rw [hclean.last _ (List.getLast?_eq_some_getLast hne)]
    exact Bool.false_ne_true
  rw [← String.toList_inj, toList_stripFences, hsource, Text.joinWith_lines hbreaks hend, hfront,
    hback]

theorem plainBreaks_of_not_mem {text : String} (h : '\r' ∉ text.toList) : PlainBreaks text := by
  intro line hline hreturned
  have htext : Text.joinWith "\n" (Text.splitAt '\n' text) = text := Text.joinWith_splitAt '\n' text
  rw [← htext, Text.mem_joinWith (by decide)] at h
  exact h ⟨line, List.dropLast_subset _ hline, List.mem_of_getLast? hreturned⟩

/-- A text without carriage returns is shown without any. -/
theorem not_mem_stripFences {text : String} (h : '\r' ∉ text.toList) :
    '\r' ∉ (stripFences text).toList := by
  intro hmem
  obtain ⟨front, kept, back, hkept, hjoin⟩ := exists_unfenced text
  have hkeptLines : ∀ line ∈ kept, '\r' ∉ line.toList := fun line hline hreturn =>
    h (Text.mem_of_mem_lines (hkept.subset line hline).1 hreturn)
  rw [hjoin, Text.mem_joinWith (by decide)] at hmem
  obtain ⟨line, hline, hreturn⟩ := hmem
  exact not_mem_of_mem_trimLast hkeptLines line hline hreturn

/-- What is shown of an answer. It has no fence, no line feed at the front and no blank at the end; its
lines are those of the answer that are no fences, but for the empty ones at the front and the blank
ones at the end. Without carriage returns nothing more is taken away when it is done again, and an
answer of this kind goes to the log as it is. -/
theorem stripFences_exact (text : String) :
    Clean (stripFences text) ∧
    (∃ front kept back, Unfenced (Text.lines text) front kept back ∧
      Text.lines (stripFences text) = shownLines kept) ∧
    ('\r' ∉ text.toList →
      stripFences (stripFences text) = stripFences text ∧
      (stripFences text = text ↔ Clean text) ∧
      (Clean text → text ≠ "" → ∀ s : Session,
        (s.finishDelegation (.ok text)).log = s.log ++ [.delegated text])) := by
  refine ⟨clean_stripFences text, ?_, fun hreturns => ⟨?_, ?_, fun hclean hsome s => ?_⟩⟩
  · obtain ⟨front, kept, back, hkept, hjoin⟩ := exists_unfenced text
    refine ⟨front, kept, back, hkept, ?_⟩
    rw [hjoin]
    exact lines_trimLast hkept fun line => Text.not_mem_of_mem_lines
  · exact stripFences_eq_self_iff.mpr
      ⟨clean_stripFences text, plainBreaks_of_not_mem (not_mem_stripFences hreturns)⟩
  · exact stripFences_eq_self_iff.trans (and_iff_left (plainBreaks_of_not_mem hreturns))
  · have hself := stripFences_eq_self_iff.mpr ⟨hclean, plainBreaks_of_not_mem hreturns⟩
    simp [Session.finishDelegation, Session.note, Session.moveTo, Session.answerEntries, hself, hsome]

theorem fenced_listing_shown :
    stripFences "\n  ```sh\n\n total 2\n\n\tb \n```\n \n" = " total 2\n\n\tb" ∧
    stripFences (stripFences "\n  ```sh\n\n total 2\n\n\tb \n```\n \n") =
      stripFences "\n  ```sh\n\n total 2\n\n\tb \n```\n \n" ∧
    ∀ s : Session, (s.finishDelegation (.ok " total 2\n\n\tb")).log =
      s.log ++ [.delegated " total 2\n\n\tb"] := by
  have hshown : stripFences "\n  ```sh\n\n total 2\n\n\tb \n```\n \n" = " total 2\n\n\tb" := by
    decide +kernel
  obtain ⟨hclean, -, hfenced⟩ := stripFences_exact "\n  ```sh\n\n total 2\n\n\tb \n```\n \n"
  obtain ⟨-, -, hplain⟩ := stripFences_exact " total 2\n\n\tb"
  rw [hshown] at hclean
  exact ⟨hshown, (hfenced (by decide)).1, (hplain (by decide)).2.2 hclean (by decide)⟩

end DesktopTerminal

import DesktopTerminal.Markup
import DesktopTerminal.Proofs.Text

/-!
# What is stripped off

A marked text is a plain one with escape sequences in it. Stripping reads it from the left, so it gives
the plain text as long as no character of that can open a sequence; and then it goes on outside of
sequences, so marked texts are put together like plain ones.
-/
namespace DesktopTerminal.Markup

/-- No character of the text opens an escape sequence. -/
def Unescaped (text : String) : Prop := '\x1b' ∉ text.toList

instance (text : String) : Decidable (Unescaped text) := inferInstanceAs (Decidable (¬ _))

@[simp] theorem unescaped_append {s t : String} :
    Unescaped (s ++ t) ↔ Unescaped s ∧ Unescaped t := by
  simp [Unescaped, not_or]

theorem unescaped_joinWith {sep : String} (hsep : Unescaped sep) {texts : List String}
    (h : ∀ text ∈ texts, Unescaped text) : Unescaped (Text.joinWith sep texts) := by
  induction texts with
  | nil => exact List.not_mem_nil
  | cons text texts ih =>
    obtain ⟨htext, htexts⟩ := List.forall_mem_cons.mp h
    by_cases hnone : texts = []
    · subst hnone
      exact htext
    · rw [Text.joinWith_cons sep text hnone]
      simp only [unescaped_append]
      exact ⟨⟨htext, hsep⟩, ih htexts⟩

theorem unescaped_zeroPadded (width n : Nat) : Unescaped (Text.zeroPadded width n) :=
  fun h => absurd (Text.isDigit_of_mem_zeroPadded h) (by decide)

theorem unescaped_numeral (n : Nat) : Unescaped (Text.numeral n) := unescaped_zeroPadded 1 n

theorem unescaped_spaces (n : Nat) : Unescaped (Text.spaces n) := by
  intro h
  rw [Text.spaces, String.toList_ofList] at h
  exact absurd (List.eq_of_mem_replicate h) (by decide)

/-- Before whatever follows, stripping makes the plain text of the marked one. -/
def Marks (marked plain : List Char) : Prop :=
  ∀ rest, stripFrom false (marked ++ rest) = plain ++ stripFrom false rest

theorem stripFrom_of_ne {c : Char} (h : c ≠ '\x1b') (cs : List Char) :
    stripFrom false (c :: cs) = c :: stripFrom false cs := by
  rw [stripFrom]
  rintro rest rfl
  exact absurd rfl h

theorem marks_nil : Marks [] [] := fun _ => rfl

theorem Marks.append {marked plain more after : List Char} (h : Marks marked plain)
    (hmore : Marks more after) : Marks (marked ++ more) (plain ++ after) := by
  intro rest
  rw [List.append_assoc, h, hmore, List.append_assoc]

theorem marks_plain {cs : List Char} (h : '\x1b' ∉ cs) : Marks cs cs := by
  induction cs with
  | nil => exact marks_nil
  | cons c cs ih =>
    obtain ⟨hc, hcs⟩ := not_or.mp (mt List.mem_cons.mpr h)
    intro rest
    rw [List.cons_append, stripFrom_of_ne (Ne.symm hc), ih hcs, List.cons_append]

theorem stripFrom_inside {body : List Char} (hbody : body.any Char.isAlpha = false)
    (cs : List Char) : stripFrom true (body ++ cs) = stripFrom true cs := by
  induction body with
  | nil => rfl
  | cons c body ih =>
    rw [List.any_cons, Bool.or_eq_false_iff] at hbody
    rw [List.cons_append, stripFrom, hbody.1]
    exact ih hbody.2

/-- A sequence goes up to its first letter and leaves nothing. -/
theorem marks_sequence (body : List Char) (letter : Char) (hbody : body.any Char.isAlpha = false)
    (hletter : letter.isAlpha = true) : Marks ('\x1b' :: '[' :: (body ++ [letter])) [] := by
  intro rest
  have hopen : stripFrom false ('\x1b' :: '[' :: (body ++ [letter]) ++ rest) =
      stripFrom true (body ++ letter :: rest) := by
    simp [stripFrom]
  rw [hopen, stripFrom_inside hbody, stripFrom, hletter]
  rfl

theorem marks_matchStart : Marks matchStart.toList [] :=
  marks_sequence "1;31".toList 'm' (by decide) (by decide)

theorem marks_directoryStart : Marks directoryStart.toList [] :=
  marks_sequence "1;34".toList 'm' (by decide) (by decide)

theorem marks_reset : Marks reset.toList [] :=
  marks_sequence "0".toList 'm' (by decide) (by decide)

theorem Marks.strip_eq {marked plain : String} (h : Marks marked.toList plain.toList) :
    strip marked = plain := by
  have hall := h []
  simp only [List.append_nil, stripFrom] at hall
  rw [strip, hall, String.ofList_toList]

/-! ## Marked matches and names -/

/-- Wrapping matches adds sequences only: each match is wrapped as it stands in the text. -/
theorem marks_highlightChars (same : Char → Char → Bool) (n : Char) (needle : List Char)
    {cs : List Char} (h : '\x1b' ∉ cs) : Marks (highlightChars same n needle cs) cs := by
  induction cs using highlightChars.induct same n needle with
  | case1 => exact (highlightChars.eq_1 same n needle).symm ▸ marks_nil
  | case2 c cs hmatch ih =>
    have hcs : c :: cs = (c :: cs.take needle.length) ++ cs.drop needle.length := by
      rw [List.cons_append, List.take_append_drop]
    rw [hcs] at h
    obtain ⟨hfound, hlater⟩ := not_or.mp (mt List.mem_append.mpr h)
    have hwrapped := (marks_matchStart.append (marks_plain hfound)).append marks_reset
    rw [highlightChars, if_pos hmatch]
    simpa using hwrapped.append (ih hlater)
  | case3 c cs hmiss ih =>
    obtain ⟨hc, hcs⟩ := not_or.mp (mt List.mem_cons.mpr h)
    have hone : Marks [c] [c] := marks_plain (by simpa using hc)
    rw [highlightChars, if_neg hmiss]
    exact hone.append (ih hcs)

theorem marks_highlight {line : String} (h : Unescaped line) (needle : String) (ignoreCase : Bool) :
    Marks (highlight line needle ignoreCase).toList line.toList := by
  rw [highlight]
  split
  · exact marks_plain h
  · rw [String.toList_ofList]
    exact marks_highlightChars _ _ _ h

theorem marks_directory {name : String} (h : Unescaped name) :
    Marks (directory name).toList name.toList := by
  rw [directory, String.toList_append, String.toList_append]
  simpa using (marks_directoryStart.append (marks_plain h)).append marks_reset

/-- Marked texts joined by a plain one mark the plain texts joined by it. -/
theorem marks_joinWith {α : Type} {sep : String} (hsep : Unescaped sep) {marked plain : α → String}
    {items : List α} (h : ∀ item ∈ items, Marks (marked item).toList (plain item).toList) :
    Marks (Text.joinWith sep (items.map marked)).toList
      (Text.joinWith sep (items.map plain)).toList := by
  induction items with
  | nil => exact marks_nil
  | cons item items ih =>
    obtain ⟨hitem, hitems⟩ := List.forall_mem_cons.mp h
    by_cases hnone : items = []
    · subst hnone
      exact hitem
    · have hmarked : items.map marked ≠ [] := mt List.map_eq_nil_iff.mp hnone
      have hplain : items.map plain ≠ [] := mt List.map_eq_nil_iff.mp hnone
      rw [List.map_cons, List.map_cons, Text.joinWith_cons _ _ hmarked, Text.joinWith_cons _ _ hplain]
      simp only [String.toList_append]
      exact (hitem.append (marks_plain hsep)).append (ih hitems)

end DesktopTerminal.Markup

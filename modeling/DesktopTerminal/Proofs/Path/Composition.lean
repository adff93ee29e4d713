import DesktopTerminal.Proofs.Path.Normal

/-!
# Resolving in steps

A path text is gone through piece by piece, with the segments so far as all that is remembered. What
stands before a slash can therefore be resolved first and the rest of the text from there, unless the
rest starts anew: at the root with a slash, or at home with a `~`.
-/
namespace DesktopTerminal.Path

/-- The text goes on from where it stands: it starts neither at the root nor at home. -/
structure Onward (text : String) : Prop where
  relative : text.toList.head? ≠ some '/'
  literal : (Text.splitAt '/' text).head? ≠ some "~"

variable (base home : Path)

theorem resolve_onward {text : String} (h : Onward text) :
    resolve base text home = ⟨true, (Text.splitAt '/' text).foldl step base.segments⟩ := by
  obtain ⟨hrelative, hliteral⟩ := h
  simp [resolve, hrelative, hliteral]

theorem splitAt_append_slash (s t : String) :
    Text.splitAt '/' (s ++ "/" ++ t) = Text.splitAt '/' s ++ Text.splitAt '/' t :=
  Text.splitAt_append_separator '/' s t

/-- A slash in front starts at the root. -/
theorem resolve_root_append (t : String) :
    resolve base ("/" ++ t) home = ⟨true, (Text.splitAt '/' t).foldl step []⟩ := by
  have hhead : (("/" ++ t).toList.head? == some '/') = true := by simp
  have hpieces : Text.splitAt '/' ("/" ++ t) = "" :: Text.splitAt '/' t := splitAt_append_slash "" t
  have hfirst : step [] "" = [] := rfl
  rw [resolve, hhead, hpieces, List.foldl_cons, hfirst]
  rfl

/-- What stands before a slash is resolved first; the pieces after the slash are steps from there. -/
theorem resolve_slash_append {s : String} (hs : s ≠ "") (t : String) :
    resolve base (s ++ "/" ++ t) home =
      ⟨true, (Text.splitAt '/' t).foldl step (resolve base s home).segments⟩ := by
  obtain ⟨c, cs, hcs⟩ := List.exists_cons_of_ne_nil (mt String.toList_eq_nil_iff.mp hs)
  obtain ⟨first, rest, hpieces⟩ := List.exists_cons_of_ne_nil (Text.splitAt_ne_nil '/' s)
  -- in each of the three starts the steps before the slash are the same
  by_cases hroot : c = '/'
  · simp [resolve, splitAt_append_slash, hcs, hpieces, hroot]
  · by_cases htilde : first = "~"
    · simp [resolve, splitAt_append_slash, hcs, hpieces, hroot, htilde]
    · simp [resolve, splitAt_append_slash, hcs, hpieces, hroot, htilde]

/-- A slash at the end changes nothing, unless it is all there is. -/
theorem resolve_append_slash {s : String} (hs : s ≠ "") :
    resolve base (s ++ "/") home = resolve base s home := by
  have h := resolve_slash_append base home hs ""
  have hlast : Text.splitAt '/' "" = [""] := rfl
  have hstep : ∀ stack : List String, step stack "" = stack := fun _ => rfl
  rw [String.append_empty, hlast, List.foldl_cons, List.foldl_nil, hstep] at h
  rw [h]
  exact congrArg (Path.mk · _) (absolute_resolve base s home).symm

/-- What stands before a slash can be resolved first and the rest from there, if the rest goes on. -/
theorem resolve_append {s t : String} (hs : s ≠ "") (ht : Onward t) :
    resolve base (s ++ "/" ++ t) home = resolve (resolve base s home) t home := by
  rw [resolve_slash_append base home hs, resolve_onward _ _ ht]

/-! ## A name at the end -/

/-- Steps leave some of the segments so far and put pieces behind them. -/
theorem foldl_step_eq_take_append (stack pieces : List String) :
    ∃ k new, pieces.foldl step stack = stack.take k ++ new ∧
      ∀ name ∈ new, name ∈ pieces ∧ name ≠ "" ∧ name ≠ "." ∧ name ≠ ".." := by
  induction pieces generalizing stack with
  | nil => exact ⟨stack.length, [], by simp, by simp⟩
  | cons piece pieces ih =>
    have hlater : ∀ {new : List String},
        (∀ name ∈ new, name ∈ pieces ∧ name ≠ "" ∧ name ≠ "." ∧ name ≠ "..") →
        ∀ name ∈ new, name ∈ piece :: pieces ∧ name ≠ "" ∧ name ≠ "." ∧ name ≠ ".." := by
      intro new h name hname
      exact ⟨List.mem_cons_of_mem _ (h name hname).1, (h name hname).2⟩
    obtain ⟨k, new, hfold, hnew⟩ := ih (step stack piece)
    rw [List.foldl_cons, hfold]
    by_cases hplace : piece = "" ∨ piece = "."
    · exact ⟨k, new, by rw [step, if_pos hplace], hlater hnew⟩
    by_cases hup : piece = ".."
    · refine ⟨min k (stack.length - 1), new, ?_, hlater hnew⟩
      rw [step, if_neg hplace, if_pos hup, List.dropLast_eq_take, List.take_take]
    · obtain ⟨hempty, hdot⟩ := not_or.mp hplace
      refine ⟨k, [piece].take (k - stack.length) ++ new, ?_, fun name hname => ?_⟩
      · rw [step, if_neg hplace, if_neg hup, List.take_append, List.append_assoc]
      · rcases List.mem_append.mp hname with hname | hname
        · obtain rfl := List.mem_singleton.mp (List.mem_of_mem_take hname)
          exact ⟨List.mem_cons_self, hempty, hdot, hup⟩
        · exact hlater hnew name hname

/-- What steps add at the end is an ordinary name. -/
theorem ordinary_of_foldl_step {stack : List String} {text name : String}
    (h : (Text.splitAt '/' text).foldl step stack = stack ++ [name]) : Ordinary name := by
  obtain ⟨k, new, hfold, hnew⟩ := foldl_step_eq_take_append stack (Text.splitAt '/' text)
  rw [h] at hfold
  have hne : new ≠ [] := by
    rintro rfl
    have hlength := congrArg List.length hfold
    simp only [List.length_append, List.length_take, List.length_cons, List.length_nil] at hlength
    omega
  obtain ⟨front, last, rfl⟩ := (List.eq_nil_or_concat' new).resolve_left hne
  rw [← List.append_assoc] at hfold
  obtain ⟨-, hlast⟩ := List.append_inj' hfold rfl
  obtain rfl := (List.cons.inj hlast).1
  obtain ⟨hmem, hempty, hdots⟩ := hnew name (by simp)
  exact ⟨⟨hempty, Text.not_mem_of_mem_splitAt hmem⟩, hdots⟩

/-- An ordinary name is one more segment, with a slash behind it or without. -/
theorem foldl_step_name_iff {slash : String} (hslash : slash = "" ∨ slash = "/") (stack : List String)
    (name : String) :
    (Text.splitAt '/' (name ++ slash)).foldl step stack = stack ++ [name] ↔ Ordinary name := by
  refine ⟨ordinary_of_foldl_step, fun h => ?_⟩
  have hname : Text.splitAt '/' name = [name] := Text.splitAt_of_not_mem h.1.2
  rcases hslash with rfl | rfl
  · rw [String.append_empty, hname]
    exact step_ordinary stack h
  · have hpieces : Text.splitAt '/' (name ++ "/") = [name, ""] := by
      have hsplit := splitAt_append_slash name ""
      rw [String.append_empty, hname] at hsplit
      exact hsplit
    have hlast : ∀ stack : List String, step stack "" = stack := fun _ => rfl
    rw [hpieces, List.foldl_cons, List.foldl_cons, List.foldl_nil, hlast]
    exact step_ordinary stack h

/-- Behind a slash the pieces are steps from where the text up to the slash leads. -/
theorem resolve_append_of_slash (front text : String) :
    resolve base (front ++ "/" ++ text) home =
      ⟨true, (Text.splitAt '/' text).foldl step (resolve base (front ++ "/") home).segments⟩ := by
  by_cases hfront : front = ""
  · subst hfront
    rw [String.empty_append]
    exact resolve_root_append base home text
  · rw [resolve_slash_append base home hfront, resolve_append_slash base home hfront]

section

variable {slash name : String} (hslash : slash = "" ∨ slash = "/")
include hslash

theorem head?_splitAt_name (h : '/' ∉ name.toList) :
    (Text.splitAt '/' (name ++ slash)).head? = some name := by
  have hname : Text.splitAt '/' name = [name] := Text.splitAt_of_not_mem h
  rcases hslash with rfl | rfl
  · rw [String.append_empty, hname]
    rfl
  · have hsplit := splitAt_append_slash name ""
    rw [String.append_empty] at hsplit
    rw [hsplit, hname]
    rfl

/-- At the start of a text a name is one more segment as well, but a `~` is where home is. -/
theorem resolve_name (h : Ordinary name) :
    (resolve base (name ++ slash) home).segments =
      if name = "~" then home.segments else base.segments ++ [name] := by
  split
  next htilde =>
    subst htilde
    rcases hslash with rfl | rfl <;> rfl
  next htilde =>
    have honward : Onward (name ++ slash) := by
      constructor
      · obtain ⟨c, cs, hcs⟩ := List.exists_cons_of_ne_nil (mt String.toList_eq_nil_iff.mp h.1.1)
        rw [String.toList_append, hcs]
        exact fun hc => h.1.2 (hcs ▸ Option.some.inj hc ▸ List.mem_cons_self)
      · rw [head?_splitAt_name hslash h.1.2]
        exact fun heq => htilde (Option.some.inj heq)
    rw [resolve_onward _ _ honward]
    exact (foldl_step_name_iff hslash base.segments name).mpr h

/-- What is resolved to one more segment is an ordinary name, if there are none but names in the path
of the home directory. -/
theorem ordinary_of_resolve_name (hhome : home.Legible)
    (h : (resolve base (name ++ slash) home).segments = base.segments ++ [name]) :
    Ordinary name := by
  have hlast : name ∈ (resolve base (name ++ slash) home).segments := h ▸ by simp
  rw [resolve] at h hlast
  split at h
  next hroot =>
    rw [if_pos hroot] at hlast
    obtain ⟨hmem, hempty, hdots⟩ := (mem_foldl_step hlast).resolve_left List.not_mem_nil
    exact ⟨⟨hempty, Text.not_mem_of_mem_splitAt hmem⟩, hdots⟩
  next hroot =>
    rw [if_neg hroot] at hlast
    split at h
    next htilde =>
      rw [if_pos htilde] at hlast
      rcases mem_foldl_step hlast with hmem | ⟨hmem, hempty, hdots⟩
      · rw [head?_splitAt_name hslash (hhome name hmem).2] at htilde
        obtain rfl : name = "~" := by simpa using htilde
        decide
      · exact ⟨⟨hempty, Text.not_mem_of_mem_splitAt (List.mem_of_mem_tail hmem)⟩, hdots⟩
    next => exact ordinary_of_foldl_step h

end

end DesktopTerminal.Path

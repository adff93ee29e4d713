import DesktopTerminal.Path
import DesktopTerminal.Proofs.Text

/-!
# Legible paths

A name is legible if it can be one segment of a written path. Parsing gives legible segments only.
Resolving gives legible segments if the base and the home directory have no others; it takes both as
they are, and adds none but ordinary names.
-/
namespace DesktopTerminal

/-- The name can be a segment of a written path. -/
def Legible (name : String) : Prop := name ≠ "" ∧ '/' ∉ name.toList

instance (name : String) : Decidable (Legible name) :=
  inferInstanceAs (Decidable (_ ∧ _))

/-- The name is legible, and a path does not take it for a step. -/
def Ordinary (name : String) : Prop := Legible name ∧ name ≠ "." ∧ name ≠ ".."

instance (name : String) : Decidable (Ordinary name) :=
  inferInstanceAs (Decidable (_ ∧ _))

namespace Path

/-- Every segment is legible. -/
def Legible (p : Path) : Prop := ∀ name ∈ p.segments, DesktopTerminal.Legible name

/-- The paths that come from texts, when the home directory is `home`. -/
inductive Produced (home : Path) : Path → Prop
  | home : Produced home home
  | parse (text : String) : Produced home (parse text)
  | resolve {base : Path} (text : String) :
    Produced home base → Produced home (resolve base text home)

theorem fileName?_eq_getLast? (p : Path) : p.fileName? = p.segments.getLast? := by
  rw [fileName?, split?, Option.map_map]
  exact congrFun Option.map_id _

theorem fileName?_join (p : Path) (name : String) : (p.join name).fileName? = some name := by
  rw [fileName?_eq_getLast?]
  exact List.getLast?_concat

theorem legible_parse (text : String) : (parse text).Legible := by
  intro name hname
  obtain ⟨hmem, hne⟩ := List.mem_filter.mp hname
  exact ⟨by simpa using hne, Text.not_mem_of_mem_splitAt hmem⟩

/-- A segment is one of the segments so far or a piece that is neither empty nor a step. -/
theorem mem_step {stack : List String} {piece name : String} (h : name ∈ step stack piece) :
    name ∈ stack ∨ name = piece ∧ name ≠ "" ∧ name ≠ "." ∧ name ≠ ".." := by
  rw [step] at h
  split at h
  · exact .inl h
  · rename_i hplace
    split at h
    · exact .inl (List.dropLast_subset stack h)
    · rename_i hup
      rcases List.mem_append.mp h with h | h
      · exact .inl h
      · obtain rfl := List.mem_singleton.mp h
        exact .inr ⟨rfl, fun he => hplace (.inl he), fun he => hplace (.inr he), hup⟩

theorem mem_foldl_step {stack pieces : List String} {name : String}
    (h : name ∈ pieces.foldl step stack) :
    name ∈ stack ∨ name ∈ pieces ∧ name ≠ "" ∧ name ≠ "." ∧ name ≠ ".." := by
  induction pieces generalizing stack with
  | nil => exact .inl h
  | cons piece pieces ih =>
    rcases ih h with h | ⟨h, hne⟩
    · rcases mem_step h with h | ⟨rfl, hne⟩
      · exact .inl h
      · exact .inr ⟨List.mem_cons_self, hne⟩
    · exact .inr ⟨List.mem_cons_of_mem _ h, hne⟩

/-- A segment of a resolved path is one of the base or of the home directory, or it is ordinary. -/
theorem mem_resolve {base home : Path} {text name : String}
    (h : name ∈ (resolve base text home).segments) :
    name ∈ base.segments ∨ name ∈ home.segments ∨ Ordinary name := by
  have hordinary : ∀ {pieces : List String}, pieces ⊆ Text.splitAt '/' text →
      name ∈ pieces ∧ name ≠ "" ∧ name ≠ "." ∧ name ≠ ".." → Ordinary name := by
    rintro pieces hsub ⟨hmem, hne, hdots⟩
    exact ⟨⟨hne, Text.not_mem_of_mem_splitAt (hsub hmem)⟩, hdots⟩
  rw [resolve] at h
  split at h
  · rcases mem_foldl_step h with h | h
    · exact absurd h List.not_mem_nil
    · exact .inr (.inr (hordinary (List.Subset.refl _) h))
  · split at h
    · rcases mem_foldl_step h with h | h
      · exact .inr (.inl h)
      · exact .inr (.inr (hordinary (fun _ => List.mem_of_mem_tail) h))
    · rcases mem_foldl_step h with h | h
      · exact .inl h
      · exact .inr (.inr (hordinary (List.Subset.refl _) h))

theorem legible_resolve {base home : Path} (text : String) (hbase : base.Legible)
    (hhome : home.Legible) : (resolve base text home).Legible := by
  intro name hname
  rcases mem_resolve hname with hname | hname | hname
  · exact hbase name hname
  · exact hhome name hname
  · exact hname.1

theorem Produced.legible {home p : Path} (hhome : home.Legible) (h : Produced home p) :
    p.Legible := by
  induction h with
  | home => exact hhome
  | parse text => exact legible_parse text
  | resolve text _ ih => exact legible_resolve text ih hhome

/-- The home directory under its own name. -/
theorem resolve_tilde (base home : Path) : resolve base "~" home = ⟨true, home.segments⟩ := by
  rfl

/-- Each `..` goes up from the home directory by one. -/
theorem resolve_parent (base home : Path) :
    resolve base ".." home = ⟨true, base.segments.dropLast⟩ := by
  rfl

/-- Whatever is above the home directory comes from a text, however its segments read. -/
theorem produced_above {home : Path} {p : List String} (hp : p <+: home.segments) :
    Produced home ⟨true, p⟩ := by
  obtain ⟨rest, hrest⟩ := hp
  have h : Produced home ⟨true, p ++ rest⟩ := by
    rw [hrest, ← resolve_tilde home home]
    exact .resolve "~" .home
  clear hrest
  induction rest generalizing p with
  | nil => rwa [List.append_nil] at h
  | cons name rest ih =>
    have hsnoc : Produced home ⟨true, p ++ [name]⟩ := ih (by rwa [List.append_assoc])
    have hup := Produced.resolve ".." hsnoc
    rwa [resolve_parent, List.dropLast_concat] at hup

/-- The first segment that is not legible. -/
theorem exists_first_illegible {segments : List String}
    (h : ¬ ∀ name ∈ segments, DesktopTerminal.Legible name) :
    ∃ front name, front ++ [name] <+: segments ∧
      (∀ other ∈ front, DesktopTerminal.Legible other) ∧ ¬ DesktopTerminal.Legible name := by
  induction segments with
  | nil => exact absurd (fun _ hname => absurd hname List.not_mem_nil) h
  | cons first rest ih =>
    by_cases hfirst : DesktopTerminal.Legible first
    · have hrest : ¬ ∀ name ∈ rest, DesktopTerminal.Legible name := by
        intro hrest
        exact h (List.forall_mem_cons.mpr ⟨hfirst, hrest⟩)
      obtain ⟨front, name, hprefix, hfront, hname⟩ := ih hrest
      exact ⟨first :: front, name, List.cons_prefix_cons.mpr ⟨rfl, hprefix⟩,
        List.forall_mem_cons.mpr ⟨hfirst, hfront⟩, hname⟩
    · exact ⟨[], first, List.cons_prefix_cons.mpr ⟨rfl, List.nil_prefix⟩,
        fun _ hother => absurd hother List.not_mem_nil, hfirst⟩

end Path

end DesktopTerminal

import DesktopTerminal.Proofs.Path

/-!
# Normal paths

A path is normal if it is absolute and all its segments are ordinary. Resolving keeps paths normal, and
a normal path can be written so that it is resolved to itself: in full, or behind the `~` of a home
directory that it is in.
-/
namespace DesktopTerminal.Path

structure Normal (p : Path) : Prop where
  absolute : p.absolute = true
  segments : ∀ name ∈ p.segments, Ordinary name

/-- The text names the path in every directory. -/
def Denotes (home : Path) (text : String) (p : Path) : Prop := ∀ base, resolve base text home = p

theorem absolute_resolve (base : Path) (text : String) (home : Path) :
    (resolve base text home).absolute = true := by
  rw [resolve]
  split
  · rfl
  · split <;> rfl

theorem normal_resolve {base home : Path} (text : String) (hbase : base.Normal)
    (hhome : home.Normal) : (resolve base text home).Normal where
  absolute := absolute_resolve base text home
  segments := by
    intro name hname
    rcases mem_resolve hname with hname | hname | hname
    · exact hbase.segments name hname
    · exact hhome.segments name hname
    · exact hname

/-! ## Segments that are written out -/

theorem step_ordinary (stack : List String) {name : String} (h : Ordinary name) :
    step stack name = stack ++ [name] := by
  obtain ⟨⟨hne, -⟩, hdot, hup⟩ := h
  simp [step, hne, hdot, hup]

theorem foldl_step_ordinary {names : List String} (h : ∀ name ∈ names, Ordinary name)
    (stack : List String) : names.foldl step stack = stack ++ names := by
  induction names generalizing stack with
  | nil => simp
  | cons name names ih =>
    obtain ⟨hname, hnames⟩ := List.forall_mem_cons.mp h
    rw [List.foldl_cons, step_ordinary stack hname, ih hnames, List.append_assoc, List.singleton_append]

/-- Ordinary names with slashes between them are gone through one by one. -/
theorem foldl_step_joinWith {names : List String} (h : ∀ name ∈ names, Ordinary name)
    (stack : List String) :
    (Text.splitAt '/' (Text.joinWith "/" names)).foldl step stack = stack ++ names := by
  cases names with
  | nil => exact (List.append_nil stack).symm
  | cons name names =>
    have hpieces : Text.splitAt '/' (Text.joinWith "/" (name :: names)) = name :: names :=
      Text.splitAt_joinWith (List.cons_ne_nil _ _) fun name hname => (h name hname).1.2
    rw [hpieces, foldl_step_ordinary h]

theorem Normal.eq_mk {p : Path} (h : p.Normal) : p = ⟨true, p.segments⟩ := by
  rw [← h.absolute]

/-- A normal path is what its full text names. -/
theorem denotes_render (home : Path) {p : Path} (h : p.Normal) : Denotes home p.render p := by
  intro base
  have hrender : p.render = "" ++ String.singleton '/' ++ Text.joinWith "/" p.segments := by
    rw [render, h.absolute]
    rfl
  have hhead : (p.render.toList.head? == some '/') = true := by
    rw [hrender]
    simp
  have hpieces : Text.splitAt '/' p.render = "" :: Text.splitAt '/' (Text.joinWith "/" p.segments) := by
    rw [hrender]
    exact Text.splitAt_append List.not_mem_nil _
  -- the empty piece in front of the first slash is no step
  have hfirst : step [] "" = [] := rfl
  rw [resolve, hhead, hpieces, List.foldl_cons, hfirst, foldl_step_joinWith h.segments]
  exact h.eq_mk.symm

/-- So it is of what stands behind the `~` of the home directory. -/
theorem denotes_tilde (home : Path) {names : List String} (h : ∀ name ∈ names, Ordinary name) :
    Denotes home ("~/" ++ Text.joinWith "/" names) ⟨true, home.segments ++ names⟩ := by
  intro base
  have hpieces : Text.splitAt '/' ("~/" ++ Text.joinWith "/" names) =
      "~" :: Text.splitAt '/' (Text.joinWith "/" names) :=
    @Text.splitAt_append '/' "~" (by decide) (Text.joinWith "/" names)
  have hhead : (("~/" ++ Text.joinWith "/" names).toList.head? == some '/') = false := by
    simp
  rw [resolve, hhead, hpieces]
  exact congrArg (Path.mk true) (foldl_step_joinWith h home.segments)

end DesktopTerminal.Path

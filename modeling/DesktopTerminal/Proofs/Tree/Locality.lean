import DesktopTerminal.Proofs.Tree.PathMap

/-!
# Locality

An operation looks at its paths, above them and under them, and changes what is at them and under
them, besides the order of names right above. Two maps that look the same from its paths are told the
same by it and go on looking the same from there; and from paths that are neither above nor under its
own nothing is to be seen of it.
-/
namespace DesktopTerminal.PathMap

/-- Neither path is the other or leads to it. -/
def Apart (p q : List String) : Prop := ¬ p <+: q ∧ ¬ q <+: p

theorem Apart.symm {p q : List String} (h : Apart p q) : Apart q p := ⟨h.2, h.1⟩

/-- Nothing is under two paths that are apart. -/
theorem Apart.not_under {p q x : List String} (h : Apart p q) (hp : p <+: x) : ¬ q <+: x := by
  intro hq
  rcases List.prefix_or_prefix_of_prefix hp hq with hpq | hqp
  · exact h.1 hpq
  · exact h.2 hqp

/-- The path is one of these or under one. -/
def Under (P : Set (List String)) (x : List String) : Prop := ∃ p ∈ P, p <+: x

/-- The path is one of these, under one or above one. -/
def Near (P : Set (List String)) (x : List String) : Prop := ∃ p ∈ P, x <+: p ∨ p <+: x

theorem Under.near {P : Set (List String)} {x : List String} (h : Under P x) : Near P x := by
  obtain ⟨p, hp, hpx⟩ := h
  exact ⟨p, hp, .inr hpx⟩

/-- The maps look the same from the paths: the same stands at them, under them and above them, and
under them names come in the same order. -/
structure Alike (P : Set (List String)) (m m' : PathMap) : Prop where
  entry : ∀ x, Near P x → m.entry x = m'.entry x
  order : ∀ x, Under P x → m.order x = m'.order x

variable {P Q : Set (List String)} {m m' n n' : PathMap} {p : List String}

namespace Alike

theorem refl (P : Set (List String)) (m : PathMap) : Alike P m m := ⟨fun _ _ => rfl, fun _ _ => rfl⟩

theorem symm (h : Alike P m m') : Alike P m' m :=
  ⟨fun x hx => (h.entry x hx).symm, fun x hx => (h.order x hx).symm⟩

theorem trans (h : Alike P m n) (h' : Alike P n m') : Alike P m m' :=
  ⟨fun x hx => (h.entry x hx).trans (h'.entry x hx), fun x hx => (h.order x hx).trans (h'.order x hx)⟩

/-! What can be seen from a path. -/

theorem entry_eq (h : Alike P m m') (hp : p ∈ P) : m.entry p = m'.entry p :=
  h.entry p ⟨p, hp, .inl List.prefix_rfl⟩

theorem place_eq (h : Alike P m m') (hp : p ∈ P) : m.place p = m'.place p := by
  have hparent : m.entry p.dropLast = m'.entry p.dropLast :=
    h.entry _ ⟨p, hp, .inl (List.dropLast_prefix p)⟩
  unfold place
  rw [hparent]

theorem below_eq (h : Alike P m m') (hp : p ∈ P) : m.below p = m'.below p := by
  ext1
  · funext q
    exact h.entry _ ⟨p, hp, .inr (List.prefix_append p q)⟩
  · funext q
    exact h.order _ ⟨p, hp, List.prefix_append p q⟩

/-! The same change of both maps. -/

theorem set (h : Alike P m m') (k : List String) (item : Item) :
    Alike P (m.set k item) (m'.set k item) := by
  refine ⟨fun x hx => ?_, h.order⟩
  unfold PathMap.set
  by_cases hk : x = k
  · simp only [hk, Function.update_self]
  · simp only [Function.update_of_ne hk, h.entry x hx]

theorem graft (h : Alike P m m') (k : List String) (sub : PathMap) :
    Alike P (m.graft k sub) (m'.graft k sub) := by
  constructor
  · intro x hx
    unfold PathMap.graft
    by_cases hk : k <+: x
    · simp only [if_pos hk]
    · simp only [if_neg hk, h.entry x hx]
  · intro x hx
    unfold PathMap.graft
    by_cases hk : k <+: x
    · simp only [if_pos hk]
    · simp only [if_neg hk, h.order x hx]

theorem enlist (h : Alike P m m') (k : List String) (name : String) :
    Alike P (m.enlist k name) (m'.enlist k name) := by
  refine ⟨h.entry, fun x hx => ?_⟩
  unfold PathMap.enlist
  by_cases hk : x = k
  · subst hk
    simp only [Function.update_self, h.order x hx]
  · simp only [Function.update_of_ne hk, h.order x hx]

theorem delist (h : Alike P m m') (k : List String) (name : String) :
    Alike P (m.delist k name) (m'.delist k name) := by
  refine ⟨h.entry, fun x hx => ?_⟩
  unfold PathMap.delist
  by_cases hk : x = k
  · subst hk
    simp only [Function.update_self, h.order x hx]
  · simp only [Function.update_of_ne hk, h.order x hx]

end Alike

/-- The same fault, or maps that look the same from the paths. -/
inductive AlikeResults (P : Set (List String)) : Except Fault PathMap → Except Fault PathMap → Prop
  | error (fault : Fault) : AlikeResults P (.error fault) (.error fault)
  | ok {n n' : PathMap} (h : Alike P n n') : AlikeResults P (.ok n) (.ok n')

/-! ## What an operation sees -/

section Seen

variable {owner : Identity} {now : Instant} {q : List String} (h : Alike P m m') (hp : p ∈ P)
include h hp

theorem alike_writeWith (f : String → String) (content : String) :
    AlikeResults P (m.writeWith f p content owner now) (m'.writeWith f p content owner now) := by
  unfold writeWith
  rw [h.place_eq hp, h.entry_eq hp]
  cases m'.place p with
  | error fault => exact .error fault
  | ok spot =>
    cases m'.entry p with
    | none => exact .ok ((h.set p _).enlist spot.1 spot.2)
    | some item =>
      cases item with
      | file info old => exact .ok (h.set p _)
      | directory info => exact .error _

theorem alike_makeDirectory :
    AlikeResults P (m.makeDirectory p owner now) (m'.makeDirectory p owner now) := by
  unfold makeDirectory
  rw [h.place_eq hp, h.entry_eq hp]
  split
  · exact .error _
  · cases m'.place p with
    | error fault => exact .error fault
    | ok spot =>
      cases m'.entry p with
      | none => exact .ok ((h.set p _).enlist spot.1 spot.2)
      | some item => exact .error _

theorem alike_delete : AlikeResults P (m.delete p) (m'.delete p) := by
  unfold delete
  rw [h.place_eq hp, h.entry_eq hp]
  split
  · exact .error _
  · cases m'.place p with
    | error fault => exact .error fault
    | ok spot =>
      cases m'.entry p with
      | none => exact .error _
      | some item => exact .ok ((h.graft p empty).delist spot.1 spot.2)

theorem alike_changeMode (text : String) :
    AlikeResults P (m.changeMode p text) (m'.changeMode p text) := by
  unfold changeMode
  rw [h.entry_eq hp]
  cases m'.entry p with
  | none => exact .error _
  | some item =>
    cases ModeChange.parse? text with
    | none => exact .error _
    | some change => exact .ok (h.set p _)

theorem alike_copy (hq : q ∈ P) : AlikeResults P (m.copy p q now) (m'.copy p q now) := by
  unfold copy
  rw [h.entry_eq hp, h.place_eq hq, h.below_eq hp]
  split
  · exact .error _
  · cases m'.entry p with
    | none => exact .error _
    | some item =>
      cases m'.place q with
      | error fault => exact .error fault
      | ok spot => exact .ok ((h.graft q _).enlist spot.1 spot.2)

theorem alike_move (hq : q ∈ P) : AlikeResults P (m.move p q) (m'.move p q) := by
  unfold move
  rw [h.entry_eq hp, h.place_eq hp, h.place_eq hq, h.below_eq hp]
  split
  · exact .error _
  · cases m'.entry p with
    | none => exact .error _
    | some item =>
      cases m'.place q with
      | error fault => exact .error fault
      | ok there =>
        cases m'.place p with
        | error fault => exact .error fault
        | ok here =>
          exact .ok ((((h.graft p empty).delist here.1 here.2).graft q _).enlist there.1 there.2)

end Seen

/-- An operation at the paths does the same to maps that look the same from there. -/
theorem alike_perform {op : Store.Operation} (hop : ∀ p ∈ op.paths, p.segments ∈ P)
    (owner : Identity) (now : Instant) (h : Alike P m m') :
    AlikeResults P (m.perform op owner now) (m'.perform op owner now) := by
  have hfirst : ∀ {p : Path} {ps : List Path}, op.paths = p :: ps → p.segments ∈ P :=
    fun hpaths => hop _ (hpaths ▸ List.mem_cons_self)
  cases op with
  | write p content => exact alike_writeWith h (hfirst rfl) _ content
  | append p content => exact alike_writeWith h (hfirst rfl) _ content
  | makeDirectory p => exact alike_makeDirectory h (hfirst rfl)
  | delete p => exact alike_delete h (hfirst rfl)
  | copy source target =>
    exact alike_copy h (hfirst rfl) (hop target (List.mem_cons_of_mem _ List.mem_cons_self))
  | move source target =>
    exact alike_move h (hfirst rfl) (hop target (List.mem_cons_of_mem _ List.mem_cons_self))
  | changeMode p text => exact alike_changeMode h (hfirst rfl) text

/-! ## What an operation changes -/

/-- The second map comes from the first by changes at the paths, with names put into the directories
right above them and taken out of these. -/
inductive ChangedAt (P : Set (List String)) (m : PathMap) : PathMap → Prop
  | same : ChangedAt P m m
  | set {n : PathMap} {k : List String} (item : Item) : ChangedAt P m n → k ∈ P →
    ChangedAt P m (n.set k item)
  | graft {n : PathMap} {k : List String} (sub : PathMap) : ChangedAt P m n → k ∈ P →
    ChangedAt P m (n.graft k sub)
  | enlist {n : PathMap} {k : List String} (name : String) : ChangedAt P m n → k ∈ P →
    ChangedAt P m (n.enlist k.dropLast name)
  | delist {n : PathMap} {k : List String} (name : String) : ChangedAt P m n → k ∈ P →
    ChangedAt P m (n.delist k.dropLast name)

namespace ChangedAt

/-- At a path that is not under one of these the same stands as before. -/
theorem entry_eq (h : ChangedAt P m n) {x : List String} (hx : ¬ Under P x) :
    n.entry x = m.entry x := by
  induction h with
  | same => rfl
  | @set n k item _ hk ih =>
    have hne : x ≠ k := fun heq => hx ⟨k, hk, heq ▸ List.prefix_rfl⟩
    exact (entry_set_of_ne item hne).trans ih
  | @graft n k sub _ hk ih => exact (entry_graft_of_not_under sub fun hkx => hx ⟨k, hk, hkx⟩).trans ih
  | enlist _ _ _ ih => exact ih
  | delist _ _ _ ih => exact ih

/-- In a directory that is not under one of the paths nor right above one names come as before. -/
theorem order_eq (h : ChangedAt P m n) {x : List String} (hx : ¬ Under P x)
    (habove : ∀ p ∈ P, x ≠ p.dropLast) : n.order x = m.order x := by
  induction h with
  | same => rfl
  | set _ _ _ ih => exact ih
  | @graft n k sub _ hk ih =>
    have hkx : ¬ k <+: x := fun hkx => hx ⟨k, hk, hkx⟩
    exact (if_neg hkx).trans ih
  | @enlist n k name _ hk ih => exact (Function.update_of_ne (habove k hk) _ _).trans ih
  | @delist n k name _ hk ih => exact (Function.update_of_ne (habove k hk) _ _).trans ih

/-- From other paths nothing is to be seen of the changes. -/
theorem alike (h : ChangedAt P m n) (hPQ : ∀ p ∈ P, ∀ q ∈ Q, Apart p q) : Alike Q n m := by
  constructor
  · rintro x ⟨q, hq, hxq⟩
    refine h.entry_eq ?_
    rintro ⟨p, hp, hpx⟩
    rcases hxq with hxq | hqx
    · exact (hPQ p hp q hq).1 (hpx.trans hxq)
    · exact (hPQ p hp q hq).not_under hpx hqx
  · rintro x ⟨q, hq, hqx⟩
    refine h.order_eq ?_ ?_
    · rintro ⟨p, hp, hpx⟩
      exact (hPQ p hp q hq).not_under hpx hqx
    · rintro p hp rfl
      exact (hPQ p hp q hq).2 (hqx.trans (List.dropLast_prefix p))

end ChangedAt

theorem place_fst {spot : List String × String} (h : m.place p = .ok spot) : spot.1 = p.dropLast := by
  unfold place at h
  split at h
  · cases h
  · split at h
    · cases h
    · cases h
    · obtain rfl := Except.ok.inj h
      rfl

section Changed

variable {owner : Identity} {now : Instant} {q : List String}

theorem changedAt_copy (hq : q ∈ P) (h : m.copy p q now = .ok n) : ChangedAt P m n := by
  unfold copy at h
  split at h
  · cases h
  · cases he : m.entry p with
    | none =>
      rw [he] at h
      cases h
    | some item =>
      rw [he] at h
      obtain ⟨spot, hspot, h⟩ := exists_ok_of_bind_eq_ok h
      have hparent := place_fst hspot
      obtain rfl := Except.ok.inj h
      rw [hparent]
      exact .enlist _ (.graft _ .same hq) hq

variable (hp : p ∈ P)
include hp

theorem changedAt_writeWith {f : String → String} {content : String}
    (h : m.writeWith f p content owner now = .ok n) : ChangedAt P m n := by
  obtain ⟨spot, hspot, h⟩ := exists_ok_of_bind_eq_ok h
  have hparent := place_fst hspot
  cases he : m.entry p with
  | none =>
    rw [he] at h
    obtain rfl := Except.ok.inj h
    rw [hparent]
    exact .enlist _ (.set _ .same hp) hp
  | some item =>
    rw [he] at h
    cases item with
    | file info old =>
      obtain rfl := Except.ok.inj h
      exact .set _ .same hp
    | directory info => cases h

theorem changedAt_makeDirectory (h : m.makeDirectory p owner now = .ok n) : ChangedAt P m n := by
  unfold makeDirectory at h
  split at h
  · cases h
  · obtain ⟨spot, hspot, h⟩ := exists_ok_of_bind_eq_ok h
    have hparent := place_fst hspot
    cases he : m.entry p with
    | none =>
      rw [he] at h
      obtain rfl := Except.ok.inj h
      rw [hparent]
      exact .enlist _ (.set _ .same hp) hp
    | some item =>
      rw [he] at h
      cases h

theorem changedAt_delete (h : m.delete p = .ok n) : ChangedAt P m n := by
  unfold delete at h
  split at h
  · cases h
  · obtain ⟨spot, hspot, h⟩ := exists_ok_of_bind_eq_ok h
    have hparent := place_fst hspot
    cases he : m.entry p with
    | none =>
      rw [he] at h
      cases h
    | some item =>
      rw [he] at h
      obtain rfl := Except.ok.inj h
      rw [hparent]
      exact .delist _ (.graft _ .same hp) hp

theorem changedAt_changeMode {text : String} (h : m.changeMode p text = .ok n) :
    ChangedAt P m n := by
  unfold changeMode at h
  split at h
  · cases h
  · split at h
    · cases h
    · obtain rfl := Except.ok.inj h
      exact .set _ .same hp

theorem changedAt_move (hq : q ∈ P) (h : m.move p q = .ok n) : ChangedAt P m n := by
  unfold move at h
  split at h
  · cases h
  · cases he : m.entry p with
    | none =>
      rw [he] at h
      cases h
    | some item =>
      rw [he] at h
      obtain ⟨there, hthere, h⟩ := exists_ok_of_bind_eq_ok h
      obtain ⟨here, hhere, h⟩ := exists_ok_of_bind_eq_ok h
      have hparent := place_fst hthere
      have hsource := place_fst hhere
      obtain rfl := Except.ok.inj h
      rw [hparent, hsource]
      exact .enlist _ (.graft _ (.delist _ (.graft _ .same hp) hp) hq) hq

end Changed

/-- An operation makes changes at its paths. -/
theorem changedAt_perform {op : Store.Operation} (hop : ∀ p ∈ op.paths, p.segments ∈ P)
    {owner : Identity} {now : Instant} (h : m.perform op owner now = .ok n) : ChangedAt P m n := by
  have hfirst : ∀ {p : Path} {ps : List Path}, op.paths = p :: ps → p.segments ∈ P :=
    fun hpaths => hop _ (hpaths ▸ List.mem_cons_self)
  cases op with
  | write p content => exact changedAt_writeWith (hfirst rfl) h
  | append p content => exact changedAt_writeWith (hfirst rfl) h
  | makeDirectory p => exact changedAt_makeDirectory (hfirst rfl) h
  | delete p => exact changedAt_delete (hfirst rfl) h
  | copy source target =>
    exact changedAt_copy (hop target (List.mem_cons_of_mem _ List.mem_cons_self)) h
  | move source target =>
    exact changedAt_move (hfirst rfl) (hop target (List.mem_cons_of_mem _ List.mem_cons_self)) h
  | changeMode p text => exact changedAt_changeMode (hfirst rfl) h

end DesktopTerminal.PathMap

import DesktopTerminal.Proofs.Tree.Locality
import DesktopTerminal.Proofs.Tree.Refinement
import DesktopTerminal.Proofs.Tree.SiblingOrder
import DesktopTerminal.Desktop

/-!
# Interleaved calls

Two clients share a store and take turns in any order. As long as the paths of the one are apart from
the paths of the other, each is told what it would be told alone, and asks for the same next. What
the order of turns can change is the order of siblings where both put names into one directory.
-/
namespace DesktopTerminal.Store

open PathMap (Alike Apart Under ChangedAt AlikeResults)

/-! ## Clients -/

/-- A program that calls on a store and goes on with the answer. Whatever can be read at a path is
read off the node there. -/
inductive Client where
  | done
  | change (op : Operation) (next : Except Fault Unit → Client)
  | look (p : Path) (next : Option Node → Client)

/-- A call with its answer. -/
inductive Exchange where
  | changed (op : Operation) (result : Except Fault Unit)
  | seen (p : Path) (found : Option Node)

/-- The paths of a call. -/
def Exchange.paths : Exchange → List Path
  | .changed op _ => op.paths
  | .seen p _ => [p]

/-- The next call of a client, with what becomes of the client and of the store. -/
inductive Client.Step (now : Instant) : Client → Store → Exchange → Client → Store → Prop
  | change (op : Operation) (next : Except Fault Unit → Client) (s : Store) :
    Step now (.change op next) s (.changed op (s.apply op now).1) (next (s.apply op now).1)
      (s.apply op now).2
  | look (p : Path) (next : Option Node → Client) (s : Store) :
    Step now (.look p next) s (.seen p (s.root.descend? p.segments))
      (next (s.root.descend? p.segments)) s

/-- A client that has the store for itself, to its end. -/
inductive Alone (now : Instant) : Client → Store → List Exchange → Store → Prop
  | done (s : Store) : Alone now .done s [] s
  | step {a a' : Client} {s s' t : Store} {e : Exchange} {es : List Exchange} :
    a.Step now s e a' s' → Alone now a' s' es t → Alone now a s (e :: es) t

/-- Two clients that take turns in some order, to the end of both. -/
inductive Interleaved (now : Instant) :
    Client → Client → Store → List Exchange → List Exchange → Store → Prop
  | done (s : Store) : Interleaved now .done .done s [] [] s
  | first {a a' b : Client} {s s' t : Store} {e : Exchange} {es fs : List Exchange} :
    a.Step now s e a' s' → Interleaved now a' b s' es fs t →
      Interleaved now a b s (e :: es) fs t
  | second {a b b' : Client} {s s' t : Store} {f : Exchange} {es fs : List Exchange} :
    b.Step now s f b' s' → Interleaved now a b' s' es fs t →
      Interleaved now a b s es (f :: fs) t

/-! ## Stores that look the same -/

/-- The stores look the same from the paths. -/
structure Matches (P : Set (List String)) (s s' : Store) : Prop where
  identity : s.identity = s'.identity
  name : s.root.name = s'.root.name
  wellFormed : s.root.WellFormed
  wellFormed' : s'.root.WellFormed
  alike : Alike P s.root.paths s'.root.paths

/-- The paths of a call are absolute and among these. -/
def Exchange.Within (P : Set (List String)) (e : Exchange) : Prop :=
  ∀ p ∈ e.paths, p.absolute = true ∧ p.segments ∈ P

variable {P Q : Set (List String)} {now : Instant} {s s' s₁ s₂ t : Store}

theorem Matches.symm (h : Matches P s s') : Matches P s' s :=
  ⟨h.identity.symm, h.name.symm, h.wellFormed', h.wellFormed, h.alike.symm⟩

theorem Matches.refl (P : Set (List String)) (hw : s.root.WellFormed) : Matches P s s :=
  ⟨rfl, rfl, hw, hw, .refl P _⟩

/-- The same node stands at a path from which the trees look the same. -/
theorem Matches.descend?_eq (h : Matches P s s') {p : List String} (hp : p ∈ P) :
    s.root.descend? p = s'.root.descend? p := by
  have hentry := h.alike.entry_eq hp
  have hbelow := h.alike.below_eq hp
  simp only [Node.entry_paths] at hentry
  cases hn : s.root.descend? p with
  | none =>
    rw [hn] at hentry
    exact (Option.map_eq_none_iff.mp hentry.symm).symm
  | some n =>
    rw [hn] at hentry
    obtain ⟨n', hn', _⟩ := Option.map_eq_some_iff.mp hentry.symm
    rw [Node.paths_below hn, Node.paths_below hn'] at hbelow
    have hname : n.name = n'.name := by
      rcases List.eq_nil_or_concat p with rfl | ⟨front, name, rfl⟩
      · obtain rfl := Option.some.inj hn
        obtain rfl := Option.some.inj hn'
        exact h.name
      · rw [List.concat_eq_append] at hn hn'
        rw [Node.name_of_descend? hn, Node.name_of_descend? hn']
    have hw := h.wellFormed.descend? hn
    have hw' := h.wellFormed'.descend? hn'
    rw [hn', Node.eq_of_paths_eq hw hw' hname hbelow]

/-! ## One call -/

/-- An operation at the paths has the same result in stores that look the same from there, and leaves
stores that look the same. -/
theorem Matches.apply (h : Matches P s s') {op : Operation}
    (hop : ∀ p ∈ op.paths, p.absolute = true ∧ p.segments ∈ P) (now : Instant) :
    (s.apply op now).1 = (s'.apply op now).1 ∧ Matches P (s.apply op now).2 (s'.apply op now).2 := by
  have hresult := PathMap.alike_perform (fun p hp => (hop p hp).2) s.identity now h.alike
  have hs := agrees_apply op now h.wellFormed fun p hp => (hop p hp).1
  have hs' := agrees_apply op now h.wellFormed' fun p hp => (hop p hp).1
  have hw := wellFormed_apply op now h.wellFormed
  have hw' := wellFormed_apply op now h.wellFormed'
  have hname := (edited_apply op now s).name_eq
  have hname' := (edited_apply op now s').name_eq
  rw [← h.identity] at hs'
  generalize s.root.paths.perform op s.identity now = r at hresult hs
  generalize s'.root.paths.perform op s.identity now = r' at hresult hs'
  cases hresult with
  | error fault =>
    rw [Agrees] at hs hs'
    rw [hs, hs']
    exact ⟨rfl, h⟩
  | ok halike =>
    obtain ⟨root, hroot, rfl⟩ := hs
    obtain ⟨root', hroot', rfl⟩ := hs'
    rw [hroot] at hw hname ⊢
    rw [hroot'] at hw' hname' ⊢
    exact ⟨rfl, h.identity, hname.trans (h.name.trans hname'.symm), hw, hw', halike⟩

/-- An operation makes changes at its paths, or none. -/
theorem changedAt_apply (hw : s.root.WellFormed) {op : Operation}
    (hop : ∀ p ∈ op.paths, p.absolute = true ∧ p.segments ∈ P) :
    ChangedAt P s.root.paths (s.apply op now).2.root.paths := by
  have hs := agrees_apply op now hw fun p hp => (hop p hp).1
  cases hr : s.root.paths.perform op s.identity now with
  | error fault =>
    rw [hr, Agrees] at hs
    rw [hs]
    exact .same
  | ok n =>
    rw [hr] at hs
    obtain ⟨root, hroot, rfl⟩ := hs
    rw [hroot]
    exact PathMap.changedAt_perform (fun p hp => (hop p hp).2) hr

theorem identity_apply (hw : s.root.WellFormed) {op : Operation}
    (hop : ∀ p ∈ op.paths, p.absolute = true) : (s.apply op now).2.identity = s.identity :=
  (agrees_apply op now hw hop).paths_eq.2

section Step

variable {a a' : Client} {e : Exchange}

/-- The store decides what comes of a call. -/
theorem Client.Step.unique {a'' : Client} {e' : Exchange} {t' : Store}
    (hstep : a.Step now s e a' t) (hstep' : a.Step now s e' a'' t') : e = e' ∧ a' = a'' ∧ t = t' := by
  cases hstep with
  | change op next =>
    cases hstep'
    exact ⟨rfl, rfl, rfl⟩
  | look p next =>
    cases hstep'
    exact ⟨rfl, rfl, rfl⟩

/-- What one call leaves: changes at its paths, and a tree as well-formed as before. -/
theorem Client.Step.changedAt (hstep : a.Step now s e a' t) (he : e.Within P)
    (hw : s.root.WellFormed) :
    ChangedAt P s.root.paths t.root.paths ∧ t.root.WellFormed ∧ t.identity = s.identity ∧
      t.root.name = s.root.name := by
  cases hstep with
  | change op next =>
    exact ⟨changedAt_apply hw he, wellFormed_apply op now hw,
      identity_apply hw fun p hp => (he p hp).1, (edited_apply op now s).name_eq⟩
  | look p next => exact ⟨.same, hw, rfl, rfl⟩

/-- A client is told the same in a store that looks the same from the paths of its call. -/
theorem Matches.own_step (h : Matches P s s') (hstep : a.Step now s e a' t) (he : e.Within P) :
    ∃ t', a.Step now s' e a' t' ∧ Matches P t t' := by
  cases hstep with
  | change op next =>
    obtain ⟨hresult, hmatches⟩ := h.apply he now
    refine ⟨(s'.apply op now).2, ?_, hmatches⟩
    rw [hresult]
    exact .change op next s'
  | look p next =>
    have hfound := h.descend?_eq (he p List.mem_cons_self).2
    refine ⟨s', ?_, h⟩
    rw [hfound]
    exact .look p next s'

/-- What a client is told alone it is told in a store that looks the same from the paths of its call. -/
theorem Matches.alone_step (h : Matches P s s') {a'' : Client} {e' : Exchange} {t' : Store}
    (hstep : a.Step now s e a' t) (halone : a.Step now s' e' a'' t') (he : e'.Within P) :
    e = e' ∧ a' = a'' ∧ Matches P t t' := by
  obtain ⟨u, hstep', hmatches⟩ := h.symm.own_step halone he
  obtain ⟨rfl, rfl, rfl⟩ := hstep.unique hstep'
  exact ⟨rfl, rfl, hmatches.symm⟩

/-- A call of the other client is not to be seen. -/
theorem Matches.other_step (h : Matches Q s s') (hstep : a.Step now s e a' t) (he : e.Within P)
    (hPQ : ∀ p ∈ P, ∀ q ∈ Q, Apart p q) : Matches Q t s' := by
  obtain ⟨hchanged, hw, hidentity, hname⟩ := hstep.changedAt he h.wellFormed
  exact ⟨hidentity.trans h.identity, hname.trans h.name, hw, h.wellFormed',
    (hchanged.alike hPQ).trans h.alike⟩

end Step

/-! ## Runs -/

section Runs

variable {a b : Client} {es es' fs fs' : List Exchange} {t' t₁ t₂ : Store}
  (hPQ : ∀ p ∈ P, ∀ q ∈ Q, Apart p q)
include hPQ

/-- Each of two clients that take turns could have had the store for itself. -/
theorem alone_of_interleaved (h : Interleaved now a b s es fs t) (h₁ : Matches P s s₁)
    (h₂ : Matches Q s s₂) (hes : ∀ e ∈ es, e.Within P) (hfs : ∀ f ∈ fs, f.Within Q) :
    (∃ t₁, Alone now a s₁ es t₁) ∧ ∃ t₂, Alone now b s₂ fs t₂ := by
  induction h generalizing s₁ s₂ with
  | done s => exact ⟨⟨s₁, .done s₁⟩, s₂, .done s₂⟩
  | @first a a' b s s' t e es fs hstep _ ih =>
    obtain ⟨he, hes⟩ := List.forall_mem_cons.mp hes
    obtain ⟨s₁', hstep₁, h₁'⟩ := h₁.own_step hstep he
    have h₂' : Matches Q s' s₂ := h₂.other_step hstep he hPQ
    obtain ⟨⟨t₁, ha⟩, hb⟩ := ih h₁' h₂' hes hfs
    exact ⟨⟨t₁, .step hstep₁ ha⟩, hb⟩
  | @second a b b' s s' t f es fs hstep _ ih =>
    obtain ⟨hf, hfs⟩ := List.forall_mem_cons.mp hfs
    obtain ⟨s₂', hstep₂, h₂'⟩ := h₂.own_step hstep hf
    have h₁' : Matches P s' s₁ :=
      h₁.other_step hstep hf fun q hq p hp => (hPQ p hp q hq).symm
    obtain ⟨ha, ⟨t₂, hb⟩⟩ := ih h₁' h₂' hes hfs
    exact ⟨ha, t₂, .step hstep₂ hb⟩

/-- Clients that take turns are told what they are told alone. What either sees at the end it sees in
the store that it has alone, and elsewhere nothing has changed. -/
theorem interleaved_of_alone (h : Interleaved now a b s es fs t) (h₁ : Matches P s s₁)
    (h₂ : Matches Q s s₂) (ha : Alone now a s₁ es' t₁) (hb : Alone now b s₂ fs' t₂)
    (hes : ∀ e ∈ es', e.Within P) (hfs : ∀ f ∈ fs', f.Within Q) :
    es = es' ∧ fs = fs' ∧ Matches P t t₁ ∧ Matches Q t t₂ ∧
      ∀ x, ¬ Under P x → ¬ Under Q x → t.root.paths.entry x = s.root.paths.entry x := by
  have hQP : ∀ q ∈ Q, ∀ p ∈ P, Apart q p := fun q hq p hp => (hPQ p hp q hq).symm
  induction h generalizing s₁ s₂ es' fs' with
  | done s =>
    cases ha with
    | done =>
      cases hb with
      | done => exact ⟨rfl, rfl, h₁, h₂, fun _ _ _ => rfl⟩
      | step hstep => cases hstep
    | step hstep => cases hstep
  | @first a a' b s s' t e es fs hstep _ ih =>
    cases ha with
    | done => cases hstep
    | step hstep₁ ha =>
      obtain ⟨he, hrest⟩ := List.forall_mem_cons.mp hes
      obtain ⟨rfl, rfl, h₁'⟩ := h₁.alone_step hstep hstep₁ he
      have h₂' : Matches Q s' s₂ := h₂.other_step hstep he hPQ
      obtain ⟨rfl, rfl, hfirst, hsecond, helse⟩ := ih h₁' h₂' ha hb hrest hfs
      refine ⟨rfl, rfl, hfirst, hsecond, fun x hP hQ => (helse x hP hQ).trans ?_⟩
      exact (hstep.changedAt he h₁.wellFormed).1.entry_eq hP
  | @second a b b' s s' t f es fs hstep _ ih =>
    cases hb with
    | done => cases hstep
    | step hstep₂ hb =>
      obtain ⟨hf, hrest⟩ := List.forall_mem_cons.mp hfs
      obtain ⟨rfl, rfl, h₂'⟩ := h₂.alone_step hstep hstep₂ hf
      have h₁' : Matches P s' s₁ := h₁.other_step hstep hf hQP
      obtain ⟨rfl, rfl, hfirst, hsecond, helse⟩ := ih h₁' h₂' ha hb hes hrest
      refine ⟨rfl, rfl, hfirst, hsecond, fun x hP hQ => (helse x hP hQ).trans ?_⟩
      exact (hstep.changedAt hf h₂.wellFormed).1.entry_eq hQ

end Runs

/-- The calls of the one client and the calls of the other have absolute paths, and no path of the one
is, or leads to, a path of the other. -/
structure Unrelated (es fs : List Exchange) : Prop where
  absolute : ∀ p ∈ (es ++ fs).flatMap Exchange.paths, p.absolute = true
  apart : ∀ p ∈ es.flatMap Exchange.paths, ∀ q ∈ fs.flatMap Exchange.paths,
    Apart p.segments q.segments

/-- The segments of the paths of some calls. -/
def touched (es : List Exchange) : Set (List String) :=
  {x | ∃ p ∈ es.flatMap Exchange.paths, p.segments = x}

section Turns

variable {a b : Client} {es es' fs fs' : List Exchange}

theorem Unrelated.touched_apart (h : Unrelated es fs) :
    ∀ p ∈ touched es, ∀ q ∈ touched fs, Apart p q := by
  rintro _ ⟨p, hp, rfl⟩ _ ⟨q, hq, rfl⟩
  exact h.apart p hp q hq

theorem within_touched (hes : ∀ p ∈ es.flatMap Exchange.paths, p.absolute = true) :
    ∀ e ∈ es, e.Within (touched es) := by
  intro e he p hp
  have hmem : p ∈ es.flatMap Exchange.paths := List.mem_flatMap.mpr ⟨e, he, hp⟩
  exact ⟨hes p hmem, p, hmem, rfl⟩

/-- However two clients take turns on paths that are unrelated, each is told the same, and the trees at
the end differ in the order of siblings only. -/
theorem interleaved_agree {t' : Store} (hw : s.root.WellFormed)
    (h : Interleaved now a b s es fs t) (hef : Unrelated es fs)
    (h' : Interleaved now a b s es' fs' t') :
    es' = es ∧ fs' = fs ∧ t.root.Reordered t'.root := by
  have hPQ := hef.touched_apart
  have habs := hef.absolute
  rw [List.flatMap_append, List.forall_mem_append] at habs
  have hes : ∀ e ∈ es, e.Within (touched es) := within_touched habs.1
  have hfs : ∀ f ∈ fs, f.Within (touched fs) := within_touched habs.2
  have h₁ : Matches (touched es) s s := .refl _ hw
  have h₂ : Matches (touched fs) s s := .refl _ hw
  -- the run that is given tells what each is told alone, and that decides any other run
  obtain ⟨⟨t₁, ha⟩, t₂, hb⟩ := alone_of_interleaved hPQ h h₁ h₂ hes hfs
  obtain ⟨-, -, hfirst, hsecond, helse⟩ := interleaved_of_alone hPQ h h₁ h₂ ha hb hes hfs
  obtain ⟨rfl, rfl, hfirst', hsecond', helse'⟩ := interleaved_of_alone hPQ h' h₁ h₂ ha hb hes hfs
  refine ⟨rfl, rfl, ?_⟩
  refine Node.reordered_of_sameEntries hfirst.wellFormed hfirst'.wellFormed
    (hfirst.name.trans hfirst'.name.symm) fun x => ?_
  by_cases hP : Under (touched es') x
  · exact (hfirst.alike.entry x hP.near).trans (hfirst'.alike.entry x hP.near).symm
  · by_cases hQ : Under (touched fs') x
    · exact (hsecond.alike.entry x hQ.near).trans (hsecond'.alike.entry x hQ.near).symm
    · exact (helse x hP hQ).trans (helse' x hP hQ).symm

/-! ## One operation each -/

/-- The client of one operation. -/
def Client.once (op : Operation) : Client := .change op fun _ => .done

/-- The first of two operations before the second. -/
theorem interleaved_once (now : Instant) (s : Store) (op op' : Operation) :
    Interleaved now (.once op) (.once op') s [.changed op (s.apply op now).1]
      [.changed op' ((s.apply op now).2.apply op' now).1] ((s.apply op now).2.apply op' now).2 :=
  .first (.change op _ s) (.second (.change op' _ _) (.done _))

theorem Interleaved.symm (h : Interleaved now a b s es fs t) : Interleaved now b a s fs es t := by
  induction h with
  | done s => exact .done s
  | first hstep _ ih => exact .second hstep ih
  | second hstep _ ih => exact .first hstep ih

/-- Operations at paths that are apart commute: each has the same result first as second, and the
trees differ in the order of siblings only. -/
theorem apply_commute {op op' : Operation} (hw : s.root.WellFormed)
    (habs : ∀ p ∈ op.paths ++ op'.paths, p.absolute = true)
    (hapart : ∀ p ∈ op.paths, ∀ q ∈ op'.paths, Apart p.segments q.segments) :
    ((s.apply op now).2.apply op' now).1 = (s.apply op' now).1 ∧
      ((s.apply op' now).2.apply op now).1 = (s.apply op now).1 ∧
      ((s.apply op now).2.apply op' now).2.root.Reordered
        ((s.apply op' now).2.apply op now).2.root := by
  have hunrelated : Unrelated [.changed op (s.apply op now).1]
      [.changed op' ((s.apply op now).2.apply op' now).1] := by
    constructor
    · rwa [List.cons_append, List.nil_append, List.flatMap_cons, List.flatMap_singleton]
    · rwa [List.flatMap_singleton, List.flatMap_singleton]
  obtain ⟨hes, hfs, hreordered⟩ := interleaved_agree hw (interleaved_once now s op op') hunrelated
    (interleaved_once now s op' op).symm
  injection hes with hop
  injection hfs with hop'
  injection hop with _ hresult
  injection hop' with _ hresult'
  exact ⟨hresult'.symm, hresult, hreordered⟩

end Turns

/-- Calls at paths that are apart commute. Two operations have the same results in either order, and
so has each client in any order of turns; the trees at the end differ in the order of siblings only. -/
theorem apart_calls_commute (now : Instant) {s : Store} (hw : s.root.WellFormed) :
    (∀ op op' : Operation, (∀ p ∈ op.paths ++ op'.paths, p.absolute = true) →
      (∀ p ∈ op.paths, ∀ q ∈ op'.paths, Apart p.segments q.segments) →
      ((s.apply op now).2.apply op' now).1 = (s.apply op' now).1 ∧
        ((s.apply op' now).2.apply op now).1 = (s.apply op now).1 ∧
        ((s.apply op now).2.apply op' now).2.root.Reordered
          ((s.apply op' now).2.apply op now).2.root) ∧
    ∀ (a b : Client) (es fs : List Exchange) (t : Store), Interleaved now a b s es fs t →
      Unrelated es fs → ∀ (es' fs' : List Exchange) (t' : Store),
      Interleaved now a b s es' fs' t' → es' = es ∧ fs' = fs ∧ t.root.Reordered t'.root :=
  ⟨fun _ _ habs hapart => apply_commute hw habs hapart,
    fun _ _ _ _ _ h hef _ _ _ h' => interleaved_agree hw h hef h'⟩

/-- Two clients that put names into the home directory leave it in different orders. -/
theorem home_filled_in_either_order :
    let now : Instant := ⟨1, 0⟩
    let s := Desktop.newStore Config.standard ⟨0, 0⟩
    let folder : Path := ⟨true, ["home", "user", "folder"]⟩
    let notes : Path := ⟨true, ["home", "user", "notes"]⟩
    let a : Client := .once (.makeDirectory folder)
    let b : Client := .change (.write notes "text") fun _ => .look notes fun _ => .done
    let t := ((s.makeDirectory folder now).2.write notes "text" now).2
    let t' := ((s.write notes "text" now).2.makeDirectory folder now).2
    s.root.WellFormed ∧ t.root ≠ t'.root ∧ t.root.Reordered t'.root ∧
      ∃ es fs, Unrelated es fs ∧ Interleaved now a b s es fs t ∧ Interleaved now a b s es fs t' := by
  intro now s folder notes a b t t'
  have hw : s.root.WellFormed := by decide
  obtain ⟨hoperations, hturns⟩ := apart_calls_commute now hw
  obtain ⟨-, -, hreordered⟩ := hoperations (.makeDirectory folder) (.write notes "text")
    (by decide : ∀ p ∈ [folder, notes], p.absolute = true)
    (by unfold PathMap.Apart; decide : ∀ p ∈ [folder], ∀ q ∈ [notes], Apart p.segments q.segments)
  have h : Interleaved now a b s _ _ t :=
    .first (.change ..) (.second (.change ..) (.second (.look ..) (.done t)))
  have h' : Interleaved now a b s _ _ t' :=
    .second (.change ..) (.second (.look ..) (.first (.change ..) (.done t')))
  have hunrelated (r r' : Except Fault Unit) (found : Option Node) :
      Unrelated [.changed (.makeDirectory folder) r]
        [.changed (.write notes "text") r', .seen notes found] := by
    constructor
    · show ∀ p ∈ [folder, notes, notes], p.absolute = true
      decide
    · show ∀ p ∈ [folder], ∀ q ∈ [notes, notes], Apart p.segments q.segments
      unfold PathMap.Apart
      decide
  obtain ⟨hes, hfs, _⟩ := hturns a b _ _ t h (hunrelated ..) _ _ t' h'
  rw [hes, hfs] at h'
  refine ⟨hw, fun heq => ?_, hreordered, _, _, hunrelated .., h, h'⟩
  have hnames := congrArg
    (fun n : Node => (n.descend? ["home", "user"]).map fun c => Node.names c.children) heq
  revert hnames
  decide

end DesktopTerminal.Store

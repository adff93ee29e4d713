import DesktopTerminal.Proofs.Tree.Operation
import Mathlib.Data.Set.Finite.Lattice
import Mathlib.Logic.Function.Basic

/-!
# Path maps

A path map is the plain model of a tree of files: what stands at each absolute path, and in which
order the names of each directory come. Its operations are given by what becomes of each path. A
path is the list of its segments here; every path is absolute.

The operations are built from four changes of a map: of the entry at one path, of all that is at or
under a path, and of the order of names in one directory.
-/
namespace DesktopTerminal

/-- What a path map holds at a path: a kind, the data of the node and, in a file, its content. -/
inductive Item where
  | file (info : Info) (content : String)
  | directory (info : Info)
deriving DecidableEq, Repr

/-- The item with other data. -/
def Item.withInfo (f : Info → Info) : Item → Item
  | .file info content => .file (f info) content
  | .directory info => .directory (f info)

@[ext]
structure PathMap where
  entry : List String → Option Item
  order : List String → List String

namespace PathMap

/-- The map of a tree of files: it is finite, its root is a directory, whatever has a place in it is
listed once in the directory that holds it, and nothing else is listed. -/
structure Proper (m : PathMap) : Prop where
  finite : {p | m.entry p ≠ none}.Finite
  root : ∃ info, m.entry [] = some (.directory info)
  parent : ∀ {p : List String} {name : String}, m.entry (p ++ [name]) ≠ none →
    ∃ info, m.entry p = some (.directory info)
  mem_order : ∀ {p : List String} {name : String},
    name ∈ m.order p ↔ m.entry (p ++ [name]) ≠ none
  nodup_order : ∀ p, (m.order p).Nodup

/-- Nothing at any path. -/
def empty : PathMap := ⟨fun _ => none, fun _ => []⟩

/-- What is at a path and under it, as seen from there. -/
def below (p : List String) (m : PathMap) : PathMap :=
  ⟨fun q => m.entry (p ++ q), fun q => m.order (p ++ q)⟩

/-- Changes the entry at a path and nothing else. -/
def set (p : List String) (item : Item) (m : PathMap) : PathMap :=
  { m with entry := Function.update m.entry p (some item) }

/-- Puts `sub` in the place of all that is at a path or under it. -/
def graft (m : PathMap) (p : List String) (sub : PathMap) : PathMap where
  entry q := if p <+: q then sub.entry (q.drop p.length) else m.entry q
  order q := if p <+: q then sub.order (q.drop p.length) else m.order q

/-- Puts a name at the end of a directory, unless the directory has it. -/
def enlist (p : List String) (name : String) (m : PathMap) : PathMap :=
  let names := m.order p
  { m with order := Function.update m.order p (if name ∈ names then names else names ++ [name]) }

/-- Takes a name out of a directory. -/
def delist (p : List String) (name : String) (m : PathMap) : PathMap :=
  { m with order := Function.update m.order p ((m.order p).erase name) }

/-! ## Operations -/

/-- The directory that holds, or is to hold, what stands at a path, and the name there. -/
def place (p : List String) (m : PathMap) : Except Fault (List String × String) :=
  match p.getLast? with
  | none => .error (.invalidPath ⟨true, p⟩)
  | some name =>
    match m.entry p.dropLast with
    | none => .error (.notFound ⟨true, p.dropLast⟩)
    | some (.file ..) => .error (.notADirectory ⟨true, p.dropLast⟩)
    | some (.directory _) => .ok (p.dropLast, name)

/-- Changes the content of a file, or makes the file. -/
def writeWith (f : String → String) (p : List String) (content : String) (owner : Identity)
    (now : Instant) (m : PathMap) : Except Fault PathMap := do
  let (parent, name) ← m.place p
  match m.entry p with
  | some (.directory _) => .error (.isADirectory ⟨true, p⟩)
  | some (.file info old) => .ok (m.set p (.file info (f old)))
  | none =>
    .ok ((m.set p (.file ⟨Mode.initial .file, owner.user, owner.group, now⟩ content)).enlist
      parent name)

def makeDirectory (p : List String) (owner : Identity) (now : Instant) (m : PathMap) :
    Except Fault PathMap :=
  if p = [] then .error (.alreadyExists ⟨true, p⟩)
  else do
    let (parent, name) ← m.place p
    match m.entry p with
    | some _ => .error (.alreadyExists ⟨true, p⟩)
    | none =>
      .ok ((m.set p (.directory ⟨Mode.initial .directory, owner.user, owner.group, now⟩)).enlist
        parent name)

/-- Takes out all that is at a path or under it. -/
def detach (p parent : List String) (name : String) (m : PathMap) : PathMap :=
  (m.graft p empty).delist parent name

/-- Puts `sub` at a path, over all that is there. -/
def attach (m : PathMap) (p parent : List String) (name : String) (sub : PathMap) : PathMap :=
  (m.graft p sub).enlist parent name

def delete (p : List String) (m : PathMap) : Except Fault PathMap :=
  if p = [] then .error (.permissionDenied ⟨true, p⟩)
  else do
    let (parent, name) ← m.place p
    match m.entry p with
    | none => .error (.notFound ⟨true, p⟩)
    | some _ => .ok (m.detach p parent name)

/-- Puts the subtree of the source at the target. The node at its top is created now; all else of
the subtree stays as it is. -/
def copy (source target : List String) (now : Instant) (m : PathMap) : Except Fault PathMap :=
  if target = [] ∨ source <+: target then .error (.invalidPath ⟨true, target⟩)
  else
    match m.entry source with
    | none => .error (.notFound ⟨true, source⟩)
    | some item => do
      let (parent, name) ← m.place target
      let renewed := item.withInfo fun info => { info with created := now }
      .ok (m.attach target parent name ((m.below source).set [] renewed))

/-- Takes the subtree of the source out and puts it at the target as it is. -/
def move (source target : List String) (m : PathMap) : Except Fault PathMap :=
  if source = [] ∨ target = [] ∨ source <+: target then .error (.invalidPath ⟨true, target⟩)
  else
    match m.entry source with
    | none => .error (.notFound ⟨true, source⟩)
    | some _ => do
      let (parent, name) ← m.place target
      let (sourceParent, sourceName) ← m.place source
      .ok ((m.detach source sourceParent sourceName).attach target parent name (m.below source))

def changeMode (p : List String) (text : String) (m : PathMap) : Except Fault PathMap :=
  match m.entry p with
  | none => .error (.notFound ⟨true, p⟩)
  | some item =>
    match ModeChange.parse? text with
    | none => .error (.invalidMode text)
    | some change =>
      .ok (m.set p (item.withInfo fun info => { info with mode := change.apply info.mode }))

/-- Carries out an operation of the store on a path map. -/
def perform (op : Store.Operation) (owner : Identity) (now : Instant) (m : PathMap) :
    Except Fault PathMap :=
  match op with
  | .write p content => m.writeWith (fun _ => content) p.segments content owner now
  | .append p content =>
    m.writeWith (fun old => if old = "" then content else old ++ "\n" ++ content) p.segments content
      owner now
  | .makeDirectory p => m.makeDirectory p.segments owner now
  | .delete p => m.delete p.segments
  | .copy source target => m.copy source.segments target.segments now
  | .move source target => m.move source.segments target.segments
  | .changeMode p text => m.changeMode p.segments text

/-- The map after some operations, each at its own time; a failed one changes nothing. -/
def run (owner : Identity) : List (Store.Operation × Instant) → PathMap → PathMap
  | [], m => m
  | (op, now) :: rest, m => run owner rest ((m.perform op owner now).toOption.getD m)

/-! ## What an operation leaves alone -/

section Frame

variable {m m' : PathMap} {owner : Identity} {now : Instant} {k source target q : List String}

theorem entry_set_of_ne (item : Item) (h : q ≠ k) : (m.set k item).entry q = m.entry q :=
  Function.update_of_ne h _ _

theorem entry_graft_of_not_under (sub : PathMap) (h : ¬ k <+: q) :
    (m.graft k sub).entry q = m.entry q := if_neg h

theorem entry_writeWith {f : String → String} {content : String}
    (h : m.writeWith f k content owner now = .ok m') (hq : q ≠ k) : m'.entry q = m.entry q := by
  obtain ⟨⟨parent, name⟩, _, h⟩ := exists_ok_of_bind_eq_ok h
  cases he : m.entry k with
  | none =>
    rw [he] at h
    obtain rfl := Except.ok.inj h
    exact entry_set_of_ne _ hq
  | some item =>
    rw [he] at h
    cases item with
    | file info old =>
      obtain rfl := Except.ok.inj h
      exact entry_set_of_ne _ hq
    | directory info => cases h

theorem entry_makeDirectory (h : m.makeDirectory k owner now = .ok m') (hq : q ≠ k) :
    m'.entry q = m.entry q := by
  rw [makeDirectory] at h
  split at h
  · cases h
  · obtain ⟨⟨parent, name⟩, _, h⟩ := exists_ok_of_bind_eq_ok h
    cases he : m.entry k with
    | none =>
      rw [he] at h
      obtain rfl := Except.ok.inj h
      exact entry_set_of_ne _ hq
    | some item =>
      rw [he] at h
      cases h

theorem entry_delete (h : m.delete k = .ok m') (hq : ¬ k <+: q) : m'.entry q = m.entry q := by
  rw [delete] at h
  split at h
  · cases h
  · obtain ⟨⟨parent, name⟩, _, h⟩ := exists_ok_of_bind_eq_ok h
    cases he : m.entry k with
    | none =>
      rw [he] at h
      cases h
    | some item =>
      rw [he] at h
      obtain rfl := Except.ok.inj h
      exact entry_graft_of_not_under _ hq

theorem entry_copy (h : m.copy source target now = .ok m') (hq : ¬ target <+: q) :
    m'.entry q = m.entry q := by
  rw [copy] at h
  split at h
  · cases h
  · cases he : m.entry source with
    | none =>
      rw [he] at h
      cases h
    | some item =>
      rw [he] at h
      obtain ⟨⟨parent, name⟩, _, h⟩ := exists_ok_of_bind_eq_ok h
      obtain rfl := Except.ok.inj h
      exact entry_graft_of_not_under _ hq

theorem entry_move (h : m.move source target = .ok m') (hs : ¬ source <+: q)
    (ht : ¬ target <+: q) : m'.entry q = m.entry q := by
  rw [move] at h
  split at h
  · cases h
  · cases he : m.entry source with
    | none =>
      rw [he] at h
      cases h
    | some item =>
      rw [he] at h
      obtain ⟨⟨parent, name⟩, _, h⟩ := exists_ok_of_bind_eq_ok h
      obtain ⟨⟨sourceParent, sourceName⟩, _, h⟩ := exists_ok_of_bind_eq_ok h
      obtain rfl := Except.ok.inj h
      exact (entry_graft_of_not_under _ ht).trans (entry_graft_of_not_under _ hs)

theorem entry_changeMode {text : String} (h : m.changeMode k text = .ok m') (hq : q ≠ k) :
    m'.entry q = m.entry q := by
  rw [changeMode] at h
  split at h
  · cases h
  · split at h
    · cases h
    · obtain rfl := Except.ok.inj h
      exact entry_set_of_ne _ hq

/-- An operation changes nothing at a path that it does not touch. -/
theorem entry_perform {op : Store.Operation} (h : m.perform op owner now = .ok m')
    (hq : ¬ op.Touches q) : m'.entry q = m.entry q := by
  cases op with
  | write p content => exact entry_writeWith h hq
  | append p content => exact entry_writeWith h hq
  | makeDirectory p => exact entry_makeDirectory h hq
  | delete p => exact entry_delete h hq
  | copy source target => exact entry_copy h hq
  | move source target => exact entry_move h (fun hs => hq (Or.inl hs)) fun ht => hq (Or.inr ht)
  | changeMode p text => exact entry_changeMode h hq

end Frame

/-! ## Changes of a part

A change of what is under a path is a change of the whole. -/

section Part

variable (m sub : PathMap) (p r : List String)

theorem graft_below : m.graft p (m.below p) = m := by
  ext1
  all_goals
    funext q
    by_cases h : p <+: q
    · obtain ⟨q, rfl⟩ := h
      simp [graft, below]
    · simp [graft, h]

theorem graft_graft_below : m.graft p ((m.below p).graft r sub) = m.graft (p ++ r) sub := by
  ext1
  all_goals
    funext q
    by_cases h : p <+: q
    · obtain ⟨q, rfl⟩ := h
      simp [graft, below, List.prefix_append_right_inj]
    · have hr : ¬ p ++ r <+: q := fun hr => h ((List.prefix_append p r).trans hr)
      simp [graft, h, hr]

theorem graft_set (item : Item) : m.graft p (sub.set [] item) = (m.graft p sub).set p item := by
  ext1
  · funext q
    by_cases h : p <+: q
    · obtain ⟨q, rfl⟩ := h
      cases q with
      | nil => simp [graft, set]
      | cons a q =>
        simp [graft, set, Function.update_apply]
    · have hq : q ≠ p := fun hq => h (hq ▸ List.prefix_rfl)
      simp [graft, set, h, hq]
  · rfl

theorem graft_enlist (name : String) :
    m.graft p (sub.enlist [] name) = (m.graft p sub).enlist p name := by
  ext1
  · rfl
  · funext q
    by_cases h : p <+: q
    · obtain ⟨q, rfl⟩ := h
      cases q with
      | nil => simp [graft, enlist]
      | cons a q =>
        simp [graft, enlist, Function.update_apply]
    · have hq : q ≠ p := fun hq => h (hq ▸ List.prefix_rfl)
      simp [graft, enlist, h, hq]

theorem graft_delist (name : String) :
    m.graft p (sub.delist [] name) = (m.graft p sub).delist p name := by
  ext1
  · rfl
  · funext q
    by_cases h : p <+: q
    · obtain ⟨q, rfl⟩ := h
      cases q with
      | nil => simp [graft, delist]
      | cons a q =>
        simp [graft, delist, Function.update_apply]
    · have hq : q ≠ p := fun hq => h (hq ▸ List.prefix_rfl)
      simp [graft, delist, h, hq]

end Part

end PathMap

end DesktopTerminal

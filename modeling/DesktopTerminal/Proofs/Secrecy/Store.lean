import DesktopTerminal.Proofs.Tree.Content
import DesktopTerminal.Proofs.Tree.Operation

/-!
# The store without contents

Emptying every file and running an operation that brings no content comes to the same as running the
operation and emptying every file afterwards, with the same success or fault. What is read, apart
from contents and sizes, is the same too.
-/
namespace DesktopTerminal

/-- The entry of a node when its content is gone. -/
def Entry.bare (e : Entry) : Entry :=
  { e with size := match e.kind with | .file => 0 | .directory => e.size }

namespace Node

theorem entry_bare (n : Node) : n.bare.entry = n.entry.bare := by
  cases n <;> rfl

/-- The place in the tree with every file emptied. -/
def Place.bare (spot : Place) : Place :=
  { spot with siblings := spot.siblings.map (mapContent fun _ => "") }

section Bare

variable (n root child : Node) (p source target : Path) (spot : Place) (owner : Identity)
  (now : Instant)

theorem lookup_bare : root.bare.lookup p = (root.lookup p).map bare := by
  rw [lookup, lookup, descend?_mapContent]
  cases root.descend? p.segments <;> rfl

theorem place_bare : root.bare.place p = (root.place p).map Place.bare := by
  rw [place, place]
  cases p.split? with
  | none => rfl
  | some parentName =>
    obtain ⟨parent, name⟩ := parentName
    simp only [descend?_mapContent]
    cases root.descend? parent.segments with
    | none => rfl
    | some n =>
      cases n with
      | file => rfl
      | directory a info children =>
        simp only [Option.map_some, mapContent, mapContents_eq_map]
        rfl

theorem find?_place_bare :
    find? spot.bare.name spot.bare.siblings = (find? spot.name spot.siblings).map bare :=
  find?_map (name_mapContent _) _ _

theorem attach_bare : (root.attach child spot).bare = root.bare.attach child.bare spot.bare := by
  refine mapContent_update _ (mapContent_withChildren _ fun ns => ?_) _ root
  rw [map_put (name_mapContent _), mapContent_rename]
  rfl

theorem writeWith_bare {f g : String → String} (hg : g "" = "") (content : String) :
    root.bare.writeWith g p "" owner now = (root.writeWith f p content owner now).map bare := by
  rw [writeWith, writeWith, place_bare]
  cases root.place p with
  | error fault => rfl
  | ok spot =>
    simp only [Except.map, bind, Except.bind, find?_place_bare]
    cases find? spot.name spot.siblings with
    | none => exact congrArg _ (attach_bare root (newFile spot.name content owner now) spot).symm
    | some n =>
      cases n with
      | directory => rfl
      | file =>
        refine congrArg Except.ok (mapContent_update _ (fun n => ?_) p.segments root).symm
        cases n with
        | file => rw [withContent, mapContent, mapContent, withContent, hg]
        | directory => rfl

theorem makeDirectory_bare :
    root.bare.makeDirectory p owner now = (root.makeDirectory p owner now).map bare := by
  rw [makeDirectory, makeDirectory, place_bare]
  split
  · rfl
  · cases root.place p with
    | error fault => rfl
    | ok spot =>
      simp only [Except.map, bind, Except.bind, find?_place_bare]
      cases find? spot.name spot.siblings with
      | none => exact congrArg _ (attach_bare root (newDirectory spot.name owner now) spot).symm
      | some n => rfl

theorem detach_bare :
    root.bare.detach p = (root.detach p).map fun r => (r.1.bare, r.2.bare) := by
  rw [detach, detach, place_bare]
  cases root.place p with
  | error fault => rfl
  | ok spot =>
    simp only [Except.map, bind, Except.bind, find?_place_bare]
    cases find? spot.name spot.siblings with
    | none => rfl
    | some n =>
      refine congrArg (fun rest => Except.ok (n.bare, rest)) (mapContent_update _ ?_ _ root).symm
      exact mapContent_withChildren _ (map_remove (name_mapContent _) spot.name)

theorem delete_bare : root.bare.delete p = (root.delete p).map bare := by
  rw [delete, delete, detach_bare]
  split
  · rfl
  · cases root.detach p <;> rfl

theorem bare_withInfo (g : Info → Info) : (n.withInfo g).bare = n.bare.withInfo g :=
  mapContent_withInfo _ g n

theorem copy_bare : root.bare.copy source target now = (root.copy source target now).map bare := by
  rw [copy, copy, lookup_bare, place_bare]
  split
  · rfl
  · cases root.lookup source with
    | error fault => rfl
    | ok n =>
      cases root.place target with
      | error fault => rfl
      | ok spot =>
        simp only [Except.map, bind, Except.bind]
        rw [attach_bare, bare_withInfo]

theorem startMove_bare :
    root.bare.startMove source target =
      (root.startMove source target).map fun r => (r.1.bare, r.2.bare) := by
  rw [startMove, startMove, lookup_bare, place_bare, detach_bare]
  split
  · rfl
  · cases root.lookup source with
    | error fault => rfl
    | ok n => cases root.place target <;> rfl

theorem changeMode_bare (text : String) :
    root.bare.changeMode p text = (root.changeMode p text).map bare := by
  rw [changeMode, changeMode, lookup_bare]
  cases root.lookup p with
  | error fault => rfl
  | ok n =>
    simp only [Except.map, bind, Except.bind]
    cases ModeChange.parse? text with
    | none => rfl
    | some change =>
      exact congrArg Except.ok (mapContent_update _ (mapContent_withInfo _ _) _ root).symm

end Bare

end Node

namespace Store

/-- The store with every file emptied. -/
def bare (s : Store) : Store := { s with root := s.root.bare }

/-- The operation without the content that it brings. -/
def Operation.bare : Operation → Operation
  | .write p _ => .write p ""
  | .append p _ => .append p ""
  | op => op

theorem commit_bare (s : Store) (result : Except Fault Node) :
    s.bare.commit (result.map Node.bare) = ((s.commit result).1, (s.commit result).2.bare) := by
  cases result <;> rfl

theorem move_bare (source target : Path) (s : Store) :
    s.bare.move source target = ((s.move source target).1, (s.move source target).2.bare) := by
  have hstart : s.bare.root.startMove source target =
      (s.root.startMove source target).map fun r => (r.1.bare, r.2.bare) :=
    Node.startMove_bare s.root source target
  rw [move, move, hstart]
  cases s.root.startMove source target with
  | error fault => rfl
  | ok r =>
    obtain ⟨n, rest⟩ := r
    simp only [Except.map, Node.place_bare]
    cases rest.place target with
    | error fault => rfl
    | ok spot =>
      simp only [commit]
      rw [← Node.attach_bare]
      rfl

/-- An operation does to the bare store what it does to the store. -/
theorem apply_bare (op : Operation) (now : Instant) (s : Store) :
    s.bare.apply op.bare now = ((s.apply op now).1, (s.apply op now).2.bare) := by
  cases op with
  | write p content =>
    exact (congrArg _ (Node.writeWith_bare s.root p s.identity now rfl content)).trans
      (commit_bare s _)
  | append p content =>
    exact (congrArg _ (Node.writeWith_bare s.root p s.identity now rfl content)).trans
      (commit_bare s _)
  | makeDirectory p =>
    exact (congrArg _ (Node.makeDirectory_bare s.root p s.identity now)).trans (commit_bare s _)
  | delete p => exact (congrArg _ (Node.delete_bare s.root p)).trans (commit_bare s _)
  | copy source target =>
    exact (congrArg _ (Node.copy_bare s.root source target now)).trans (commit_bare s _)
  | move source target => exact move_bare source target s
  | changeMode p text =>
    exact (congrArg _ (Node.changeMode_bare s.root p text)).trans (commit_bare s _)

/-! ## Reading -/

section Read

variable (p : Path) (s : Store)

@[simp] theorem bare_bare : s.bare.bare = s.bare := by
  simp only [bare, Node.bare_bare]

theorem kind_bare : s.bare.kind p = s.kind p := by
  rw [kind, kind]
  change (s.root.bare.lookup p).map _ = _
  rw [Node.lookup_bare]
  cases s.root.lookup p with
  | error fault => rfl
  | ok n => exact congrArg Except.ok (Node.kind_mapContent _ n)

theorem contains_bare : s.bare.contains p = s.contains p := by
  rw [contains, contains]
  change (s.root.bare.descend? p.segments).isSome = _
  rw [Node.descend?_mapContent, Option.isSome_map]

theorem entries_bare : s.bare.entries p = (s.entries p).map (List.map Entry.bare) := by
  rw [entries, entries]
  change (s.root.bare.lookup p >>= _) = _
  rw [Node.lookup_bare]
  cases s.root.lookup p with
  | error fault => rfl
  | ok n =>
    cases n with
    | file => rfl
    | directory name info children =>
      refine congrArg Except.ok ?_
      rw [Node.mapContents_eq_map, List.map_map, List.map_map]
      exact List.map_congr_left fun c _ => Node.entry_bare c

end Read

end Store

end DesktopTerminal

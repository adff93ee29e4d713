import DesktopTerminal.Proofs.Tree.Edit

/-!
# Reading what was written

A write that has succeeded leaves a file at its path, and reading the path gives what the file was
given: new content, or its old content with more of it. The tree may be any, with names that occur
twice as well, because the look-up finds the same sibling before and after.
-/
namespace DesktopTerminal

namespace Node

/-- A successful write has changed the content of the file that was there, or made one. -/
theorem descend?_writeWith {f : String → String} {p : Path} {content : String} {owner : Identity}
    {now : Instant} {root root' : Node} (h : root.writeWith f p content owner now = .ok root') :
    (∃ name info old, root.descend? p.segments = some (.file name info old) ∧
      root'.descend? p.segments = some (.file name info (f old))) ∨
    (root.descend? p.segments = none ∧
      ∃ name info, root'.descend? p.segments = some (.file name info content)) := by
  obtain ⟨spot, hs, h⟩ := exists_ok_of_bind_eq_ok h
  have hp := isPlace_of_place hs
  rw [hp.descend?_eq]
  cases hf : find? spot.name spot.siblings with
  | none =>
    simp only [hf] at h
    obtain rfl := Except.ok.inj h
    refine .inr ⟨rfl, spot.name, ⟨Mode.initial .file, owner.user, owner.group, now⟩, ?_⟩
    obtain ⟨dir, info, hd⟩ := hp.held
    rw [hp.segments, descend?_snoc, attach, descend?_update_self (keepsName_withChildren _), hd]
    exact find?_put_self (newFile spot.name content owner now) spot.siblings
  | some n =>
    cases n with
    | directory name info children =>
      simp only [hf] at h
      cases h
    | file name info old =>
      simp only [hf] at h
      obtain rfl := Except.ok.inj h
      refine .inl ⟨name, info, old, rfl, ?_⟩
      rw [descend?_update_self (keepsName_withContent f), hp.descend?_eq, hf]
      rfl

end Node

namespace Store

variable {p : Path} {content : String} {now : Instant} {s : Store}

theorem commit_eq_ok {result : Except Fault Node} (h : (s.commit result).1 = .ok ()) :
    ∃ root, result = .ok root ∧ (s.commit result).2 = { s with root } := by
  cases result with
  | error fault => cases h
  | ok root => exact ⟨root, rfl, rfl⟩

theorem read_eq_ok_iff {text : String} :
    s.read p = .ok text ↔ ∃ name info, s.root.descend? p.segments = some (.file name info text) := by
  rw [read, Node.lookup]
  cases s.root.descend? p.segments with
  | none => simp [bind, Except.bind]
  | some n => cases n <;> simp [bind, Except.bind]

theorem read_write (h : (s.write p content now).1 = .ok ()) :
    (s.write p content now).2.read p = .ok content := by
  obtain ⟨root, hroot, hs⟩ := commit_eq_ok h
  rw [read_eq_ok_iff, write, hs]
  rcases Node.descend?_writeWith hroot with ⟨name, info, _, _, hfile⟩ | ⟨_, name, info, hfile⟩
  · exact ⟨name, info, hfile⟩
  · exact ⟨name, info, hfile⟩

theorem read_append {old : String} (hold : s.read p = .ok old)
    (h : (s.append p content now).1 = .ok ()) :
    (s.append p content now).2.read p = .ok (Node.appended content old) := by
  obtain ⟨root, hroot, hs⟩ := commit_eq_ok h
  obtain ⟨name, info, hfound⟩ := read_eq_ok_iff.mp hold
  rw [read_eq_ok_iff, append, hs]
  rcases Node.descend?_writeWith hroot with ⟨name', info', old', hfound', hfile⟩ | ⟨hnone, _⟩
  · obtain ⟨rfl, rfl, rfl⟩ := Node.file.inj (Option.some.inj (hfound.symm.trans hfound'))
    exact ⟨name, info, hfile⟩
  · rw [hnone] at hfound
    cases hfound

end Store

end DesktopTerminal

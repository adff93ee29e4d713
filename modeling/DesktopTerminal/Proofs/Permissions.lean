import DesktopTerminal.Permissions
import Mathlib.Data.List.Forall2

/-!
# Permission texts

A permission text says all of the permissions it shows, and nothing else is read from it. It is a type
letter and, for each of nine places, the letter of the place or a dash.
-/
namespace DesktopTerminal

/-- The nine letters of a mode are read back as that mode. -/
theorem Mode.read_render : ∀ m : Mode, Mode.read m.render = some m := by
  decide +kernel

namespace Mode

/-- The text of a mode: at each place the letter of the bit, or a dash. -/
def Written (cs : List Char) : Prop :=
  List.Forall₂ (fun letter c => c = letter ∨ c = '-') letters cs

theorem written_of_readOn {m n : Mode} {expected cs : List Char}
    (h : readOn m expected cs = some n) :
    List.Forall₂ (fun letter c => c = letter ∨ c = '-') expected cs := by
  induction expected generalizing m cs with
  | nil =>
    cases cs with
    | nil => exact .nil
    | cons c cs => cases h
  | cons letter expected ih =>
    cases cs with
    | nil => cases h
    | cons c cs =>
      rw [readOn] at h
      split at h
      next hletter => exact .cons (.inl hletter) (ih h)
      next =>
        split at h
        next hdash => exact .cons (.inr hdash) (ih h)
        next => cases h

/-- Each such text is that of the mode whose bits are where the letters are. -/
theorem exists_render {cs : List Char} (h : Written cs) : ∃ m : Mode, m.render = cs := by
  let bits := cs.map (· != '-')
  have hcs : cs.length = 9 := h.length_eq.symm
  have hbits : bits.length = 9 := (List.length_map _).trans hcs
  refine ⟨(BitVec.ofBoolListBE bits).cast hbits, List.ext_getElem ?_ fun i hi hi' => ?_⟩
  · rw [render, List.length_map, List.length_zipIdx, hcs]
    rfl
  · have hletter : i < letters.length := by simpa [render] using hi
    have hplace : cs[i] = letters[i] ∨ cs[i] = '-' := h.get hletter hi'
    have hne : letters[i] ≠ '-' :=
      (by simp [letters] : ∀ letter ∈ letters, letter ≠ '-') _ (List.getElem_mem hletter)
    have hbit : ((BitVec.ofBoolListBE bits).cast hbits).getMsbD i = (cs[i] != '-') := by
      rw [BitVec.getMsbD_cast, BitVec.getMsbD_ofBoolListBE, List.getD_eq_getElem?_getD,
        List.getElem?_eq_getElem (by omega)]
      exact List.getElem_map _
    simp only [render, List.getElem_map, List.getElem_zipIdx, Nat.zero_add, hbit]
    rcases hplace with hplace | hplace
    · simp [hplace, hne]
    · simp [hplace]

theorem read_eq_some_iff {cs : List Char} {m : Mode} : read cs = some m ↔ m.render = cs := by
  constructor
  · intro h
    obtain ⟨n, hn⟩ := exists_render (written_of_readOn h)
    rw [← hn, read_render] at h
    rw [← Option.some.inj h, hn]
  · rintro rfl
    exact read_render m

theorem written_render (m : Mode) : Written m.render := written_of_readOn (read_render m)

end Mode

namespace Permissions

theorem parse?_render (p : Permissions) : parse? p.render = some p := by
  obtain ⟨kind, mode⟩ := p
  rw [parse?, render, String.toList_ofList]
  cases kind with
  | file =>
    change (Mode.read mode.render).map _ = _
    rw [Mode.read_render]
    rfl
  | directory =>
    change (Mode.read mode.render).map _ = _
    rw [Mode.read_render]
    rfl

theorem render_injective {p q : Permissions} (h : p.render = q.render) : p = q := by
  have hread := congrArg parse? h
  rw [parse?_render, parse?_render] at hread
  exact Option.some.inj hread

/-- Nothing is read but what is shown. -/
theorem parse?_eq_some_iff {s : String} {p : Permissions} : parse? s = some p ↔ p.render = s := by
  refine ⟨fun h => ?_, fun h => h ▸ parse?_render p⟩
  rw [parse?] at h
  split at h
  next cs hs =>
    obtain ⟨m, hm, rfl⟩ := Option.map_eq_some_iff.mp h
    rw [render, Mode.read_eq_some_iff.mp hm]
    exact String.toList_injective (hs ▸ String.toList_ofList)
  next cs hs =>
    obtain ⟨m, hm, rfl⟩ := Option.map_eq_some_iff.mp h
    rw [render, Mode.read_eq_some_iff.mp hm]
    exact String.toList_injective (hs ▸ String.toList_ofList)
  next => cases h

/-- The permission text of a node of this kind. -/
def Written (kind : Kind) (s : String) : Prop :=
  ∃ cs, s.toList = kind.letter :: cs ∧ Mode.Written cs

theorem written_iff {kind : Kind} {s : String} :
    Written kind s ↔ ∃ m, parse? s = some ⟨kind, m⟩ := by
  constructor
  · rintro ⟨cs, hs, hcs⟩
    obtain ⟨m, rfl⟩ := Mode.exists_render hcs
    refine ⟨m, parse?_eq_some_iff.mpr (String.toList_injective ?_)⟩
    rw [hs, render, String.toList_ofList]
  · rintro ⟨m, hm⟩
    obtain rfl := parse?_eq_some_iff.mp hm
    exact ⟨m.render, String.toList_ofList, Mode.written_render m⟩

end Permissions

end DesktopTerminal

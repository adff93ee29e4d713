/-!
# Sizes in bytes

Offsets into a line count the bytes of its UTF-8 form. They are computed on the characters, so that
an offset is always the size of what stands before it.
-/
namespace DesktopTerminal.Text

/-- The number of bytes of the UTF-8 form. -/
def size : List Char → Nat
  | [] => 0
  | c :: cs => c.utf8Size + size cs

@[simp] theorem size_nil : size [] = 0 := rfl

@[simp] theorem size_cons (c : Char) (cs : List Char) : size (c :: cs) = c.utf8Size + size cs := rfl

@[simp] theorem size_append (cs ds : List Char) : size (cs ++ ds) = size cs + size ds := by
  induction cs with
  | nil => exact (Nat.zero_add _).symm
  | cons c cs ih => rw [List.cons_append, size_cons, size_cons, ih, Nat.add_assoc]

/-- The text without the characters in front that fit into `n` bytes. -/
def dropSize (n : Nat) : List Char → List Char
  | [] => []
  | c :: cs => if c.utf8Size ≤ n then dropSize (n - c.utf8Size) cs else c :: cs

/-- Dropping the size of a beginning drops that beginning. -/
theorem dropSize_size_append (cs ds : List Char) : dropSize (size cs) (cs ++ ds) = ds := by
  induction cs with
  | nil =>
    cases ds with
    | nil => rfl
    | cons d ds => simp [dropSize, Nat.not_le.2 d.utf8Size_pos]
  | cons c cs ih => simp [dropSize, ih]

end DesktopTerminal.Text

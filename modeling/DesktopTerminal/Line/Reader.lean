import DesktopTerminal.Line.Token

/-!
# Readers of tokens

A reader takes a value off the front of the tokens that are left, or refuses them. One that is made of
others may give tokens back and go on differently, so the place where the whole fails need not be the
furthest that was reached. Each reply therefore says what was left at its furthest refusal, also when
it has a value.
-/
namespace DesktopTerminal.Line

structure Reply (α : Type) where
  /-- The value, and what is left after it. -/
  value : Option (α × List (Spanned Token))
  /-- What was left at the furthest refusal. -/
  refused : Option (List (Spanned Token))

def Reader (α : Type) : Type := List (Spanned Token) → Reply α

/-- Of two refusals the one with less left is the further. -/
def further :
    Option (List (Spanned Token)) → Option (List (Spanned Token)) → Option (List (Spanned Token))
  | none, second => second
  | some first, none => some first
  | some first, some second => if first.length < second.length then some first else some second

section

variable (t : Spanned Token) {first second : List (Spanned Token)}

@[simp] theorem further_none (refused : Option (List (Spanned Token))) :
    further refused none = refused := by
  cases refused <;> rfl

@[simp] theorem none_further (refused : Option (List (Spanned Token))) :
    further none refused = refused := rfl

theorem further_of_le (h : second.length ≤ first.length) :
    further (some first) (some second) = some second :=
  if_neg (Nat.not_lt.mpr h)

theorem further_of_lt (h : first.length < second.length) :
    further (some first) (some second) = some first :=
  if_pos h

@[simp] theorem further_self : further (some first) (some first) = some first :=
  further_of_le (Nat.le_refl _)

@[simp] theorem further_cons_left : further (some (t :: first)) (some first) = some first :=
  further_of_le (Nat.le_succ _)

@[simp] theorem further_cons_right : further (some first) (some (t :: first)) = some first :=
  further_of_lt (Nat.lt_succ_self _)

end

theorem further_assoc (a b c : Option (List (Spanned Token))) :
    further (further a b) c = further a (further b c) := by
  cases a with
  | none => rfl
  | some a =>
    cases b with
    | none => rfl
    | some b =>
      cases c with
      | none => simp only [further_none]
      | some c =>
        simp only [further]
        by_cases hab : a.length < b.length
        · by_cases hbc : b.length < c.length
          · simp [hab, hbc, Nat.lt_trans hab hbc]
          · simp [hab, hbc]
        · by_cases hbc : b.length < c.length
          · simp [hab, hbc]
          · have hac : ¬ a.length < c.length := by omega
            simp [hab, hbc, hac]

namespace Reply

variable {α β γ : Type}

def map (f : α → β) (reply : Reply α) : Reply β :=
  ⟨reply.value.map fun (a, rest) => (f a, rest), reply.refused⟩

/-- The reply of a reader that goes on after an earlier refusal. -/
def after (earlier : Option (List (Spanned Token))) (reply : Reply α) : Reply α :=
  ⟨reply.value, further earlier reply.refused⟩

/-- Goes on with what is left, if there is a value. -/
def bind (reply : Reply α) (f : α → Reader β) : Reply β :=
  match reply with
  | ⟨none, refused⟩ => ⟨none, refused⟩
  | ⟨some (a, rest), refused⟩ => (f a rest).after refused

@[simp] theorem after_none (reply : Reply α) : reply.after none = reply := rfl

@[simp] theorem after_mk (value : Option (α × List (Spanned Token)))
    (earlier refused : Option (List (Spanned Token))) :
    after earlier ⟨value, refused⟩ = ⟨value, further earlier refused⟩ := rfl

@[simp] theorem bind_refused (refused : Option (List (Spanned Token))) (f : α → Reader β) :
    bind ⟨none, refused⟩ f = ⟨none, refused⟩ := rfl

@[simp] theorem bind_value (a : α) (rest : List (Spanned Token))
    (refused : Option (List (Spanned Token))) (f : α → Reader β) :
    bind ⟨some (a, rest), refused⟩ f = (f a rest).after refused := rfl

theorem map_bind (g : α → β) (reply : Reply α) (f : β → Reader γ) :
    (reply.map g).bind f = reply.bind fun a => f (g a) := by
  obtain ⟨_ | ⟨a, rest⟩, refused⟩ := reply <;> rfl

theorem after_bind (earlier : Option (List (Spanned Token))) (reply : Reply α) (f : α → Reader β) :
    (reply.after earlier).bind f = (reply.bind f).after earlier := by
  obtain ⟨_ | ⟨a, rest⟩, refused⟩ := reply
  · rfl
  · simp [after, further_assoc]

theorem bind_bind (reply : Reply α) (f : α → Reader β) (g : β → Reader γ) :
    (reply.bind f).bind g = reply.bind fun a ts => (f a ts).bind g := by
  obtain ⟨_ | ⟨a, rest⟩, refused⟩ := reply
  · rfl
  · exact after_bind refused (f a rest) g

end Reply

namespace Reader

variable {α β : Type}

instance : Monad Reader where
  pure a := fun ts => ⟨some (a, ts), none⟩
  bind p f := fun ts => (p ts).bind f

/-- The next token, if it is one of those that stand for a value. -/
def select (meaning : Token → Option α) : Reader α
  | [] => ⟨none, some []⟩
  | t :: ts =>
    match meaning t.value with
    | none => ⟨none, some (t :: ts)⟩
    | some a => ⟨some (a, ts), none⟩

/-- A value or nothing. -/
def optional (p : Reader α) : Reader (Option α) := fun ts =>
  match p ts with
  | ⟨none, refused⟩ => ⟨some (none, ts), refused⟩
  | ⟨some (a, rest), refused⟩ => ⟨some (some a, rest), refused⟩

/-- As many values as there are. The attempt that is refused gives its tokens back, and a value that
takes no token is the last. -/
def many (p : Reader α) : Reader (List α) := fun ts =>
  match p ts with
  | ⟨none, refused⟩ => ⟨some ([], ts), refused⟩
  | ⟨some (a, rest), refused⟩ =>
    if _ : rest.length < ts.length then ((many p rest).map (a :: ·)).after refused
    else ⟨some ([a], rest), refused⟩
termination_by ts => ts.length

/-- One value or more, with a separator between any two. A separator that no value follows is given
back. -/
def separated (p : Reader α) (separator : Reader β) : Reader (List α) := do
  let first ← p
  let more ← many (do let _ ← separator; p)
  pure (first :: more)

/-- Nothing is left. -/
def finish : Reader Unit
  | [] => ⟨some ((), []), none⟩
  | t :: ts => ⟨none, some (t :: ts)⟩

variable {ts rest : List (Spanned Token)} {refused : Option (List (Spanned Token))} {a : α}

@[simp] theorem pure_apply (a : α) (ts : List (Spanned Token)) :
    (pure a : Reader α) ts = ⟨some (a, ts), none⟩ := rfl

@[simp] theorem bind_apply (p : Reader α) (f : α → Reader β) (ts : List (Spanned Token)) :
    (p >>= f) ts = (p ts).bind f := rfl

theorem many_of_refused {p : Reader α} (h : p ts = ⟨none, refused⟩) :
    many p ts = ⟨some ([], ts), refused⟩ := by
  rw [many, h]

theorem many_of_value {p : Reader α} (h : p ts = ⟨some (a, rest), refused⟩)
    (hlt : rest.length < ts.length) :
    many p ts = ((many p rest).map (a :: ·)).after refused := by
  rw [many, h]
  exact dif_pos hlt

theorem optional_of_refused {p : Reader α} (h : p ts = ⟨none, refused⟩) :
    optional p ts = ⟨some (none, ts), refused⟩ := by
  rw [optional, h]

theorem optional_of_value {p : Reader α} (h : p ts = ⟨some (a, rest), refused⟩) :
    optional p ts = ⟨some (some a, rest), refused⟩ := by
  rw [optional, h]

end Reader

end DesktopTerminal.Line

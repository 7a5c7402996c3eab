import Mathlib.Tactic.Common

/-!
# What holds of the outcome of a computation that may fail

`Sat E P x` says of `x : Except ε α` that its result satisfies `P` and its failure `E`. It is
proved along the structure of the program: `bind` for a `do` block, and the two projections
for a program that matches on the outcome of a part of itself.
-/

namespace LuoYun

variable {ε α β : Type}

/-- A result satisfies `P`, a failure satisfies `E`. -/
def Sat (E : ε → Prop) (P : α → Prop) : Except ε α → Prop
  | .ok a => P a
  | .error e => E e

namespace Sat

variable {E : ε → Prop} {P Q : α → Prop} {x : Except ε α}

theorem mono (h : Sat E P x) (hPQ : ∀ a, P a → Q a) : Sat E Q x := by
  cases x with
  | ok a => exact hPQ a h
  | error e => exact h

theorem bind {f : α → Except ε β} {R : β → Prop} (h : Sat E P x) (hf : ∀ a, P a → Sat E R (f a)) :
    Sat E R (x >>= f) := by
  cases x with
  | ok a => exact hf a h
  | error e => exact h

theorem of_ok {a : α} (h : Sat E P x) (hx : x = .ok a) : P a := by
  subst hx
  exact h

theorem of_error {e : ε} (h : Sat E P x) (hx : x = .error e) : E e := by
  subst hx
  exact h

end Sat

/-- A `do` block that succeeds has come through its first statement. -/
theorem exists_ok_of_bind {x : Except ε α} {f : α → Except ε β} {b : β} (h : (x >>= f) = .ok b) :
    ∃ a, x = .ok a ∧ f a = .ok b := by
  cases x with
  | ok a => exact ⟨a, rfl, h⟩
  | error e => cases h

theorem map_ok {x : Except ε α} {f : α → β} {b : β} (h : x.map f = .ok b) :
    ∃ a, x = .ok a ∧ f a = b := by
  cases x with
  | ok a => exact ⟨a, rfl, Except.ok.inj h⟩
  | error e => cases h

end LuoYun

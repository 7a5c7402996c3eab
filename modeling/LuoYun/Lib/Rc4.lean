import Mathlib.Algebra.GroupWithZero.Nat
import Mathlib.Data.List.FinRange
import Mathlib.Logic.Equiv.Basic
import Mathlib.Tactic.Common

/-!
# RC4

The cipher on an alphabet of `n` symbols; with bytes, `n` is 256. The state is a permutation and two
indices, so whatever key and however many steps, no symbol is lost. An implementation keeps the
permutation in an array: `State.box` is that array, and `box_exchange` is how it changes in place.
-/

namespace LuoYun.Rc4

variable {n : Nat}

structure State (n : Nat) where
  S : Equiv.Perm (Fin n)
  i : Fin n
  j : Fin n

namespace State

/-- Exchange the entries at the two indices. -/
def exchange (s : State n) : State n := { s with S := (Equiv.swap s.i s.j).trans s.S }

/-- The permutation as an array. -/
def box (s : State n) : List Nat := List.ofFn fun k => (s.S k : Nat)

end State

section

variable [NeZero n]

/-- One step of the key schedule. -/
def scheduleStep (key : Fin n → Fin n) (s : State n) (i : Fin n) : State n :=
  State.exchange ⟨s.S, i, s.j + s.S i + key i⟩

/-- The key schedule, from the identity. -/
def schedule (key : Fin n → Fin n) : State n :=
  (List.finRange n).foldl (scheduleStep key) ⟨Equiv.refl _, 0, 0⟩

/-- Where the output of a key starts. -/
def start (key : Fin n → Fin n) : State n := ⟨(schedule key).S, 0, 0⟩

/-- One step of the output generator. -/
def advance (s : State n) : State n := State.exchange ⟨s.S, s.i + 1, s.j + s.S (s.i + 1)⟩

/-- What the generator puts out in a state. -/
def output (s : State n) : Fin n := s.S (s.S s.i + s.S s.j)

variable {α : Type}

/-- Every symbol of the text is mixed with the next output. -/
def crypt (mix : α → Fin n → α) : State n → List α → List α
  | _, [] => []
  | s, a :: text => mix a (output (advance s)) :: crypt mix (advance s) text

/-- A mixture that undoes itself gives a cipher that does. -/
theorem crypt_crypt {mix : α → Fin n → α} (h : ∀ a k, mix (mix a k) k = a) (s : State n)
    (text : List α) : crypt mix s (crypt mix s text) = text := by
  induction text generalizing s with
  | nil => rfl
  | cons a text ih => rw [crypt, crypt, h, ih]

/-- Symbols may be represented in another way. -/
theorem map_crypt {β : Type} {mix : α → Fin n → α} {mix' : β → Fin n → β} {f : α → β}
    (h : ∀ a k, f (mix a k) = mix' (f a) k) (s : State n) (text : List α) :
    (crypt mix s text).map f = crypt mix' s (text.map f) := by
  induction text generalizing s with
  | nil => rfl
  | cons a text ih => rw [crypt, List.map_cons, List.map_cons, crypt, h, ih]

end

/-! ## The array -/

namespace State

variable (s : State n)

@[simp] theorem length_box : s.box.length = n := List.length_ofFn

theorem getElem?_box (k : Fin n) : s.box[(k : Nat)]? = some (s.S k : Nat) := by
  rw [box, List.getElem?_ofFn, dif_pos k.isLt]

/-- The array does not depend on the indices. -/
theorem box_indices (i j : Fin n) : (⟨s.S, i, j⟩ : State n).box = s.box := rfl

/-- The array of the identity. -/
theorem box_refl (i j : Fin n) : (⟨Equiv.refl _, i, j⟩ : State n).box = List.range n :=
  List.ext_getElem (by simp) (by simp [box])

/-- **Every symbol stands in the array once.** -/
theorem box_perm : s.box.Perm (List.range n) := by
  have hperm := s.S.ofFn_comp_perm fun k : Fin n => (k : Nat)
  rw [← box_refl s.i s.j]
  exact hperm

theorem box_exchange :
    s.exchange.box = (s.box.set s.i (s.S s.j : Nat)).set s.j (s.S s.i : Nat) := by
  refine List.ext_getElem (by simp) ?_
  intro k hk _
  rw [length_box] at hk
  have hleft : s.exchange.box[k] = (s.S (Equiv.swap s.i s.j ⟨k, hk⟩) : Nat) := by
    simp [box, exchange]
  rw [hleft, List.getElem_set, List.getElem_set]
  by_cases hj : (s.j : Nat) = k
  · have he : (⟨k, hk⟩ : Fin n) = s.j := Fin.ext hj.symm
    rw [if_pos hj, he, Equiv.swap_apply_right]
  · by_cases hi : (s.i : Nat) = k
    · have he : (⟨k, hk⟩ : Fin n) = s.i := Fin.ext hi.symm
      rw [if_neg hj, if_pos hi, he, Equiv.swap_apply_left]
    · have hni : (⟨k, hk⟩ : Fin n) ≠ s.i := fun he => hi (congrArg Fin.val he).symm
      have hnj : (⟨k, hk⟩ : Fin n) ≠ s.j := fun he => hj (congrArg Fin.val he).symm
      rw [if_neg hj, if_neg hi, Equiv.swap_apply_of_ne_of_ne hni hnj]
      simp [box]

end State

end LuoYun.Rc4

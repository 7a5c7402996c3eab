import Mathlib.Tactic.Common

/-!
# Loops with an early exit

A C loop `while (1) { … }` whose body either goes round again, returns, or leaves defined
behaviour. `Loop.run body n s` is what `n` rounds give: `none` when the loop is still going.
A statement that the loop *ends* is therefore a statement that some `n` gives a result.

That is the case as soon as a measure that every further round decreases bounds the number of
rounds.
-/

namespace LuoYun.Loop

variable {σ ε ρ : Type}

/-- `n` rounds of the loop with this body: `inl` goes round again, `inr` leaves the loop. -/
def run (body : σ → Except ε (σ ⊕ ρ)) : Nat → σ → Option (Except ε ρ)
  | 0, _ => none
  | n + 1, s =>
    match body s with
    | .error e => some (.error e)
    | .ok (.inr r) => some (.ok r)
    | .ok (.inl t) => run body n t

variable {body : σ → Except ε (σ ⊕ ρ)}

theorem run_continue {s t : σ} (h : body s = .ok (.inl t)) (n : Nat) :
    run body (n + 1) s = run body n t := by
  rw [run, h]

theorem run_stop {s : σ} {r : ρ} (h : body s = .ok (.inr r)) (n : Nat) :
    run body (n + 1) s = some (.ok r) := by
  rw [run, h]

/-- **The termination rule.** A measure that every further round decreases bounds the rounds. -/
theorem run_isSome {I : σ → Prop} {μ : σ → Nat}
    (hstep : ∀ s t, I s → body s = .ok (.inl t) → I t ∧ μ t < μ s)
    {n : Nat} {s : σ} (hs : I s) (hn : μ s < n) : (run body n s).isSome := by
  induction n generalizing s with
  | zero => omega
  | succ n ih =>
    rw [run]
    split
    · rfl
    · rfl
    · rename_i t hb
      obtain ⟨ht, hlt⟩ := hstep s t hs hb
      exact ih ht (by omega)

end LuoYun.Loop

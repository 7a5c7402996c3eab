import Mathlib.Tactic.Common

/-!
# Two parties and the queues between them

Each party is a function of its state and of the message it gets next; it answers with messages, or
it breaks off. The messages on their way wait in two queues, and at any time either party may take
the next one of its own. So the order of the steps is open, and runs differ.

Where they lead does not. Two different steps are steps of different parties, and each only takes
from the front of a queue and adds to the end of the other; so they commute (`step_diamond`), and
one run that ends tells how every run ends, and after how many steps (`run_of_done`).
-/

namespace LuoYun.Duplex

/-! ## Steps that commute -/

section Diamond

variable {α : Type} {R : α → α → Prop}

/-- A run of so many steps. -/
inductive Run (R : α → α → Prop) : Nat → α → α → Prop where
  | refl (a : α) : Run R 0 a a
  | head {n : Nat} {a b c : α} (h : R a b) (hr : Run R n b c) : Run R (n + 1) a c

theorem Run.trans {n k : Nat} {a b c : α} (h : Run R n a b) (h' : Run R k b c) :
    Run R (n + k) a c := by
  induction h with
  | refl a => rwa [Nat.zero_add]
  | head hab _ ih =>
    rw [Nat.add_right_comm]
    exact .head hab (ih h')

/-- Two steps from one state are the same, or there is a common next state. -/
def Diamond (R : α → α → Prop) : Prop :=
  ∀ a b c, R a b → R a c → b = c ∨ ∃ d, R b d ∧ R c d

/-- **One run that cannot go on tells the length and the end of every run.** -/
theorem Run.of_done (hR : Diamond R) {n : Nat} {a e : α} (h : Run R n a e) (he : ∀ b, ¬ R e b) :
    ∀ {k : Nat} {b : α}, Run R k a b → k ≤ n ∧ Run R (n - k) b e := by
  induction n generalizing a with
  | zero =>
    intro k b hk
    cases h
    cases hk with
    | refl => exact ⟨Nat.le_refl 0, .refl e⟩
    | head hb => exact absurd hb (he _)
  | succ n ih =>
    intro k b hk
    cases h with
    | @head _ _ c _ hac hce =>
      cases hk with
      | refl => exact ⟨Nat.zero_le _, .head hac hce⟩
      | @head _ _ d _ had hdb =>
        -- the run from the first step of this one ends where the given one does
        have hde : Run R n d e := by
          rcases hR _ _ _ hac had with rfl | ⟨d', hcd, hdd⟩
          · exact hce
          · obtain ⟨hle, hrest⟩ := ih hce (.head hcd (.refl d'))
            have hn : n - 1 + 1 = n := by omega
            exact hn ▸ .head hdd hrest
        obtain ⟨hle, hrest⟩ := ih hde hdb
        exact ⟨Nat.succ_le_succ hle, by rwa [Nat.add_sub_add_right]⟩

end Diamond

/-! ## Two parties -/

variable {σ τ α β : Type}

/-- What a party does with a message: its new state and what it says, or nothing if it breaks off.
-/
abbrev Party (σ α β : Type) := σ → α → Option (σ × List β)

/-- The parties, and the messages that are on their way to each. -/
structure Pair (σ τ α β : Type) where
  left : σ
  right : τ
  toLeft : List α := []
  toRight : List β := []

/-- One of the parties takes its next message. -/
inductive Step (f : Party σ α β) (g : Party τ β α) : Pair σ τ α β → Pair σ τ α β → Prop where
  | left {s s' : σ} {t : τ} {m : α} {q : List α} {r out : List β} (h : f s m = some (s', out)) :
      Step f g ⟨s, t, m :: q, r⟩ ⟨s', t, q, r ++ out⟩
  | right {s : σ} {t t' : τ} {m : β} {q out : List α} {r : List β} (h : g t m = some (t', out)) :
      Step f g ⟨s, t, q, m :: r⟩ ⟨s, t', q ++ out, r⟩

variable {f : Party σ α β} {g : Party τ β α}

theorem step_diamond : Diamond (Step f g) := by
  intro a b c hab hac
  cases hab with
  | left h =>
    cases hac with
    | left h' =>
      obtain ⟨rfl, rfl⟩ := Prod.mk.inj (Option.some.inj (h.symm.trans h'))
      exact .inl rfl
    | right h' => exact .inr ⟨_, .right h', .left h⟩
  | right h =>
    cases hac with
    | left h' => exact .inr ⟨_, .left h', .right h⟩
    | right h' =>
      obtain ⟨rfl, rfl⟩ := Prod.mk.inj (Option.some.inj (h.symm.trans h'))
      exact .inl rfl

/-- Nothing is on its way. -/
def Pair.Quiet (p : Pair σ τ α β) : Prop := p.toLeft = [] ∧ p.toRight = []

theorem Pair.Quiet.no_step {p : Pair σ τ α β} (h : p.Quiet) (q : Pair σ τ α β) :
    ¬ Step f g p q := by
  intro hs
  cases hs with
  | left => exact List.cons_ne_nil _ _ h.1
  | right => exact List.cons_ne_nil _ _ h.2

/-- **If the messages run out in one order, they do in every order**, after as many steps and in the
same state. -/
theorem run_of_done {n : Nat} {p e : Pair σ τ α β} (h : Run (Step f g) n p e)
    (he : e.Quiet) {k : Nat}
    {q : Pair σ τ α β} (hk : Run (Step f g) k p q) : k ≤ n ∧ Run (Step f g) (n - k) q e :=
  h.of_done step_diamond he.no_step hk

end LuoYun.Duplex

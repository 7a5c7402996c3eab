import LuoYun.Lib.Prog

/-!
# Threads over a shared state

Any number of threads, each with a program of its own, share a state. A thread may begin at any
time, and the calls of the threads come in any order. Beside its program a thread has a ghost value,
which records what the calls have answered it; the programs cannot see it.

`meets` is a condition on the single step, so that a statement may be about the runs all of whose
steps meet it.

`Reach.safe` is the rule for what holds of each thread by itself: a program that is safe under a
monitor stays so, whatever the others do, as long as the monitor allows for everything the shared
state may answer.
-/

namespace LuoYun

/-- A thread: what it was started for, the rest of its program, and its ghost value. -/
structure Thread (Op Ans α ρ γ : Type) where
  request : ρ
  prog : Prog Op Ans α
  ghost : γ

/-- The shared state and the threads. -/
structure Pool (Op Ans α ρ γ σ : Type) where
  shared : σ
  thread : Nat → Option (Thread Op Ans α ρ γ) := fun _ => none

/-- What the threads run, what a call may do to the shared state, and how the ghost value follows.
-/
structure Threads (Op Ans α ρ γ σ : Type) where
  body : ρ → Prog Op Ans α
  ghost : γ
  does : σ → Op → Ans → σ → Prop
  watch : σ → γ → Op → Ans → γ

namespace Pool

variable {Op Ans α ρ γ σ : Type}

/-- The shared state and one thread are replaced. -/
def set (P : Pool Op Ans α ρ γ σ) (s : σ) (i : Nat) (t : Thread Op Ans α ρ γ) :
    Pool Op Ans α ρ γ σ :=
  ⟨s, fun j => if j = i then some t else P.thread j⟩

variable {P : Pool Op Ans α ρ γ σ} {s : σ} {i j : Nat} {t t' : Thread Op Ans α ρ γ}

@[simp] theorem set_shared : (P.set s i t).shared = s := rfl
@[simp] theorem set_self : (P.set s i t).thread i = some t := by simp [set]

theorem set_ne (h : j ≠ i) : (P.set s i t).thread j = P.thread j := by simp [set, h]

@[simp] theorem set_set {s' : σ} : (P.set s i t).set s' i t' = P.set s' i t' := by
  simp only [set, mk.injEq, true_and]
  funext j
  split <;> rfl

theorem set_eq_self (h : P.thread i = some t) : P.set P.shared i t = P := by
  cases P with
  | mk s thread =>
    simp only [set, mk.injEq, true_and]
    funext j
    split
    next hj =>
      subst hj
      exact h.symm
    · rfl

/-- A thread afterwards is the one that was replaced, or one of the others. -/
theorem set_cases (h : (P.set s i t).thread j = some t') :
    j = i ∧ t' = t ∨ j ≠ i ∧ P.thread j = some t' := by
  by_cases hj : j = i
  · subst hj
    exact .inl ⟨rfl, (Option.some.inj (set_self.symm.trans h)).symm⟩
  · exact .inr ⟨hj, (set_ne hj).symm.trans h⟩

end Pool

namespace Threads

variable {Op Ans α ρ γ σ : Type} (sys : Threads Op Ans α ρ γ σ)
  (meets : Pool Op Ans α ρ γ σ → Nat → Op → Ans → Prop)

/-- The pools that are reached by steps that meet the condition. -/
inductive Reach : Pool Op Ans α ρ γ σ → Prop where
  | start (s : σ) : Reach ⟨s, fun _ => none⟩
  | spawn {P : Pool Op Ans α ρ γ σ} {i : Nat} (r : ρ) (hP : Reach P) (hi : P.thread i = none) :
      Reach (P.set P.shared i ⟨r, sys.body r, sys.ghost⟩)
  | call {P : Pool Op Ans α ρ γ σ} {i : Nat} {r : ρ} {op : Op}
      {k : Ans → Prog Op Ans α} {g : γ} {x : Ans}
      {s : σ} (hP : Reach P) (hi : P.thread i = some ⟨r, .call op k, g⟩)
        (hdoes : sys.does P.shared op x s)
      (hmeets : meets P i op x) : Reach (P.set s i ⟨r, k x, sys.watch P.shared g op x⟩)

variable {sys meets}

/-- **Each thread by itself**: what its program is safe for it stays safe for. -/
theorem Reach.safe {m : ρ → Monitor Op Ans γ} {Q : ρ → γ → α → Prop} {P : Pool Op Ans α ρ γ σ}
    (hP : sys.Reach meets P) (hbody : ∀ r, Safe (m r) (Q r) (sys.body r) sys.ghost)
    (hwatch : ∀ {P i r op k g x s}, P.thread i = some ⟨r, .call op k, g⟩ →
      sys.does P.shared op x s →
      meets P i op x → (m r).next g op x (sys.watch P.shared g op x)) {i : Nat}
        {t : Thread Op Ans α ρ γ}
    (hi : P.thread i = some t) : Safe (m t.request) (Q t.request) t.prog t.ghost := by
  induction hP generalizing i t with
  | start s => cases hi
  | spawn r hP hfree ih =>
    rcases Pool.set_cases hi with ⟨-, rfl⟩ | ⟨-, hj⟩
    · exact hbody r
    · exact ih hj
  | call hP hcall hdoes hmeets ih =>
    rcases Pool.set_cases hi with ⟨-, rfl⟩ | ⟨-, hj⟩
    · exact (ih hcall).2 _ _ (hwatch hcall hdoes hmeets)
    · exact ih hj

variable (sys)

/-- A thread makes the next `n` calls of its program, all of them answered by `answer`. -/
def advance (answer : σ → Op → Ans × σ) : Nat → Prog Op Ans α → γ → σ → Prog Op Ans α × γ × σ
  | 0, p, g, s => (p, g, s)
  | _ + 1, .ret a, g, s => (.ret a, g, s)
  | n + 1, .call op k, g, s =>
    advance answer n (k (answer s op).1) (sys.watch s g op (answer s op).1) (answer s op).2

/-- All these calls pass a check. -/
def advanceOk (answer : σ → Op → Ans × σ) (check : γ → σ → Op → Bool) :
    Nat → Prog Op Ans α → γ → σ → Bool
  | 0, _, _, _ => true
  | _ + 1, .ret _, _, _ => true
  | n + 1, .call op k, g, s => check g s op &&
    advanceOk answer check n (k (answer s op).1) (sys.watch s g op (answer s op).1) (answer s op).2

variable {sys}

/-- **A thread that is alone** reaches what its program does, if the calls it makes pass a check
that is enough for the condition. -/
theorem Reach.advance {answer : σ → Op → Ans × σ} {c : γ → σ → Op → Bool} {i : Nat} {r : ρ}
    (hdoes : ∀ s op, sys.does s op (answer s op).1 (answer s op).2)
    (hmeets : ∀ P g op k, P.thread i = some ⟨r, .call op k, g⟩ → (∀ j, j ≠ i → P.thread j = none) →
      c g P.shared op = true → meets P i op (answer P.shared op).1) (n : Nat)
        {P : Pool Op Ans α ρ γ σ}
    {p : Prog Op Ans α} {g : γ} (hP : sys.Reach meets P) (hi : P.thread i = some ⟨r, p, g⟩)
    (halone : ∀ j, j ≠ i → P.thread j = none) (hok : sys.advanceOk answer c n p g P.shared = true) :
    sys.Reach meets (P.set (sys.advance answer n p g P.shared).2.2 i
      ⟨r, (sys.advance answer n p g P.shared).1, (sys.advance answer n p g P.shared).2.1⟩) := by
  induction n generalizing P p g with
  | zero => simpa only [Threads.advance, Pool.set_eq_self hi] using hP
  | succ n ih =>
    cases p with
    | ret a => simpa only [Threads.advance, Pool.set_eq_self hi] using hP
    | call op k =>
      obtain ⟨hcheck, hrest⟩ := Bool.and_eq_true_iff.mp hok
      have hnext := Reach.call hP hi (hdoes _ op) (hmeets P g op k hi halone hcheck)
      have hlast := ih hnext Pool.set_self (fun j hj => (Pool.set_ne hj).trans (halone j hj)) hrest
      rwa [Pool.set_set] at hlast

end Threads

end LuoYun

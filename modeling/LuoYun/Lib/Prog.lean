import Mathlib.Tactic.Common

/-!
# Programs that call out

A program is a tree: it returns, or it makes a call and goes on with whatever the call answers.
What a call may answer is not part of the program, so one text stands for the runs under every
outcome of every call.

A `Monitor` watches the calls of a program. It keeps a state of its own, says which answers and next
states are possible, and which calls must not be made. `Safe m Q p g` is the weakest precondition:
from state `g`, whatever the calls answer, no forbidden call is made and the result satisfies `Q`.
It is compositional (`Safe.bind`), and a part of a program that makes only harmless calls is dealt
with in one step (`Safe.of_all`).
-/

namespace LuoYun

/-- A program with calls `Op` that answer with an `Ans`. -/
inductive Prog (Op : Type) (Ans : Type) (α : Type) where
  | ret (a : α)
  | call (op : Op) (next : Ans → Prog Op Ans α)

namespace Prog

variable {Op Ans α β γ : Type}

/-- One program after the other. -/
def bind : Prog Op Ans α → (α → Prog Op Ans β) → Prog Op Ans β
  | ret a, f => f a
  | call op next, f => call op fun x => (next x).bind f

instance : Monad (Prog Op Ans) where
  pure := ret
  bind := bind

/-- A single call. -/
def ask (op : Op) : Prog Op Ans Ans := call op ret

@[simp] theorem pure_eq (a : α) : (pure a : Prog Op Ans α) = ret a := rfl
@[simp] theorem bind_eq (p : Prog Op Ans α) (f : α → Prog Op Ans β) : (p >>= f) = p.bind f := rfl
@[simp] theorem ret_bind (a : α) (f : α → Prog Op Ans β) : (ret a).bind f = f a := rfl
@[simp] theorem call_bind (op : Op) (next : Ans → Prog Op Ans α) (f : α → Prog Op Ans β) :
    (call op next).bind f = call op fun x => (next x).bind f := rfl
@[simp] theorem ask_bind (op : Op) (f : Ans → Prog Op Ans β) :
    (ask op).bind f = call op f := rfl

theorem bind_assoc (p : Prog Op Ans α) (f : α → Prog Op Ans β) (g : β → Prog Op Ans γ) :
    (p.bind f).bind g = p.bind fun a => (f a).bind g := by
  induction p with
  | ret a => rfl
  | call op next ih =>
    simp only [call_bind]
    exact congrArg (call op) (funext ih)

/-! ## Every call -/

/-- Every call of the program satisfies `P`, whatever the earlier ones have answered. -/
def All (P : Op → Prop) : Prog Op Ans α → Prop
  | ret _ => True
  | call op next => P op ∧ ∀ x, (next x).All P

variable {P : Op → Prop} {p : Prog Op Ans α}

@[simp] theorem all_ret (a : α) : (ret a : Prog Op Ans α).All P := trivial

@[simp] theorem all_call {op : Op} {next : Ans → Prog Op Ans α} :
    (call op next).All P ↔ P op ∧ ∀ x, (next x).All P := Iff.rfl

@[simp] theorem all_ite {c : Prop} [Decidable c] {p q : Prog Op Ans α} :
    (if c then p else q).All P ↔ (c → p.All P) ∧ (¬c → q.All P) := by
  split <;> simp [*]

theorem All.call {op : Op} {next : Ans → Prog Op Ans α} (h : P op) (hnext : ∀ x, (next x).All P) :
    (call op next).All P := ⟨h, hnext⟩

theorem All.bind {f : α → Prog Op Ans β} (h : p.All P) (hf : ∀ a, (f a).All P) :
    (p.bind f).All P := by
  induction p with
  | ret a => exact hf a
  | call op next ih => exact ⟨h.1, fun x => ih x (h.2 x)⟩

theorem All.mono {P' : Op → Prop} (h : p.All P) (hP : ∀ op, P op → P' op) : p.All P' := by
  induction p with
  | ret a => trivial
  | call op next ih => exact ⟨hP op h.1, fun x => ih x (h.2 x)⟩

/-- Whatever the calls answer, what the program returns satisfies `R`. -/
def Returns (R : α → Prop) : Prog Op Ans α → Prop
  | ret a => R a
  | call _ next => ∀ x, (next x).Returns R

@[simp] theorem returns_ret {R : α → Prop} {a : α} :
    (ret a : Prog Op Ans α).Returns R ↔ R a := Iff.rfl

@[simp] theorem returns_call {R : α → Prop} {op : Op} {next : Ans → Prog Op Ans α} :
    (call op next).Returns R ↔ ∀ x, (next x).Returns R := Iff.rfl

theorem Returns.bind {R : α → Prop} {Q : β → Prop} {f : α → Prog Op Ans β} (h : p.Returns R)
    (hf : ∀ a, R a → (f a).Returns Q) : (p.bind f).Returns Q := by
  induction p with
  | ret a => exact hf a h
  | call op next ih => exact fun x => ih x (h x)

theorem returns_bind_of_forall {Q : β → Prop} {f : α → Prog Op Ans β} (hf : ∀ a, (f a).Returns Q) :
    (p.bind f).Returns Q := by
  induction p with
  | ret a => exact hf a
  | call op next ih => exact ih

/-- The next call, if there is one. -/
def nextCall : Prog Op Ans α → Option Op
  | ret _ => none
  | call op _ => some op

end Prog

/-! ## Monitors -/

/-- A state kept beside a program: which calls are allowed, and what an answer does to it. -/
structure Monitor (Op Ans γ : Type) where
  ok : γ → Op → Prop
  next : γ → Op → Ans → γ → Prop

/-- From state `g` the program makes allowed calls only, and what it returns satisfies `Q`. -/
def Safe {Op Ans α γ : Type} (m : Monitor Op Ans γ) (Q : γ → α → Prop) : Prog Op Ans α → γ → Prop
  | .ret a, g => Q g a
  | .call op next, g => m.ok g op ∧ ∀ x g', m.next g op x g' → Safe m Q (next x) g'

namespace Safe

variable {Op Ans α β γ : Type} {m : Monitor Op Ans γ} {Q Q' : γ → α → Prop}
    {p : Prog Op Ans α} {g : γ}

@[simp] theorem ret_iff {a : α} : Safe m Q (.ret a) g ↔ Q g a := Iff.rfl

@[simp] theorem call_iff {op : Op} {next : Ans → Prog Op Ans α} :
    Safe m Q (.call op next) g ↔ m.ok g op ∧ ∀ x g', m.next g op x g' →
      Safe m Q (next x) g' := Iff.rfl

/-- A call, and the rest of the program after each answer. -/
theorem call {op : Op} {next : Ans → Prog Op Ans α} (hok : m.ok g op)
    (h : ∀ x g', m.next g op x g' → Safe m Q (next x) g') : Safe m Q (.call op next) g := ⟨hok, h⟩

theorem mono (h : Safe m Q p g) (hQ : ∀ g a, Q g a → Q' g a) : Safe m Q' p g := by
  induction p generalizing g with
  | ret a => exact hQ g a h
  | call op next ih => exact ⟨h.1, fun x g' hx => ih x (h.2 x g' hx)⟩

/-- **Sequencing.** -/
theorem bind {f : α → Prog Op Ans β} {R : γ → β → Prop} (h : Safe m Q p g)
    (hf : ∀ g a, Q g a → Safe m R (f a) g) : Safe m R (p.bind f) g := by
  induction p generalizing g with
  | ret a => exact hf g a h
  | call op next ih => exact ⟨h.1, fun x g' hx => ih x (h.2 x g' hx)⟩

/-- **Harmless calls**: they are allowed and keep `I`. -/
theorem of_all {P : Op → Prop} {I : γ → Prop} (hok : ∀ g op, I g → P op → m.ok g op)
    (hnext : ∀ g op x g', I g → P op → m.next g op x g' → I g') (h : p.All P) (hg : I g) :
    Safe m (fun g _ => I g) p g := by
  induction p generalizing g with
  | ret a => exact hg
  | call op next ih =>
    exact ⟨hok g op hg h.1, fun x g' hx => ih x (h.2 x) (hnext g op x g' hg h.1 hx)⟩

/-- A monitor that allows every call. -/
theorem of_ok (hok : ∀ g op, m.ok g op) : Safe m (fun _ _ => True) p g := by
  induction p generalizing g with
  | ret a => trivial
  | call op next ih => exact ⟨hok g op, fun x _ _ => ih x⟩

/-- Two things that are both true of the result. -/
theorem and (h : Safe m Q p g) (h' : Safe m Q' p g) : Safe m (fun g a => Q g a ∧ Q' g a) p g := by
  induction p generalizing g with
  | ret a => exact ⟨h, h'⟩
  | call op next ih => exact ⟨h.1, fun x g' hx => ih x (h.2 x g' hx) (h'.2 x g' hx)⟩

/-- What a program returns in any case. -/
theorem returns {R : α → Prop} (h : Safe m Q p g) (hR : p.Returns R) :
    Safe m (fun g a => Q g a ∧ R a) p g := by
  induction p generalizing g with
  | ret a => exact ⟨h, hR⟩
  | call op next ih => exact ⟨h.1, fun x g' hx => ih x (h.2 x g' hx) (hR x)⟩

end Safe

/-! ## Runs -/

/-- A run of the program under a transition relation on the state it works on: from `g` it ends in
`g'` and returns `a`. -/
inductive Prog.Runs {Op Ans α γ : Type} (next : γ → Op → Ans → γ → Prop) :
    Prog Op Ans α → γ → γ → α → Prop where
  | ret (g : γ) (a : α) : Runs next (.ret a) g g a
  | call {op : Op} {k : Ans → Prog Op Ans α} {g g1 g' : γ} {x : Ans} {a : α} (hop : next g op x g1)
      (hk : Runs next (k x) g1 g' a) : Runs next (.call op k) g g' a

/-- What a program is safe for holds at the end of every run of it. -/
theorem Safe.of_runs {Op Ans α γ : Type} {m : Monitor Op Ans γ}
    {Q : γ → α → Prop} {p : Prog Op Ans α}
    {g g' : γ} {a : α} (h : Safe m Q p g) (hr : Prog.Runs m.next p g g' a) : Q g' a := by
  induction hr with
  | ret g a => exact h
  | call hop _ ih => exact ih (h.2 _ _ hop)

/-- The run in which every call is answered by `answer`. -/
def Prog.exec {Op Ans α γ : Type} (answer : γ → Op → Ans × γ) : Prog Op Ans α → γ → γ × α
  | .ret a, g => (g, a)
  | .call op k, g => (k (answer g op).1).exec answer (answer g op).2

/-- It is a run when the answers are possible ones. -/
theorem Prog.exec_runs {Op Ans α γ : Type} {next : γ → Op → Ans → γ → Prop}
    {answer : γ → Op → Ans × γ}
    (h : ∀ g op, next g op (answer g op).1 (answer g op).2) (p : Prog Op Ans α) (g : γ) :
    p.Runs next g (p.exec answer g).1 (p.exec answer g).2 := by
  induction p generalizing g with
  | ret a => exact Runs.ret g a
  | call op k ih => exact Runs.call (h g op) (ih _ _)

/-- What a program returns in any case it returns in this run. -/
theorem Prog.Returns.of_exec {Op Ans α γ : Type} {R : α → Prop}
    {p : Prog Op Ans α} (h : p.Returns R)
    (answer : γ → Op → Ans × γ) (g : γ) : R (p.exec answer g).2 := by
  induction p generalizing g with
  | ret a => exact h
  | call op k ih => exact ih _ (h _) _

end LuoYun

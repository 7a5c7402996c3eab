import Mathlib.Logic.Relation
import Mathlib.Tactic.Common

/-!
# Machines driven by events

A machine is a function `next : σ → ε → Option (Except φ σ)`: what an event does to a state, where
`none` means that the event cannot happen there and `error` that the machine breaks. A run may be
restricted by a condition `Q` on the events it is made of and the states they occur in. `Reach` is
what such runs lead to.

Since `next` computes, a concrete run is a list of events: `exec` evaluates it, and
`Reach.of_exec` says that what it evaluates to is reached.
-/

namespace LuoYun.Machine

variable {σ ε φ : Type}

/-- One step, by an event that `Q` admits. -/
def Step (next : σ → ε → Option (Except φ σ)) (Q : σ → ε → Prop) (s t : σ) : Prop :=
  ∃ ev, Q s ev ∧ next s ev = some (.ok t)

/-- The states that runs from an initial state lead to. -/
def Reach (next : σ → ε → Option (Except φ σ)) (Q : σ → ε → Prop)
    (init : σ → Prop) (s : σ) : Prop :=
  ∃ s₀, init s₀ ∧ Relation.ReflTransGen (Step next Q) s₀ s

/-- Every event is admitted. -/
def Always : σ → ε → Prop := fun _ _ => True

/-- The state after these events, if they all happen and nothing breaks. -/
def exec (next : σ → ε → Option (Except φ σ)) : List ε → σ → Option σ
  | [], s => some s
  | ev :: evs, s =>
    match next s ev with
    | some (.ok t) => exec next evs t
    | _ => none

/-- The same, as long as every event satisfies the test `q` where it occurs. -/
def execIf (next : σ → ε → Option (Except φ σ)) (q : σ → ε → Bool) : List ε → σ → Option σ
  | [], s => some s
  | ev :: evs, s =>
    match q s ev, next s ev with
    | true, some (.ok t) => execIf next q evs t
    | _, _ => none

theorem exec_cons {next : σ → ε → Option (Except φ σ)} {s t : σ} {ev : ε}
    (h : next s ev = some (.ok t)) (evs : List ε) : exec next (ev :: evs) s = exec next evs t := by
  rw [exec, h]

theorem exec_append {next : σ → ε → Option (Except φ σ)} {s t : σ} {evs : List ε}
    (h : exec next evs s = some t)
    (evs' : List ε) : exec next (evs ++ evs') s = exec next evs' t := by
  induction evs generalizing s with
  | nil =>
    obtain rfl := Option.some.inj h
    rfl
  | cons ev evs ih =>
    rw [exec] at h
    rw [List.cons_append, exec]
    cases hn : next s ev with
    | none =>
      rw [hn] at h
      cases h
    | some r =>
      rw [hn] at h
      cases r with
      | error e => cases h
      | ok u => exact ih h

theorem next_of_exec {next : σ → ε → Option (Except φ σ)} {s t : σ} {ev : ε}
    (h : exec next [ev] s = some t) : next s ev = some (.ok t) := by
  rw [exec] at h
  split at h
  · rename_i u hu
    obtain rfl := Option.some.inj h
    exact hu
  · cases h

/-- A run that passes its tests is a run. -/
theorem exec_of_execIf {next : σ → ε → Option (Except φ σ)} {q : σ → ε → Bool}
    {s t : σ} {evs : List ε} (h : execIf next q evs s = some t) : exec next evs s = some t := by
  induction evs generalizing s with
  | nil => exact h
  | cons ev evs ih =>
    rw [execIf] at h
    split at h
    · rename_i u _ hn
      rw [exec_cons hn]
      exact ih h
    · cases h

namespace Reach

variable {next : σ → ε → Option (Except φ σ)} {Q : σ → ε → Prop} {init : σ → Prop} {s t : σ}

theorem of_init (h : init s) : Reach next Q init s := ⟨s, h, .refl⟩

theorem step (h : Reach next Q init s) (ev : ε) (hq : Q s ev) (hn : next s ev = some (.ok t)) :
    Reach next Q init t := by
  obtain ⟨s₀, h0, hr⟩ := h
  exact ⟨s₀, h0, hr.tail ⟨ev, hq, hn⟩⟩

/-- **The invariant rule.** -/
theorem inv {I : σ → Prop} (h : Reach next Q init s) (h0 : ∀ s, init s → I s)
    (hstep : ∀ s ev t, I s → Q s ev → next s ev = some (.ok t) → I t) : I s := by
  obtain ⟨s₀, hs, hr⟩ := h
  induction hr with
  | refl => exact h0 _ hs
  | tail _ hst ih =>
    obtain ⟨ev, hq, hn⟩ := hst
    exact hstep _ ev _ ih hq hn

/-- A concrete run of events that are admitted anywhere. -/
theorem of_exec {evs : List ε} (h : Reach next Q init s) (hq : ∀ ev ∈ evs, ∀ u, Q u ev)
    (he : exec next evs s = some t) : Reach next Q init t := by
  induction evs generalizing s with
  | nil =>
    obtain rfl := Option.some.inj he
    exact h
  | cons ev evs ih =>
    rw [exec] at he
    split at he
    · rename_i u hu
      exact ih (h.step ev (hq ev List.mem_cons_self s) hu)
        (fun ev' hev => hq ev' (List.mem_cons_of_mem _ hev)) he
    · cases he

/-- A concrete run of events that pass a test. -/
theorem of_execIf {q : σ → ε → Bool} {evs : List ε} (h : Reach next Q init s)
    (hq : ∀ u ev, q u ev = true → Q u ev) (he : execIf next q evs s = some t) :
    Reach next Q init t := by
  induction evs generalizing s with
  | nil =>
    obtain rfl := Option.some.inj he
    exact h
  | cons ev evs ih =>
    rw [execIf] at he
    split at he
    · rename_i hev hn
      exact ih (h.step ev (hq _ _ hev) hn) he
    · cases he

end Reach

end LuoYun.Machine

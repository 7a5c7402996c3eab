import Mathlib.Data.List.Basic
import Mathlib.Tactic.Common

/-!
# Streams with gaps

What a reader with a timeout sees of a stream: the items one after the other, with a gap (`none`)
wherever nothing arrives for so long that the reader gives up waiting. `read want data s` collects
items until there are `want` of them, and stops at a gap with what it has.

`Spaced pieces s` says that the stream consists of these pieces with gaps before, between and
behind them, and none inside.
-/

namespace LuoYun.Gapped

variable {α : Type}

/-- How reading ends: with all the items, or at a gap with some of them. -/
inductive Read (α β : Type) where
  | done (data : List α) (rest : β)
  | timeout (data : List α) (rest : β)

/-- Read until there are `want` items. Nothing arrives behind the end of the stream. -/
def read (want : Nat) : List α → List (Option α) → Read α (List (Option α))
  | data, [] => .timeout data []
  | data, none :: rest => .timeout data rest
  | data, some b :: rest =>
    if want ≤ data.length + 1 then .done (data ++ [b]) rest else read want (data ++ [b]) rest

/-- The items of a stream. -/
def items (s : List (Option α)) : List α := s.filterMap id

@[simp] theorem items_nil : items ([] : List (Option α)) = [] := rfl

@[simp] theorem items_none (s : List (Option α)) : items (none :: s) = items s := rfl

@[simp] theorem items_some (b : α) (s : List (Option α)) : items (some b :: s) = b :: items s := rfl

@[simp] theorem items_append (s t : List (Option α)) : items (s ++ t) = items s ++ items t :=
  List.filterMap_append ..

@[simp] theorem items_map_some (xs : List α) : items (xs.map some) = xs := by
  induction xs with
  | nil => rfl
  | cons x xs ih => rw [List.map_cons, items_some, ih]

/-- Enough items without a gap are read. -/
theorem read_done {want : Nat} {data xs : List α} {rest : List (Option α)}
    (h : data.length + xs.length = want) (hne : xs ≠ []) :
    read want data (xs.map some ++ rest) = .done (data ++ xs) rest := by
  induction xs generalizing data with
  | nil => exact absurd rfl hne
  | cons x xs ih =>
    rw [List.map_cons, List.cons_append, read]
    rw [List.length_cons] at h
    cases xs with
    | nil =>
      rw [List.length_nil] at h
      rw [if_pos (by omega)]
      rfl
    | cons y ys =>
      have hlt : ¬ want ≤ data.length + 1 := by
        rw [List.length_cons] at h
        omega
      have hlen : (data ++ [x]).length + (y :: ys).length = want := by
        rw [List.length_append, List.length_singleton]
        omega
      rw [if_neg hlt, ih hlen (List.cons_ne_nil _ _), List.append_assoc]
      rfl

/-- Reading goes on, one item after the other. -/
theorem read_more {want : Nat} {data xs : List α} {rest : List (Option α)}
    (h : data.length + xs.length < want) :
    read want data (xs.map some ++ rest) = read want (data ++ xs) rest := by
  induction xs generalizing data with
  | nil => rw [List.map_nil, List.nil_append, List.append_nil]
  | cons x xs ih =>
    rw [List.length_cons] at h
    have hlen : (data ++ [x]).length + xs.length < want := by
      rw [List.length_append, List.length_singleton]
      omega
    rw [List.map_cons, List.cons_append, read, if_neg (by omega), ih hlen, List.append_assoc]
    rfl

/-- **What reading takes from the stream.** -/
theorem read_spec {want : Nat} {data : List α} {s : List (Option α)} (h : data.length < want) :
    match read want data s with
    | .done d rest => ∃ xs, d = data ++ xs ∧ d.length = want ∧ s = xs.map some ++ rest
    | .timeout d rest => ∃ xs, d = data ++ xs ∧ d.length < want ∧
        (s = xs.map some ++ none :: rest ∨ s = xs.map some ∧ rest = []) := by
  induction s generalizing data with
  | nil => exact ⟨[], by simp, h, .inr ⟨rfl, rfl⟩⟩
  | cons a s ih =>
    cases a with
    | none => exact ⟨[], by simp, h, .inl rfl⟩
    | some b =>
      rw [read]
      have hlen : (data ++ [b]).length = data.length + 1 := by simp
      by_cases hfull : want ≤ data.length + 1
      · rw [if_pos hfull]
        exact ⟨[b], rfl, by omega, rfl⟩
      · rw [if_neg hfull]
        have hrest := @ih (data ++ [b]) (by omega)
        revert hrest
        cases read want (data ++ [b]) s with
        | done d rest =>
          rintro ⟨xs, hd, hdl, hs⟩
          exact ⟨b :: xs, by rw [hd, List.append_assoc]; rfl, hdl, by rw [hs]; rfl⟩
        | timeout d rest =>
          rintro ⟨xs, hd, hdl, hs⟩
          refine ⟨b :: xs, by rw [hd, List.append_assoc]; rfl, hdl, ?_⟩
          rcases hs with hs | ⟨hs, hr⟩
          · exact .inl (by rw [hs]; rfl)
          · exact .inr ⟨by rw [hs]; rfl, hr⟩

/-- The pieces one after the other, with gaps around them and none inside. -/
inductive Spaced : List (List α) → List (Option α) → Prop where
  | nil : Spaced [] []
  | gap {ps : List (List α)} {s : List (Option α)} : Spaced ps s → Spaced ps (none :: s)
  | piece {p : List α} {ps : List (List α)} {s : List (Option α)} :
      Spaced ps s → Spaced (p :: ps) (p.map some ++ s)

/-- A stream without items has only gaps. -/
theorem spaced_of_items_nil {s : List (Option α)} (h : items s = []) : Spaced [] s := by
  induction s with
  | nil => exact .nil
  | cons a s ih =>
    cases a with
    | none => exact .gap (ih h)
    | some b =>
      rw [items_some] at h
      cases h

end LuoYun.Gapped

import Mathlib.Data.List.Nodup
import Mathlib.Tactic.Common

/-!
# Tables with a primary key

A table is a list of rows no two of which have the same key. A row then cuts its table in two, and
changing or removing the row with its key touches nothing else. What a list function makes of the
change follows from what it makes of `a ++ x :: b`.
-/

namespace LuoYun.Table

variable {α κ : Type} {key : α → κ} {l a b : List α} {x : α}

/-- The table around one of its rows. -/
structure Around (key : α → κ) (l : List α) (x : α) (a b : List α) : Prop where
  eq : l = a ++ x :: b
  before : ∀ y ∈ a, key y ≠ key x
  after : ∀ y ∈ b, key y ≠ key x

/-- The rest of the table. -/
theorem Around.sublist (h : Around key l x a b) : (a ++ b).Sublist l := by
  rw [h.eq]
  exact (List.sublist_cons_self x b).append_left a

theorem exists_around (h : (l.map key).Nodup) (hx : x ∈ l) : ∃ a b, Around key l x a b := by
  obtain ⟨a, b, rfl⟩ := List.append_of_mem hx
  rw [List.map_append, List.map_cons] at h
  obtain ⟨ha, hb, hab⟩ := List.nodup_append.mp h
  refine ⟨a, b, rfl, ?_, ?_⟩
  · intro y hy he
    exact hab (key y) (List.mem_map_of_mem hy) (key x) List.mem_cons_self he
  · intro y hy he
    exact (List.nodup_cons.mp hb).1 (he ▸ List.mem_map_of_mem hy)

variable [DecidableEq κ]

/-- Change the rows with this key. -/
def update (key : α → κ) (k : κ) (f : α → α) (l : List α) : List α :=
  l.map fun x => if key x = k then f x else x

/-- Remove the rows with this key. -/
def erase (key : α → κ) (k : κ) (l : List α) : List α := l.filter fun x => key x ≠ k

theorem update_others {k : κ} {f : α → α} (h : ∀ y ∈ l, key y ≠ k) : update key k f l = l := by
  have hsame : ∀ y ∈ l, (if key y = k then f y else y) = id y := by
    intro y hy
    rw [if_neg (h y hy)]
    rfl
  rw [update, List.map_congr_left hsame, List.map_id]

theorem update_around (h : Around key l x a b) (f : α → α) :
    update key (key x) f l = a ++ f x :: b := by
  have ha : update key (key x) f a = a := update_others h.before
  have hb : update key (key x) f b = b := update_others h.after
  rw [h.eq]
  unfold update at *
  rw [List.map_append, List.map_cons, ha, hb, if_pos rfl]

theorem erase_around (h : Around key l x a b) : erase key (key x) l = a ++ b := by
  have hothers : ∀ t : List α, (∀ y ∈ t, key y ≠ key x) → erase key (key x) t = t := fun t ht =>
    List.filter_eq_self.mpr (by simpa using ht)
  have ha := hothers a h.before
  have hb := hothers b h.after
  rw [h.eq]
  unfold erase at *
  rw [List.filter_append, List.filter_cons_of_neg (by simp), ha, hb]

/-- What a change of one row makes of a count. -/
theorem countP_update (h : (l.map key).Nodup) (hx : x ∈ l) (f : α → α) (p : α → Bool) :
    (update key (key x) f l).countP p + (if p x then 1 else 0) =
      l.countP p + if p (f x) then 1 else 0 := by
  obtain ⟨a, b, hab⟩ := exists_around h hx
  rw [update_around hab, hab.eq, List.countP_append, List.countP_append, List.countP_cons,
    List.countP_cons]
  omega

theorem countP_erase (h : (l.map key).Nodup) (hx : x ∈ l) (p : α → Bool) :
    (erase key (key x) l).countP p + (if p x then 1 else 0) = l.countP p := by
  obtain ⟨a, b, hab⟩ := exists_around h hx
  rw [erase_around hab, hab.eq, List.countP_append, List.countP_append, List.countP_cons]
  omega

/-- A change that keeps the keys keeps the primary key. -/
theorem map_key_update {k : κ} {f : α → α} (hf : ∀ y, key (f y) = key y) :
    (update key k f l).map key = l.map key := by
  rw [update, List.map_map]
  refine List.map_congr_left fun y _ => ?_
  dsimp only [Function.comp]
  split
  · exact hf y
  · rfl

/-- A row is found by its key. -/
theorem find?_key (h : (l.map key).Nodup) (hx : x ∈ l) :
    l.find? (fun y => key y = key x) = some x := by
  obtain ⟨a, b, hab⟩ := exists_around h hx
  have hnone : a.find? (fun y => decide (key y = key x)) = none :=
    List.find?_eq_none.mpr (by simpa using hab.before)
  rw [hab.eq, List.find?_append, hnone, Option.none_or, List.find?_cons_of_pos (by simp)]

/-! ## New rows -/

omit [DecidableEq κ] in
theorem nodup_append_new (h : (l.map key).Nodup) (hx : key x ∉ l.map key) :
    ((l ++ [x]).map key).Nodup := by
  rw [List.map_append, List.nodup_append]
  refine ⟨h, List.nodup_singleton _, ?_⟩
  intro k hk k' hk' he
  obtain rfl := List.mem_singleton.mp hk'
  exact hx (he ▸ hk)

/-- The sequence stays ahead of the numbers it has given out. -/
theorem fresh_append {key : α → Int} {seq : Int}
    (hfresh : ∀ y ∈ l, key y < seq) (hx : key x = seq) :
    ∀ y ∈ l ++ [x], key y < seq + 1 := by
  intro y hy
  rcases List.mem_append.mp hy with hy | hy
  · have hlt := hfresh y hy
    omega
  · obtain rfl := List.mem_singleton.mp hy
    omega

/-- **A row with the next number of a sequence** has a number of its own. -/
theorem nodup_append_next {key : α → Int} {seq : Int} (h : (l.map key).Nodup)
    (hfresh : ∀ y ∈ l, key y < seq)
    (hx : key x = seq) : ((l ++ [x]).map key).Nodup ∧ ∀ y ∈ l ++ [x], key y < seq + 1 := by
  refine ⟨nodup_append_new h fun hin => ?_, fresh_append hfresh hx⟩
  obtain ⟨y, hy, he⟩ := List.mem_map.mp hin
  have hlt := hfresh y hy
  omega

/-- Add a row unless there is one with this key. New rows take their numbers from a sequence. -/
def insertNew (key : α → κ) (make : Int → κ → α) (t : List α × Int) (k : κ) : List α × Int :=
  if t.1.any fun x => key x = k then t else (t.1 ++ [make t.2 k], t.2 + 1)

/-- **What is added for a list of keys**: a row for each that was missing. -/
theorem foldl_insertNew {make : Int → κ → α} (hmake : ∀ n k, key (make n k) = k) {ks : List κ}
    (hks : ks.Nodup) (t : List α × Int) :
    ∃ added, (ks.foldl (insertNew key make) t).1 = t.1 ++ added ∧ (added.map key).Nodup ∧
      (∀ k, k ∈ added.map key ↔ k ∈ ks ∧ k ∉ t.1.map key) ∧ ∀ x ∈ added, ∃ n,
        x = make n (key x) := by
  induction ks generalizing t with
  | nil => exact ⟨[], (List.append_nil _).symm, List.nodup_nil, by simp, nofun⟩
  | cons k ks ih =>
    obtain ⟨hk, hks⟩ := List.nodup_cons.mp hks
    rw [List.foldl_cons]
    have hany : (t.1.any fun x => decide (key x = k)) = true ↔ k ∈ t.1.map key := by
      simp [List.any_eq_true, List.mem_map]
    by_cases hmem : k ∈ t.1.map key
    · obtain ⟨added, hadd, hnodup, hkeys, hrows⟩ := ih hks t
      have hskip : insertNew key make t k = t := if_pos (hany.mpr hmem)
      rw [hskip]
      refine ⟨added, hadd, hnodup, ?_, hrows⟩
      intro k'
      rw [hkeys, List.mem_cons]
      constructor
      · exact fun h => ⟨.inr h.1, h.2⟩
      · rintro ⟨rfl | h, hn⟩
        · exact absurd hmem hn
        · exact ⟨h, hn⟩
    · have hnew : insertNew key make t k = (t.1 ++ [make t.2 k], t.2 + 1) :=
        if_neg fun h => hmem (hany.mp h)
      obtain ⟨added, hadd, hnodup, hkeys, hrows⟩ := ih hks (t.1 ++ [make t.2 k], t.2 + 1)
      have hold : ∀ k', k' ∉ (t.1 ++ [make t.2 k]).map key ↔ k' ∉ t.1.map key ∧ k' ≠ k := by
        intro k'
        simp [hmake, not_or]
      refine ⟨make t.2 k :: added, ?_, ?_, ?_, ?_⟩
      · rw [hnew, hadd, List.append_assoc]
        rfl
      · rw [List.map_cons, hmake, List.nodup_cons]
        exact ⟨fun h => ((hold k).mp ((hkeys k).mp h).2).2 rfl, hnodup⟩
      · intro k'
        rw [List.map_cons, hmake, List.mem_cons, hkeys, List.mem_cons, hold]
        constructor
        · rintro (rfl | h)
          · exact ⟨.inl rfl, hmem⟩
          · exact ⟨.inr h.1, h.2.1⟩
        · rintro ⟨rfl | h, hn⟩
          · exact .inl rfl
          -- the keys that follow are other ones
          · exact .inr ⟨h, hn, fun he => hk (he ▸ h)⟩
      · intro x hx
        rcases List.mem_cons.mp hx with rfl | hx
        · exact ⟨t.2, by rw [hmake]⟩
        · exact hrows x hx

end LuoYun.Table

import LuoYun.Web.Python
import Mathlib.Tactic.Linarith
import Mathlib.Tactic.Ring

/-!
# `yweb/utils/pagination.py`: the list of pages

A long list is shown page by page, with links to the pages around the current one, to the first and
to the last one. The window of pages begins at `(cur / (list_size + 1)) * list_size + 1`: it moves
on by `list_size` pages each time the current page has moved on by `list_size + 1`, and falls
behind.

The template gets a `Page`.
-/

namespace LuoYun.Web

/-- What the template is rendered with. -/
structure Page where
  total : Int
  plist : List Int
  sepa : Int
  curPage : Int
  pageSum : Int
  notexistPage : Int
  sepaRange : List Int
  deriving DecidableEq, Repr

/-- The number of pages. -/
def pageSum (total sepa : Int) : Int :=
  if Int.fmod total sepa ≠ 0 then Int.fdiv total sepa + 1 else Int.fdiv total sepa

/-- The first page of the window. -/
def windowStart (cur listSize : Int) : Int := Int.fdiv cur (listSize + 1) * listSize + 1

/-- The last page of the window. -/
def windowEnd (cur listSize lastP : Int) : Int :=
  if lastP < windowStart cur listSize + listSize then lastP else windowStart cur listSize + listSize

/-- The pages that are shown, with `notexistP` where some are left out. -/
def pageList (cur listSize lastP notexistP : Int) : List Int :=
  let last := windowEnd cur listSize lastP
  let plist := range (windowStart cur listSize) (last + 1)
  let plist := if last < lastP then plist ++ [notexistP, lastP] else plist
  if listSize < cur then 1 :: notexistP :: plist else plist

/-- `pagination`. `none` is a division by zero, and `some none` the empty text. -/
def pagination (total sepa cur listSize : Int) (sepaRange : List Int) : Option (Option Page) :=
  if total ≤ sepa then some none
  else if sepa = 0 ∨ listSize + 1 = 0 then none
  else
    some <| some
      { total := total
        plist := pageList cur listSize (pageSum total sepa) (pageSum total sepa + 1)
        sepa := sepa
        curPage := cur
        pageSum := pageSum total sepa
        notexistPage := pageSum total sepa + 1
        sepaRange := sepaRange.filter (· < total) }

/-! ## The window -/

/-- How far the window has fallen behind the current page: by a page for each of its moves. -/
theorem cur_eq (cur : Int) {listSize : Int} (hl : 1 ≤ listSize) :
    cur = windowStart cur listSize - 1 + Int.fdiv cur (listSize + 1) + Int.fmod cur (listSize + 1) ∧
      0 ≤ Int.fmod cur (listSize + 1) ∧ Int.fmod cur (listSize + 1) ≤ listSize := by
  have hdiv := Int.mul_fdiv_add_fmod cur (listSize + 1)
  have hpos : 0 < listSize + 1 := by omega
  have hlt := Int.fmod_lt_of_pos cur hpos
  refine ⟨?_, Int.fmod_nonneg_of_pos cur hpos, by omega⟩
  rw [windowStart]
  linarith [hdiv, mul_comm (Int.fdiv cur (listSize + 1)) listSize,
    add_mul listSize 1 (Int.fdiv cur (listSize + 1))]

variable {cur listSize lastP : Int}

/-- The window begins at the current page or before. -/
theorem windowStart_le (hl : 1 ≤ listSize) (hc : 1 ≤ cur) :
    1 ≤ windowStart cur listSize ∧ windowStart cur listSize ≤ cur ∧
      (listSize < cur → 1 < windowStart cur listSize) := by
  obtain ⟨hcur, h0, h1⟩ := cur_eq cur hl
  have hq : 0 ≤ Int.fdiv cur (listSize + 1) := Int.fdiv_nonneg (by omega) (by omega)
  have hstart : windowStart cur listSize = Int.fdiv cur (listSize + 1) * listSize + 1 := rfl
  rcases hq.eq_or_lt with hz | hp
  · rw [← hz, zero_mul] at hstart
    omega
  · have hmul : listSize ≤ Int.fdiv cur (listSize + 1) * listSize := by nlinarith
    omega

theorem windowEnd_le : windowEnd cur listSize lastP ≤ lastP := by
  unfold windowEnd
  split <;> omega

/-- The current page is in the window, or the window has fallen too far behind. -/
theorem le_windowEnd (hl : 1 ≤ listSize) (hcl : cur ≤ lastP) :
    cur ≤ windowEnd cur listSize lastP ↔
      Int.fdiv cur (listSize + 1) + Int.fmod cur (listSize + 1) ≤ listSize + 1 := by
  obtain ⟨hcur, -, -⟩ := cur_eq cur hl
  unfold windowEnd
  split <;> omega

/-! ## The list -/

/-- The pages of a list, without the mark for those that are left out. -/
def pagesOf (plist : List Int) (notexistP : Int) : List Int := plist.filter (· ≠ notexistP)

theorem pagesOf_cons {p notexistP : Int} (h : p ≠ notexistP) (plist : List Int) :
    pagesOf (p :: plist) notexistP = p :: pagesOf plist notexistP := by
  simp [pagesOf, h]

theorem pagesOf_mark (plist : List Int) (notexistP : Int) :
    pagesOf (notexistP :: plist) notexistP = pagesOf plist notexistP := by
  simp [pagesOf]

theorem pagesOf_append (l l' : List Int) (notexistP : Int) :
    pagesOf (l ++ l') notexistP = pagesOf l notexistP ++ pagesOf l' notexistP :=
  List.filter_append _ _

/-- The pages in front of the window. -/
def front (cur listSize : Int) : List Int := if listSize < cur then [1] else []

/-- The pages behind the window. -/
def back (cur listSize lastP : Int) : List Int :=
  if windowEnd cur listSize lastP < lastP then [lastP] else []

/-- The list is the window with the first and the last page, if these are not in it. -/
theorem pagesOf_pageList (hc : 1 ≤ cur) (hcl : cur ≤ lastP) :
    pagesOf (pageList cur listSize lastP (lastP + 1)) (lastP + 1) =
      front cur listSize ++ range (windowStart cur listSize) (windowEnd cur listSize lastP + 1) ++
        back cur listSize lastP := by
  have hend : windowEnd cur listSize lastP ≤ lastP := windowEnd_le
  have hone : (1 : Int) ≠ lastP + 1 := by omega
  have hlast : lastP ≠ lastP + 1 := by omega
  have hrange : pagesOf (range (windowStart cur listSize) (windowEnd cur listSize lastP + 1))
      (lastP + 1) =
      range (windowStart cur listSize) (windowEnd cur listSize lastP + 1) := by
    refine List.filter_eq_self.mpr ?_
    intro p hp
    rw [mem_range] at hp
    exact decide_eq_true (by omega)
  unfold pageList front back
  dsimp only
  generalize range _ _ = window at *
  split <;> split
  · rw [pagesOf_cons hone, pagesOf_mark, pagesOf_append, hrange, pagesOf_mark, pagesOf_cons hlast]
    rfl
  · rw [pagesOf_cons hone, pagesOf_mark, hrange, List.append_nil]
    rfl
  · rw [pagesOf_append, hrange, pagesOf_mark, pagesOf_cons hlast]
    rfl
  · rw [hrange, List.nil_append, List.append_nil]

/-- What the list of pages has to be. -/
structure GoodList (plist : List Int) (cur lastP notexistP : Int) : Prop where
  current : cur ∈ plist
  pages : ∀ p ∈ plist, p ≠ notexistP → 1 ≤ p ∧ p ≤ lastP
  increasing : (pagesOf plist notexistP).Pairwise (· < ·)

theorem mem_pagesOf {plist : List Int} {notexistP p : Int} :
    p ∈ pagesOf plist notexistP ↔ p ∈ plist ∧ p ≠ notexistP := by
  rw [pagesOf, List.mem_filter, decide_eq_true_eq]

/-- A page of the list. -/
theorem mem_pageList (hc : 1 ≤ cur) (hcl : cur ≤ lastP) {p : Int} :
    p ∈ pagesOf (pageList cur listSize lastP (lastP + 1)) (lastP + 1) ↔
      (listSize < cur ∧ p = 1) ∨
      (windowStart cur listSize ≤ p ∧ p ≤ windowEnd cur listSize lastP) ∨
      (windowEnd cur listSize lastP < lastP ∧ p = lastP) := by
  have hfront : p ∈ front cur listSize ↔ listSize < cur ∧ p = 1 := by
    unfold front
    split <;> simp [*]
  have hback : p ∈ back cur listSize lastP ↔ windowEnd cur listSize lastP < lastP ∧ p = lastP := by
    unfold back
    split <;> simp [*]
  rw [pagesOf_pageList hc hcl, List.mem_append, List.mem_append, mem_range, hfront, hback]
  constructor
  · rintro ((h | h) | h)
    · exact .inl h
    · exact .inr (.inl ⟨h.1, by omega⟩)
    · exact .inr (.inr h)
  · rintro (h | h | h)
    · exact .inl (.inl h)
    · exact .inl (.inr ⟨h.1, by omega⟩)
    · exact .inr h

/-- The three parts follow one another. -/
theorem pageList_increasing (hl : 1 ≤ listSize) (hc : 1 ≤ cur) (hcl : cur ≤ lastP) :
    (pagesOf (pageList cur listSize lastP (lastP + 1)) (lastP + 1)).Pairwise (· < ·) := by
  obtain ⟨hs1, hsc, hs2⟩ := windowStart_le hl hc
  have hfront : (front cur listSize).Pairwise (· < ·) := by
    unfold front
    split <;> simp
  have hback : (back cur listSize lastP).Pairwise (· < ·) := by
    unfold back
    split <;> simp
  rw [pagesOf_pageList hc hcl]
  refine List.pairwise_append.mpr
    ⟨List.pairwise_append.mpr ⟨hfront, range_increasing _ _, ?_⟩, hback, ?_⟩
  · intro p hp p' hp'
    unfold front at hp
    rw [mem_range] at hp'
    split at hp
    · rename_i h
      rw [List.mem_singleton] at hp
      have := hs2 h
      omega
    · cases hp
  · intro p hp p' hp'
    unfold back at hp'
    split at hp'
    · rename_i h
      rw [List.mem_singleton] at hp'
      rw [List.mem_append, mem_range] at hp
      rcases hp with hp | hp
      · unfold front at hp
        split at hp
        · rename_i hcur
          rw [List.mem_singleton] at hp
          omega
        · cases hp
      · omega
    · cases hp'

/-- **The list of pages is in order, but it has the current page only** where the window has not
fallen too far behind: by a page for every `list_size + 1` pages. The last page is always there. -/
theorem pagination_iff (total sepa cur listSize : Int) (sepaRange : List Int) (hsepa : 1 ≤ sepa)
    (htotal : sepa < total) (hl : 1 ≤ listSize) (hc : 1 ≤ cur) (hcl : cur ≤ pageSum total sepa) :
    ∃ page, pagination total sepa cur listSize sepaRange = some (some page) ∧
      page.pageSum = pageSum total sepa ∧ page.notexistPage = page.pageSum + 1 ∧
      (GoodList page.plist cur page.pageSum page.notexistPage ↔
        cur = pageSum total sepa ∨
          Int.fdiv cur (listSize + 1) + Int.fmod cur (listSize + 1) ≤ listSize + 1) := by
  have hpage : pagination total sepa cur listSize sepaRange = some (some _) :=
    (if_neg (by omega)).trans (if_neg (by omega))
  refine ⟨_, hpage, rfl, rfl, ?_⟩
  dsimp only
  generalize pageSum total sepa = lastP at *
  have hmem := @mem_pageList cur listSize lastP hc hcl cur
  obtain ⟨hs1, hsc, -⟩ := windowStart_le hl hc
  have hwin := le_windowEnd hl hcl
  have hend : windowEnd cur listSize lastP ≤ lastP := windowEnd_le
  constructor
  · intro h
    have hcur := hmem.mp (mem_pagesOf.mpr ⟨h.current, by omega⟩)
    rcases hcur with hcur | hcur | hcur
    · omega
    · exact .inr (hwin.mp hcur.2)
    · exact .inl hcur.2
  · intro h
    refine ⟨?_, ?_, pageList_increasing hl hc hcl⟩
    · refine (mem_pagesOf.mp (hmem.mpr ?_)).1
      rcases h with h | h
      · by_cases he : windowEnd cur listSize lastP = lastP
        · exact .inr (.inl ⟨hsc, by omega⟩)
        · exact .inr (.inr ⟨by omega, h⟩)
      · exact .inr (.inl ⟨hsc, hwin.mpr h⟩)
    · intro p hp hne
      have hp := (mem_pageList hc hcl).mp (mem_pagesOf.mpr ⟨hp, hne⟩)
      omega

/-- The first page of two. -/
theorem pagination_first :
    ∃ page, pagination 2 1 1 5 [] = some (some page) ∧
      page.pageSum = pageSum 2 1 ∧ page.notexistPage = page.pageSum + 1 ∧
      (GoodList page.plist 1 page.pageSum page.notexistPage ↔
        1 = pageSum 2 1 ∨ Int.fdiv 1 (5 + 1) + Int.fmod 1 (5 + 1) ≤ 5 + 1) :=
  pagination_iff 2 1 1 5 [] (by decide) (by decide) (by decide) (by decide) (by decide)

/-- Page 17 of 20, with the usual five pages in the window, is not in the list: there are the pages
11 to 16, and the first and the last. -/
theorem pagination_lost :
    ∃ page, pagination 1000 50 17 5 [] = some (some page) ∧
      page.plist = [1, 21, 11, 12, 13, 14, 15, 16, 21, 20] ∧ page.notexistPage = 21 ∧
      ¬ GoodList page.plist 17 page.pageSum page.notexistPage := by
  refine ⟨_, rfl, by decide, by decide, ?_⟩
  intro h
  exact absurd h.current (by decide)

end LuoYun.Web

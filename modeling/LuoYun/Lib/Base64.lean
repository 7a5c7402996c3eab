import Mathlib.Algebra.Group.Nat.Defs
import Mathlib.Data.List.GetD
import Mathlib.Tactic.Common

/-!
# Base64

The standard encoding with padding: three bytes are a number of 24 bits, and that is four digits of
six bits. One or two bytes that are left over are filled up with zeros, and the digits that have no
bit of them are written as `=`.
-/

namespace LuoYun.Base64

/-- The alphabet: capital letters, small letters, digits, `+` and `/`. -/
def symbol (v : Nat) : UInt8 :=
  if v < 26 then UInt8.ofNat (65 + v)
  else if v < 52 then UInt8.ofNat (71 + v)
  else if v < 62 then UInt8.ofNat (v - 4)
  else if v = 62 then 43
  else 47

/-- The number that three bytes are. -/
def number (a b c : UInt8) : Nat := a.toNat * 65536 + b.toNat * 256 + c.toNat

/-- Digit `k` of a number, the first one being 3. -/
def digit (n k : Nat) : Nat := n / 64 ^ k % 64

/-- The encoding. -/
def encode : List UInt8 → List UInt8
  | [] => []
  | [a] => [symbol (digit (number a 0 0) 3), symbol (digit (number a 0 0) 2), 61, 61]
  | [a, b] =>
    [symbol (digit (number a b 0) 3), symbol (digit (number a b 0) 2),
      symbol (digit (number a b 0) 1), 61]
  | a :: b :: c :: rest =>
    symbol (digit (number a b c) 3) :: symbol (digit (number a b c) 2) ::
      symbol (digit (number a b c) 1) :: symbol (digit (number a b c) 0) :: encode rest

theorem length_encode (x : List UInt8) : (encode x).length = (x.length + 2) / 3 * 4 := by
  fun_induction encode x with
  | case1 => rfl
  | case2 => simp
  | case3 => simp
  | case4 a b c rest ih =>
    simp only [List.length_cons, ih]
    omega

/-- Whole groups are encoded one after the other. -/
theorem encode_append (x y : List UInt8) (h : x.length % 3 = 0) :
    encode (x ++ y) = encode x ++ encode y := by
  fun_induction encode x with
  | case1 => rfl
  | case2 a => exact absurd h (by simp)
  | case3 a b => exact absurd h (by simp)
  | case4 a b c rest ih =>
    have hrest : rest.length % 3 = 0 := by
      simp only [List.length_cons] at h
      omega
    simp only [List.cons_append, encode, ih hrest]

theorem symbol_printable : ∀ v < 64, (10 : UInt8) ≠ symbol v ∧ (61 : UInt8) ≠ symbol v := by decide

theorem digit_lt (n k : Nat) : digit n k < 64 := Nat.mod_lt _ (by decide)

/-- The encoding is one line. -/
theorem newline_not_mem (x : List UInt8) : (10 : UInt8) ∉ encode x := by
  have hsym : ∀ n k, (10 : UInt8) ≠ symbol (digit n k) :=
    fun n k => (symbol_printable _ (digit_lt n k)).1
  fun_induction encode x with
  | case1 => exact List.not_mem_nil
  | case2 a => simp [hsym]
  | case3 a b => simp [hsym]
  | case4 a b c rest ih => simp [hsym, ih]

/-- The last two of a group. -/
theorem group_last (s0 s1 s2 s3 : UInt8) :
    [s0, s1, s2, s3].getD ([s0, s1, s2, s3].length - 1) 0 = s3 ∧
      [s0, s1, s2, s3].getD ([s0, s1, s2, s3].length - 2) 0 = s2 := ⟨rfl, rfl⟩

/-- The last two characters tell how many bytes are left over. -/
theorem encode_last {x : List UInt8} (hx : x ≠ []) :
    ((encode x).getD ((encode x).length - 1) 0 = 61 ↔ x.length % 3 ≠ 0) ∧
      ((encode x).getD ((encode x).length - 2) 0 = 61 ↔ x.length % 3 = 1) := by
  have hsym : ∀ n k, symbol (digit n k) ≠ 61 :=
    fun n k h => (symbol_printable _ (digit_lt n k)).2 h.symm
  fun_induction encode x with
  | case1 => exact absurd rfl hx
  | case2 a =>
    rw [(group_last _ _ _ _).1, (group_last _ _ _ _).2]
    simp
  | case3 a b =>
    rw [(group_last _ _ _ _).1, (group_last _ _ _ _).2]
    simp [hsym]
  | case4 a b c rest ih =>
    by_cases hrest : rest = []
    · rw [hrest, encode, (group_last _ _ _ _).1, (group_last _ _ _ _).2]
      simp [hsym]
    · obtain ⟨h1, h2⟩ := ih hrest
      have hlen := length_encode rest
      have hpos : 0 < rest.length := List.length_pos_iff.mpr hrest
      have hmod : (a :: b :: c :: rest).length % 3 = rest.length % 3 := by
        simp only [List.length_cons]
        omega
      -- the group in front is skipped
      have hskip : ∀ k, 1 ≤ k → k ≤ 2 → ∀ s0 s1 s2 s3 : UInt8,
          (s0 :: s1 :: s2 :: s3 :: encode rest).getD
            ((s0 :: s1 :: s2 :: s3 :: encode rest).length - k) 0 =
            (encode rest).getD ((encode rest).length - k) 0 := by
        intro k hk1 hk2 s0 s1 s2 s3
        have hidx : (s0 :: s1 :: s2 :: s3 :: encode rest).length - k =
            4 + ((encode rest).length - k) := by
          simp only [List.length_cons]
          omega
        rw [hidx]
        exact (List.getD_append_right [s0, s1, s2, s3] (encode rest) 0 _ (by simp)).trans (by simp)
      rw [hskip 1 (by omega) (by omega), hskip 2 (by omega) (by omega), hmod]
      exact ⟨h1, h2⟩

/-- The digits make up the number. -/
theorem digits_number {n : Nat} (h : n < 64 ^ 4) :
    digit n 3 * 64 ^ 3 + digit n 2 * 64 ^ 2 + digit n 1 * 64 + digit n 0 = n := by
  unfold digit
  omega

theorem number_lt (a b c : UInt8) : number a b c < 64 ^ 4 := by
  have ha := a.toNat_lt
  have hb := b.toNat_lt
  have hc := c.toNat_lt
  unfold number
  omega

end LuoYun.Base64

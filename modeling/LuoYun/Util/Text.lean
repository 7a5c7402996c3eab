import LuoYun.Base

/-!
# C text: decimal numbers and `sscanf`

The platform reads numbers with `atoi`, `atol` and `sscanf` and writes them with `%d`. The
readers below follow glibc: leading white space is skipped, one sign is allowed, the longest
run of digits is taken, and a value that does not fit a `long` saturates before it is cut
down to an `int`.
-/

namespace LuoYun

/-- `isspace` in the C locale. -/
def isSpace (b : UInt8) : Bool := b == 32 || (decide (9 ≤ b) && decide (b ≤ 13))

/-- `isdigit`. -/
def isDigit (b : UInt8) : Bool := decide (48 ≤ b) && decide (b ≤ 57)

/-- The value of a run of digits, most significant first, continuing from `acc`. -/
def digitsVal (acc : Nat) (ds : Bytes) : Nat :=
  ds.foldl (fun a d => a * 10 + (d.toNat - 48)) acc

/-- Saturation at the bounds of a C `long`. -/
def satLong (x : Int) : Int := max (-(2 ^ 63)) (min x (2 ^ 63 - 1))

/-- An optional sign: whether it was a minus, and what follows. -/
def scanSign : Bytes → Bool × Bytes
  | 45 :: rest => (true, rest)
  | 43 :: rest => (false, rest)
  | rest => (false, rest)

/-- `%d` of `sscanf`: the number and the rest of the input, or no conversion. -/
def scanLong (s : Bytes) : Option (Int × Bytes) :=
  let r := scanSign (s.dropWhile isSpace)
  match r.2.takeWhile isDigit with
  | [] => none
  | ds =>
    let v : Int := digitsVal 0 ds
    some (satLong (if r.1 then -v else v), r.2.dropWhile isDigit)

/-- `%d` of `sscanf` into an `int`. -/
def scanInt (s : Bytes) : Option (Int × Bytes) :=
  (scanLong s).map fun r => (toInt32 r.1, r.2)

/-- `%s` of `sscanf`: the next word, or no conversion at the end of the input. -/
def scanWord (s : Bytes) : Option (Bytes × Bytes) :=
  let t := s.dropWhile isSpace
  match t.takeWhile (fun b => !isSpace b) with
  | [] => none
  | w => some (w, t.dropWhile fun b => !isSpace b)

/-- `atol`. -/
def atol (s : Bytes) : Int := ((scanLong s).map Prod.fst).getD 0

/-- `atoi`. -/
def atoi (s : Bytes) : Int := toInt32 (atol s)

/-! ## `%d` -/

/-- The decimal digits of a natural number below `10 ^ fuel`. -/
def decDigits : Nat → Nat → Bytes
  | 0, _ => []
  | fuel + 1, n =>
    if n < 10 then [UInt8.ofNat (48 + n)]
    else decDigits fuel (n / 10) ++ [UInt8.ofNat (48 + n % 10)]

/-- The decimal digits of a natural number. -/
def decNat (n : Nat) : Bytes := decDigits (n + 1) n

/-- `%d` (and `%ld`, `%u`) of `printf`. -/
def dec (x : Int) : Bytes :=
  if x < 0 then 45 :: decNat x.natAbs else decNat x.natAbs

/-- Arithmetic on `unsigned long`. -/
def toUInt64 (x : Int) : Int := x % 18446744073709551616

/-- `%ld` of an `unsigned long`. -/
def decL (x : Int) : Bytes :=
  dec ((x + 9223372036854775808) % 18446744073709551616 - 9223372036854775808)

theorem digitsVal_append (acc : Nat) (a b : Bytes) :
    digitsVal acc (a ++ b) = digitsVal (digitsVal acc a) b := by
  simp [digitsVal, List.foldl_append]

theorem toNat_digit {n : Nat} (h : n < 10) : (UInt8.ofNat (48 + n)).toNat = 48 + n := by
  rw [UInt8.toNat_ofNat']
  omega

theorem isDigit_digit {n : Nat} (h : n < 10) : isDigit (UInt8.ofNat (48 + n)) = true := by
  have := toNat_digit h
  simp only [isDigit, Bool.and_eq_true, decide_eq_true_eq, UInt8.le_iff_toNat_le, this]
  exact ⟨Nat.le_add_right _ _, show 48 + n ≤ 57 by omega⟩

/-- Any fuel above the number itself gives the same digits. -/
theorem decDigits_eq (fuel n : Nat) (h : n < fuel) : decDigits fuel n = decNat n := by
  induction fuel using Nat.strongRecOn generalizing n with
  | ind fuel ih =>
    cases fuel with
    | zero => omega
    | succ f =>
      by_cases hn : n < 10
      · simp [decDigits, decNat, hn]
      · have hrest := ih f (by omega) (n / 10) (by omega)
        simp only [decNat, decDigits, hn, if_false]
        rw [hrest]
        rcases Nat.lt_or_ge n f with hlt | hge
        · rw [ih n (by omega) (n / 10) (by omega)]
        · obtain rfl : f = n := by omega
          rw [hrest]

theorem decNat_eq (n : Nat) :
    decNat n = if n < 10 then [UInt8.ofNat (48 + n)]
      else decNat (n / 10) ++ [UInt8.ofNat (48 + n % 10)] := by
  by_cases hn : n < 10
  · simp [decNat, decDigits, hn]
  · rw [if_neg hn, decNat, decDigits, if_neg hn, decDigits_eq n (n / 10) (by omega)]

theorem decNat_isDigit (n : Nat) : ∀ b ∈ decNat n, isDigit b = true := by
  induction n using Nat.strongRecOn with
  | ind n ih =>
    intro b hb
    rw [decNat_eq] at hb
    split at hb
    · rename_i h
      rw [List.mem_singleton] at hb
      exact hb ▸ isDigit_digit h
    · rcases List.mem_append.mp hb with hb | hb
      · exact ih (n / 10) (by omega) b hb
      · rw [List.mem_singleton] at hb
        exact hb ▸ isDigit_digit (Nat.mod_lt _ (by omega))

theorem decNat_ne_nil (n : Nat) : decNat n ≠ [] := by
  rw [decNat_eq]
  split <;> simp

theorem digitsVal_decNat (n : Nat) : digitsVal 0 (decNat n) = n := by
  induction n using Nat.strongRecOn with
  | ind n ih =>
    rw [decNat_eq]
    split
    · rename_i h
      simp only [digitsVal, List.foldl_cons, List.foldl_nil, toNat_digit h]
      omega
    · rw [digitsVal_append, ih (n / 10) (by omega)]
      simp only [digitsVal, List.foldl_cons, List.foldl_nil,
        toNat_digit (Nat.mod_lt n (show 0 < 10 by omega))]
      omega

/-- A digit is neither white space nor a sign. -/
theorem digit_plain {b : UInt8} (h : isDigit b = true) :
    isSpace b = false ∧ b ≠ 45 ∧ b ≠ 43 := by
  simp only [isDigit, Bool.and_eq_true, decide_eq_true_eq, UInt8.le_iff_toNat_le] at h
  have h48 : (48 : UInt8).toNat = 48 := rfl
  have h57 : (57 : UInt8).toNat = 57 := rfl
  rw [h48, h57] at h
  refine ⟨?_, ?_, ?_⟩
  · have h13 : (13 : UInt8).toNat = 13 := rfl
    have hne : b ≠ 32 := by intro e; subst e; simp at h
    have hgt : ¬ b ≤ 13 := by rw [UInt8.le_iff_toNat_le, h13]; omega
    simp [isSpace, hne, hgt]
  · intro e; subst e; simp at h
  · intro e; subst e; simp at h

theorem takeWhile_digits {ds : Bytes} (rest : Bytes) (h : ∀ b ∈ ds, isDigit b = true)
    (hr : ∀ b, rest.head? = some b → isDigit b = false) :
    (ds ++ rest).takeWhile isDigit = ds ∧ (ds ++ rest).dropWhile isDigit = rest := by
  induction ds with
  | nil =>
    cases rest with
    | nil => simp
    | cons b rest =>
      have := hr b rfl
      simp [this]
  | cons d ds ih =>
    have hd := h d (by simp)
    have := ih fun b hb => h b (by simp [hb])
    simp [hd, this.1, this.2]

theorem scanSign_digits {ds : Bytes} (rest : Bytes) (hne : ds ≠ [])
    (h : ∀ b ∈ ds, isDigit b = true) :
    scanSign ((ds ++ rest).dropWhile isSpace) = (false, ds ++ rest) := by
  cases ds with
  | nil => exact absurd rfl hne
  | cons d ds =>
    obtain ⟨hs, hm, hp⟩ := digit_plain (h d (by simp))
    simp only [List.cons_append, List.dropWhile_cons, hs, Bool.false_eq_true, if_false]
    unfold scanSign
    split
    · rename_i heq
      exact absurd (List.cons.inj heq).1 hm
    · rename_i heq
      exact absurd (List.cons.inj heq).1 hp
    · rfl

/-- **Reading back a number that was printed.** -/
theorem atol_dec {x : Int} (h0 : 0 ≤ x) (h : x < 2 ^ 63) : atol (dec x) = x := by
  have hneg : ¬ x < 0 := by omega
  have hd := decNat_isDigit x.natAbs
  have hne := decNat_ne_nil x.natAbs
  have hsign := scanSign_digits [] hne hd
  have htake := (takeWhile_digits [] hd (by simp)).1
  rw [List.append_nil] at hsign htake
  have hval : (digitsVal 0 (decNat x.natAbs) : Int) = x := by
    rw [digitsVal_decNat]
    omega
  have hscan : scanLong (decNat x.natAbs) = some (x, (decNat x.natAbs).dropWhile isDigit) := by
    unfold scanLong
    rw [hsign]
    dsimp only
    rw [htake]
    simp only [Bool.false_eq_true, if_false]
    have hsat : satLong x = x := by unfold satLong; omega
    rw [hval, hsat]
  unfold atol dec
  rw [if_neg hneg, hscan]
  rfl

theorem scanLong_digits {s t : Bytes} {minus : Bool}
    (hsign : scanSign (s.dropWhile isSpace) = (minus, t)) (hne : t.takeWhile isDigit ≠ []) :
    scanLong s = some (satLong (if minus then -(digitsVal 0 (t.takeWhile isDigit) : Int)
      else digitsVal 0 (t.takeWhile isDigit)), t.dropWhile isDigit) := by
  unfold scanLong
  rw [hsign]
  dsimp only
  split
  · rename_i hnil
    exact absurd hnil hne
  · rfl

/-- **`%ld` reads a printed `long` up to where it ends.** -/
theorem scanLong_dec {x : Int} {rest : Bytes} (h0 : -(2 ^ 63) ≤ x) (h1 : x < 2 ^ 63)
    (hr : ∀ b, rest.head? = some b → isDigit b = false) :
    scanLong (dec x ++ rest) = some (x, rest) := by
  have hd := decNat_isDigit x.natAbs
  have hne := decNat_ne_nil x.natAbs
  obtain ⟨htake, hdrop⟩ := takeWhile_digits rest hd hr
  have hsat : satLong x = x := by
    unfold satLong
    omega
  have hsign : scanSign ((dec x ++ rest).dropWhile isSpace) =
      (decide (x < 0), decNat x.natAbs ++ rest) := by
    by_cases hneg : x < 0
    · rw [dec, if_pos hneg, decide_eq_true hneg]
      rfl
    · rw [dec, if_neg hneg, decide_eq_false hneg]
      exact scanSign_digits rest hne hd
  have hvalue : (if decide (x < 0) then -(x.natAbs : Int) else x.natAbs) = x := by
    split
    all_goals simp only [decide_eq_true_eq] at *; omega
  rw [scanLong_digits hsign (by rw [htake]; exact hne), htake, hdrop,
    digitsVal_decNat, hvalue, hsat]

/-- An `int` that was printed is read back. -/
theorem atoi_dec_int {x : Int} (h : IsInt32 x) : atoi (dec x) = x := by
  have hx := h
  unfold IsInt32 at hx
  have hscan : scanLong (dec x) = some (x, []) := by
    have hend : scanLong (dec x ++ []) = some (x, []) :=
      scanLong_dec (by omega) (by omega) fun _ hb => absurd hb (by simp)
    rwa [List.append_nil] at hend
  rw [atoi, atol, hscan]
  exact toInt32_eq h

/-- White space in front of a number does not matter. -/
theorem scanLong_space (s : Bytes) : scanLong (32 :: s) = scanLong s := rfl

/-- A number is printed with digits and a minus sign. -/
theorem mem_dec {x : Int} {b : UInt8} (h : b ∈ dec x) : b = 45 ∨ isDigit b = true := by
  unfold dec at h
  split at h
  · rcases List.mem_cons.mp h with h | h
    · exact .inl h
    · exact .inr (decNat_isDigit _ b h)
  · exact .inr (decNat_isDigit _ b h)

theorem dec_ne_nil (x : Int) : dec x ≠ [] := by
  unfold dec
  split
  · simp
  · exact decNat_ne_nil _

/-- A number of at most `k` digits. -/
theorem length_decNat {n k : Nat} (hk : 0 < k) (h : n < 10 ^ k) : (decNat n).length ≤ k := by
  induction k generalizing n with
  | zero => omega
  | succ k ih =>
    rw [decNat_eq]
    split
    · exact Nat.succ_le_succ (Nat.zero_le k)
    · rename_i hn
      have hk' : 0 < k := by
        rcases Nat.eq_zero_or_pos k with rfl | hpos
        · omega
        · exact hpos
      have hlt : n / 10 < 10 ^ k := by
        rw [Nat.div_lt_iff_lt_mul (by omega), ← Nat.pow_succ]
        exact h
      rw [List.length_append]
      exact Nat.succ_le_succ (ih hk' hlt)

theorem length_dec_int32 {x : Int} (h : IsInt32 x) : (dec x).length ≤ 11 := by
  have hlen : (decNat x.natAbs).length ≤ 10 := by
    refine length_decNat (by decide) ?_
    obtain ⟨h1, h2⟩ := h
    omega
  unfold dec
  split
  · exact Nat.succ_le_succ hlen
  · omega

end LuoYun

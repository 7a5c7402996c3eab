import LuoYun.Util.Base64
import LuoYun.Web.Python
import Mathlib.Data.List.GetD
import Mathlib.Tactic.Ring

/-!
# Base64 there and back

`base64_encode` makes the standard encoding, and `base64_decode` takes it apart again. On other
texts `base64_decode` can read and write where it must not.
-/

namespace LuoYun

open Base64 (symbol number digit)

/-! ## Bits -/

theorem mul_or {m k : Nat} (i : Nat) (h : k < 2 ^ i) : m * 2 ^ i ||| k = m * 2 ^ i + k := by
  have hadd := Nat.shiftLeft_add_eq_or_of_lt h m
  rw [Nat.shiftLeft_eq] at hadd
  exact hadd.symm

theorem triple_number (a b c : UInt8) :
    a.toNat <<< 0x10 ||| b.toNat <<< 0x08 ||| c.toNat = number a b c := by
  have hb := b.toNat_lt
  have hc := c.toNat_lt
  have h1 : a.toNat * 2 ^ 16 ||| b.toNat * 2 ^ 8 = (a.toNat * 2 ^ 8 + b.toNat) * 2 ^ 8 := by
    rw [mul_or 16 (by omega)]
    omega
  rw [Nat.shiftLeft_eq, Nat.shiftLeft_eq, h1, mul_or 8 hc, number]
  omega

/-- Four values of six bits, as the decoder puts them together. -/
theorem triple_values {a b c d : Nat} (hb : b < 64) (hc : c < 64) (hd : d < 64) :
    a <<< 18 ||| b <<< 12 ||| c <<< 6 ||| d = a * 64 ^ 3 + b * 64 ^ 2 + c * 64 + d := by
  have hb' : b * 2 ^ 12 < 2 ^ 18 := by omega
  have hc' : c * 2 ^ 6 < 2 ^ 12 := by omega
  have f1 : a * 2 ^ 18 + b * 2 ^ 12 = (a * 64 + b) * 2 ^ 12 := by ring
  have f2 : (a * 64 + b) * 2 ^ 12 + c * 2 ^ 6 = (a * 4096 + b * 64 + c) * 2 ^ 6 := by ring
  have f3 : (a * 4096 + b * 64 + c) * 2 ^ 6 + d = a * 64 ^ 3 + b * 64 ^ 2 + c * 64 + d := by ring
  rw [Nat.shiftLeft_eq, Nat.shiftLeft_eq, Nat.shiftLeft_eq, mul_or 18 hb', f1, mul_or 12 hc', f2,
    mul_or 6 hd, f3]

theorem triple_digits {n : Nat} (h : n < 64 ^ 4) :
    digit n 3 <<< 18 ||| digit n 2 <<< 12 ||| digit n 1 <<< 6 ||| digit n 0 = n := by
  rw [triple_values (Base64.digit_lt n 2) (Base64.digit_lt n 1) (Base64.digit_lt n 0)]
  exact Base64.digits_number h

/-! ## The encoder -/

theorem base64enTable_symbol : ∀ v < 64, base64enTable.getD v 0 = symbol v := by decide

theorem encodeTriple_eq (a b c : UInt8) :
    encodeTriple a b c = [symbol (digit (number a b c) 3), symbol (digit (number a b c) 2),
      symbol (digit (number a b c) 1), symbol (digit (number a b c) 0)] := by
  have hand : ∀ n : Nat, n &&& 0x3F = n % 64 := fun n => Nat.and_two_pow_sub_one_eq_mod n 6
  have hdigit : ∀ n k : Nat, n / 2 ^ (6 * k) % 64 = digit n k := by
    intro n k
    rw [digit, Nat.pow_mul]
  have hmod : ∀ n : Nat, n % 64 = digit n 0 := by
    intro n
    rw [digit, Nat.pow_zero, Nat.div_one]
  have hsym : ∀ n k, base64enTable.getD (digit n k) 0 = symbol (digit n k) :=
    fun n k => base64enTable_symbol _ (Base64.digit_lt n k)
  unfold encodeTriple
  dsimp only
  rw [triple_number, hand, hand, hand, hand, Nat.shiftRight_eq_div_pow, Nat.shiftRight_eq_div_pow,
    Nat.shiftRight_eq_div_pow, hdigit _ 3, hdigit _ 2, hdigit _ 1, hmod, hsym, hsym, hsym, hsym]

theorem length_encodeLoop (x : Bytes) : (encodeLoop x).length = (x.length + 2) / 3 * 4 := by
  fun_induction encodeLoop x with
  | case1 => rfl
  | case2 a => simp [encodeTriple]
  | case3 a b => simp [encodeTriple]
  | case4 a b c rest ih =>
    simp only [List.length_append, List.length_cons, ih, encodeTriple_eq, List.length_nil]
    omega

/-- The padding stays in the last group. -/
theorem padLoop_append (q r : Bytes) (n : Nat) (hn : n ≤ r.length) :
    padLoop (q.length + r.length) n (q ++ r) = q ++ padLoop r.length n r := by
  unfold padLoop
  have hloop : ∀ (l : List Nat) (r' : Bytes), (∀ i ∈ l, i < r.length) → r'.length = r.length →
      l.foldl (fun odata i => odata.set (q.length + r.length - i - 1) 61) (q ++ r') =
        q ++ l.foldl (fun odata i => odata.set (r.length - i - 1) 61) r' := by
    intro l
    induction l with
    | nil => exact fun _ _ _ => rfl
    | cons i l ih =>
      intro r' hl hr
      have hi := hl i List.mem_cons_self
      have hpos : q.length + r.length - i - 1 = q.length + (r.length - i - 1) := by omega
      rw [List.foldl_cons, List.foldl_cons, hpos, List.set_append_right _ _ (by omega),
        Nat.add_sub_cancel_left]
      exact ih _ (fun j hj => hl j (List.mem_cons_of_mem _ hj)) (by rw [List.length_set, hr])
  exact hloop _ r (fun i hi => by have := List.mem_range.mp hi; omega) rfl

/-- **`base64_encode` makes the standard encoding.** -/
theorem base64Encode_eq (x : Bytes) : base64Encode x =
    (Base64.encode x, (x.length + 2) / 3 * 4) := by
  refine Prod.ext ?_ rfl
  unfold base64Encode
  dsimp only
  fun_induction Base64.encode x with
  | case1 => rfl
  | case2 a =>
    rw [encodeLoop, encodeTriple_eq]
    simp [padLoop, base64enBytePos, List.range_succ]
  | case3 a b =>
    rw [encodeLoop, encodeTriple_eq]
    simp [padLoop, base64enBytePos, List.range_succ]
  | case4 a b c rest ih =>
    have hlen := length_encodeLoop rest
    have hmod : (a :: b :: c :: rest).length % 3 = rest.length % 3 := by
      simp only [List.length_cons]
      omega
    have hpos : ∀ k < 3, base64enBytePos.getD k 0 ≤ 2 * k := by decide
    have hn : base64enBytePos.getD (rest.length % 3) 0 ≤ (encodeLoop rest).length := by
      have := hpos (rest.length % 3) (Nat.mod_lt _ (by decide))
      omega
    have hl : ((a :: b :: c :: rest).length + 2) / 3 * 4 = 4 + (encodeLoop rest).length := by
      simp only [List.length_cons]
      omega
    rw [encodeLoop, hmod, hl, encodeTriple_eq]
    refine (padLoop_append [_, _, _, _] (encodeLoop rest) _ hn).trans ?_
    rw [hlen, ih]
    rfl

/-! ## The table -/

/-- The table of the decoder, once it is made. -/
def deTable : List Int := fillTable base64deTable

theorem fillTable_deTable : fillTable deTable = deTable := rfl

/-- **The table is the same for every call**, the first one included. -/
theorem fillTable_after (calls : List Bytes) : fillTable (tableAfter calls) = deTable := by
  have hrun : ∀ (calls : List Bytes) (table : List Int), fillTable table = deTable →
      fillTable (calls.foldl (fun table idata => (base64Decode table idata).1) table) =
        deTable := by
    intro calls
    induction calls with
    | nil => exact fun _ h => h
    | cons idata calls ih =>
      intro table h
      have hstep : (base64Decode table idata).1 = deTable := h
      rw [List.foldl_cons, hstep]
      exact ih _ fillTable_deTable
  exact hrun calls _ rfl

theorem deValue_symbol : ∀ v < 64, deValue deTable (symbol v) = v := by decide +kernel

theorem deValue_equals : deValue deTable 61 = 0 := rfl

/-! ## The decoder on an encoding -/

theorem readAt_append (pre text : Bytes) {k : Nat} (hk : k ≤ text.length) :
    readAt (pre ++ text) ((pre.length : Int) + (k : Int)) = .ok (text.getD k 0) := by
  have hlen : (pre ++ text).length = pre.length + text.length := List.length_append
  have hpos : ((pre.length : Int) + (k : Int)).toNat = pre.length + k := by omega
  rw [readAt, if_neg (by omega), hpos, List.getD_append_right _ _ _ _ (by omega),
    Nat.add_sub_cancel_left]

theorem putByte_ok {olen b : Nat} {odata : Bytes} (h : odata.length < olen) :
    putByte olen (olen + 1) b odata = .ok (odata ++ [UInt8.ofNat b]) := by
  rw [putByte, if_pos h, if_pos (by omega)]

theorem putByte_full {olen alloc b : Nat} {odata : Bytes} (h : olen ≤ odata.length) :
    putByte olen alloc b odata = .ok odata := by
  rw [putByte, if_neg (by omega)]

/-- The bytes of a number of three. -/
theorem bytes_number (a b c : UInt8) :
    UInt8.ofNat (number a b c >>> 16 &&& 0xFF) = a ∧ UInt8.ofNat (number a b c >>> 8 &&& 0xFF) = b ∧
      UInt8.ofNat (number a b c &&& 0xFF) = c := by
  have ha := a.toNat_lt
  have hb := b.toNat_lt
  have hc := c.toNat_lt
  have hand : ∀ n : Nat, n &&& 0xFF = n % 256 := fun n => Nat.and_two_pow_sub_one_eq_mod n 8
  have hn : number a b c = a.toNat * 65536 + b.toNat * 256 + c.toNat := rfl
  rw [hand, hand, hand, Nat.shiftRight_eq_div_pow, Nat.shiftRight_eq_div_pow]
  refine ⟨?_, ?_, ?_⟩ <;> refine UInt8.toNat_inj.mp ?_ <;> rw [UInt8.toNat_ofNat'] <;> omega

/-- A group of the text. -/
theorem decodeLoop_group {pre rest odata : Bytes} {s0 s1 s2 s3 : UInt8} {olen alloc n t : Nat}
    (ht : deValue deTable s0 <<< 18 ||| deValue deTable s1 <<< 12 ||| deValue deTable s2 <<< 6 |||
      deValue deTable s3 = t) :
    decodeLoop deTable (pre ++ s0 :: s1 :: s2 :: s3 :: rest) olen alloc (n + 1) pre.length odata =
      (do
        let odata ← putByte olen alloc (t >>> 16 &&& 0xFF) odata
        let odata ← putByte olen alloc (t >>> 8 &&& 0xFF) odata
        let odata ← putByte olen alloc (t &&& 0xFF) odata
        decodeLoop deTable (pre ++ s0 :: s1 :: s2 :: s3 :: rest) olen alloc n
          (pre.length + 4) odata) := by
  have hread : ∀ k : Nat, k ≤ 3 → readAt (pre ++ s0 :: s1 :: s2 :: s3 :: rest)
      ((pre.length : Int) + (k : Int)) = .ok ((s0 :: s1 :: s2 :: s3 :: rest).getD k 0) := by
    intro k hk
    exact readAt_append pre _ (by simp only [List.length_cons]; omega)
  have h0 : readAt (pre ++ s0 :: s1 :: s2 :: s3 :: rest) pre.length = .ok s0 := by
    simpa using hread 0 (by omega)
  have h1 : readAt (pre ++ s0 :: s1 :: s2 :: s3 :: rest) (pre.length + 1) = .ok s1 :=
    hread 1 (by omega)
  have h2 : readAt (pre ++ s0 :: s1 :: s2 :: s3 :: rest) (pre.length + 2) = .ok s2 :=
    hread 2 (by omega)
  have h3 : readAt (pre ++ s0 :: s1 :: s2 :: s3 :: rest) (pre.length + 3) = .ok s3 :=
    hread 3 (by omega)
  rw [decodeLoop, h0, h1, h2, h3]
  dsimp only [bind, Except.bind]
  rw [ht]

/-- **The loop over the groups of an encoding** puts out what was encoded. -/
theorem decodeLoop_encode (x pre odata : Bytes) {olen : Nat}
    (hlen : odata.length + x.length = olen) :
    decodeLoop deTable (pre ++ Base64.encode x) olen (olen + 1)
      ((x.length + 2) / 3) pre.length odata =
      .ok (odata ++ x) := by
  have hsym : ∀ n k, deValue deTable (symbol (digit n k)) = digit n k :=
    fun n k => deValue_symbol _ (Base64.digit_lt n k)
  have hdone : ∀ {odata : Bytes} {b : Nat}, odata.length = olen →
      putByte olen (olen + 1) b odata = .ok odata :=
    fun h => putByte_full (by omega)
  fun_induction Base64.encode x generalizing pre odata with
  | case1 => simp [decodeLoop]
  | case2 a =>
    have htriple := triple_digits (Base64.number_lt a 0 0)
    obtain ⟨ha, -, -⟩ := bytes_number a 0 0
    -- the two digits that are not written are zero
    have hn : number a 0 0 = a.toNat * 65536 := by simp [number]
    have hz1 : digit (number a 0 0) 1 = 0 := by
      rw [digit, hn]
      omega
    have hz0 : digit (number a 0 0) 0 = 0 := by
      rw [digit, hn]
      omega
    rw [hz0, hz1] at htriple
    have hfull : (odata ++ [a]).length = olen := by rw [← hlen, List.length_append]
    have hcount : ([a].length + 2) / 3 = 0 + 1 := by simp
    rw [List.length_singleton] at hlen
    rw [hcount]
    refine (decodeLoop_group (t := number a 0 0) ?_).trans ?_
    · rw [hsym, hsym, deValue_equals]
      exact htriple
    · rw [putByte_ok (by omega), ha]
      dsimp only [bind, Except.bind]
      rw [hdone hfull]
      dsimp only
      rw [hdone hfull]
      rfl
  | case3 a b =>
    have htriple := triple_digits (Base64.number_lt a b 0)
    obtain ⟨ha, hb, -⟩ := bytes_number a b 0
    have hn : number a b 0 = a.toNat * 65536 + b.toNat * 256 := by simp [number]
    have hz0 : digit (number a b 0) 0 = 0 := by
      rw [digit, hn]
      omega
    rw [hz0] at htriple
    have hfull : (odata ++ [a] ++ [b]).length = olen := by
      rw [← hlen, List.append_assoc, List.length_append]
      rfl
    have hcount : ([a, b].length + 2) / 3 = 0 + 1 := by simp
    have hroom : (odata ++ [a]).length < olen := by
      rw [← hfull]
      simp
    have hroom' : odata.length < olen := by
      rw [← hfull]
      simp
    rw [hcount]
    refine (decodeLoop_group (t := number a b 0) ?_).trans ?_
    · rw [hsym, hsym, hsym, deValue_equals]
      exact htriple
    · rw [putByte_ok hroom', ha]
      dsimp only [bind, Except.bind]
      rw [putByte_ok hroom, hb]
      dsimp only
      rw [hdone hfull, List.append_assoc]
      rfl
  | case4 a b c rest ih =>
    have htriple := triple_digits (Base64.number_lt a b c)
    obtain ⟨ha, hb, hc⟩ := bytes_number a b c
    simp only [List.length_cons] at hlen
    have hcount : ((a :: b :: c :: rest).length + 2) / 3 = (rest.length + 2) / 3 + 1 := by
      simp only [List.length_cons]
      omega
    have hout : (odata ++ [a] ++ [b] ++ [c]).length + rest.length = olen := by
      simp only [List.length_append, List.length_singleton]
      omega
    rw [hcount]
    refine (decodeLoop_group (t := number a b c) ?_).trans ?_
    · rw [hsym, hsym, hsym, hsym]
      exact htriple
    · rw [putByte_ok (by omega), ha]
      dsimp only [bind, Except.bind]
      rw [putByte_ok (by rw [List.length_append, List.length_singleton]; omega), hb]
      dsimp only
      rw [putByte_ok (by simp only [List.length_append, List.length_singleton]; omega), hc]
      dsimp only
      have hrest := ih (pre ++ [symbol (digit (number a b c) 3), symbol (digit (number a b c) 2),
        symbol (digit (number a b c) 1),
          symbol (digit (number a b c) 0)]) (odata ++ [a] ++ [b] ++ [c]) hout
      rw [List.append_assoc, List.length_append, Int.natCast_add] at hrest
      refine hrest.trans ?_
      simp

theorem readAt_ok {text : Bytes} {k : Nat} (h : k ≤ text.length) :
    readAt text k = .ok (text.getD k 0) := by
  rw [readAt, if_neg (by omega), Int.toNat_natCast]

theorem groupEnd_encode (x : Bytes) (hlen : x.length < 2 ^ 29) :
    groupEnd (Base64.encode x) = .ok ((Base64.encode x).length : Int) := by
  have hl := Base64.length_encode x
  have hint : toInt32 ((Base64.encode x).length : Int) = ((Base64.encode x).length : Int) :=
    toInt32_eq ⟨by omega, by omega⟩
  have hmod : Int.tmod ((Base64.encode x).length : Int) 4 = 0 := by
    rw [Int.tmod_eq_emod_of_nonneg (by omega)]
    omega
  unfold groupEnd
  dsimp only
  rw [hint, if_neg (by rw [hmod]; decide)]

theorem toSize_natCast {n : Nat} (h : n < 2 ^ 64) : toSize n = n := by
  unfold toSize
  omega

theorem decodedLen_encode (x : Bytes) (hx : x ≠ []) (hlen : x.length < 2 ^ 29) :
    decodedLen (Base64.encode x) ((Base64.encode x).length : Int) = .ok x.length := by
  have hl := Base64.length_encode x
  have hpos : 0 < x.length := List.length_pos_iff.mpr hx
  obtain ⟨h1, h2⟩ := Base64.encode_last hx
  generalize Base64.encode x = text at *
  have hr1 : readAt text ((text.length : Int) - 1) = .ok (text.getD (text.length - 1) 0) := by
    have he : (text.length : Int) - 1 = ((text.length - 1 : Nat) : Int) := by omega
    rw [he, readAt_ok (by omega)]
  have hr2 : readAt text ((text.length : Int) - 2) = .ok (text.getD (text.length - 2) 0) := by
    have he : (text.length : Int) - 2 = ((text.length - 2 : Nat) : Int) := by omega
    rw [he, readAt_ok (by omega)]
  have hdiv : Int.tdiv (text.length : Int) 4 * 3 = (((x.length + 2) / 3 * 3 : Nat) : Int) := by
    rw [Int.tdiv_eq_ediv_of_nonneg (by omega)]
    omega
  have hround : toSize (Int.tdiv (text.length : Int) 4 * 3) = (x.length + 2) / 3 * 3 := by
    rw [hdiv, toSize_natCast (by omega)]
  have hdec : ∀ n : Nat, 0 < n → n < 2 ^ 64 → toSize ((n : Int) - 1) = n - 1 := by
    intro n h0 h64
    have he : (n : Int) - 1 = ((n - 1 : Nat) : Int) := by omega
    rw [he, toSize_natCast (by omega)]
  unfold decodedLen
  rw [hr1, hr2, hround]
  dsimp only [bind, Except.bind, pure, Except.pure]
  have hcases : x.length % 3 = 0 ∨ x.length % 3 = 1 ∨ x.length % 3 = 2 := by omega
  rcases hcases with h | h | h
  · rw [if_neg (fun he => (h2.mp he ▸ (by decide : (1 : Nat) ≠ 0)) h),
      if_neg (fun he => h1.mp he h)]
    congr 1
    omega
  · have hfirst := hdec ((x.length + 2) / 3 * 3) (by omega) (by omega)
    rw [if_pos (h2.mpr h), if_pos (h1.mpr (by omega)), hfirst, hdec _ (by omega) (by omega)]
    congr 1
    omega
  · have hne : ¬ text.getD (text.length - 2) 0 = 61 := fun he => by have := h2.mp he; omega
    rw [if_neg hne, if_pos (h1.mpr (by omega)), hdec _ (by omega) (by omega)]
    congr 1
    omega

/-- **What was encoded is decoded again**, whatever was decoded before. -/
theorem base64Decode_encode (calls : List Bytes) (x : Bytes) (hx : x ≠ [])
    (hlen : x.length < 2 ^ 29) :
    (base64Decode (tableAfter calls) (Base64.encode x)).2 = .ok ⟨x, x.length⟩ := by
  have hl := Base64.length_encode x
  have hloop := decodeLoop_encode x [] [] (Nat.zero_add x.length)
  have halloc : toSize ((x.length : Int) + 1) = x.length + 1 :=
    toSize_natCast (n := x.length + 1) (by omega)
  have hgroups : (((Base64.encode x).length : Int) / 4).toNat = (x.length + 2) / 3 := by omega
  unfold base64Decode
  dsimp only
  rw [fillTable_after, groupEnd_encode x hlen]
  dsimp only [bind, Except.bind]
  rw [decodedLen_encode x hx hlen]
  dsimp only
  rw [List.nil_append, List.nil_append, List.length_nil, Int.natCast_zero] at hloop
  rw [halloc, hgroups, hloop]
  dsimp only
  rw [if_neg (by omega)]

/-- **Base64 there and back.** The encoder makes the standard encoding, and the decoder gets the
data back from that and from what the web interface stores. -/
theorem base64_round_trip (calls : List Bytes) (x : Bytes) (hx : x ≠ [])
    (hlen : x.length < 2 ^ 29) :
    (base64Encode x).1 = Base64.encode x ∧ (base64Encode x).2 = (base64Encode x).1.length ∧
    (base64Decode (tableAfter calls) (base64Encode x).1).2 = .ok ⟨x, x.length⟩ ∧
    (base64Decode (tableAfter calls) (Web.setLibvirtConf x)).2 = .ok ⟨x, x.length⟩ := by
  rw [base64Encode_eq, Web.setLibvirtConf_eq]
  have hdec := base64Decode_encode calls x hx hlen
  exact ⟨rfl, (Base64.length_encode x).symm, hdec, hdec⟩

/-- One byte, by the first call. -/
theorem base64_round_trip_one :
    (base64Encode [77]).1 = Base64.encode [77] ∧ (base64Encode [77]).2 =
      (base64Encode [77]).1.length ∧
    (base64Decode (tableAfter []) (base64Encode [77]).1).2 = .ok ⟨[77], 1⟩ ∧
    (base64Decode (tableAfter []) (Web.setLibvirtConf [77])).2 = .ok ⟨[77], 1⟩ :=
  base64_round_trip [] [77] (by decide) (by decide)

/-! ## The decoder on any text -/

/-- 1 if the byte at this distance from the end is `=`. -/
def padAt (text : Bytes) (k : Nat) : Int := if text.getD (text.length - k) 0 = 61 then 1 else 0

/-- The length that `base64_decode` computes for groups up to `ilen4`, as a number without bounds.
-/
def outLen (text : Bytes) (ilen4 : Int) : Int := Int.tdiv ilen4 4 * 3 - padAt text 1 - padAt text 2

/-- `base64_decode` stays inside of the text and of its allocation, and the length it reports is the
one that it has computed. -/
def DecodesSafely (table : List Int) (text : Bytes) : Prop :=
  ∃ r ilen4, (base64Decode table text).2 = .ok r ∧ groupEnd text = .ok ilen4 ∧
    (r.olen : Int) = outLen text ilen4

/-- The beginning of the group that is not complete, or the end of the text. -/
def lastGroup (text : Bytes) : Int := 4 * (toInt32 text.length / 4)

/-- No group follows: the last one is complete, or there is a `=` instead of its first character. -/
def Complete (text : Bytes) : Prop :=
  toInt32 text.length % 4 = 0 ∨ text.getD (lastGroup text).toNat 0 = 61

/-- The texts that `base64_decode` can be given. -/
structure WellShaped (text : Bytes) : Prop where
  two : 2 ≤ text.length
  /-- The length is a number of type `int`. -/
  positive : 0 ≤ toInt32 text.length
  /-- The padding can be taken off. -/
  complete : Complete text → lastGroup text = 0 → padAt text 1 = 0 ∧ padAt text 2 = 0
  /-- A group that is not complete lacks its last character only. -/
  short : ¬ Complete text → lastGroup text + 3 ≤ text.length ∧ lastGroup text + 4 < 2 ^ 31

variable {text : Bytes}

theorem padAt_range (text : Bytes) (k : Nat) : 0 ≤ padAt text k ∧ padAt text k ≤ 1 := by
  unfold padAt
  split <;> omega

theorem toSize_sub (x : Int) : toSize ((toSize x : Int) - 1) = toSize (x - 1) := by
  unfold toSize
  omega

theorem readAt_fault {k : Int} (h : k < 0 ∨ (text.length : Int) < k) :
    readAt text k = .error .read := if_pos h

/-- Subtracting the padding one by one, with the remainder taken each time, is the same. -/
theorem decodedLen_eq (h : 2 ≤ text.length) (ilen4 : Int) :
    decodedLen text ilen4 = .ok (toSize (outLen text ilen4)) := by
  have hr1 : readAt text ((text.length : Int) - 1) = .ok (text.getD (text.length - 1) 0) := by
    have he : (text.length : Int) - 1 = ((text.length - 1 : Nat) : Int) := by omega
    rw [he, readAt_ok (by omega)]
  have hr2 : readAt text ((text.length : Int) - 2) = .ok (text.getD (text.length - 2) 0) := by
    have he : (text.length : Int) - 2 = ((text.length - 2 : Nat) : Int) := by omega
    rw [he, readAt_ok (by omega)]
  unfold decodedLen outLen padAt
  rw [hr1, hr2]
  dsimp only [bind, Except.bind, pure, Except.pure]
  congr 1
  split <;> split <;> simp only [toSize_sub, Int.sub_zero]

theorem decodedLen_short (h : text.length < 2) (ilen4 : Int) (olen : Nat) :
    decodedLen text ilen4 ≠ .ok olen := by
  unfold decodedLen
  dsimp only [bind, Except.bind]
  cases readAt text ((text.length : Int) - 1) with
  | error f => exact nofun
  | ok b =>
    dsimp only
    rw [readAt_fault (.inl (by omega))]
    exact nofun

/-- What `groupEnd` can return. -/
theorem groupEnd_ok {ilen4 : Int} (h : groupEnd text = .ok ilen4) :
    (Int.tmod (toInt32 text.length) 4 = 0 ∧ ilen4 = toInt32 text.length) ∨
    (Int.tmod (toInt32 text.length) 4 ≠ 0 ∧ 0 ≤ lastGroup text ∧
      ((text.getD (lastGroup text).toNat 0 = 61 ∧ ilen4 = lastGroup text) ∨
        (text.getD (lastGroup text).toNat 0 ≠ 61 ∧ lastGroup text + 4 < 2 ^ 31 ∧
          ilen4 = lastGroup text + 4))) := by
  unfold groupEnd at h
  dsimp only at h
  split at h
  · rename_i hmod
    refine .inr ⟨hmod, ?_⟩
    change (readAt text (lastGroup text) >>= _) = _ at h
    by_cases hneg : lastGroup text < 0 ∨ (text.length : Int) < lastGroup text
    · rw [readAt_fault hneg] at h
      cases h
    · rw [readAt, if_neg hneg] at h
      dsimp only [bind, Except.bind] at h
      refine ⟨by omega, ?_⟩
      split at h
      · rename_i hb
        split at h
        · cases h
        · rename_i ho
          exact .inr ⟨hb, Int.not_le.mp ho, (Except.ok.inj h).symm⟩
      · rename_i hb
        exact .inl ⟨Decidable.not_not.mp hb, (Except.ok.inj h).symm⟩
  · rename_i hmod
    exact .inl ⟨Decidable.not_not.mp hmod, (Except.ok.inj h).symm⟩

theorem putByte_safe (olen b : Nat) (odata : Bytes) :
    ∃ out, putByte olen (olen + 1) b odata = .ok out := by
  by_cases h : odata.length < olen
  · exact ⟨_, putByte_ok h⟩
  · exact ⟨_, putByte_full (Nat.not_lt.mp h)⟩

theorem readAt_safe (text : Bytes) {k : Int} (h0 : 0 ≤ k) (h : k ≤ text.length) :
    ∃ b, readAt text k = .ok b :=
  ⟨_, if_neg (by omega)⟩

/-- Groups that end with the text, or with its terminating zero, can be read. -/
theorem decodeLoop_safe (text : Bytes) (table : List Int) (olen n : Nat) {i : Int}
    (odata : Bytes) (h0 : 0 ≤ i) (h : i + 4 * n ≤ text.length + 1) :
    ∃ out, decodeLoop table text olen (olen + 1) n i odata = .ok out := by
  induction n generalizing i odata with
  | zero => exact ⟨odata, rfl⟩
  | succ n ih =>
    obtain ⟨b0, h0'⟩ := readAt_safe text h0 (by omega)
    obtain ⟨b1, h1⟩ := readAt_safe text (k := i + 1) (by omega) (by omega)
    obtain ⟨b2, h2⟩ := readAt_safe text (k := i + 2) (by omega) (by omega)
    obtain ⟨b3, h3⟩ := readAt_safe text (k := i + 3) (by omega) (by omega)
    rw [decodeLoop, h0', h1, h2, h3]
    dsimp only [bind, Except.bind]
    generalize deValue table b0 <<< 18 ||| deValue table b1 <<< 12 ||| deValue table b2 <<< 6 |||
      deValue table b3 = t
    obtain ⟨o1, ho1⟩ := putByte_safe olen (t >>> 16 &&& 0xFF) odata
    obtain ⟨o2, ho2⟩ := putByte_safe olen (t >>> 8 &&& 0xFF) o1
    obtain ⟨o3, ho3⟩ := putByte_safe olen (t &&& 0xFF) o2
    rw [ho1]
    dsimp only
    rw [ho2]
    dsimp only
    rw [ho3]
    exact ih o3 (by omega) (by omega)

theorem bind_ok {ε α β : Type} {x : Except ε α} {f : α → Except ε β} {b : β}
    (h : (x >>= f) = .ok b) :
    ∃ a, x = .ok a ∧ f a = .ok b := by
  cases x with
  | error e => cases h
  | ok a => exact ⟨a, rfl, h⟩

theorem readAt_inv {k : Int} {b : UInt8} (h : readAt text k = .ok b) : 0 ≤ k ∧ k ≤ text.length := by
  unfold readAt at h
  split at h
  · cases h
  · omega

/-- Groups that have been read end with the text, or with its terminating zero. -/
theorem decodeLoop_inv {table : List Int} {olen alloc n : Nat} {i : Int} {odata out : Bytes}
    (hn : 0 < n) (h : decodeLoop table text olen alloc n i odata = .ok out) :
    i + 4 * n ≤ text.length + 1 := by
  induction n generalizing i odata with
  | zero => omega
  | succ n ih =>
    rw [decodeLoop] at h
    obtain ⟨b0, -, h⟩ := bind_ok h
    obtain ⟨b1, -, h⟩ := bind_ok h
    obtain ⟨b2, -, h⟩ := bind_ok h
    obtain ⟨b3, h3, h⟩ := bind_ok h
    obtain ⟨o1, -, h⟩ := bind_ok h
    obtain ⟨o2, -, h⟩ := bind_ok h
    obtain ⟨o3, -, h⟩ := bind_ok h
    have hread := (readAt_inv h3).2
    rcases Nat.eq_zero_or_pos n with rfl | hpos
    · omega
    · have := ih hpos h
      omega

/-- Groups that end with the text and a length that can be reported are enough. -/
theorem decodesSafely_of_groupEnd {table : List Int} {e : Int} (he : groupEnd text = .ok e)
    (htwo : 2 ≤ text.length) (h0 : 0 ≤ e) (hend : e ≤ text.length + 1) (hmax : e < 2 ^ 31)
    (hlen : 0 ≤ outLen text e) : DecodesSafely table text := by
  obtain ⟨hp1, -⟩ := padAt_range text 1
  obtain ⟨hp2, -⟩ := padAt_range text 2
  have hdiv : Int.tdiv e 4 = e / 4 := Int.tdiv_eq_ediv_of_nonneg h0
  have hbound : outLen text e < 2 ^ 31 := by
    unfold outLen
    omega
  obtain ⟨olen, holen⟩ : ∃ olen : Nat, outLen text e = (olen : Int) :=
    ⟨_, (Int.toNat_of_nonneg hlen).symm⟩
  rw [holen] at hbound
  have hsize : toSize (outLen text e) = olen := by rw [holen, toSize_natCast (by omega)]
  have halloc : toSize ((olen : Int) + 1) = olen + 1 := toSize_natCast (n := olen + 1) (by omega)
  obtain ⟨out, hloop⟩ := decodeLoop_safe text (fillTable table) olen
    (e / 4).toNat [] (Int.le_refl 0)
    (by omega)
  refine ⟨⟨out, olen⟩, e, ?_, he, holen.symm⟩
  unfold base64Decode
  dsimp only
  rw [he]
  dsimp only [bind, Except.bind]
  rw [decodedLen_eq htwo, hsize]
  dsimp only
  rw [halloc, hloop]
  dsimp only
  rw [if_neg (by omega)]

/-- What `groupEnd` returns for a text whose length is a number of type `int`. -/
theorem groupEnd_eq (h0 : 0 ≤ toInt32 text.length) (hle : toInt32 text.length ≤ text.length) :
    (Complete text → groupEnd text = .ok (lastGroup text)) ∧
    (¬ Complete text → lastGroup text + 4 < 2 ^ 31 → groupEnd text = .ok (lastGroup text + 4)) := by
  have hq : lastGroup text = 4 * (toInt32 text.length / 4) := rfl
  have hmod : Int.tmod (toInt32 text.length) 4 = toInt32 text.length % 4 :=
    Int.tmod_eq_emod_of_nonneg h0
  have hread : readAt text (lastGroup text) = .ok (text.getD (lastGroup text).toNat 0) :=
    if_neg (by omega)
  unfold groupEnd
  dsimp only
  rw [← hq, hread, hmod]
  dsimp only [bind, Except.bind]
  constructor
  · intro hc
    by_cases hz : toInt32 text.length % 4 = 0
    · rw [if_neg (not_not.mpr hz)]
      exact congrArg Except.ok (by omega)
    · rw [if_pos hz, if_neg (not_not.mpr (hc.resolve_left hz))]
  · intro hc hov
    obtain ⟨hz, hb⟩ := not_or.mp hc
    rw [if_pos hz, if_pos hb, if_neg (by omega)]

/-- **`base64_decode` is safe exactly on the texts that are well shaped**, whatever its table is. -/
theorem decodesSafely_iff (table : List Int) (text : Bytes) :
    DecodesSafely table text ↔ WellShaped text := by
  obtain ⟨hp1, hp1'⟩ := padAt_range text 1
  obtain ⟨hp2, hp2'⟩ := padAt_range text 2
  have hq : lastGroup text = 4 * (toInt32 text.length / 4) := rfl
  have hm : toInt32 text.length ≤ text.length ∧ toInt32 text.length < 2 ^ 31 := by
    unfold toInt32
    omega
  constructor
  · rintro ⟨r, e, hr, he, hlen⟩
    unfold base64Decode at hr
    obtain ⟨e', he', hr⟩ := bind_ok hr
    obtain ⟨olen, holen, hr⟩ := bind_ok hr
    obtain ⟨out, hloop, -⟩ := bind_ok hr
    rw [he] at he'
    obtain rfl := Except.ok.inj he'
    have htwo : 2 ≤ text.length := by
      rcases Nat.lt_or_ge text.length 2 with hlt | hge
      · exact absurd holen (decodedLen_short hlt e olen)
      · exact hge
    have hnonneg : 0 ≤ outLen text e := by
      rw [← hlen]
      exact Int.natCast_nonneg _
    have hdiv := Int.mul_tdiv_add_tmod e 4
    unfold outLen at hnonneg
    rcases groupEnd_ok he with ⟨hmod, heq⟩ | ⟨hmod, hpos, hlast⟩
    · rw [← heq] at hmod
      have hcomplete : Complete text := .inl (by omega)
      exact ⟨htwo, by omega, fun _ hz => ⟨by omega, by omega⟩, fun hn => absurd hcomplete hn⟩
    · have hmpos : 0 ≤ toInt32 text.length := by omega
      rw [Int.tmod_eq_emod_of_nonneg hmpos] at hmod
      have htdiv : Int.tdiv e 4 = e / 4 := by
        refine Int.tdiv_eq_ediv_of_nonneg ?_
        rcases hlast with ⟨-, heq⟩ | ⟨-, -, heq⟩ <;> omega
      rcases hlast with ⟨hb, heq⟩ | ⟨hb, hov, heq⟩
      · exact ⟨htwo, hmpos, fun _ hz => ⟨by omega, by omega⟩, fun hn => absurd (.inr hb) hn⟩
      · have hcomplete : ¬ Complete text := not_or.mpr ⟨hmod, hb⟩
        have hread := decodeLoop_inv (by omega) hloop
        exact ⟨htwo, hmpos, fun hc => absurd hc hcomplete, fun _ => ⟨by omega, hov⟩⟩
  · intro h
    have hmpos := h.positive
    obtain ⟨hc, hs⟩ := groupEnd_eq hmpos hm.1
    by_cases hcomplete : Complete text
    · have htdiv : Int.tdiv (lastGroup text) 4 = lastGroup text / 4 :=
        Int.tdiv_eq_ediv_of_nonneg (by omega)
      refine decodesSafely_of_groupEnd (hc hcomplete) h.two (by omega) (by omega) (by omega) ?_
      unfold outLen
      rcases Nat.eq_zero_or_pos (lastGroup text).toNat with hz | hz
      · obtain ⟨h1, h2⟩ := h.complete hcomplete (by omega)
        omega
      · omega
    · obtain ⟨hread, hov⟩ := h.short hcomplete
      have htdiv : Int.tdiv (lastGroup text + 4) 4 = (lastGroup text + 4) / 4 :=
        Int.tdiv_eq_ediv_of_nonneg (by omega)
      refine decodesSafely_of_groupEnd (hs hcomplete hov) h.two (by omega) (by omega) hov ?_
      unfold outLen
      omega

/-- The empty text, a single character and a text of two characters are read beyond their ends, and
a `=` in front makes the length wrap around. -/
theorem decodesSafely_fails :
    (base64Decode base64deTable []).2 = .error .read ∧ ¬ DecodesSafely base64deTable [] ∧
    (base64Decode base64deTable (cstr "T")).2 = .error .read ∧
    (base64Decode base64deTable (cstr "TW")).2 = .error .read ∧
    (base64Decode base64deTable (cstr "=a")).2 = .error .write := by
  refine ⟨rfl, ?_, by decide, by decide, by decide⟩
  rintro ⟨r, e, hr, -, -⟩
  have hfault : (base64Decode base64deTable []).2 = .error .read := rfl
  rw [hfault] at hr
  cases hr

end LuoYun

import Mathlib.Data.List.Basic
import Mathlib.Tactic.Common

/-!
# Query strings

A query is a list of fields with `&` or `;` between them, and a field is a name, `=` and a value,
both quoted: a space is `+`, and a byte that is not safe is `%` with its two hexadecimal digits.
Parsing is lenient. What is not a quotation stands for itself, an empty field is skipped, and a
field without a value is skipped unless blank values are asked for.

What `urlencode` writes is read back as it was (`parseQsl_urlencode`).
-/

namespace LuoYun.Query

/-! ## Quoting -/

/-- Letters, digits, and the signs `_`, `.` and `-`. -/
def isSafe (b : UInt8) : Bool :=
  (48 ≤ b && b ≤ 57) || (65 ≤ b && b ≤ 90) || (97 ≤ b && b ≤ 122) || b == 95 || b == 46 || b == 45

/-- A hexadecimal digit. -/
def hexDigit (n : Nat) : UInt8 := UInt8.ofNat (if n < 10 then 48 + n else 55 + n)

/-- What a hexadecimal digit stands for, with capital letters or small ones. -/
def hexValue (b : UInt8) : Option Nat :=
  if 48 ≤ b ∧ b ≤ 57 then some (b.toNat - 48)
  else if 65 ≤ b ∧ b ≤ 70 then some (b.toNat - 55)
  else if 97 ≤ b ∧ b ≤ 102 then some (b.toNat - 87)
  else none

/-- A byte in a quotation. -/
def quoteByte (b : UInt8) : List UInt8 :=
  if isSafe b then [b]
  else if b = 32 then [43]
  else [37, hexDigit (b.toNat / 16), hexDigit (b.toNat % 16)]

/-- `quote_plus`. -/
def quotePlus (s : List UInt8) : List UInt8 := s.flatMap quoteByte

/-- `unquote`. -/
def unquote : List UInt8 → List UInt8
  | 37 :: a :: b :: s =>
    match hexValue a, hexValue b with
    | some x, some y => UInt8.ofNat (16 * x + y) :: unquote s
    | _, _ => 37 :: unquote (a :: b :: s)
  | b :: s => b :: unquote s
  | [] => []

/-- `+` is read as a space before anything else. -/
def unquotePlus (s : List UInt8) : List UInt8 := unquote (s.map fun b => if b = 43 then 32 else b)

/-! ## Queries -/

/-- A field: what is before the first `=`, and what is behind it. -/
def parseField (keepBlank : Bool) (field : List UInt8) : Option (List UInt8 × List UInt8) :=
  if field = [] then none
  else match field.dropWhile (· ≠ 61) with
  | [] => if keepBlank then some (unquotePlus field, []) else none
  | _ :: value =>
    if value ≠ [] ∨ keepBlank then some
      (unquotePlus (field.takeWhile (· ≠ 61)), unquotePlus value) else none

/-- `parse_qsl`. -/
def parseQsl (keepBlank : Bool) (qs : List UInt8) : List (List UInt8 × List UInt8) :=
  ((qs.splitOn 38).flatMap fun s => s.splitOn 59).filterMap (parseField keepBlank)

/-- A field as it is written. -/
def field (x : List UInt8 × List UInt8) : List UInt8 := quotePlus x.1 ++ 61 :: quotePlus x.2

/-- `urlencode`. -/
def urlencode (l : List (List UInt8 × List UInt8)) : List UInt8 := [38].intercalate (l.map field)

/-! ## A quotation is read back -/

/-- Every digit of a quotation, and what `unquote` makes of two of them. -/
theorem hexValue_hexDigit : ∀ n < 16, hexValue (hexDigit n) = some n := by decide

/-- The bytes that a quotation can have. -/
def isQuoted (b : UInt8) : Bool := isSafe b || b == 43 || b == 37

theorem isSafe_hexDigit : ∀ n < 16, isSafe (hexDigit n) = true := by decide

theorem isQuoted_of_mem {b c : UInt8} (h : c ∈ quoteByte b) : isQuoted c = true := by
  have hlt := b.toNat_lt
  unfold quoteByte at h
  unfold isQuoted
  split at h
  · rename_i hsafe
    rw [List.mem_singleton] at h
    rw [h, hsafe]
    rfl
  · split at h
    · rw [List.mem_singleton] at h
      rw [h]
      rfl
    · rcases List.mem_cons.mp h with rfl | h
      · rfl
      rcases List.mem_cons.mp h with rfl | h
      · rw [isSafe_hexDigit _ (by omega)]
        rfl
      rw [List.mem_singleton] at h
      rw [h, isSafe_hexDigit _ (by omega)]
      rfl

/-- No separator is in a quotation. -/
theorem not_mem_quotePlus {b : UInt8} (h : isQuoted b = false) (s : List UInt8) :
    b ∉ quotePlus s := by
  intro hmem
  obtain ⟨c, -, hc⟩ := List.mem_flatMap.mp hmem
  rw [isQuoted_of_mem hc] at h
  cases h

theorem unquote_cons {b : UInt8} (h : b ≠ 37) (s : List UInt8) :
    unquote (b :: s) = b :: unquote s := by
  rw [unquote]
  intro _ _ _ he
  exact absurd he h

theorem unquotePlus_quoteByte (b : UInt8) (s : List UInt8) :
    unquotePlus (quoteByte b ++ s) = b :: unquotePlus s := by
  have hlt := b.toNat_lt
  unfold quoteByte unquotePlus
  split
  · rename_i hsafe
    have h43 : b ≠ 43 := fun he => absurd hsafe (by rw [he]; decide)
    have h37 : b ≠ 37 := fun he => absurd hsafe (by rw [he]; decide)
    rw [List.singleton_append, List.map_cons, if_neg h43, unquote_cons h37]
  · split
    · rename_i hspace
      rw [hspace, List.singleton_append, List.map_cons, if_pos rfl, unquote_cons (by decide)]
    · have hdigit : ∀ n < 16, hexDigit n ≠ 43 := by decide
      simp only [List.cons_append, List.nil_append, List.map_cons,
        hdigit _ (show b.toNat / 16 < 16 by omega),
        hdigit _ (show b.toNat % 16 < 16 by omega), if_false]
      rw [if_neg (by decide), unquote, hexValue_hexDigit _ (by omega),
        hexValue_hexDigit _ (by omega)]
      have hb : 16 * (b.toNat / 16) + b.toNat % 16 = b.toNat := by omega
      dsimp only
      rw [hb, UInt8.ofNat_toNat]

theorem unquotePlus_quotePlus (s : List UInt8) : unquotePlus (quotePlus s) = s := by
  induction s with
  | nil => rfl
  | cons b s ih =>
    rw [quotePlus, List.flatMap_cons, unquotePlus_quoteByte]
    rw [quotePlus] at ih
    rw [ih]

/-- A text of safe bytes is its own quotation. -/
theorem quotePlus_eq_self {s : List UInt8} (h : ∀ b ∈ s, isSafe b = true) : quotePlus s = s := by
  induction s with
  | nil => rfl
  | cons b s ih =>
    have hb : quoteByte b = [b] := if_pos (h b List.mem_cons_self)
    have hs := ih fun c hc => h c (List.mem_cons_of_mem _ hc)
    rw [quotePlus] at hs
    rw [quotePlus, List.flatMap_cons, hb, hs]
    rfl

/-- Nothing is lost but quotation marks: only an empty text is read as empty. -/
theorem unquotePlus_eq_nil {s : List UInt8} : unquotePlus s = [] ↔ s = [] := by
  constructor
  · intro h
    cases s with
    | nil => rfl
    | cons b s =>
      exfalso
      unfold unquotePlus at h
      rw [List.map_cons] at h
      revert h
      generalize (if b = 43 then (32 : UInt8) else b) = c
      generalize s.map (fun b => if b = 43 then (32 : UInt8) else b) = t
      intro h
      unfold unquote at h
      split at h
      · split at h <;> cases h
      · cases h
      · rename_i he
        cases he
  · rintro rfl
    rfl

/-! ## A query is read back -/

theorem parseField_field (x : List UInt8 × List UInt8) : parseField true (field x) = some x := by
  have hname : (61 : UInt8) ∉ quotePlus x.1 := not_mem_quotePlus (by decide) _
  have hall : ∀ b ∈ quotePlus x.1, decide (b ≠ 61) = true := by
    intro b hb
    exact decide_eq_true fun he => hname (he ▸ hb)
  have hdrop : (field x).dropWhile (· ≠ 61) = 61 :: quotePlus x.2 := by
    rw [field, List.dropWhile_append_of_pos hall, List.dropWhile_cons_of_neg (by decide)]
  have htake : (field x).takeWhile (· ≠ 61) = quotePlus x.1 := by
    rw [field, List.takeWhile_append_of_pos hall,
      List.takeWhile_cons_of_neg (by decide), List.append_nil]
  have hne : field x ≠ [] := by simp [field]
  unfold parseField
  rw [if_neg hne, hdrop, htake]
  simp [unquotePlus_quotePlus]

theorem not_mem_field {b : UInt8} (h : isQuoted b = false) (h61 : b ≠ 61)
    (x : List UInt8 × List UInt8) :
    b ∉ field x := by
  intro hmem
  rcases List.mem_append.mp hmem with hmem | hmem
  · exact not_mem_quotePlus h _ hmem
  · rcases List.mem_cons.mp hmem with rfl | hmem
    · exact h61 rfl
    · exact not_mem_quotePlus h _ hmem

theorem splitOn_urlencode (x : List UInt8 × List UInt8) (l : List (List UInt8 × List UInt8)) :
    (urlencode (x :: l)).splitOn 38 = (x :: l).map field := by
  have hx : ∀ y : List UInt8 × List UInt8, (38 : UInt8) ∉ field y :=
    not_mem_field (by decide) (by decide)
  induction l generalizing x with
  | nil =>
    have hone : urlencode [x] = field x := by simp [urlencode]
    rw [hone, List.splitOn_eq_singleton (hx x)]
    rfl
  | cons y l ih =>
    have hcut : urlencode (x :: y :: l) = field x ++ 38 :: urlencode (y :: l) := by
      simp [urlencode]
    rw [hcut, List.splitOn_append_cons_self, List.splitOn_eq_singleton (hx x), ih y]
    rfl

/-- **What was written is read back.** -/
theorem parseQsl_urlencode (l : List (List UInt8 × List UInt8)) :
    parseQsl true (urlencode l) = l := by
  cases l with
  | nil => decide
  | cons x l =>
    have hsemi : ∀ y : List UInt8 × List UInt8, (field y).splitOn 59 = [field y] := fun y =>
      List.splitOn_eq_singleton (not_mem_field (by decide) (by decide) y)
    rw [parseQsl, splitOn_urlencode, List.flatMap_map, List.filterMap_flatMap]
    simp [hsemi, parseField_field, List.flatMap_singleton']

/-! ## Blank values -/

theorem parseField_false (s : List UInt8) :
    parseField false s = (parseField true s).filter fun x => x.2 ≠ [] := by
  unfold parseField
  by_cases hs : s = []
  · rw [if_pos hs, if_pos hs]
    rfl
  · rw [if_neg hs, if_neg hs]
    cases s.dropWhile (· ≠ 61) with
    | nil => simp [Option.filter_some]
    | cons b value =>
      by_cases hv : value = []
      · simp [hv, Option.filter_some, unquotePlus_eq_nil]
      · simp [hv, Option.filter_some, unquotePlus_eq_nil]

/-- Without blank values just these are left out. -/
theorem parseQsl_false (qs : List UInt8) :
    parseQsl false qs = (parseQsl true qs).filter fun x => x.2 ≠ [] := by
  unfold parseQsl
  generalize ((qs.splitOn 38).flatMap fun s => s.splitOn 59) = fields
  induction fields with
  | nil => rfl
  | cons s fields ih =>
    rw [List.filterMap_cons, List.filterMap_cons, parseField_false]
    cases parseField true s with
    | none => simpa using ih
    | some x =>
      by_cases hx : x.2 = []
      · simpa [hx, Option.filter_some] using ih
      · simpa [hx, Option.filter_some] using ih

end LuoYun.Query

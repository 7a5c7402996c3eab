import LuoYun.Util.Text

/-!
# The web interface's view of an instance row

`lyweb/app/instance/models.py` reads the traffic of an instance out of `key` with `split` and
`int`, where any text that is no number counts as zero. The requests of the other modules look an
instance up by its id and check that it is the user's.
-/

namespace LuoYun.Web

/-- `s.split(':')`. -/
def splitColon : Bytes → List Bytes
  | [] => [[]]
  | b :: rest =>
    if b = 58 then [] :: splitColon rest
    else match splitColon rest with
      | [] => [[b]]
      | f :: fs => (b :: f) :: fs

/-- `s.strip()`. -/
def strip (s : Bytes) : Bytes :=
  ((s.dropWhile isSpace).reverse.dropWhile isSpace).reverse

/-- `int(s)`: a sign and digits with white space around them, or an exception. -/
def int (s : Bytes) : Option Int :=
  let r := scanSign (strip s)
  if r.2 ≠ [] ∧ r.2.all isDigit = true then
    some (if r.1 then -(digitsVal 0 r.2 : Int) else (digitsVal 0 r.2 : Int))
  else none

/-- Field `i` of the key as a number, and zero where there is none. -/
def keyNumber (key : Option Bytes) (i : Nat) : Int :=
  match key with
  | none => 0
  | some [] => 0
  | some k => (((splitColon k)[i]?).bind int).getD 0

/-- `Instance.rx_bytes`. -/
def rxBytes (key : Option Bytes) : Int := keyNumber key 2

/-- `Instance.tx_bytes`. -/
def txBytes (key : Option Bytes) : Int := keyNumber key 4

/-! ## Whose instance it is -/

/-- What the requests read of an instance to decide whether it is the user's. -/
structure InstanceRef where
  id : Int
  userId : Int
  status : Int
  deriving DecidableEq, Repr

/-- `settings.INSTANCE_DELETED_STATUS`. -/
def deletedS : Int := 100

/-- `Instance.is_running`. -/
def isRunning (status : Int) : Bool := [3, 4, 5].contains status

/-- `set_myinstance`. -/
def myInstance (l : List InstanceRef) (user inst : Int) : Option InstanceRef :=
  (l.find? (·.id = inst)).filter fun i => i.status ≠ deletedS ∧ user = i.userId

/-- `get_instance_byid`. -/
def instanceById (l : List InstanceRef) (user : Int) (admin : Bool) (inst : Int) :
    Option InstanceRef :=
  (l.find? (·.id = inst)).filter fun i => i.status ≠ deletedS ∧ (user = i.userId ∨ admin = true)

/-! ## Reading what was joined with colons -/

/-- A colon ends a field. -/
theorem splitColon_colon {s : Bytes} (rest : Bytes) (h : ∀ b ∈ s, b ≠ 58) :
    splitColon (s ++ 58 :: rest) = s :: splitColon rest := by
  induction s with
  | nil => rw [List.nil_append, splitColon, if_pos rfl]
  | cons b s ih =>
    have hs := ih fun b hb => h b (List.mem_cons_of_mem _ hb)
    rw [List.cons_append, splitColon, if_neg (h b List.mem_cons_self), hs]

/-- The last field has no colon behind it. -/
theorem splitColon_last {s : Bytes} (h : ∀ b ∈ s, b ≠ 58) : splitColon s = [s] := by
  induction s with
  | nil => rfl
  | cons b s ih =>
    have hs := ih fun b hb => h b (List.mem_cons_of_mem _ hb)
    rw [splitColon, if_neg (h b List.mem_cons_self), hs]

theorem dropWhile_plain {s : Bytes} (h : ∀ b ∈ s, isSpace b = false) : s.dropWhile isSpace = s := by
  cases s with
  | nil => rfl
  | cons b s => simp [h b List.mem_cons_self]

theorem strip_plain {s : Bytes} (h : ∀ b ∈ s, isSpace b = false) : strip s = s := by
  have hrev : ∀ b ∈ s.reverse, isSpace b = false := fun b hb => h b (List.mem_reverse.mp hb)
  rw [strip, dropWhile_plain h, dropWhile_plain hrev, List.reverse_reverse]

/-- **`int` reads back what `%ld` has printed**, whatever the sign. -/
theorem int_dec (x : Int) : int (dec x) = some x := by
  have hplain : ∀ b ∈ dec x, isSpace b = false := by
    intro b hb
    rcases mem_dec hb with rfl | hd
    · decide
    · exact (digit_plain hd).1
  have hdig : (decNat x.natAbs).all isDigit = true := List.all_eq_true.mpr (decNat_isDigit _)
  have hne := decNat_ne_nil x.natAbs
  have hsign : scanSign (dec x) = (decide (x < 0), decNat x.natAbs) := by
    unfold dec
    by_cases hx : x < 0
    · rw [if_pos hx, decide_eq_true hx]
      rfl
    · have hs := scanSign_digits [] hne (decNat_isDigit _)
      have hp : (decNat x.natAbs).dropWhile isSpace = decNat x.natAbs :=
        dropWhile_plain fun b hb => (digit_plain (decNat_isDigit _ b hb)).1
      rw [List.append_nil, hp] at hs
      rw [if_neg hx, decide_eq_false hx, hs]
  rw [int, strip_plain hplain, hsign]
  dsimp only
  rw [if_pos ⟨hne, hdig⟩, digitsVal_decNat]
  by_cases hx : x < 0
  · rw [if_pos (decide_eq_true hx)]
    congr 1
    omega
  · rw [if_neg (by simpa using hx)]
    congr 1
    omega

end LuoYun.Web

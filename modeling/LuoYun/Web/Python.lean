import LuoYun.Lib.Base64
import LuoYun.Web.Instance
import Mathlib.Data.List.Pairwise
import Mathlib.Data.List.Infix

/-!
# Python, as the web interface uses it

`range`, and texts: `split` without an argument takes a text apart at white space, and `count` of a
text is how often it occurs in another one, wherever that is. `base64.encodestring` writes lines of
76 characters, out of which `set_libvirt_conf` takes the ends again.
-/

namespace LuoYun.Web

/-- `range(a, b)`. -/
def range (a b : Int) : List Int := (List.range (b - a).toNat).map fun k : Nat => a + (k : Int)

theorem mem_range {a b p : Int} : p ∈ range a b ↔ a ≤ p ∧ p < b := by
  unfold range
  rw [List.mem_map]
  constructor
  · rintro ⟨k, hk, rfl⟩
    rw [List.mem_range] at hk
    omega
  · intro h
    exact ⟨(p - a).toNat, List.mem_range.mpr (by omega), by omega⟩

theorem range_increasing (a b : Int) : (range a b).Pairwise (· < ·) := by
  refine List.Pairwise.map _ ?_ List.pairwise_lt_range
  intro k l h
  omega

/-- A `unicode` text. -/
abbrev Text := List Char

/-- The values that a column of type `Integer` takes. -/
def fitsInteger (x : Int) : Bool := -2147483648 ≤ x && x ≤ 2147483647

/-- The words of a text, where `word` is the beginning of the first one, backwards. -/
def splitFrom : Bytes → Bytes → List Bytes
  | word, [] => if word = [] then [] else [word.reverse]
  | word, b :: text =>
    if isSpace b then
      if word = [] then splitFrom [] text else word.reverse :: splitFrom [] text
    else splitFrom (b :: word) text

/-- `text.split()`. -/
def split (text : Bytes) : List Bytes := splitFrom [] text

/-- White space ends a word. -/
theorem splitFrom_append {b : UInt8} (hb : isSpace b = true) (word a c : Bytes) :
    splitFrom word (a ++ b :: c) = splitFrom word a ++ split c := by
  induction a generalizing word with
  | nil =>
    rw [List.nil_append, splitFrom, splitFrom, if_pos hb]
    by_cases hw : word = []
    · rw [if_pos hw, if_pos hw, List.nil_append, split]
    · rw [if_neg hw, if_neg hw, List.singleton_append, split]
  | cons d a ih =>
    rw [List.cons_append, splitFrom, splitFrom]
    by_cases hd : isSpace d = true
    · rw [if_pos hd, if_pos hd, ih]
      by_cases hw : word = []
      · rw [if_pos hw, if_pos hw]
      · rw [if_neg hw, if_neg hw, List.cons_append]
    · rw [if_neg hd, if_neg hd, ih]

theorem split_append {b : UInt8} (hb : isSpace b = true) (a c : Bytes) :
    split (a ++ b :: c) = split a ++ split c := splitFrom_append hb [] a c

theorem ne_nil_of_mem_splitFrom {word text w : Bytes} (h : w ∈ splitFrom word text) : w ≠ [] := by
  fun_induction splitFrom word text with
  | case1 => cases h
  | case2 word hw =>
    rw [List.mem_singleton.mp h]
    exact mt List.reverse_eq_nil_iff.mp hw
  | case3 b text hb ih => exact ih h
  | case4 word b text hb hw ih =>
    rcases List.mem_cons.mp h with rfl | h
    · exact mt List.reverse_eq_nil_iff.mp hw
    · exact ih h
  | case5 word b text hb ih => exact ih h

/-- A word is not empty. -/
theorem ne_nil_of_mem_split {text w : Bytes} (h : w ∈ split text) : w ≠ [] :=
  ne_nil_of_mem_splitFrom h

/-- `text.count(part) > 0`. -/
def occurs (part text : Bytes) : Bool := text.tails.any fun t => part.isPrefixOf t

theorem occurs_iff (part text : Bytes) : occurs part text = true ↔ part <:+: text := by
  rw [occurs, List.any_eq_true]
  constructor
  · rintro ⟨t, ht, hp⟩
    exact (List.isPrefixOf_iff_prefix.mp hp).isInfix.trans ((List.mem_tails _ _).mp ht).isInfix
  · rintro ⟨a, b, rfl⟩
    refine ⟨part ++ b, ?_, List.isPrefixOf_iff_prefix.mpr (List.prefix_append _ _)⟩
    rw [List.mem_tails, List.append_assoc]
    exact List.suffix_append _ _

/-- `base64.encodestring`: a line for every 57 bytes. -/
def encodestring (s : Bytes) : Bytes :=
  if s = [] then [] else Base64.encode (s.take 57) ++ 10 :: encodestring (s.drop 57)
termination_by s.length
decreasing_by
  rename_i h
  have hpos := List.length_pos_iff.mpr h
  rw [List.length_drop]
  omega

/-- The text that `set_libvirt_conf` stores. -/
def setLibvirtConf (conf : Bytes) : Bytes := (encodestring conf).filter (· ≠ 10)

/-- Lines of whole groups make up one encoding. -/
theorem setLibvirtConf_eq (conf : Bytes) : setLibvirtConf conf = Base64.encode conf := by
  have hline : ∀ x : Bytes, (Base64.encode x).filter (· ≠ 10) = Base64.encode x := by
    intro x
    refine List.filter_eq_self.mpr ?_
    intro b hb
    exact decide_eq_true fun he => Base64.newline_not_mem x (he ▸ hb)
  unfold setLibvirtConf
  fun_induction encodestring conf with
  | case1 => rfl
  | case2 s hs ih =>
    rw [List.filter_append, hline, List.filter_cons_of_neg (by decide), ih]
    by_cases hlast : s.drop 57 = []
    · have hall : s.take 57 = s := List.take_of_length_le (List.drop_eq_nil_iff.mp hlast)
      rw [hlast, hall, Base64.encode, List.append_nil]
    · have hlen : (s.take 57).length % 3 = 0 := by
        have hmore : ¬ s.length ≤ 57 := fun h => hlast (List.drop_eq_nil_iff.mpr h)
        rw [List.length_take, Nat.min_eq_left (by omega)]
      rw [← Base64.encode_append _ _ hlen, List.take_append_drop]

end LuoYun.Web

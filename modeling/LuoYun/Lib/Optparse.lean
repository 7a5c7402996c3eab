import Mathlib.Data.List.Basic
import Mathlib.Tactic.Common

/-!
# Option parsers that swallow their errors

A parser of options in the manner of `optparse`, whose method `error` does nothing. An argument that
does not begin with a dash is left over. A long option may be abbreviated as long as it is clear
which one is meant, and its value follows after `=` or is the next argument; the value of a short
option is the rest of the argument or the next one. An unknown option and a value that cannot be
converted end the parsing, and what has been stored until then is the result.

A missing value is an error as well, but the parser only reports it and goes on with a value that
was never assigned. That raises an exception of its own, and so does the help option, which every
parser has.
-/

namespace LuoYun.Optparse

/-- The exceptions that leave the parser. -/
inductive Raised where
  | systemExit
  | unboundLocalError
  deriving DecidableEq, Repr

/-- An option with a value. -/
structure Opt (σ : Type) where
  short : Option UInt8 := none
  long : Option (List UInt8) := none
  /-- The value is converted and stored, `none` if it cannot be converted. -/
  store : List UInt8 → σ → Option σ

/-- What an argument is. -/
inductive Arg (σ : Type) where
  | word
  | stop
  | raises (e : Raised)
  | attached (opt : Opt σ) (value : List UInt8)
  | next (opt : Opt σ)

variable {σ : Type}

/-- The long options by their names, where `none` is the help option. -/
def longOpts (opts : List (Opt σ)) : List (List UInt8 × Option (Opt σ)) :=
  ([45, 45, 104, 101, 108, 112], none) :: opts.filterMap fun opt =>
    opt.long.map fun name => (name, some opt)

/-- `_match_abbrev`: the option of this name, or the only one whose name begins like this. -/
def matchLong (opts : List (Opt σ)) (name : List UInt8) : Option (Option (Opt σ)) :=
  match (longOpts opts).find? fun e => e.1 == name with
  | some e => some e.2
  | none =>
    match (longOpts opts).filter fun e => name.isPrefixOf e.1 with
    | [e] => some e.2
    | _ => none

/-- `_process_long_opt`. -/
def readLong (opts : List (Opt σ)) (arg : List UInt8) : Arg σ :=
  match matchLong opts (arg.takeWhile (· ≠ 61)), arg.dropWhile (· ≠ 61) with
  | none, _ => .stop
  | some none, [] => .raises .systemExit
  | some none, _ :: _ => .raises .unboundLocalError
  | some (some opt), [] => .next opt
  | some (some opt), _ :: value => .attached opt value

/-- `_process_short_opts`. -/
def readShort (opts : List (Opt σ)) (ch : UInt8) (rest : List UInt8) : Arg σ :=
  if ch = 104 then .raises .systemExit
  else
    match opts.find? fun opt => opt.short == some ch with
    | none => .stop
    | some opt => if rest = [] then .next opt else .attached opt rest

/-- What `_process_args` takes an argument for. -/
def readArg (opts : List (Opt σ)) : List UInt8 → Arg σ
  | [45, 45] => .stop
  | 45 :: 45 :: name => readLong opts (45 :: 45 :: name)
  | 45 :: ch :: rest => readShort opts ch rest
  | _ => .word

/-- `parse_args`. -/
def parseArgs (opts : List (Opt σ)) : List (List UInt8) → σ → Except Raised σ
  | [], values => .ok values
  | arg :: args, values =>
    match readArg opts arg with
    | .word => parseArgs opts args values
    | .stop => .ok values
    | .raises e => .error e
    | .attached opt value =>
      match opt.store value values with
      | some values => parseArgs opts args values
      | none => .ok values
    | .next opt =>
      match args with
      | [] => .error .unboundLocalError
      | value :: args =>
        match opt.store value values with
        | some values => parseArgs opts args values
        | none => .ok values

/-! ## Numbers -/

/-- What a digit stands for, in either case. -/
def digitValue (b : UInt8) : Nat :=
  if 48 ≤ b ∧ b ≤ 57 then b.toNat - 48
  else if 97 ≤ b ∧ b ≤ 122 then b.toNat - 87
  else if 65 ≤ b ∧ b ≤ 90 then b.toNat - 55
  else 36

/-- Digits, of which there is at least one. -/
def natOf (radix : Nat) (digits : List UInt8) : Option Nat :=
  if digits ≠ [] ∧ digits.all (fun b => digitValue b < radix) then
    some (digits.foldl (fun n b => n * radix + digitValue b) 0)
  else none

/-- `int(text, radix)` of a text without white space: a sign, a mark of the radix, and digits. -/
def intOf (radix : Nat) (marks text : List UInt8) : Option Int :=
  let unmarked : List UInt8 → List UInt8
    | 48 :: c :: rest => if c ∈ marks then rest else 48 :: c :: rest
    | digits => digits
  match text with
  | 45 :: digits => (natOf radix (unmarked digits)).map fun n : Nat => -(n : Int)
  | 43 :: digits => (natOf radix (unmarked digits)).map fun n : Nat => (n : Int)
  | digits => (natOf radix (unmarked digits)).map fun n : Nat => (n : Int)

/-- `_parse_int`: hexadecimal after `0x`, binary after `0b`, octal after another zero, and decimal.
-/
def parseInt : List UInt8 → Option Int
  | 48 :: rest =>
    match rest with
    | 120 :: _ | 88 :: _ => intOf 16 [120, 88] (48 :: rest)
    | 98 :: digits | 66 :: digits => intOf 2 [98, 66] (if digits = [] then [48] else digits)
    | _ => intOf 8 [111, 79] (48 :: rest)
  | text => intOf 10 [] text

/-! ## What an option is read with -/

variable {opts : List (Opt σ)} {opt : Opt σ} {arg value : List UInt8}

theorem mem_of_matchLong {name : List UInt8} (h : matchLong opts name = some (some opt)) :
    opt ∈ opts ∧ opt.long.isSome := by
  have hmem : ∀ e ∈ longOpts opts, e.2 = some opt → opt ∈ opts ∧ opt.long.isSome := by
    intro e he h2
    rcases List.mem_cons.mp he with rfl | he
    · cases h2
    · obtain ⟨o, ho, hname⟩ := List.mem_filterMap.mp he
      obtain ⟨name, hlong, rfl⟩ := Option.map_eq_some_iff.mp hname
      obtain rfl := Option.some.inj h2
      exact ⟨ho, Option.isSome_iff_exists.mpr ⟨name, hlong⟩⟩
  unfold matchLong at h
  -- by its name, or by the beginning of it
  split at h
  · rename_i e he
    exact hmem e (List.mem_of_find?_eq_some he) (Option.some.inj h)
  · split at h
    · rename_i e he
      have hin : e ∈ (longOpts opts).filter fun e => name.isPrefixOf e.1 :=
        he ▸ List.mem_singleton_self e
      exact hmem e (List.mem_filter.mp hin).1 (Option.some.inj h)
    · cases h

/-- A long option may be given an empty value after `=`, a short one not. -/
theorem readArg_attached (h : readArg opts arg = .attached opt value) :
    opt ∈ opts ∧ (opt.long = none → value ≠ []) := by
  unfold readArg at h
  split at h
  · cases h
  · unfold readLong at h
    split at h <;> cases h
    rename_i hm _
    obtain ⟨hopt, hlong⟩ := mem_of_matchLong hm
    refine ⟨hopt, fun hnone => ?_⟩
    rw [hnone] at hlong
    cases hlong
  · unfold readShort at h
    split at h
    · cases h
    · split at h
      · cases h
      · rename_i o ho
        split at h <;> cases h
        rename_i hrest
        exact ⟨List.mem_of_find?_eq_some ho, fun _ => hrest⟩
  · cases h

theorem readArg_next (h : readArg opts arg = .next opt) : opt ∈ opts := by
  unfold readArg at h
  split at h
  · cases h
  · unfold readLong at h
    split at h <;> cases h
    rename_i hm
    exact (mem_of_matchLong hm).1
  · unfold readShort at h
    split at h
    · cases h
    · split at h
      · cases h
      · rename_i o ho
        split at h <;> cases h
        exact List.mem_of_find?_eq_some ho
  · cases h

/-- **The invariant rule**: what storing a value keeps holds of the result, if no argument is empty.
-/
theorem parseArgs_inv {P : σ → Prop}
    (hstore : ∀ opt ∈ opts, ∀ value s t, (opt.long = none → value ≠ []) →
      opt.store value s = some t → P s → P t)
    {args : List (List UInt8)} {s t : σ} (hargs : ∀ arg ∈ args, arg ≠ [])
    (h : parseArgs opts args s = .ok t) (hs : P s) : P t := by
  fun_induction parseArgs opts args s with
  | case1 values => exact Except.ok.inj h ▸ hs
  | case2 arg args values hr ih => exact ih (fun a ha => hargs a (List.mem_cons_of_mem _ ha)) h hs
  | case3 arg args values hr => exact Except.ok.inj h ▸ hs
  | case4 => cases h
  | case5 arg args values opt value hr values' hst ih =>
    obtain ⟨hopt, hvalue⟩ := readArg_attached hr
    exact ih (fun a ha => hargs a (List.mem_cons_of_mem _ ha)) h
      (hstore opt hopt value _ _ hvalue hst hs)
  | case6 => exact Except.ok.inj h ▸ hs
  | case7 => cases h
  | case8 arg values opt hr value args values' hst ih =>
    have hvalue : value ≠ [] := hargs value (List.mem_cons_of_mem _ List.mem_cons_self)
    exact ih (fun a ha => hargs a (List.mem_cons_of_mem _ (List.mem_cons_of_mem _ ha))) h
      (hstore opt (readArg_next hr) value _ _ (fun _ => hvalue) hst hs)
  | case9 => exact Except.ok.inj h ▸ hs

/-! ## Arguments that the parser gets through -/

/-- Every option of the parser comes with its value and help is not asked for, until the arguments
end or an option of someone else begins. -/
inductive Follows (opts : List (Opt σ)) : List (List UInt8) → Prop where
  | nil : Follows opts []
  | word {arg : List UInt8} {args : List (List UInt8)} :
    readArg opts arg = .word → Follows opts args → Follows opts (arg :: args)
  | stop {arg : List UInt8} (args : List (List UInt8)) :
      readArg opts arg = .stop → Follows opts (arg :: args)
  | attached {arg value : List UInt8} {opt : Opt σ} {args : List (List UInt8)} :
    readArg opts arg = .attached opt value → Follows opts args → Follows opts (arg :: args)
  | next {arg : List UInt8} {opt : Opt σ} (value : List UInt8) {args : List (List UInt8)} :
    readArg opts arg = .next opt → Follows opts args → Follows opts (arg :: value :: args)

/-- What an option does with its value. -/
def storeThen (opts : List (Opt σ)) (opt : Opt σ) (value : List UInt8)
    (args : List (List UInt8)) (s : σ) :
    Except Raised σ :=
  match opt.store value s with
  | some t => parseArgs opts args t
  | none => .ok s

theorem parseArgs_attached (hr : readArg opts arg = .attached opt value)
    (args : List (List UInt8)) (s : σ) :
    parseArgs opts (arg :: args) s = storeThen opts opt value args s := by
  rw [parseArgs, hr]
  rfl

theorem parseArgs_next (hr : readArg opts arg = .next opt) (value : List UInt8)
    (args : List (List UInt8)) (s : σ) :
    parseArgs opts (arg :: value :: args) s = storeThen opts opt value args s := by
  rw [parseArgs, hr]
  rfl

theorem parseArgs_store {s t : σ} (hr : readArg opts arg = .next opt)
    (hst : opt.store value s = some t)
    (args : List (List UInt8)) : parseArgs opts (arg :: value :: args) s =
      parseArgs opts args t := by
  rw [parseArgs_next hr, storeThen, hst]

theorem parseArgs_stop (hr : readArg opts arg = .stop) (args : List (List UInt8)) (s : σ) :
    parseArgs opts (arg :: args) s = .ok s := by
  rw [parseArgs, hr]

theorem storeThen_ok {args : List (List UInt8)}
    (h : ∀ t, ∃ u, parseArgs opts args t = .ok u) (s : σ) :
    ∃ u, storeThen opts opt value args s = .ok u := by
  unfold storeThen
  cases opt.store value s with
  | none => exact ⟨s, rfl⟩
  | some t => exact h t

/-- No exception leaves the parser on such arguments. -/
theorem parseArgs_ok {args : List (List UInt8)} (h : Follows opts args) (s : σ) :
    ∃ t, parseArgs opts args s = .ok t := by
  induction h generalizing s with
  | nil => exact ⟨s, rfl⟩
  | word hr _ ih =>
    rw [parseArgs, hr]
    exact ih s
  | stop args hr => exact ⟨s, parseArgs_stop hr args s⟩
  | attached hr _ ih =>
    rw [parseArgs_attached hr]
    exact storeThen_ok ih s
  | next value hr _ ih =>
    rw [parseArgs_next hr]
    exact storeThen_ok ih s

end LuoYun.Optparse

import LuoYun.Base
import LuoYun.Lib.Base64

/-!
# `base64.c`

The encoder writes into an allocation of its own. The decoder reads the text it is given, which ends
with a zero, by index, and reads it from behind as well; its table is made out of that of the
encoder by the first call. `int` and `size_t` have 32 and 64 bits, and a `char` has a sign.

The counters of the encoder are of type `int`: it is modelled for data that are not so large that
they overflow.
-/

namespace LuoYun

/-- How `base64_decode` leaves the memory it may use. -/
inductive MemFault where
  /-- A byte is read that is neither in the text nor its terminating zero. -/
  | read
  /-- A byte is written outside of the allocation. -/
  | write
  /-- An `int` overflows. -/
  | overflow
  deriving DecidableEq, Repr

def base64enTable : Bytes := cstr "ABCDEFGHIJKLMNOPQRSTUVWXYZabcdefghijklmnopqrstuvwxyz0123456789+/"

def base64enBytePos : List Nat := [0, 2, 1]

/-- `base64de_table` before the first call. -/
def base64deTable : List Int := -1 :: List.replicate 255 0

/-! ## `base64_encode` -/

/-- The four characters of a group. -/
def encodeTriple (a b c : UInt8) : Bytes :=
  let triple := a.toNat <<< 0x10 ||| b.toNat <<< 0x08 ||| c.toNat
  [base64enTable.getD (triple >>> 18 &&& 0x3F) 0, base64enTable.getD (triple >>> 12 &&& 0x3F) 0,
    base64enTable.getD (triple >>> 6 &&& 0x3F) 0, base64enTable.getD (triple &&& 0x3F) 0]

/-- The loop over the groups. Beyond the end of the data there are zeros. -/
def encodeLoop : Bytes → Bytes
  | [] => []
  | [a] => encodeTriple a 0 0
  | [a, b] => encodeTriple a b 0
  | a :: b :: c :: rest => encodeTriple a b c ++ encodeLoop rest

/-- The loop that replaces the last `n` characters, from behind. -/
def padLoop (olen n : Nat) (odata : Bytes) : Bytes :=
  (List.range n).foldl (fun odata i => odata.set (olen - i - 1) 61) odata

/-- `base64_encode`: `odata` and `olen`. -/
def base64Encode (idata : Bytes) : Bytes × Nat :=
  let olen := (idata.length + 2) / 3 * 4
  (padLoop olen (base64enBytePos.getD (idata.length % 3) 0) (encodeLoop idata), olen)

/-! ## `base64_decode` -/

/-- The table is made by the first call. -/
def fillTable (table : List Int) : List Int :=
  if table.head? = some (-1) then
    (base64enTable.zipIdx.foldl (fun table p => table.set p.1.toNat (p.2 : Int))
      (table.set 0 0)).set 61 0
  else table

/-- Conversion to `size_t`. -/
def toSize (x : Int) : Nat := (x % 2 ^ 64).toNat

/-- `idata[k]`. -/
def readAt (idata : Bytes) (k : Int) : Except MemFault UInt8 :=
  if k < 0 ∨ (idata.length : Int) < k then .error .read else .ok (idata.getD k.toNat 0)

/-- `ilen4`: the end of the last group. -/
def groupEnd (idata : Bytes) : Except MemFault Int :=
  let ilen4 := toInt32 idata.length
  if Int.tmod ilen4 4 ≠ 0 then do
    -- `ilen4 & (~3)`
    let ilen4 := 4 * (ilen4 / 4)
    let b ← readAt idata ilen4
    if b ≠ 61 then
      if 2 ^ 31 ≤ ilen4 + 4 then .error .overflow else .ok (ilen4 + 4)
    else .ok ilen4
  else .ok ilen4

/-- `*olen`: three bytes for a group, less the padding. -/
def decodedLen (idata : Bytes) (ilen4 : Int) : Except MemFault Nat := do
  let olen := toSize (Int.tdiv ilen4 4 * 3)
  let last ← readAt idata (idata.length - 1)
  let olen := if last = 61 then toSize (olen - 1) else olen
  let last ← readAt idata (idata.length - 2)
  return if last = 61 then toSize (olen - 1) else olen

/-- `if (j < *olen) odata[j++] = b`, where `alloc` bytes are allocated. -/
def putByte (olen alloc : Nat) (b : Nat) (odata : Bytes) : Except MemFault Bytes :=
  if odata.length < olen then
    if odata.length < alloc then .ok (odata ++ [UInt8.ofNat b]) else .error .write
  else .ok odata

/-- `base64de_table[b]`. -/
def deValue (table : List Int) (b : UInt8) : Nat := (table.getD b.toNat 0).toNat

/-- The loop over `n` groups, from position `i` on. -/
def decodeLoop (table : List Int) (idata : Bytes) (olen alloc : Nat) :
    Nat → Int → Bytes → Except MemFault Bytes
  | 0, _, odata => .ok odata
  | n + 1, i, odata => do
    let a := deValue table (← readAt idata i)
    let b := deValue table (← readAt idata (i + 1))
    let c := deValue table (← readAt idata (i + 2))
    let d := deValue table (← readAt idata (i + 3))
    let triple := a <<< 18 ||| b <<< 12 ||| c <<< 6 ||| d
    let odata ← putByte olen alloc (triple >>> 16 &&& 0xFF) odata
    let odata ← putByte olen alloc (triple >>> 8 &&& 0xFF) odata
    let odata ← putByte olen alloc (triple &&& 0xFF) odata
    decodeLoop table idata olen alloc n (i + 4) odata

/-- What `base64_decode` returns. -/
structure Base64Data where
  odata : Bytes
  olen : Nat
  deriving DecidableEq, Repr

/-- `base64_decode`: the table afterwards, and the result. -/
def base64Decode (table : List Int) (idata : Bytes) : List Int × Except MemFault Base64Data :=
  let table := fillTable table
  (table, do
    let ilen4 ← groupEnd idata
    let olen ← decodedLen idata ilen4
    let alloc := toSize (olen + 1)
    let odata ← decodeLoop table idata olen alloc (ilen4 / 4).toNat 0 []
    -- `odata[*olen] = '\0'`
    if alloc ≤ olen then .error .write else .ok ⟨odata, olen⟩)

/-- The table after some calls. -/
def tableAfter (calls : List Bytes) : List Int :=
  calls.foldl (fun table idata => (base64Decode table idata).1) base64deTable

end LuoYun

import LuoYun.Base
import LuoYun.Lib.Rc4

/-!
# `pyosm/lyauth.py`: the cipher of the OSM

`SBox`, `i` and `j` are globals of the module. A call leaves them as they are when it is over, also
when it ends in an exception, and the next call finds them so.
-/

namespace LuoYun.Osm

/-- The exceptions that can be raised. -/
inductive PyError where
  | indexError
  | zeroDivisionError
  deriving DecidableEq, Repr

/-- The globals, as the import leaves them. -/
structure Globals where
  sbox : List Nat := []
  i : Nat := 0
  j : Nat := 0
  deriving DecidableEq, Repr

/-- Code that uses the globals. -/
abbrev Py := ExceptT PyError (StateM Globals)

/-- What a call returns or raises, and the globals after it. -/
def Py.call {α : Type} (p : Py α) (g : Globals) : Except PyError α × Globals := p.run.run g

/-- `SIZE`. -/
abbrev SIZE : Nat := 256

/-- `l[k]`. -/
def item (l : List Nat) (k : Nat) : Py Nat :=
  match l[k]? with
  | some x => pure x
  | none => throw .indexError

/-- `SBox[i]` and `SBox[j]` change places. -/
def swapItems : Py Unit := do
  let g ← get
  let tmp ← item g.sbox g.i
  let x ← item g.sbox g.j
  set { g with sbox := (g.sbox.set g.i x).set g.j tmp }

/-- `SBox.append(i)`, in a loop over `i`. -/
def fillSBox (range : List Nat) : Py Unit :=
  range.forM fun i => modify fun g => { g with sbox := g.sbox ++ [i], i := i }

/-- `KBox.append(ord(mykey[i%keylen]))`, in a loop over `i`. -/
def fillKBox (mykey : Bytes) (range : List Nat) : Py (List Nat) :=
  range.mapM fun i => do
    modify fun g => { g with i := i }
    if mykey.length = 0 then throw .zeroDivisionError
    item (mykey.map UInt8.toNat) (i % mykey.length)

/-- A round of the third loop of `generateKey`. -/
def mixRound (kbox : List Nat) (i : Nat) : Py Unit := do
  modify fun g => { g with i := i }
  let g ← get
  let s ← item g.sbox g.i
  let k ← item kbox g.i
  set { g with j := (g.j + s + k) % SIZE }
  swapItems

def generateKey (mykey : Bytes) : Py Unit := do
  modify fun g => { g with sbox := [] }
  fillSBox (List.range SIZE)
  let kbox ← fillKBox mykey (List.range SIZE)
  modify fun g => { g with j := 0 }
  (List.range SIZE).forM (mixRound kbox)

def getByte : Py Nat := do
  modify fun g => { g with i := (g.i + 1) % SIZE }
  let g ← get
  let s ← item g.sbox g.i
  set { g with j := (g.j + s) % SIZE }
  swapItems
  let g ← get
  let x ← item g.sbox g.i
  let y ← item g.sbox g.j
  item g.sbox ((x + y) % SIZE)

/-- `encode`. The data are numbers: the exclusive or is that of Python's integers. -/
def encode (mykey : Bytes) (data : List Nat) : Py (List Nat) := do
  generateKey mykey
  modify fun g => { g with i := 0, j := 0 }
  data.mapM fun m => do
    let g ← getByte
    return m ^^^ g

/-- A call from another module. -/
inductive PyCall where
  | generateKey (mykey : Bytes)
  | getByte
  | encode (mykey : Bytes) (data : List Nat)

/-- The globals after a call. -/
def PyCall.after (g : Globals) : PyCall → Globals
  | .generateKey mykey => ((Osm.generateKey mykey).call g).2
  | .getByte => (Osm.getByte.call g).2
  | .encode mykey data => ((Osm.encode mykey data).call g).2

/-- The globals after some calls. -/
def afterCalls (calls : List PyCall) (g : Globals) : Globals := calls.foldl PyCall.after g

end LuoYun.Osm

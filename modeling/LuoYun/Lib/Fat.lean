import Mathlib.Data.List.Basic
import Mathlib.Tactic.Common

/-!
# Reading a file from a FAT12 volume

A volume is its bytes by position. The geometry (sector and cluster size, where the allocation
table, the root directory and the data area begin) is taken from the boot sector, a file is
found in the root directory by its eleven-character name, and its contents are the clusters of
its chain one after the other, cut off at the size the directory states.

Two rules are enough to read a file that was laid out without gaps: a chain that counts upwards
is read as one contiguous piece, and cutting a contiguous piece off is reading less of it.
-/

namespace LuoYun.Fat

/-- The bytes of a volume. -/
abbrev Volume := Nat → UInt8

variable (v : Volume)

/-- `n` bytes from `off` on. -/
def read (off n : Nat) : List UInt8 := (List.range n).map fun i => v (off + i)

/-- A 16-bit number, low byte first. -/
def le16 (off : Nat) : Nat := (v off).toNat + 256 * (v (off + 1)).toNat

/-- A 32-bit number, low byte first. -/
def le32 (off : Nat) : Nat := le16 v off + 65536 * le16 v (off + 2)

/-! ## The geometry in the boot sector -/

def sectorSize : Nat := le16 v 11

def clusterSize : Nat := sectorSize v * (v 13).toNat

/-- The reserved sectors come first, then the first copy of the table. -/
def fatStart : Nat := sectorSize v * le16 v 14

def rootStart : Nat := fatStart v + sectorSize v * (le16 v 22 * (v 16).toNat)

def rootEntries : Nat := le16 v 17

/-- The data area begins with cluster 2, behind the 32-byte entries of the root directory. -/
def dataStart : Nat := rootStart v + 32 * rootEntries v

/-- The number of clusters, at least one for each cluster of a chain without repetition. -/
def clusters : Nat := (sectorSize v * le16 v 19 - dataStart v) / clusterSize v

def clusterStart (n : Nat) : Nat := dataStart v + (n - 2) * clusterSize v

/-! ## Directory and chain -/

/-- The 12-bit entry of cluster `n`: three bytes hold two entries. -/
def entry (n : Nat) : Nat :=
  let w := le16 v (fatStart v + n * 3 / 2)
  if n % 2 = 0 then w % 4096 else w / 16

/-- The chain from cluster `n` on. An entry outside the data clusters ends it. -/
def chain : Nat → Nat → List Nat
  | 0, _ => []
  | fuel + 1, n => if 2 ≤ n ∧ n < 0xff0 then n :: chain fuel (entry v n) else []

/-- The position of the root entry with this name among the next `k`. A zero byte ends the
directory; volume labels and long names (attribute bit 3) are passed over. -/
def findEntry (name : List UInt8) : Nat → Nat → Option Nat
  | 0, _ => none
  | k + 1, off =>
    if v off = 0 then none
    else if (v (off + 11)).toNat / 8 % 2 = 0 ∧ read v off 11 = name then some off
    else findEntry name k (off + 32)

/-- The contents of the chain from cluster `n` on. -/
def contents (n : Nat) : List UInt8 :=
  (chain v (clusters v) n).flatMap fun c => read v (clusterStart v c) (clusterSize v)

/-- The file with this name in the root directory. -/
def readFile (name : List UInt8) : Option (List UInt8) :=
  (findEntry v name (rootEntries v) (rootStart v)).map fun e =>
    (contents v (le16 v (e + 26))).take (le32 v (e + 28))

/-! ## Contiguous files -/

variable {v : Volume}

@[simp] theorem length_read (off n : Nat) : (read v off n).length = n := by
  simp [read]

theorem read_add (off a b : Nat) : read v off (a + b) = read v off a ++ read v (off + a) b := by
  simp only [read, List.range_add, List.map_append, List.map_map]
  congr 2
  funext i
  simp [Nat.add_assoc]

/-- Cutting a piece off is reading less of it. -/
theorem take_read (off n k : Nat) : (read v off n).take k = read v off (min k n) := by
  rw [read, ← List.map_take, List.take_range]
  rfl

/-- A chain that counts upwards is read as one contiguous piece. -/
theorem flatMap_upwards (n : Nat) (hn : 2 ≤ n) (k : Nat) :
    (List.range' n k).flatMap (fun c => read v (clusterStart v c) (clusterSize v))
      = read v (clusterStart v n) (k * clusterSize v) := by
  induction k generalizing n with
  | zero => simp [read]
  | succ k ih =>
    -- the next cluster begins where this one ends
    have hnext : clusterStart v (n + 1) = clusterStart v n + clusterSize v := by
      obtain ⟨m, rfl⟩ : ∃ m, n = m + 2 := ⟨n - 2, by omega⟩
      have h1 : m + 2 + 1 - 2 = m + 1 := by omega
      have h2 : m + 2 - 2 = m := by omega
      rw [clusterStart, clusterStart, h1, h2, Nat.succ_mul, Nat.add_assoc]
    rw [List.range'_succ, List.flatMap_cons, ih (n + 1) (by omega), hnext, ← read_add,
      Nat.succ_mul, Nat.add_comm]

theorem chain_link {fuel n m : Nat} (hn : 2 ≤ n ∧ n < 0xff0) (hm : entry v n = m) :
    chain v (fuel + 1) n = n :: chain v fuel m := by
  rw [chain, if_pos hn, hm]

theorem chain_end {fuel n : Nat} (hn : 0xff0 ≤ n) : chain v fuel n = [] := by
  cases fuel with
  | zero => rfl
  | succ fuel => exact if_neg (by omega)

end LuoYun.Fat

import LuoYun.Base

/-!
# `lypacket.c`: packets on a byte stream

A packet is an eight-byte header (type and length, both `int32_t`, in the byte order of the
sending host) and a payload. The receiver collects bytes in a buffer of
`LUOYUN_PACKET_SIZE_MAX` bytes, of which it lets `recv` fill all but the last one: the byte
after a complete packet is saved in `pkt_head_byte` and overwritten with zero, so that the
payload can be read as a C string, and is put back when the packet is done.

The buffer is a total memory `Nat → UInt8`; the allocation it belongs to is the first
`LUOYUN_PACKET_SIZE_MAX` addresses, and every access outside it is a `Fault.pktBuf`. What
`malloc` left there is arbitrary.
-/

namespace LuoYun

/-- `LUOYUN_PACKET_SIZE_MAX`. -/
def luoyunPacketSizeMax : Nat := 40960

/-- `sizeof(LYPacketHeader)`. -/
def sizeofLYPacketHeader : Nat := 8

/-! ## Memory -/

/-- The memory a `pkt_buf` points to. -/
abbrev Mem := Nat → UInt8

namespace Mem

/-- `n` bytes from `off`, without looking at the bounds. -/
def slice (m : Mem) (off n : Nat) : Bytes := (List.range n).map fun i => m (off + i)

/-- Overwrite the bytes from `off` on, without looking at the bounds. -/
def write (m : Mem) (off : Nat) (bs : Bytes) : Mem :=
  fun i => if off ≤ i then (bs[i - off]?).getD (m i) else m i

/-- Read `n` bytes at `off`. -/
def load (m : Mem) (off n : Nat) : Res Bytes :=
  if off + n ≤ luoyunPacketSizeMax then .ok (m.slice off n) else .error .pktBuf

/-- Write `bs` at `off`. -/
def store (m : Mem) (off : Nat) (bs : Bytes) : Res Mem :=
  if off + bs.length ≤ luoyunPacketSizeMax then .ok (m.write off bs) else .error .pktBuf

/-- The distance from `off` to the next zero byte among the next `n`. -/
def strnlen (m : Mem) : Nat → Nat → Option Nat
  | 0, _ => none
  | n + 1, off => if m off = 0 then some 0 else (strnlen m n (off + 1)).map (· + 1)

/-- Read the C string at `off`: every byte up to the first zero is looked at. -/
def loadStr (m : Mem) (off : Nat) : Res Bytes :=
  match m.strnlen (luoyunPacketSizeMax - off) off with
  | none => .error .pktBuf
  | some n => .ok (m.slice off n)

end Mem

/-- An `int32_t` in memory, low byte first. -/
def le32 (x : Int) : Bytes :=
  let n := toUInt32 x
  [UInt8.ofNat n, UInt8.ofNat (n / 256), UInt8.ofNat (n / 65536), UInt8.ofNat (n / 16777216)]

/-- The `int32_t` whose bytes in memory are the first four of `bs`. -/
def int32Of (bs : Bytes) : Int :=
  let b (i : Nat) : Int := ((bs[i]?).getD 0).toNat
  toInt32 (b 0 + 256 * b 1 + 65536 * b 2 + 16777216 * b 3)

/-! ## The receive structure -/

/-- `LYPacketHeader`. -/
structure LYPacketHeader where
  type : Int := 0
  length : Int := 0
  deriving DecidableEq, Repr

/-- `LYPacketRecv`. `pkt_data` is left out: it always points eight bytes into `pkt_buf`. -/
structure LYPacketRecv where
  pktHeader : LYPacketHeader := {}
  pktBufSize : Nat := 0
  pktBufReceived : Nat := 0
  pktBuf : Option Mem := none
  pktHeadByte : UInt8 := 0

/-- `ly_packet_init`, where `m` is what the freshly allocated buffer happens to hold. -/
def lyPacketInit (m : Mem) : LYPacketRecv :=
  { pktBufSize := luoyunPacketSizeMax - 1, pktBuf := some m }

/-- `ly_packet_reinit`. -/
def lyPacketReinit (p : LYPacketRecv) (m : Mem) : LYPacketRecv :=
  match p.pktBuf with
  | none => lyPacketInit m
  | some _ => { p with pktHeader := {}, pktBufReceived := 0 }

/-- The bytes `ly_packet_send` hands to `sendmsg`, or the error it returns before that. -/
def lyPacketFrame (fd type : Int) (data : Bytes) : Except Int Bytes :=
  if fd < 0 ∨ type ≤ 0 ∨ data = [] then .error (-255)
  else if luoyunPacketSizeMax ≤ data.length + sizeofLYPacketHeader then .error (-1)
  else .ok (le32 type ++ le32 data.length ++ data)

/-- What `sendmsg` does with a packet: it takes all of it or a part, or returns `-1`. -/
inductive SendResult where
  | all | part | error
  deriving DecidableEq, Repr

/-- What `ly_packet_send` makes of that. The result is an `int` that is compared with a `size_t`, so
that `-1` is taken for a number larger than any size: an error counts as success. -/
def SendResult.code : SendResult → Int
  | .all => 0
  | .part => -1
  | .error => 0

/-- `this_pkt_total`: the length field plus the header size, cut down to an `int`. -/
def LYPacketHeader.total (h : LYPacketHeader) : Int :=
  toInt32 (h.length + sizeofLYPacketHeader)

/-- The address `buf + off` for a C `int` offset. -/
def Mem.at? (off : Int) : Res Nat := if 0 ≤ off then .ok off.toNat else .error .pktBuf

/-- The header found at the front of the buffer: `*(LYPacketHeader *)buf`. -/
def Mem.header (m : Mem) : LYPacketHeader :=
  ⟨int32Of (m.slice 0 sizeofLYPacketHeader), int32Of (m.slice 4 4)⟩

/-- Read the header at the front of the buffer. -/
def Mem.loadHeader (m : Mem) : Res LYPacketHeader := do
  let _ ← m.load 0 sizeofLYPacketHeader
  .ok m.header

/-- `ly_packet_recv`. The comparison with `pkt_buf_received` is an unsigned one. -/
def lyPacketRecv (p : LYPacketRecv) (size : Int) : Res (Int × LYPacketRecv) :=
  if size < 0 then .ok (0, p)
  else match p.pktBuf with
  | none => .ok (-1, p)
  | some buf =>
    let received := toUInt32 (p.pktBufReceived + size)
    if received < sizeofLYPacketHeader then .ok (0, { p with pktBufReceived := received })
    else do
      let h ← buf.loadHeader
      if toUInt32 h.total ≤ received then
        let at_ ← Mem.at? h.total
        let c ← buf.load at_ 1
        let buf ← buf.store at_ [0]
        .ok (1, { p with pktBufReceived := received, pktHeader := h, pktBuf := some buf,
                         pktHeadByte := c.headD 0 })
      else .ok (0, { p with pktBufReceived := received, pktHeader := h })

/-- `ly_packet_recv_done`. -/
def lyPacketRecvDone (p : LYPacketRecv) : Res (Int × LYPacketRecv) :=
  if p.pktBufReceived < sizeofLYPacketHeader then .ok (0, { p with pktBufReceived := 0 })
  else
    let total := p.pktHeader.total
    if p.pktBufReceived ≤ toUInt32 total then .ok (0, { p with pktBufReceived := 0 })
    else match p.pktBuf with
    | none => .error .nullDeref
    | some buf => do
      let left := p.pktBufReceived - toUInt32 total
      let src ← Mem.at? total
      let tail ← buf.load src left
      let buf ← buf.store 0 tail
      let buf ← buf.store 0 [p.pktHeadByte]
      .ok (0, { p with pktBufReceived := left, pktBuf := some buf })

/-- `ly_packet_buf`: the offset and size of the free space; `none` when it returns `NULL`. -/
def lyPacketBuf (p : LYPacketRecv) : Option (Nat × Nat) :=
  match p.pktBuf with
  | none => none
  | some _ =>
    if p.pktBufSize ≤ p.pktBufReceived then none
    else some (p.pktBufReceived, p.pktBufSize - p.pktBufReceived)

/-- `ly_packet_type`. -/
def lyPacketType (p : LYPacketRecv) : Int :=
  match p.pktBuf with
  | none => PktType.unknow
  | some _ => if p.pktBufReceived < sizeofLYPacketHeader then PktType.unknow else p.pktHeader.type

/-- `recv` into the free space: `chunk` lands at the end of what is stored. -/
def recvInto (p : LYPacketRecv) (chunk : Bytes) : Res LYPacketRecv :=
  match p.pktBuf with
  | none => .error .nullDeref
  | some buf => do
    let buf ← buf.store p.pktBufReceived chunk
    .ok { p with pktBuf := some buf }

/-! ## Memory lemmas -/

namespace Mem

@[simp] theorem length_slice (m : Mem) (off n : Nat) : (m.slice off n).length = n := by
  simp [slice]

theorem getElem?_slice (m : Mem) (off n i : Nat) :
    (m.slice off n)[i]? = if i < n then some (m (off + i)) else none := by
  simp only [slice, List.getElem?_map]
  by_cases h : i < n
  · simp [h]
  · simp [h]

/-- Two slices are equal when the memories agree there. -/
theorem slice_congr {m m' : Mem} {off off' n : Nat}
    (h : ∀ i, i < n → m (off + i) = m' (off' + i)) : m.slice off n = m'.slice off' n := by
  apply List.ext_getElem?
  intro i
  simp only [getElem?_slice]
  by_cases hi : i < n
  · simp [hi, h i hi]
  · simp [hi]

theorem slice_add (m : Mem) (off a b : Nat) :
    m.slice off (a + b) = m.slice off a ++ m.slice (off + a) b := by
  apply List.ext_getElem?
  intro i
  rw [List.getElem?_append, length_slice, getElem?_slice, getElem?_slice, getElem?_slice]
  by_cases h : i < a
  · simp [h, show i < a + b by omega]
  · by_cases h' : i < a + b
    · have e : off + i = off + a + (i - a) := by omega
      simp [h, h', show i - a < b by omega, e]
    · simp [h, h', show ¬ i - a < b by omega]

theorem write_of_lt {m : Mem} {off i : Nat} {bs : Bytes} (h : i < off) :
    m.write off bs i = m i := by
  simp [write, show ¬ off ≤ i by omega]

theorem write_of_ge {m : Mem} {off i : Nat} {bs : Bytes} (h : off + bs.length ≤ i) :
    m.write off bs i = m i := by
  have : bs[i - off]? = none := by simp; omega
  simp [write, this]

theorem write_getElem {m : Mem} {off i : Nat} {bs : Bytes} (h : i < bs.length) :
    m.write off bs (off + i) = bs[i] := by
  simp [write, List.getElem?_eq_getElem h]

/-- Reading back what was written. -/
theorem slice_write (m : Mem) (off : Nat) (bs : Bytes) :
    (m.write off bs).slice off bs.length = bs := by
  apply List.ext_getElem?
  intro i
  rw [getElem?_slice]
  by_cases h : i < bs.length
  · simp [h, write_getElem h]
  · simp [h]

/-- A write leaves the bytes before it alone. -/
theorem slice_write_before {m : Mem} {off off' n : Nat} {bs : Bytes} (h : off + n ≤ off') :
    (m.write off' bs).slice off n = m.slice off n :=
  slice_congr fun i hi => write_of_lt (by omega)

/-- A write leaves the bytes after it alone. -/
theorem slice_write_after {m : Mem} {off off' n : Nat} {bs : Bytes} (h : off' + bs.length ≤ off) :
    (m.write off' bs).slice off n = m.slice off n :=
  slice_congr fun i _ => write_of_ge (by omega)

theorem load_ok {m : Mem} {off n : Nat} (h : off + n ≤ luoyunPacketSizeMax) :
    m.load off n = .ok (m.slice off n) := if_pos h

theorem store_ok {m : Mem} {off : Nat} {bs : Bytes} (h : off + bs.length ≤ luoyunPacketSizeMax) :
    m.store off bs = .ok (m.write off bs) := if_pos h

/-- The first zero byte within reach ends the string. -/
theorem strnlen_of_zero {m : Mem} : ∀ {n off k : Nat}, k < n → m (off + k) = 0 →
    ∃ j, j ≤ k ∧ m.strnlen n off = some j
  | 0, _, _, hk, _ => by omega
  | n + 1, off, k, hk, hz => by
    rw [strnlen]
    by_cases h0 : m off = 0
    · exact ⟨0, by omega, if_pos h0⟩
    · rw [if_neg h0]
      cases k with
      | zero => exact absurd hz h0
      | succ k =>
        obtain ⟨j, hj, he⟩ := @strnlen_of_zero m n (off + 1) k
          (by omega) (by rw [← hz]; congr 1; omega)
        exact ⟨j + 1, by omega, by rw [he]; rfl⟩

/-- A string that is terminated inside the allocation is read without a fault. -/
theorem loadStr_ok {m : Mem} {off k : Nat} (hk : off + k < luoyunPacketSizeMax)
    (hz : m (off + k) = 0) : ∃ j, j ≤ k ∧ m.loadStr off = .ok (m.slice off j) := by
  obtain ⟨j, hj, he⟩ := @strnlen_of_zero m (luoyunPacketSizeMax - off) off k (by omega) hz
  exact ⟨j, hj, by simp [loadStr, he]⟩

/-- A terminated text without a zero byte in it is read back whole. -/
theorem strnlen_text {m : Mem} : ∀ {n off : Nat} {bs : Bytes}, bs.length < n →
    m.slice off bs.length = bs → (0 : UInt8) ∉ bs → m (off + bs.length) = 0 →
    m.strnlen n off = some bs.length
  | 0, _, _, h, _, _, _ => by omega
  | n + 1, off, [], _, _, _, hz => by
    rw [strnlen, if_pos (by simpa using hz)]; rfl
  | n + 1, off, b :: bs, h, hs, hn, hz => by
    have hlen : (b :: bs).length = 1 + bs.length := by simp; omega
    have hcut := slice_add m off 1 bs.length
    rw [← hlen, hs] at hcut
    have hb : m off = b := by
      have := congrArg (fun l => l[0]?) hcut
      simp [slice] at this
      exact this.symm
    have hrest : m.slice (off + 1) bs.length = bs := by
      have := congrArg (List.drop 1) hcut
      simpa [List.drop_append] using this.symm
    have hb0 : m off ≠ 0 := by
      rw [hb]; intro e; exact hn (by simp [e])
    have hz' : m (off + 1 + bs.length) = 0 := by
      rw [← hz]; congr 1; omega
    rw [strnlen, if_neg hb0, strnlen_text (by omega) hrest (fun hm => hn (by simp [hm])) hz']
    simp

theorem loadStr_text {m : Mem} {off : Nat} {bs : Bytes} (h : off + bs.length < luoyunPacketSizeMax)
    (hs : m.slice off bs.length = bs) (hn : (0 : UInt8) ∉ bs) (hz : m (off + bs.length) = 0) :
    m.loadStr off = .ok bs := by
  rw [loadStr, strnlen_text (by omega) hs hn hz]
  simp [hs]

end Mem

theorem Mem.loadHeader_ok (m : Mem) : m.loadHeader = .ok m.header := by
  have : m.load 0 sizeofLYPacketHeader = .ok (m.slice 0 sizeofLYPacketHeader) :=
    Mem.load_ok (by unfold luoyunPacketSizeMax sizeofLYPacketHeader; omega)
  rw [Mem.loadHeader, this]
  rfl

/-! ## The header on the wire -/

@[simp] theorem length_le32 (x : Int) : (le32 x).length = 4 := rfl

theorem int32Of_cons (a b c d : UInt8) (rest : Bytes) :
    int32Of (a :: b :: c :: d :: rest)
      = toInt32 (a.toNat + 256 * b.toNat + 65536 * c.toNat + 16777216 * d.toNat) := rfl

theorem int32Of_le32 {x : Int} (h : IsInt32 x) (rest : Bytes) : int32Of (le32 x ++ rest) = x := by
  have hu : toInt32 (toUInt32 x : Int) = x := by
    unfold toInt32 toUInt32 IsInt32 at *
    omega
  have hlt : toUInt32 x < 4294967296 := by unfold toUInt32; omega
  unfold le32
  generalize toUInt32 x = n at hu hlt
  dsimp only
  rw [List.cons_append, List.cons_append, List.cons_append, List.cons_append, int32Of_cons]
  simp only [UInt8.toNat_ofNat']
  refine (congrArg toInt32 ?_).trans hu
  omega

-- what a header or a payload says is never found by unfolding arithmetic modulo 2^32
attribute [irreducible] int32Of

end LuoYun

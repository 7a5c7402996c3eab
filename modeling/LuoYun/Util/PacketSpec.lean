import LuoYun.Util.Packet

/-!
# What the packet functions do to a buffer in use

`Ready p m` is the state every receiver keeps its buffer in: allocated, holding `m`, and with
at most `LUOYUN_PACKET_SIZE_MAX - 1` bytes stored. For such a buffer `ly_packet_recv` and
`ly_packet_recv_done` never leave the allocation, whatever the header says, and the two
equations below give their result in closed form.

The second half is about honest senders: when the stored bytes begin with the bytes of a
packet `ly_packet_send` accepted, `ly_packet_recv` finds exactly that packet, and
`ly_packet_recv_done` leaves exactly the bytes after it.
-/

namespace LuoYun

/-- The buffer is allocated, holds `m`, and keeps its last byte free. -/
structure Ready (p : LYPacketRecv) (m : Mem) : Prop where
  buf : p.pktBuf = some m
  size : p.pktBufSize = luoyunPacketSizeMax - 1
  le : p.pktBufReceived ≤ luoyunPacketSizeMax - 1

theorem ready_init (m : Mem) : Ready (lyPacketInit m) m := ⟨rfl, rfl, Nat.zero_le _⟩

theorem max_eq : luoyunPacketSizeMax = 40960 := rfl
theorem hdr_eq : sizeofLYPacketHeader = 8 := rfl

/-- A total that passes the unsigned comparison is a small natural number. -/
theorem total_nonneg {h : LYPacketHeader} {n : Nat} (hn : n ≤ luoyunPacketSizeMax)
    (ht : toUInt32 h.total ≤ n) : 0 ≤ h.total ∧ h.total.toNat = toUInt32 h.total := by
  rw [max_eq] at hn
  have hr : -2147483648 ≤ h.total ∧ h.total < 2147483648 := by
    unfold LYPacketHeader.total toInt32; omega
  unfold toUInt32 at *
  omega

/-- `ly_packet_recv` after `size` new bytes is `ly_packet_recv` with them already counted. -/
theorem lyPacketRecv_size {p : LYPacketRecv} {m : Mem} (hb : p.pktBuf = some m) {n : Nat}
    (hn : p.pktBufReceived + n ≤ luoyunPacketSizeMax) :
    lyPacketRecv p n = lyPacketRecv { p with pktBufReceived := p.pktBufReceived + n } 0 := by
  rw [max_eq] at hn
  have h1 : ¬ (n : Int) < 0 := by omega
  have h2 : ¬ (0 : Int) < 0 := by omega
  have e : toUInt32 ((p.pktBufReceived : Int) + n) = p.pktBufReceived + n := by
    unfold toUInt32; omega
  have e' : toUInt32 (((p.pktBufReceived + n : Nat) : Int) + 0) = p.pktBufReceived + n := by
    unfold toUInt32; omega
  simp only [lyPacketRecv, hb, h1, h2, if_false, e, e']

/-- The header is complete but the packet is not. -/
theorem lyPacketRecv_short {hdr h : LYPacketHeader} {m : Mem} {size n : Nat} {c : UInt8}
    (hn : toUInt32 ((n : Int) + 0) = n) (hload : m.loadHeader = .ok h)
    (h8 : ¬ n < sizeofLYPacketHeader) (ht : ¬ toUInt32 h.total ≤ n) :
    lyPacketRecv ⟨hdr, size, n, some m, c⟩ 0 = .ok (0, ⟨h, size, n, some m, c⟩) := by
  have h0 : ¬ (0 : Int) < 0 := by omega
  rw [lyPacketRecv, if_neg h0]
  dsimp only
  rw [hn, if_neg h8, hload]
  dsimp only [bind, Except.bind]
  rw [if_neg ht]

/-- The packet is complete: the byte after it is saved and zeroed. -/
theorem lyPacketRecv_whole {hdr h : LYPacketHeader} {m : Mem} {size n : Nat} {c : UInt8}
    (hn : toUInt32 ((n : Int) + 0) = n) (hload : m.loadHeader = .ok h)
    (h8 : ¬ n < sizeofLYPacketHeader) (ht : toUInt32 h.total ≤ n) (hnn : 0 ≤ h.total)
    (hin : h.total.toNat + 1 ≤ luoyunPacketSizeMax) :
    lyPacketRecv ⟨hdr, size, n, some m, c⟩ 0 =
      .ok (1, ⟨h, size, n, some (m.write h.total.toNat [0]), m h.total.toNat⟩) := by
  have h0 : ¬ (0 : Int) < 0 := by omega
  rw [lyPacketRecv, if_neg h0]
  dsimp only
  rw [hn, if_neg h8, hload]
  dsimp only [bind, Except.bind]
  rw [if_pos ht]
  generalize h.total = t at *
  have hat : Mem.at? t = .ok t.toNat := if_pos hnn
  rw [hat]
  dsimp only
  rw [Mem.load_ok hin]
  dsimp only
  generalize t.toNat = k at *
  have hst : m.store k [0] = .ok (m.write k [0]) := Mem.store_ok hin
  have hc : (m.slice k 1).headD 0 = m k := by simp [Mem.slice]
  rw [hst, hc]

/-- **`ly_packet_recv` in closed form.** It never leaves the allocation. -/
theorem lyPacketRecv_eq {p : LYPacketRecv} {m : Mem} (h : Ready p m) :
    lyPacketRecv p 0 =
      if p.pktBufReceived < sizeofLYPacketHeader then .ok (0, p)
      else if toUInt32 m.header.total ≤ p.pktBufReceived then
        .ok (1, { p with
          pktHeader := m.header
          pktBuf := some (m.write m.header.total.toNat [0])
          pktHeadByte := m m.header.total.toNat })
      else .ok (0, { p with pktHeader := m.header }) := by
  obtain ⟨hbuf, -, hle⟩ := h
  obtain ⟨hdr, size, n, buf, c⟩ := p
  dsimp only at hbuf hle ⊢
  subst hbuf
  have hload := Mem.loadHeader_ok m
  -- the header is a long term: nothing below looks inside it
  generalize m.header = h at *
  have hn : toUInt32 ((n : Int) + 0) = n := by
    rw [max_eq] at hle
    unfold toUInt32; omega
  by_cases h8 : n < sizeofLYPacketHeader
  · have h0 : ¬ (0 : Int) < 0 := by omega
    rw [if_pos h8, lyPacketRecv, if_neg h0]
    dsimp only
    rw [hn, if_pos h8]
  · by_cases ht : toUInt32 h.total ≤ n
    · obtain ⟨hnn, hnat⟩ := total_nonneg (by omega) ht
      have hin : h.total.toNat + 1 ≤ luoyunPacketSizeMax := by
        rw [hnat]; rw [max_eq] at hle ⊢; omega
      rw [if_neg h8, if_pos ht, lyPacketRecv_whole hn hload h8 ht hnn hin]
    · rw [if_neg h8, if_neg ht, lyPacketRecv_short hn hload h8 ht]

/-- **`ly_packet_recv_done` in closed form**, for a header whose packet is complete. -/
theorem lyPacketRecvDone_eq {p : LYPacketRecv} {m : Mem} (h : Ready p m)
    (h8 : sizeofLYPacketHeader ≤ p.pktBufReceived)
    (ht : toUInt32 p.pktHeader.total ≤ p.pktBufReceived) :
    lyPacketRecvDone p =
      if p.pktBufReceived ≤ toUInt32 p.pktHeader.total then .ok (0, { p with pktBufReceived := 0 })
      else
        let left := p.pktBufReceived - toUInt32 p.pktHeader.total
        .ok (0, { p with
          pktBufReceived := left
          pktBuf := some ((m.write 0 (m.slice p.pktHeader.total.toNat left)).write 0
            [p.pktHeadByte]) }) := by
  have hle := h.le
  obtain ⟨hnn, hnat⟩ := total_nonneg (by omega) ht
  have h8' : ¬ p.pktBufReceived < sizeofLYPacketHeader := by omega
  simp only [lyPacketRecvDone, h8', if_false]
  by_cases hdone : p.pktBufReceived ≤ toUInt32 p.pktHeader.total
  · simp only [hdone, if_true]
  · have hin : p.pktHeader.total.toNat + (p.pktBufReceived - toUInt32 p.pktHeader.total)
        ≤ luoyunPacketSizeMax := by omega
    have hst : ∀ (m' : Mem), m'.store 0 [p.pktHeadByte] = .ok (m'.write 0 [p.pktHeadByte]) :=
      fun m' => Mem.store_ok (by rw [max_eq]; simp)
    have hst' : m.store 0 (m.slice p.pktHeader.total.toNat
          (p.pktBufReceived - toUInt32 p.pktHeader.total))
        = .ok (m.write 0 (m.slice p.pktHeader.total.toNat
          (p.pktBufReceived - toUInt32 p.pktHeader.total))) :=
      Mem.store_ok (by simp; omega)
    simp only [hdone, if_false, h.buf, bind, Except.bind, Mem.at?, hnn, if_true, Mem.load_ok hin,
      hst', hst]

/-! ## Packets of an honest sender -/

/-- The bytes of a packet on the wire. -/
def wire (type : Int) (data : Bytes) : Bytes := le32 type ++ le32 data.length ++ data

@[simp] theorem length_wire (type : Int) (data : Bytes) :
    (wire type data).length = sizeofLYPacketHeader + data.length := by
  simp only [wire, List.length_append, length_le32, hdr_eq]

/-- What `ly_packet_send` accepts (for a valid descriptor). -/
structure Sendable (type : Int) (data : Bytes) : Prop where
  pos : 0 < type
  int32 : type < 2 ^ 31
  ne : data ≠ []
  fits : data.length + sizeofLYPacketHeader < luoyunPacketSizeMax

/-- `ly_packet_send` on a valid descriptor sends the packet exactly when it is `Sendable`. -/
theorem lyPacketFrame_ok_iff {fd type : Int} {data bs : Bytes} (hfd : 0 ≤ fd) (ht : type < 2 ^ 31) :
    lyPacketFrame fd type data = .ok bs ↔ Sendable type data ∧ bs = wire type data := by
  unfold lyPacketFrame
  constructor
  · intro h
    split at h
    · exact absurd h (by simp)
    · rename_i h1
      split at h
      · exact absurd h (by simp)
      · rename_i h2
        simp only [not_or] at h1
        exact ⟨⟨by omega, ht, h1.2.2, by omega⟩, (Except.ok.inj h).symm⟩
  · rintro ⟨hs, rfl⟩
    have h1 : ¬ (fd < 0 ∨ type ≤ 0 ∨ data = []) := by
      have := hs.pos
      simp only [not_or]
      exact ⟨by omega, by omega, hs.ne⟩
    have h2 : ¬ luoyunPacketSizeMax ≤ data.length + sizeofLYPacketHeader := by
      have := hs.fits
      omega
    rw [if_neg h1, if_neg h2]
    rfl

theorem Sendable.total {type : Int} {data : Bytes} (h : Sendable type data) :
    (⟨type, data.length⟩ : LYPacketHeader).total = (sizeofLYPacketHeader + data.length : Nat) := by
  have := h.fits
  rw [max_eq, hdr_eq] at *
  unfold LYPacketHeader.total toInt32
  dsimp only
  rw [hdr_eq]
  omega

theorem Sendable.toUInt32_total {type : Int} {data : Bytes} (h : Sendable type data) :
    toUInt32 (⟨type, data.length⟩ : LYPacketHeader).total = sizeofLYPacketHeader + data.length := by
  rw [h.total]
  have := h.fits
  rw [max_eq, hdr_eq] at *
  unfold toUInt32
  omega

/-- The stored bytes. -/
def stored (p : LYPacketRecv) (m : Mem) : Bytes := m.slice 0 p.pktBufReceived

@[simp] theorem length_stored (p : LYPacketRecv) (m : Mem) :
    (stored p m).length = p.pktBufReceived := by
  simp [stored]

theorem take_slice {m : Mem} {k n : Nat} (h : k ≤ n) : (m.slice 0 n).take k = m.slice 0 k := by
  obtain ⟨d, rfl⟩ := Nat.exists_eq_add_of_le h
  rw [Mem.slice_add, List.take_left' (by simp)]

theorem drop_slice {m : Mem} {k n : Nat} (h : k ≤ n) :
    (m.slice 0 n).drop k = m.slice k (n - k) := by
  obtain ⟨d, rfl⟩ := Nat.exists_eq_add_of_le h
  rw [Mem.slice_add, List.drop_left' (by simp)]
  simp

/-- When the stored bytes and those still to come start with a packet, its header is the one
found at the front of the buffer, as soon as eight bytes are there. -/
theorem header_of_prefix {p : LYPacketRecv} {m : Mem} {type : Int} {data rest more : Bytes}
    (hs : Sendable type data) (h : stored p m ++ rest = wire type data ++ more)
    (h8 : sizeofLYPacketHeader ≤ p.pktBufReceived) : m.header = ⟨type, data.length⟩ := by
  have hpos := hs.pos
  have hlt := hs.int32
  have hfit := hs.fits
  have hslice : m.slice 0 sizeofLYPacketHeader = le32 type ++ le32 data.length := by
    have := congrArg (List.take sizeofLYPacketHeader) h
    rw [List.take_append_of_le_length (by simpa using h8), stored, take_slice h8] at this
    rw [this, wire, List.append_assoc, List.take_left' (by simp [hdr_eq])]
  have h1 : IsInt32 type := ⟨by omega, by omega⟩
  have h2 : IsInt32 (data.length : Int) := by
    rw [max_eq, hdr_eq] at hfit
    exact ⟨by omega, by omega⟩
  have hlen : m.slice 4 4 = le32 data.length := by
    have := congrArg (List.drop 4) hslice
    rwa [drop_slice (by decide), List.drop_left' (by simp)] at this
  have hint := int32Of_le32 h2 []
  rw [List.append_nil] at hint
  rw [Mem.header, hslice, int32Of_le32 h1, hlen, hint]

/-- **A packet that is not complete yet.** Nothing is found and nothing stored changes. -/
theorem lyPacketRecv_partial {p : LYPacketRecv} {m : Mem} {type : Int} {data rest more : Bytes}
    (h : Ready p m) (hs : Sendable type data) (hp : stored p m ++ rest = wire type data ++ more)
    (hlt : p.pktBufReceived < (wire type data).length) :
    ∃ q, lyPacketRecv p 0 = .ok (0, q) ∧ Ready q m ∧ q.pktBufReceived = p.pktBufReceived := by
  rw [lyPacketRecv_eq h]
  by_cases h8 : p.pktBufReceived < sizeofLYPacketHeader
  · exact ⟨p, if_pos h8, h, rfl⟩
  · have hhdr := header_of_prefix hs hp (by omega)
    have hnot : ¬ toUInt32 m.header.total ≤ p.pktBufReceived := by
      rw [hhdr, hs.toUInt32_total]
      rw [length_wire] at hlt
      omega
    rw [if_neg h8, if_neg hnot]
    exact ⟨_, rfl, ⟨h.buf, h.size, h.le⟩, rfl⟩

/-- An empty buffer holds no packet. -/
theorem lyPacketRecv_empty {p : LYPacketRecv} {m : Mem} (h : Ready p m)
    (h0 : p.pktBufReceived = 0) : lyPacketRecv p 0 = .ok (0, p) := by
  rw [lyPacketRecv_eq h, if_pos (by rw [h0]; decide)]

/-- The state in which a complete packet is handed to its handler. -/
structure Found (q : LYPacketRecv) (m : Mem) (type : Int) (data tail : Bytes) : Prop where
  ready : Ready q m
  header : q.pktHeader = ⟨type, data.length⟩
  received : q.pktBufReceived = (wire type data).length + tail.length
  payload : m.slice sizeofLYPacketHeader data.length = data
  zero : m (wire type data).length = 0
  head : tail ≠ [] → q.pktHeadByte :: m.slice ((wire type data).length + 1) (tail.length - 1) = tail

/-- **A complete packet is found**, its payload in place and followed by a zero byte. -/
theorem lyPacketRecv_complete {p : LYPacketRecv} {m : Mem} {type : Int} {data tail : Bytes}
    (h : Ready p m) (hs : Sendable type data) (hp : stored p m = wire type data ++ tail) :
    ∃ q m', lyPacketRecv p 0 = .ok (1, q) ∧ Found q m' type data tail := by
  have hrec : p.pktBufReceived = (wire type data).length + tail.length := by
    have := congrArg List.length hp
    simpa using this
  have hwl := length_wire type data
  have hp0 : stored p m ++ [] = wire type data ++ tail := by rw [List.append_nil]; exact hp
  have hhdr := header_of_prefix hs hp0 (by rw [hrec, hwl]; omega)
  have htot : m.header.total.toNat = (wire type data).length := by
    rw [hhdr, hs.total, hwl]
    rfl
  have hle : toUInt32 m.header.total ≤ p.pktBufReceived := by
    rw [hhdr, hs.toUInt32_total, hrec, hwl]
    omega
  have h8 : ¬ p.pktBufReceived < sizeofLYPacketHeader := by rw [hrec, hwl]; omega
  rw [lyPacketRecv_eq h, if_neg h8, if_pos hle, htot]
  refine ⟨_, _, rfl, ⟨rfl, h.size, h.le⟩, hhdr, hrec, ?_, ?_, ?_⟩
  · -- the payload lies before the byte that was overwritten
    rw [Mem.slice_write_before (by rw [hwl])]
    have := congrArg (fun l => (List.drop sizeofLYPacketHeader l).take data.length) hp
    simp only [stored] at this
    rw [drop_slice (by rw [hrec, hwl]; omega), wire, List.append_assoc, List.append_assoc,
      ← List.append_assoc (le32 type), List.drop_left' (by simp [hdr_eq]),
      List.take_left' rfl] at this
    have hk : p.pktBufReceived - sizeofLYPacketHeader = data.length + tail.length := by
      rw [hrec, hwl]; omega
    rwa [hk, Mem.slice_add, List.take_left' (by simp)] at this
  · have := @Mem.write_getElem m (wire type data).length 0 [0] (by simp)
    simpa using this
  · intro hne
    have hdrop := congrArg (List.drop (wire type data).length) hp
    rw [List.drop_left' rfl, stored, drop_slice (by rw [hrec]; omega), hrec,
      Nat.add_sub_cancel_left] at hdrop
    have hpos : 0 < tail.length := List.length_pos_iff.mpr hne
    have hcut := Mem.slice_add m (wire type data).length 1 (tail.length - 1)
    rw [show 1 + (tail.length - 1) = tail.length by omega, hdrop] at hcut
    rw [Mem.slice_write_after (by simp)]
    conv_rhs => rw [hcut]
    simp [Mem.slice]

/-- **`ly_packet_recv_done` leaves exactly the bytes after the packet**, whatever the handler
wrote over the payload. -/
theorem lyPacketRecvDone_found {q : LYPacketRecv} {m m' : Mem} {type : Int} {data tail : Bytes}
    (hs : Sendable type data) (h : Found q m type data tail)
    (hout : ∀ i, (wire type data).length < i → m' i = m i) :
    ∃ q' m'', lyPacketRecvDone { q with pktBuf := some m' } = .ok (0, q') ∧ Ready q' m''
      ∧ stored q' m'' = tail := by
  have hrd : Ready { q with pktBuf := some m' } m' := ⟨rfl, h.ready.size, h.ready.le⟩
  have hwl := length_wire type data
  have htot : toUInt32 q.pktHeader.total = (wire type data).length := by
    rw [h.header, hs.toUInt32_total, hwl]
  have hnat : q.pktHeader.total.toNat = (wire type data).length := by
    rw [h.header, hs.total, hwl]; rfl
  have hrec := h.received
  have heq := lyPacketRecvDone_eq hrd (by simp only; rw [hrec, hwl]; omega)
    (by simp only; rw [htot, hrec]; omega)
  simp only [htot, hnat] at heq
  rw [heq]
  by_cases hne : tail = []
  · subst hne
    rw [if_pos (by rw [hrec]; simp)]
    exact ⟨_, m', rfl, ⟨rfl, h.ready.size, by simp⟩, by simp [stored, Mem.slice]⟩
  · have hpos : 0 < tail.length := List.length_pos_iff.mpr hne
    have hle := h.ready.le
    rw [if_neg (by rw [hrec]; omega)]
    refine ⟨_, _, rfl, ⟨rfl, h.ready.size, ?_⟩, ?_⟩
    · simp only; omega
    · have hleft : q.pktBufReceived - (wire type data).length = 1 + (tail.length - 1) := by
        rw [hrec]; omega
      have hhead := h.head hne
      simp only [stored, hleft]
      rw [Mem.slice_add m', Mem.slice_add _ 0 1]
      have h1 : (((m'.write 0 (m'.slice (wire type data).length 1 ++
            m'.slice ((wire type data).length + 1) (tail.length - 1))).write 0
              [q.pktHeadByte]).slice
              0 1) = [q.pktHeadByte] := Mem.slice_write _ 0 [q.pktHeadByte]
      rw [h1, Mem.slice_write_after (by simp)]
      have h2 := Mem.slice_write m' 0 (m'.slice (wire type data).length 1 ++
            m'.slice ((wire type data).length + 1) (tail.length - 1))
      simp only [List.length_append, Mem.length_slice] at h2
      rw [Mem.slice_add _ 0 1] at h2
      have h3 := (List.append_inj h2 (by simp)).2
      rw [h3]
      have h4 : m'.slice ((wire type data).length + 1) (tail.length - 1)
          = m.slice ((wire type data).length + 1) (tail.length - 1) :=
        Mem.slice_congr fun i _ => hout _ (by omega)
      rw [h4]
      exact hhead

/-! ## New bytes -/

/-- Receiving a chunk that fits the free space appends it to the stored bytes. -/
theorem recvInto_ready {p : LYPacketRecv} {m : Mem} (h : Ready p m) (chunk : Bytes)
    (hfit : p.pktBufReceived + chunk.length ≤ luoyunPacketSizeMax - 1) :
    ∃ m', recvInto p chunk = .ok { p with pktBuf := some m' } ∧
      Ready { p with pktBuf := some m', pktBufReceived := p.pktBufReceived + chunk.length } m' ∧
      m'.slice 0 (p.pktBufReceived + chunk.length) = stored p m ++ chunk := by
  refine ⟨m.write p.pktBufReceived chunk, ?_, ⟨rfl, h.size, hfit⟩, ?_⟩
  · simp only [recvInto, h.buf, bind, Except.bind]
    rw [Mem.store_ok (by omega)]
  · rw [Mem.slice_add, Nat.zero_add, Mem.slice_write, Mem.slice_write_before (by omega)]
    rfl

theorem lyPacketBuf_ready {p : LYPacketRecv} {m : Mem} (h : Ready p m)
    (hlt : p.pktBufReceived < luoyunPacketSizeMax - 1) :
    lyPacketBuf p = some (p.pktBufReceived, luoyunPacketSizeMax - 1 - p.pktBufReceived) := by
  simp only [lyPacketBuf, h.buf, h.size]
  rw [if_neg (by omega)]

end LuoYun

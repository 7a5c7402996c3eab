import LuoYun.Compute.Mcast
import LuoYun.Util.PacketSpec
import Mathlib.Data.List.TakeWhile

/-!
# Are multicast datagrams independent of each other?

A datagram is decoded from what it holds itself as long as the buffer is empty when it arrives and
the text of its join request ends inside it. Both can be spoiled. A datagram with bytes behind its
declared end leaves them at the front of the buffer, where they become the header of the next one;
and a join request with a negative length is read on into whatever an earlier datagram has left in
the memory.
-/

namespace LuoYun

/-- The bytes of a datagram that fit the buffer. -/
def Datagram.received (d : Datagram) : Bytes := d.data.take (luoyunPacketSizeMax - 1)

/-- The header at the front of a datagram. -/
def headerOf (t : Bytes) : LYPacketHeader := ⟨int32Of (t.take 8), int32Of ((t.drop 4).take 4)⟩

/-- The text of a packet: up to its declared end, or up to the end of the datagram when that lies
inside the header. -/
def textOf (t : Bytes) : Bytes :=
  (if 8 ≤ (headerOf t).total then (t.take (headerOf t).total.toNat).drop 8 else t.drop 8).takeWhile
    (· ≠ 0)

/-- What a datagram says. -/
def decodeAlone (t : Bytes) : Res Decoded :=
  if t.length < sizeofLYPacketHeader then .ok .partially
  else if toUInt32 (headerOf t).total ≤ t.length then
    if (headerOf t).type = PktType.joinRequest then do
      let q ← processMcastString (textOf t)
      .ok (.ofJoin q)
    else .ok .rejected
  else .ok .partially

/-- No bytes stand behind the declared end of the datagram. -/
def NothingBehind (t : Bytes) : Prop :=
  t.length < sizeofLYPacketHeader ∨ t.length ≤ toUInt32 (headerOf t).total

/-- A join request that declares an end inside its header has a zero byte behind it. -/
def EndsInside (t : Bytes) : Prop :=
  sizeofLYPacketHeader ≤ t.length → (headerOf t).type = PktType.joinRequest →
    0 ≤ (headerOf t).total → (headerOf t).total < 8 → (0 : UInt8) ∈ t.drop 8

/-- The buffer is allocated and empty. -/
def Drained (p : LYPacketRecv) : Prop := ∃ m, Ready p m ∧ p.pktBufReceived = 0

theorem drained_init (m : Mem) : Drained (lyPacketInit m) := ⟨m, ready_init m, rfl⟩

/-! ## The memory after a datagram -/

theorem Mem.slice_written {m : Mem} {bs : Bytes} {off n : Nat} (h : off + n ≤ bs.length) :
    (m.write 0 bs).slice off n = (bs.drop off).take n := by
  apply List.ext_getElem?
  intro i
  rw [Mem.getElem?_slice, List.getElem?_take, List.getElem?_drop]
  by_cases hi : i < n
  · have hin : off + i < bs.length := by omega
    have hw : m.write 0 bs (0 + (off + i)) = bs[off + i] := Mem.write_getElem hin
    rw [if_pos hi, if_pos hi, List.getElem?_eq_getElem hin, ← hw, Nat.zero_add]
  · rw [if_neg hi, if_neg hi]

theorem header_written {m : Mem} {t : Bytes} (h : 8 ≤ t.length) :
    (m.write 0 t).header = headerOf t := by
  unfold Mem.header headerOf
  have h1 : (m.write 0 t).slice 0 sizeofLYPacketHeader = t.take 8 :=
    Mem.slice_written (by rw [hdr_eq]; omega)
  have h2 : (m.write 0 t).slice 4 4 = (t.drop 4).take 4 := Mem.slice_written (by omega)
  rw [h1, h2]

/-- A text in memory is read up to its first zero byte, when that is in it or right behind it. -/
theorem loadStr_takeWhile {m : Mem} {off : Nat} {body : Bytes}
    (hin : off + body.length < luoyunPacketSizeMax) (hs : m.slice off body.length = body)
    (hend : m (off + body.length) = 0 ∨ (0 : UInt8) ∈ body) :
    m.loadStr off = .ok (body.takeWhile (· ≠ 0)) := by
  have hcut : body = body.takeWhile (· ≠ 0) ++ body.dropWhile (· ≠ 0) :=
    (List.takeWhile_append_dropWhile ..).symm
  have hlen : body.length = (body.takeWhile (· ≠ 0)).length + (body.dropWhile (· ≠ 0)).length := by
    rw [← List.length_append, ← hcut]
  have hno : (0 : UInt8) ∉ body.takeWhile (· ≠ 0) := by
    intro h0
    simpa using List.mem_takeWhile_imp h0
  generalize htw : body.takeWhile (· ≠ 0) = w at *
  generalize hdw : body.dropWhile (· ≠ 0) = rest at *
  have hslice : m.slice off w.length ++ m.slice (off + w.length) rest.length = w ++ rest := by
    rw [← Mem.slice_add, ← hlen, hs, hcut]
  obtain ⟨hw, hrest⟩ := List.append_inj hslice (by simp)
  refine Mem.loadStr_text (by omega) hw hno ?_
  cases rest with
  | nil =>
    rw [List.append_nil] at hcut
    rcases hend with hz | hz
    · rw [hcut] at hz
      exact hz
    · exact absurd (hcut ▸ hz) hno
  | cons b rest =>
    -- what the scan has stopped at is the zero byte
    have hb : b = 0 := by
      have hne : body.dropWhile (· ≠ 0) ≠ [] := by rw [hdw]; exact List.cons_ne_nil _ _
      have hhead := List.head_dropWhile_not (fun x : UInt8 => decide (x ≠ 0)) hne
      simp only [hdw, List.head_cons] at hhead
      simpa using hhead
    have hfirst := congrArg (fun l => l[0]?) hrest
    simp only [Mem.getElem?_slice, List.length_cons, Nat.zero_lt_succ, if_true, Nat.add_zero,
      List.getElem?_cons_zero, Option.some.injEq] at hfirst
    rw [hfirst, hb]

/-! ## One datagram -/

section

variable {p : LYPacketRecv} {data : Bytes}

/-- The receive structure once the datagram is in the buffer. -/
def LYPacketRecv.holding (p : LYPacketRecv) (m : Mem) (t : Bytes) : LYPacketRecv :=
  { p with pktBuf := some (m.write 0 t), pktBufReceived := t.length }

theorem mcastDecode_drained {m : Mem} (h : Ready p m) (h0 : p.pktBufReceived = 0) {t : Bytes}
    (ht : data.take (luoyunPacketSizeMax - 1) = t) :
    Ready (p.holding m t) (m.write 0 t) ∧
      mcastDecode p data = (do
        let q ← lyPacketRecv (p.holding m t) 0
        let decoded ← mcastPacket q.1 q.2
        let r ← lyPacketRecvDone q.2
        .ok (decoded, r.2)) := by
  have hlen : t.length ≤ luoyunPacketSizeMax - 1 := by
    rw [← ht]
    exact List.length_take_le _ _
  refine ⟨⟨rfl, h.size, hlen⟩, ?_⟩
  have hbuf : lyPacketBuf p = some (0, luoyunPacketSizeMax - 1) := by
    have hpos : ¬ luoyunPacketSizeMax - 1 ≤ 0 := by rw [max_eq]; omega
    rw [lyPacketBuf, h.buf, h.size, h0]
    exact if_neg hpos
  have hinto : recvInto p t = .ok { p with pktBuf := some (m.write 0 t) } := by
    have hst : m.store 0 t = .ok (m.write 0 t) := Mem.store_ok (by rw [max_eq] at *; omega)
    rw [recvInto, h.buf, h0]
    dsimp only [bind, Except.bind]
    rw [hst]
  have hsize : lyPacketRecv { p with pktBuf := some (m.write 0 t) } t.length =
      lyPacketRecv (p.holding m t) 0 := by
    rw [lyPacketRecv_size rfl (by dsimp only; rw [h0]; omega)]
    dsimp only
    rw [h0, Nat.zero_add]
    rfl
  rw [mcastDecode, hbuf]
  dsimp only [bind, Except.bind]
  rw [ht, hinto]
  dsimp only
  rw [hsize]

theorem recvDone_empties {q : LYPacketRecv} (h : q.pktBufReceived < sizeofLYPacketHeader ∨
    q.pktBufReceived ≤ toUInt32 q.pktHeader.total) :
    lyPacketRecvDone q = .ok (0, { q with pktBufReceived := 0 }) := by
  unfold lyPacketRecvDone
  by_cases h8 : q.pktBufReceived < sizeofLYPacketHeader
  · rw [if_pos h8]
  · rw [if_neg h8]
    exact if_pos (h.resolve_left h8)

/-- **A datagram with nothing behind it leaves the buffer empty.** -/
theorem mcastDecode_next {p' : LYPacketRecv} {decoded : Decoded} (h : Drained p)
    (hn : NothingBehind (data.take (luoyunPacketSizeMax - 1)))
    (hd : mcastDecode p data = .ok (decoded, p')) : Drained p' := by
  obtain ⟨m, hready, h0⟩ := h
  generalize ht : data.take (luoyunPacketSizeMax - 1) = t at *
  obtain ⟨hr, heq⟩ := mcastDecode_drained hready h0 ht
  -- whatever the packet is read as, what is left of it is dropped
  have hempty : ∀ ret q m', lyPacketRecv (p.holding m t) 0 = .ok (ret, q) → q.pktBuf = some m' →
      q.pktBufSize = luoyunPacketSizeMax - 1 → (q.pktBufReceived < sizeofLYPacketHeader ∨
        q.pktBufReceived ≤ toUInt32 q.pktHeader.total) → Drained p' := by
    intro ret q m' hq hbuf hsize hleft
    rw [heq, hq] at hd
    dsimp only [bind, Except.bind] at hd
    rw [recvDone_empties hleft] at hd
    split at hd
    · cases hd
    · obtain ⟨-, rfl⟩ := Prod.mk.inj (Except.ok.inj hd)
      exact ⟨m', ⟨hbuf, hsize, Nat.zero_le _⟩, rfl⟩
  have hrecv := lyPacketRecv_eq hr
  have hlen : (p.holding m t).pktBufReceived = t.length := rfl
  rw [hlen] at hrecv
  by_cases h8 : t.length < sizeofLYPacketHeader
  · rw [if_pos h8] at hrecv
    exact hempty _ _ _ hrecv rfl hr.size (.inl h8)
  · have hge : 8 ≤ t.length := by rw [hdr_eq] at h8; omega
    have hend : t.length ≤ toUInt32 (headerOf t).total := hn.resolve_left h8
    rw [if_neg h8, header_written hge] at hrecv
    by_cases hfull : toUInt32 (headerOf t).total ≤ t.length
    · rw [if_pos hfull] at hrecv
      exact hempty _ _ _ hrecv rfl hr.size (.inr hend)
    · rw [if_neg hfull] at hrecv
      exact hempty _ _ _ hrecv rfl hr.size (.inr hend)

/-- The text of a complete packet, when it ends inside its datagram. -/
theorem loadStr_packet {m : Mem} {t : Bytes} (hmax : t.length ≤ luoyunPacketSizeMax - 1)
    (h8 : sizeofLYPacketHeader ≤ t.length) (hjoin : (headerOf t).type = PktType.joinRequest)
    (hfull : toUInt32 (headerOf t).total ≤ t.length) (hin : EndsInside t) :
    ((m.write 0 t).write (headerOf t).total.toNat [0]).loadStr sizeofLYPacketHeader =
      .ok (textOf t) := by
  rw [max_eq] at hmax
  obtain ⟨hnn, hnat⟩ := total_nonneg (by rw [max_eq]; omega) hfull
  have hends := hin h8 hjoin hnn
  rw [hdr_eq] at h8 ⊢
  unfold textOf
  by_cases htot : 8 ≤ (headerOf t).total
  · -- the zero byte at the declared end
    rw [if_pos htot]
    generalize (headerOf t).total = total at *
    obtain ⟨k, rfl⟩ : ∃ k : Nat, total = k := ⟨total.toNat, by omega⟩
    rw [Int.toNat_natCast] at *
    have hk : k ≤ t.length := by omega
    have hlen : ((t.take k).drop 8).length = k - 8 := by
      rw [List.length_drop, List.length_take, Nat.min_eq_left hk]
    refine loadStr_takeWhile ?_ ?_ (.inl ?_)
    · rw [hlen, max_eq]
      omega
    · rw [hlen, Mem.slice_write_before (by omega), Mem.slice_written (by omega), List.drop_take]
    · rw [hlen]
      have hat : 8 + (k - 8) = k + 0 := by omega
      rw [hat]
      exact Mem.write_getElem (show 0 < [(0 : UInt8)].length by decide)
  · -- the header is cut short, the text is not
    rw [if_neg htot]
    have hz := hends (by omega)
    have hlen : (t.drop 8).length = t.length - 8 := List.length_drop ..
    refine loadStr_takeWhile ?_ ?_ (.inr hz)
    · rw [hlen, max_eq]
      omega
    · have hpos : (headerOf t).total.toNat + [(0 : UInt8)].length ≤ 8 := by
        rw [List.length_singleton]
        omega
      rw [hlen, Mem.slice_write_after hpos, Mem.slice_written (by omega),
        List.take_of_length_le (by omega)]

/-- **An empty buffer decodes a datagram from what it holds itself.** -/
theorem mcastDecode_decoded (h : Drained p)
    (hin : EndsInside (data.take (luoyunPacketSizeMax - 1))) :
    (mcastDecode p data).map Prod.fst = decodeAlone (data.take (luoyunPacketSizeMax - 1)) := by
  obtain ⟨m, hready, h0⟩ := h
  have hmax : (data.take (luoyunPacketSizeMax - 1)).length ≤ luoyunPacketSizeMax - 1 :=
    List.length_take_le _ _
  generalize ht : data.take (luoyunPacketSizeMax - 1) = t at *
  obtain ⟨hr, heq⟩ := mcastDecode_drained hready h0 ht
  -- receiving is done without a fault, and changes nothing about what was decoded
  have hpacket : ∀ ret q r, lyPacketRecv (p.holding m t) 0 = .ok (ret, q) →
      lyPacketRecvDone q = .ok r → (mcastDecode p data).map Prod.fst = mcastPacket ret q := by
    intro ret q r hq hdone
    rw [heq, hq]
    dsimp only [bind, Except.bind]
    rw [hdone]
    cases mcastPacket ret q with
    | error e => rfl
    | ok d => rfl
  have hrecv := lyPacketRecv_eq hr
  have hlen : (p.holding m t).pktBufReceived = t.length := rfl
  rw [hlen] at hrecv
  unfold decodeAlone
  by_cases h8 : t.length < sizeofLYPacketHeader
  · rw [if_pos h8] at hrecv ⊢
    rw [hpacket _ _ _ hrecv (recvDone_empties (.inl h8))]
    rfl
  · have hge : 8 ≤ t.length := by rw [hdr_eq] at h8; omega
    rw [if_neg h8, header_written hge] at hrecv
    rw [if_neg h8]
    by_cases hfull : toUInt32 (headerOf t).total ≤ t.length
    · rw [if_pos hfull] at hrecv ⊢
      obtain ⟨q, hq, hbuf, hsize, hgot, hhdr⟩ : ∃ q, lyPacketRecv (p.holding m t) 0 = .ok (1, q) ∧
          q.pktBuf = some ((m.write 0 t).write (headerOf t).total.toNat [0]) ∧
          q.pktBufSize = luoyunPacketSizeMax - 1 ∧ q.pktBufReceived = t.length ∧
          q.pktHeader = headerOf t := ⟨_, hrecv, rfl, hr.size, rfl, rfl⟩
      have hready' : Ready q ((m.write 0 t).write (headerOf t).total.toNat [0]) :=
        ⟨hbuf, hsize, hgot ▸ hmax⟩
      obtain ⟨r, hdone⟩ : ∃ r, lyPacketRecvDone q = .ok r := by
        rw [lyPacketRecvDone_eq hready' (hgot ▸ hge) (by rw [hhdr, hgot]; exact hfull)]
        split
        · exact ⟨_, rfl⟩
        · exact ⟨_, rfl⟩
      have htype : lyPacketType q = (headerOf t).type := by
        rw [lyPacketType, hbuf, hgot, hhdr]
        exact if_neg h8
      rw [hpacket _ _ _ hq hdone, mcastPacket, if_neg (by decide), if_neg (by decide), htype]
      by_cases hjoin : (headerOf t).type = PktType.joinRequest
      · have hstr : lyPacketString q = .ok (textOf t) := by
          rw [lyPacketString, hbuf]
          exact loadStr_packet hmax hge hjoin hfull hin
        have hbind : ∀ (text : Bytes) (f : Bytes → Res Decoded), (Except.ok text >>= f) = f text :=
          fun _ _ => rfl
        rw [if_pos hjoin, if_pos hjoin, hstr, hbind]
      · rw [if_neg hjoin, if_neg hjoin]
    · rw [if_neg hfull] at hrecv ⊢
      have hend : t.length ≤ toUInt32 (headerOf t).total := by omega
      rw [hpacket _ _ _ hrecv (recvDone_empties (.inr hend))]
      rfl

end

/-! ## A sequence of datagrams -/

/-- What is decoded from a datagram. -/
def McastNode.decodes (g : McastNode) (d : Datagram) : Res Decoded :=
  (lyEpollMcastRecv g d).map fun q => q.2.2

theorem decodes_eq (g : McastNode) (d : Datagram) :
    g.decodes d = (mcastDecode g.mfdPkt d.data).map Prod.fst := by
  unfold McastNode.decodes lyEpollMcastRecv
  cases mcastDecode g.mfdPkt d.data with
  | error e => rfl
  | ok q =>
    obtain ⟨decoded, p⟩ := q
    dsimp only [bind, Except.bind, Except.map]
    cases decoded with
    | noBuffer => rfl
    | partially => rfl
    | rejected => rfl
    | join ip port =>
      dsimp only
      split
      · rfl
      · rfl
      · split
        · rfl
        · split <;> rfl

theorem lyEpollMcastRecv_pkt {g g' : McastNode} {d : Datagram} {ret : Int} {decoded : Decoded}
    (h : lyEpollMcastRecv g d = .ok (g', ret, decoded)) :
    ∃ q, mcastDecode g.mfdPkt d.data = .ok q ∧ g'.mfdPkt = q.2 := by
  unfold lyEpollMcastRecv at h
  cases hq : mcastDecode g.mfdPkt d.data with
  | error e =>
    rw [hq] at h
    cases h
  | ok q =>
    refine ⟨q, rfl, ?_⟩
    rw [hq] at h
    dsimp only [bind, Except.bind] at h
    have hg := congrArg (fun x : McastNode × Int × Decoded => x.1.mfdPkt) (Except.ok.inj h)
    dsimp only at hg
    rw [← hg]
    split
    · rfl
    · rfl
    · rfl
    · split
      · rfl
      · rfl
      · split
        · rfl
        · split <;> rfl

/-- The buffer is empty after every datagram with nothing behind it. -/
theorem mcastRun_drained {g g' : McastNode} {ds : List Datagram} (h : Drained g.mfdPkt)
    (hclean : ∀ d ∈ ds, NothingBehind d.received) (hrun : mcastRun g ds = .ok g') :
    Drained g'.mfdPkt := by
  induction ds generalizing g with
  | nil =>
    obtain rfl := Except.ok.inj hrun
    exact h
  | cons d ds ih =>
    rw [mcastRun] at hrun
    cases hd : lyEpollMcastRecv g d with
    | error e =>
      rw [hd] at hrun
      cases hrun
    | ok q =>
      rw [hd] at hrun
      obtain ⟨⟨decoded, p'⟩, hdec, hpkt⟩ := lyEpollMcastRecv_pkt hd
      have hdrained := mcastDecode_next h (hclean d List.mem_cons_self) hdec
      exact ih (hpkt ▸ hdrained) (fun d' hd' => hclean d' (List.mem_cons_of_mem _ hd')) hrun

/-- **When the datagrams before it make no difference to a datagram.** -/
theorem mcast_independent {g g' : McastNode} {m m' : Mem} {ds : List Datagram} {d : Datagram}
    (h : g.mfdPkt = lyPacketInit m) (hclean : ∀ x ∈ ds, NothingBehind x.received)
    (hin : EndsInside d.received) (hrun : mcastRun g ds = .ok g') :
    g'.decodes d = McastNode.decodes { mfdPkt := lyPacketInit m' } d := by
  have hdrained : Drained g.mfdPkt := by
    rw [h]
    exact drained_init m
  rw [decodes_eq, decodes_eq, mcastDecode_decoded (mcastRun_drained hdrained hclean hrun) hin,
    mcastDecode_decoded (drained_init m') hin]

/-- A join request. -/
def joinDatagram : Datagram :=
  ⟨le32 PktType.joinRequest ++ le32 18 ++ cstr "join 10.0.0.1 1369", .absent⟩

/-- A join request without text, and a byte behind it. -/
def trailingDatagram : Datagram := ⟨le32 PktType.joinRequest ++ le32 0 ++ [1], .absent⟩

/-- A node that has just opened its multicast socket. -/
def McastNode.fresh : McastNode := { mfdPkt := lyPacketInit fun _ => 0 }

/-- A join request is decoded after another one. -/
theorem mcast_independent_join : ∃ g', mcastRun .fresh [joinDatagram] = .ok g' ∧
    g'.decodes joinDatagram = .ok (.join (cstr "10.0.0.1") 1369) := by
  have halone : McastNode.fresh.decodes joinDatagram = .ok (.join (cstr "10.0.0.1") 1369) := by
    decide +kernel
  have hok : (mcastRun .fresh [joinDatagram]).isOk = true := by decide +kernel
  have hclean : ∀ x ∈ [joinDatagram], NothingBehind x.received := by
    intro x hx
    obtain rfl := List.mem_singleton.mp hx
    right
    decide +kernel
  have hin : EndsInside joinDatagram.received := by
    intro _ _ _ hshort
    revert hshort
    decide +kernel
  cases hrun : mcastRun .fresh [joinDatagram] with
  | error e =>
    rw [hrun] at hok
    cases hok
  | ok g' =>
    refine ⟨g', rfl, ?_⟩
    exact (mcast_independent rfl hclean hin hrun).trans halone

/-- After a datagram with a byte behind it, a join request is not even complete. -/
theorem mcast_dependent : ¬ ∀ (ds : List Datagram) (d : Datagram) (g' : McastNode),
    mcastRun .fresh ds = .ok g' → g'.decodes d = McastNode.fresh.decodes d := by
  intro hall
  have hafter : ((mcastRun .fresh [trailingDatagram]).bind fun g => g.decodes joinDatagram) =
      .ok .partially := by
    decide +kernel
  have halone : McastNode.fresh.decodes joinDatagram = .ok (.join (cstr "10.0.0.1") 1369) := by
    decide +kernel
  cases hrun : mcastRun .fresh [trailingDatagram] with
  | error e =>
    rw [hrun] at hafter
    cases hafter
  | ok g' =>
    rw [hrun] at hafter
    have hbad := (hall [trailingDatagram] joinDatagram g' hrun).symm.trans hafter
    rw [halone] at hbad
    cases hbad

end LuoYun

import LuoYun.Proof.OwnPacket

/-!
# The receive path and what a peer may send

`ly_packet_recv` adds the header size to a signed length and compares the sum with the bytes
received as unsigned numbers. A length between -8 and -1 passes: the packet counts as complete, with
fewer than eight bytes. The handler then reads a text that nothing ends, and `ly_packet_recv_done`
takes fewer than eight bytes off the buffer, or none. `__print_recv_buf` reads eight bytes from
where the last `recv` began, however close to the end of the allocation that is.

A round that meets neither (`SoundRound`) keeps to the buffer (`rounded_robust`), and so does a run
of such rounds.
-/

namespace LuoYun

/-! ## Sound rounds -/

/-- The types that have a handler. -/
def Recognised (type : Int) : Prop :=
  ImpliesType type ∨ type = PktType.clcOsmQueryReply ∨
    PktType.entityGroup type = EntityType.clc.code ∨
    PktType.entityGroup type = EntityType.node.code ∨ type = PktType.osmReport ∨
      type = PktType.testEchoRequest

/-- The types of which a packet with a negative length is refused before its payload is looked at.
-/
def RefusedAtOnce (type : Int) : Prop :=
  type = PktType.webNewJobRequest ∨ type = PktType.osmReport ∨ ¬ Recognised type

/-- The header `h` is at the front of `n` bytes, and the packet counts as complete. -/
def TakenAsComplete (h : LYPacketHeader) (n : Nat) : Prop := -8 ≤ h.length ∧ h.length + 8 ≤ n

/-- What a round must find in the buffer, with the bytes just received counted; `buf` is where the
last `recv` began. -/
structure SoundRound (p : LYPacketRecv) (m : Mem) (buf : Nat) : Prop where
  /-- A packet that counts as complete has a length, or is refused. -/
  length : sizeofLYPacketHeader ≤ p.pktBufReceived → TakenAsComplete m.header p.pktBufReceived →
    0 ≤ m.header.length ∨ RefusedAtOnce m.header.type
  /-- An incomplete packet can be printed. -/
  print : 0 < p.pktBufReceived →
    ¬ (sizeofLYPacketHeader ≤ p.pktBufReceived ∧ TakenAsComplete m.header p.pktBufReceived) →
    buf + sizeofLYPacketHeader ≤ luoyunPacketSizeMax

/-- Every round of the run is sound. -/
def SoundStep (w : World) (ev : Event) : Prop :=
  match w.busy, ev with
  | some b, .round => ∀ p m, (w.clc.store.ents b.slot).pkt = some p → p.pktBuf = some m →
      SoundRound (p.counting b.len.toNat) m b.buf
  | _, _ => True

/-- The bytes in the buffer of the connection that the packet loop is in. -/
def World.pending (w : World) : Nat :=
  match w.busy with
  | none => 0
  | some b => ((w.clc.store.ents b.slot).pkt.map LYPacketRecv.pktBufReceived).getD 0 + b.len.toNat

theorem takenAsComplete_iff {m : Mem} {n : Nat} (hn : n ≤ luoyunPacketSizeMax) :
    TakenAsComplete m.header n ↔ toUInt32 m.header.total ≤ n := by
  obtain ⟨hlo, hhi⟩ := header_length_range m
  generalize m.header = h at *
  obtain ⟨type, length⟩ := h
  rw [max_eq] at hn
  unfold TakenAsComplete LYPacketHeader.total toInt32 toUInt32
  dsimp only at *
  rw [hdr_eq]
  omega

/-! ## The buffers of all slots -/

/-- A packet structure, if there is one, has its buffer, and no more than fits in it. -/
def SlotReady (s : Slot) : Prop := ∀ p, s.ent.pkt = some p → ∃ m, Ready p m

theorem SlotReady.of_pkt {s s' : Slot} (h : SlotReady s)
    (he : s'.ent.pkt = s.ent.pkt) : SlotReady s' := by
  intro p hp
  exact h p (he ▸ hp)

theorem slotAct_ready {R : Rules} (s s' : Slot) (h : SlotReady s)
    (ha : SlotAct R s s') : SlotReady s' := by
  cases ha with
  | mem e hist m hm =>
    intro p hp
    obtain ⟨p₀, hp₀, rfl⟩ := Option.map_eq_some_iff.mp hp
    obtain ⟨m₀, hr⟩ := h p₀ hp₀
    exact ⟨m, rfl, hr.size, hr.le⟩
  | verified e hist hs hq =>
    refine h.of_pkt ?_
    dsimp only
    split <;> rfl
  | init e hist type ht hl hty =>
    refine h.of_pkt ?_
    cases type <;> rfl
  | enable e hist d b he hlo hhi hq =>
    refine h.of_pkt ?_
    cases b <;> rfl
  | _ => exact h.of_pkt rfl

theorem does_ready {R : Rules} {i : Nat} {c c' : Clc} (h : Does R i c c')
    (hc : ∀ j, SlotReady (c.slot j)) :
    ∀ j, SlotReady (c'.slot j) :=
  h.inv (fun _ _ hI hprim => prim_slots slotAct_ready hI hprim) hc

theorem setPkt_ready {i : Nat} {c : Clc} {p : LYPacketRecv} {m : Mem} (hr : Ready p m)
    (hc : ∀ j, SlotReady (c.slot j)) : ∀ j, SlotReady ((c.setPkt i p).slot j) := by
  intro j
  by_cases hj : j = i
  · subst hj
    intro q hq
    have hpkt : ((c.setPkt j p).slot j).ent.pkt = some p := by
      simp [Clc.slot, Clc.setPkt, Clc.modifyEnt]
    obtain rfl := Option.some.inj (hpkt.symm.trans hq)
    exact ⟨m, hr⟩
  · refine (hc j).of_pkt ?_
    rw [Clc.slot, Clc.slot, Clc.setPkt, Clc.modifyEnt, EntityStore.modify_ents_ne _ _ hj]

/-- The packet structure of a new connection, in a slot that may have been used before. -/
theorem freshPkt_ready {e : LYEntity} {h : ConnHist} (he : SlotReady ⟨e, h⟩) (m : Mem) :
    ∃ m', Ready (e.freshPkt m) m' ∧ (e.freshPkt m).pktBufReceived = 0 := by
  unfold LYEntity.freshPkt
  cases hp : e.pkt with
  | none => exact ⟨m, ready_init m, rfl⟩
  | some p =>
    obtain ⟨m', hr⟩ := he p hp
    simp only [lyPacketReinit, hr.buf]
    exact ⟨m', ⟨rfl, hr.size, Nat.zero_le _⟩, trivial⟩

/-! ## The handlers -/

/-- The packet buffer is not left; nothing else is asked of the packets. -/
def robustRules : Rules where
  wild := False
  web := True
  live := False
  ordered := False
  strict := False
  quiet := False

theorem robust_packetOk {env : Env} {c : Clc} {i : Nat} {type size : Int}
    (htext : Terminated robustRules c i)
    (hsize : Bounded robustRules size) : PacketOk robustRules env c i type size where
  text := htext
  bounded := hsize
  live := fun _ hl => hl.elim
  typed := fun _ => trivial
  writes := fun _ => trivial
  web := fun _ => ⟨trivial, id⟩
  query := fun _ => id
  report := fun _ => ⟨fun _ _ _ _ _ => ⟨fun h => h.elim, fun h => h.elim⟩, id⟩
  reply := fun _ h => h.elim
  register := fun _ h => h.elim
  quiet := fun h => h.elim
  xml := fun h => h.elim
  unverified := fun h => h.elim
  registers := nodeRegistersOk_free env id id c type
  nodeAuth := fun _ ht => ht.elim
  osmTyped := fun ht => ht.elim

/-- A packet with a negative length that is refused at once ends the loop. -/
theorem handlePacket_refused (env : Env) (c : Clc) (i : Nat) {type size : Int} (hneg : size < 0)
    (href : RefusedAtOnce type) : ∃ c' ret, handlePacket env c i type size =
      .ok (c', ret) ∧ ret ≠ 0 := by
  have hsize : size ≠ 4 := by omega
  rcases href with rfl | rfl | hunknown
  · exact ⟨_, -1, if_pos hsize, by decide⟩
  · exact ⟨_, -1, if_pos hsize, by decide⟩
  · refine ⟨c, 1, ?_, by decide⟩
    unfold Recognised ImpliesType at hunknown
    push Not at hunknown
    unfold handlePacket
    obtain ⟨⟨h1, h2, h3, h4, h5, h6, h7⟩, h8, h9, h10, h11, h12⟩ := hunknown
    rw [if_neg h1, if_neg h2, if_neg (by simp [h3, h4]), if_neg (by simp [h5, h6]), if_neg h8,
      if_neg (by simp [h9, h10]), if_neg h7, if_neg h11, if_neg h12]

/-! ## One round -/

section

variable {env : Env} {c : Clc} {b : Busy} {p₀ p : LYPacketRecv} {m : Mem} {len : Nat}

/-- A round that finds no complete packet prints what it has, and the loop is left. -/
theorem rounded_incomplete {q : LYPacketRecv} (hp : (c.store.ents b.slot).pkt = some p₀)
    (hrecv : lyPacketRecv p₀ b.len = .ok (0, q)) {m' : Mem} (hbuf : q.pktBuf = some m')
    (hprint : 0 < q.pktBufReceived → b.buf + sizeofLYPacketHeader ≤ luoyunPacketSizeMax) :
    World.rounded env c b = .ok ⟨c.setPkt b.slot q, none⟩ := by
  have hround : packetRound env b.slot (c, b.len, b.buf) = .ok (.inr (c.setPkt b.slot q, 0)) := by
    simp only [packetRound, hp, hrecv, bind, Except.bind, lt_irrefl, if_false, if_true]
    by_cases hpos : 0 < q.pktBufReceived
    · rw [if_pos hpos, printRecvBuf]
      simp only [hbuf, Mem.load_ok (hprint hpos), bind, Except.bind]
    · rw [if_neg hpos]
  simp only [World.rounded, hround, lt_irrefl, if_false]

/-- What `ly_packet_recv_done` leaves of a complete packet fits in the buffer. -/
theorem recvDone_ready {q : LYPacketRecv} {m : Mem} (hr : Ready q m)
    (h8 : sizeofLYPacketHeader ≤ q.pktBufReceived)
    (ht : toUInt32 q.pktHeader.total ≤ q.pktBufReceived) :
    ∃ d m', lyPacketRecvDone q = .ok (0, d) ∧ Ready d m' ∧
      d.pktBufReceived = q.pktBufReceived - toUInt32 q.pktHeader.total := by
  have hle := hr.le
  rw [lyPacketRecvDone_eq hr h8 ht]
  by_cases hend : q.pktBufReceived ≤ toUInt32 q.pktHeader.total
  · rw [if_pos hend]
    exact ⟨_, m, rfl, ⟨hr.buf, hr.size, Nat.zero_le _⟩, by dsimp only; omega⟩
  · rw [if_neg hend]
    exact ⟨_, _, rfl, ⟨rfl, hr.size, Nat.le_trans (Nat.sub_le _ _) hle⟩, rfl⟩

/-- What a round must not do, and what it leaves. -/
structure RoundKept (n : Nat) (b : Busy) (x : Res World) : Prop where
  inside : x ≠ .error .pktBuf
  ready : ∀ w', x = .ok w' → ∀ j, SlotReady (w'.clc.slot j)
  removed : ∀ w' b', x = .ok w' → w'.busy = some b' → b' = ⟨b.slot, 0, sizeofLYPacketHeader⟩ ∧
    ∃ q, (w'.clc.store.ents b.slot).pkt = some q ∧ q.pktBufReceived + sizeofLYPacketHeader ≤ n

theorem roundKept_stop {n : Nat} {b : Busy} {c : Clc} (hc : ∀ j, SlotReady (c.slot j)) :
    RoundKept n b (.ok ⟨c, none⟩) where
  inside := fun h => nomatch h
  ready := by
    rintro w' hw
    obtain rfl := Except.ok.inj hw
    exact hc
  removed := by
    rintro w' b' hw hb
    obtain rfl := Except.ok.inj hw
    cases hb

/-- A complete packet is found, and ends with a zero. -/
theorem lyPacketRecv_found {h : LYPacketHeader} (hcount : p₀.counting len = p)
    (hr : Ready p m) (hhdr : m.header = h)
    (h8 : sizeofLYPacketHeader ≤ p.pktBufReceived) (ht : toUInt32 h.total ≤ p.pktBufReceived) :
    ∃ q m1, lyPacketRecv p₀ len = .ok (1, q) ∧ Ready q m1 ∧ q.pktHeader = h ∧
      q.pktBufReceived = p.pktBufReceived ∧ m1 (toUInt32 h.total) = 0 := by
  have hle := hr.le
  obtain ⟨-, hnat⟩ := total_nonneg (by omega) ht
  have hbuf : p₀.pktBuf = some m := by
    rw [← hr.buf, ← hcount]
    rfl
  have hsum : p₀.pktBufReceived + len = p.pktBufReceived := by
    rw [← hcount]
    rfl
  have hrecv : lyPacketRecv p₀ len = lyPacketRecv p 0 := by
    rw [lyPacketRecv_size hbuf (by omega), ← hcount]
    rfl
  rw [lyPacketRecv_eq hr, hhdr, if_neg (by omega), if_pos ht, hnat] at hrecv
  refine ⟨_, _, hrecv, ⟨rfl, hr.size, hr.le⟩, rfl, rfl, ?_⟩
  have := @Mem.write_getElem m (toUInt32 h.total) 0 [0] (by simp)
  simpa using this

/-- **A round with a complete packet.** -/
theorem rounded_complete {h : LYPacketHeader} (hi : b.slot < lyEntityMax)
    (hbufs : ∀ j, SlotReady (c.slot j))
    (hp : (c.store.ents b.slot).pkt = some p₀) (hlen : b.len = len)
    (hcount : p₀.counting len = p) (hr : Ready p m)
    (hhdr : m.header = h) (h8 : sizeofLYPacketHeader ≤ p.pktBufReceived)
    (ht : toUInt32 h.total ≤ p.pktBufReceived)
    (hsound : 0 ≤ h.length ∨ RefusedAtOnce h.type) :
    RoundKept p.pktBufReceived b (World.rounded env c b) := by
  have hle := hr.le
  obtain ⟨hlo, hhi⟩ := hhdr ▸ header_length_range m
  have htot : (toUInt32 h.total : Int) = h.length + 8 := total_complete (by omega) hlo hhi ht
  obtain ⟨q, m1, hrecv, hready, hqhdr, hrec, hzero⟩ := lyPacketRecv_found hcount hr hhdr h8 ht
  rw [← hlen] at hrecv
  have htype : lyPacketType q = h.type := by
    simp only [lyPacketType, hready.buf, hqhdr]
    rw [if_neg (by omega)]
  have hqpkt : ((c.setPkt b.slot q).store.ents b.slot).pkt = some q := by
    simp [Clc.setPkt, Clc.modifyEnt]
  have hround : packetRound env b.slot (c, b.len, b.buf) =
      (handlePacket env (c.setPkt b.slot q) b.slot h.type h.length >>= fun r =>
        roundEnd b.slot r.1 r.2) := by
    simp only [packetRound, hp, hrecv, bind, Except.bind, htype, hqhdr]
    rw [if_neg (by decide), if_neg (by decide)]
  have hqbufs := setPkt_ready (i := b.slot) hready hbufs
  cases hh : handlePacket env (c.setPkt b.slot q) b.slot h.type h.length with
  | error e =>
    have hresult : World.rounded env c b = .error e := by
      simp only [World.rounded, hround, hh, bind, Except.bind]
    rw [hresult]
    refine ⟨?_, (fun _ h => by cases h), (fun _ _ h => by cases h)⟩
    rintro hfault
    obtain rfl := Except.error.inj hfault
    by_cases hneg : h.length < 0
    · obtain ⟨c', ret, hok, -⟩ := handlePacket_refused env (c.setPkt b.slot q) b.slot hneg
        (hsound.resolve_left (by omega))
      rw [hh] at hok
      cases hok
    · -- the zero behind the packet ends the text
      have htext : Terminated robustRules (c.setPkt b.slot q) b.slot := by
        refine .inr fun m' hm' => ⟨toUInt32 h.total - sizeofLYPacketHeader, ?_⟩
        have hmem : (c.setPkt b.slot q).mem b.slot = .ok m1 := by simp [Clc.mem, hqpkt, hready.buf]
        obtain rfl := Except.ok.inj (hmem.symm.trans hm')
        rw [hdr_eq, max_eq] at *
        have hsum : 8 + (toUInt32 h.total - 8) = toUInt32 h.total := by omega
        rw [hsum]
        exact ⟨by omega, hzero⟩
      have hsize : Bounded robustRules h.length := by
        right
        rw [hdr_eq, max_eq] at *
        omega
      exact (handlePacket_sat hi env _ _ _ (robust_packetOk htext hsize)).of_error hh rfl
  | ok x =>
    obtain ⟨c1, ret⟩ := x
    obtain ⟨m2, hpkt2, -⟩ := handlePacket_bufferKept hi hh hqpkt hready.buf
    have hready2 : Ready { q with pktBuf := some m2 } m2 := ⟨rfl, hready.size, hready.le⟩
    obtain ⟨d, m3, hdone, hdready, hleft⟩ :=
      recvDone_ready hready2 (by dsimp only; omega) (by dsimp only; rw [hqhdr]; omega)
    dsimp only at hleft
    rw [hqhdr] at hleft
    have hdoes :=
      (handlePacket_sat hi env _ _ _ (frameRules_packetOk env _ b.slot h.type h.length)).of_ok hh
    have hbufs2 := setPkt_ready (i := b.slot) hdready (does_ready hdoes hqbufs)
    have hend : packetRound env b.slot (c, b.len, b.buf) =
        (if ret < 0 then .ok (.inr (c1.setPkt b.slot d, -1))
        else if 0 < ret then .ok (.inr (c1.setPkt b.slot d, ret))
        else .ok (.inl (c1.setPkt b.slot d, 0, sizeofLYPacketHeader))) := by
      simp only [hround, hh, bind, Except.bind, roundEnd, hpkt2, hdone]
    unfold World.rounded
    rw [hend]
    rcases Int.lt_trichotomy ret 0 with hlt | rfl | hgt
    · rw [if_pos hlt]
      exact roundKept_stop hbufs2
    · rw [if_neg (by decide), if_neg (by decide)]
      refine ⟨(fun h => by cases h), ?_, ?_⟩
      · intro w' hw
        obtain rfl := Except.ok.inj hw
        exact hbufs2
      · intro w' b' hw hb
        obtain rfl := Except.ok.inj hw
        obtain rfl := Option.some.inj hb
        refine ⟨rfl, d, by simp [Clc.setPkt, Clc.modifyEnt], ?_⟩
        -- a packet that is refused does not let the loop go on
        have hlength : 0 ≤ h.length := by
          by_contra hneg
          obtain ⟨c', ret, hok, hret⟩ := handlePacket_refused env (c.setPkt b.slot q) b.slot
            (Int.not_le.mp hneg) (hsound.resolve_left hneg)
          rw [hh] at hok
          exact hret (Prod.mk.inj (Except.ok.inj hok)).2.symm
        rw [hdr_eq]
        omega
    · rw [if_neg (by omega), if_pos hgt]
      dsimp only
      rw [if_pos hgt]
      exact roundKept_stop (does_ready (R := frameRules True) (release_does id _) hbufs2)

end

/-! ## Whole runs -/

/-- The buffers, and the packet loop: the bytes that it has not counted yet fit as well. -/
structure Receiving (w : World) : Prop where
  ready : ∀ j, SlotReady (w.clc.slot j)
  busy : ∀ b, w.busy = some b → b.slot < lyEntityMax ∧ ∃ p m len, b.len = (len : Nat) ∧
    (w.clc.store.ents b.slot).pkt = some p ∧ Ready (p.counting len) m

theorem receiving_idle {c : Clc} (h : ∀ j, SlotReady (c.slot j)) : Receiving ⟨c, none⟩ :=
  ⟨h, fun _ hb => nomatch hb⟩

/-- **One round.** -/
theorem rounded_robust (env : Env) {w : World} {b : Busy} (h : Receiving w) (hb : w.busy = some b)
    (hsound : SoundStep w .round) : RoundKept w.pending b (World.rounded env w.clc b) := by
  obtain ⟨hi, p, m, len, hlen, hp, hr⟩ := h.busy b hb
  have hbuf : p.pktBuf = some m := hr.buf
  have hle := hr.le
  have hround : SoundRound (p.counting len) m b.buf := by
    unfold SoundStep at hsound
    simp only [hb] at hsound
    have := hsound p m hp hbuf
    rwa [hlen, Int.toNat_natCast] at this
  have hpending : w.pending = (p.counting len).pktBufReceived := by
    simp [World.pending, hb, hp, hlen, LYPacketRecv.counting]
  have hrecv : lyPacketRecv p b.len = lyPacketRecv (p.counting len) 0 := by
    have hsum : (p.counting len).pktBufReceived = p.pktBufReceived + len := rfl
    rw [hlen, lyPacketRecv_size hbuf (by omega)]
    rfl
  rw [hpending]
  obtain ⟨hdr, hhdr⟩ : ∃ hdr, m.header = hdr := ⟨_, rfl⟩
  have htaken := takenAsComplete_iff (m := m) (n := (p.counting len).pktBufReceived) (by omega)
  obtain ⟨hlength, hprint⟩ := hround
  rw [hhdr] at htaken hlength hprint
  rw [lyPacketRecv_eq hr, hhdr] at hrecv
  by_cases h8 : (p.counting len).pktBufReceived < sizeofLYPacketHeader
  · rw [if_pos h8] at hrecv
    rw [rounded_incomplete hp hrecv hr.buf fun hpos => hprint hpos fun hc => absurd hc.1 (by omega)]
    exact roundKept_stop (setPkt_ready hr h.ready)
  · rw [if_neg h8] at hrecv
    by_cases ht : toUInt32 hdr.total ≤ (p.counting len).pktBufReceived
    · exact rounded_complete hi h.ready hp hlen rfl hr hhdr (by omega) ht
        (hlength (by omega) (htaken.mpr ht))
    · rw [if_neg ht] at hrecv
      have hready : Ready { p.counting len with pktHeader := hdr } m := ⟨hr.buf, hr.size, hr.le⟩
      rw [rounded_incomplete hp hrecv hready.buf fun hpos =>
        hprint hpos fun hc => ht (htaken.mp hc.2)]
      exact roundKept_stop (setPkt_ready hready h.ready)

/-- Bytes that fit in the free space of the buffer. -/
theorem recvInto_free {off room : Nat} {chunk : Bytes} {p : LYPacketRecv} {m : Mem} (hr : Ready p m)
    (hfree : lyPacketBuf p = some (off, room)) (hfits : chunk.length ≤ room) :
    ∃ m', recvInto p chunk = .ok { p with pktBuf := some m' } ∧
      Ready (LYPacketRecv.counting { p with pktBuf := some m' } chunk.length) m' := by
  have hroom : p.pktBufReceived < luoyunPacketSizeMax - 1 := by
    by_contra hfull
    have hnone : lyPacketBuf p = none := by
      simp only [lyPacketBuf, hr.buf, hr.size]
      rw [if_pos (by omega)]
    rw [hnone] at hfree
    cases hfree
  rw [lyPacketBuf_ready hr hroom] at hfree
  obtain ⟨-, rfl⟩ := Prod.mk.inj (Option.some.inj hfree)
  obtain ⟨m', hinto, hready, -⟩ := recvInto_ready hr chunk (by omega)
  exact ⟨m', hinto, hready⟩

/-- **One event.** -/
theorem receiving_step {env : Env} {w w' : World} {ev : Event} (h : Receiving w)
    (hsound : SoundStep w ev) (hn : w.step env ev = some (.ok w')) : Receiving w' := by
  rcases step_cases hn with ⟨b, rfl, hb, hr⟩ | ⟨hidle, hcase⟩
  · have hkept := rounded_robust env h hb hsound
    refine ⟨hkept.ready w' hr, fun b' hb' => ?_⟩
    obtain ⟨rfl, q, hq, -⟩ := hkept.removed w' b' hr hb'
    obtain ⟨m, hready⟩ := hkept.ready w' hr b.slot q hq
    exact ⟨(h.busy b hb).1, q, m, 0, rfl, hq, hready⟩
  · rcases hcase with ⟨fd, m, rfl, rfl⟩ | ⟨i, chunk, p, off, room, p', rfl, hrec, rfl⟩ |
      ⟨i, c, ret, rfl, hc, rfl⟩ | ⟨i, rfl, rfl⟩ | ⟨c, rfl, hc, rfl⟩ | ⟨db, io, rfl, rfl⟩
    · refine receiving_idle fun j => ?_
      rcases epollWorkRecv_cases w.clc fd m with he | ⟨i, -, -, -, -, -, -, hstore, -, -, -, hhist⟩
      · rw [he]
        exact h.ready j
      · by_cases hj : j = i
        · subst hj
          obtain ⟨m', hready, -⟩ := freshPkt_ready (h.ready j) m
          intro p hp
          rw [Clc.slot, hstore, EntityStore.set_ents_self] at hp
          obtain rfl := Option.some.inj hp
          exact ⟨m', hready⟩
        · refine (h.ready j).of_pkt ?_
          rw [Clc.slot, Clc.slot, hstore, EntityStore.set_ents_ne _ _ hj]
    · obtain ⟨m, hr⟩ := h.ready i p hrec.pkt
      obtain ⟨m', hinto, hready⟩ := recvInto_free hr hrec.free hrec.fits
      obtain rfl := Except.ok.inj (hrec.into.symm.trans hinto)
      refine ⟨setPkt_ready (m := m') ⟨rfl, hr.size, hr.le⟩ h.ready, fun b hb => ?_⟩
      obtain rfl := Option.some.inj hb
      exact ⟨hrec.slot, _, m', chunk.length, rfl, by simp [Clc.setPkt, Clc.modifyEnt], hready⟩
    · have hdoes := (entityClosed_sat (R := robustRules) (i := i) env id w.clc).of_ok hc
      exact receiving_idle (does_ready (hdoes.trans (release_does id c)) h.ready)
    · exact receiving_idle (does_ready (R := robustRules) (release_does id w.clc) h.ready)
    · have hdoes : Does robustRules 0 w.clc c := (jobDispatch_sat id env w.clc).of_ok hc
      exact receiving_idle (does_ready hdoes h.ready)
    · exact receiving_idle h.ready

/-- No event reads or writes outside of a packet buffer. -/
theorem step_inside (env : Env) {w : World} {ev : Event} (h : Receiving w)
    (hsound : SoundStep w ev) :
    w.step env ev ≠ some (.error .pktBuf) := by
  intro hfault
  obtain ⟨c, busy⟩ := w
  cases busy with
  | some b =>
    cases ev with
    | round => exact (rounded_robust env h rfl hsound).inside (Option.some.inj hfault)
    | _ => cases hfault
  | none =>
    cases ev with
    | recv i chunk =>
      have hfault : World.received c i chunk = some (.error .pktBuf) := hfault
      unfold World.received at hfault
      split at hfault
      · cases hfault
      · split at hfault
        · cases hfault
        · next p hp =>
          split at hfault
          · cases hfault
          · next off room hfree =>
            split at hfault
            · cases hfault
            · next hroom =>
              obtain ⟨m, hr⟩ := h.ready i p hp
              obtain ⟨m', hinto, -⟩ := recvInto_free hr hfree (Nat.not_lt.mp hroom)
              rw [hinto] at hfault
              cases hfault
    | closed i =>
      have hfault : World.ended env c i = some (.error .pktBuf) := hfault
      unfold World.ended at hfault
      split at hfault
      · cases hfault
      · have hsat := entityClosed_sat (R := robustRules) (i := i) env id c
        cases hc : entityClosed env c i with
        | ok r =>
          rw [hc] at hfault
          cases hfault
        | error e =>
          rw [hc] at hfault
          exact hsat.of_error hc (Except.error.inj (Option.some.inj hfault))
    | dispatch =>
      simp only [World.step] at hfault
      have hsat : Sat robustRules.May (Does robustRules 0 c) (jobDispatch env c) :=
        jobDispatch_sat id env c
      cases hc : jobDispatch env c with
      | ok r =>
        rw [hc] at hfault
        cases hfault
      | error e =>
        rw [hc] at hfault
        exact hsat.of_error hc (Except.error.inj (Option.some.inj hfault))
    | _ => cases hfault

theorem receiving_reachable {env : Env} {w : World}
    (h : Reachable env SoundStep w) : Receiving w := by
  refine Machine.Reach.inv h ?_ ?_
  · intro w hw
    obtain ⟨fd, m, hfd, hstore⟩ := hw.store
    refine ⟨fun j p hp => ?_, fun b hb => ?_⟩
    · rw [Clc.slot, hstore, listening_eq hfd] at hp
      by_cases hj : j = 0
      · subst hj
        rw [EntityStore.set_ents_self] at hp
        obtain rfl := Option.some.inj hp
        exact ⟨m, ready_init m⟩
      · rw [EntityStore.set_ents_ne _ _ hj] at hp
        cases hp
    · rw [hw.idle] at hb
      cases hb
  · intro w ev w' hI hQ hn
    exact receiving_step hI hQ (next_eq_ok.mp hn).1

/-! ## The packet loop -/

/-- `n` rounds of the packet loop, each of which lets it go on. -/
inductive Rounds (env : Env) : Nat → World → World → Prop where
  | none (w : World) : Rounds env 0 w w
  | one {n : Nat} {w w1 w2 : World} (h : Rounds env n w w1)
      (hn : w1.step env .round = some (.ok w2))
      (hbusy : w2.busy.isSome) : Rounds env (n + 1) w w2

/-- Every round of the packet loop that begins at `w` is sound. -/
def SoundLoop (env : Env) (w : World) : Prop := ∀ n w', Rounds env n w w' → SoundStep w' .round

/-- A round that goes on has removed a header. -/
theorem round_removes {env : Env} {w w' : World} (h : Receiving w) (hsound : SoundStep w .round)
    (hn : w.step env .round = some (.ok w')) (hbusy : w'.busy.isSome) :
    w'.pending + sizeofLYPacketHeader ≤ w.pending := by
  rcases step_cases hn with ⟨b, -, hb, hr⟩ | ⟨-, hcase⟩
  · obtain ⟨b', hb'⟩ := Option.isSome_iff_exists.mp hbusy
    obtain ⟨rfl, q, hq, hle⟩ := (rounded_robust env h hb hsound).removed w' b' hr hb'
    have hpending : w'.pending = q.pktBufReceived := by simp [World.pending, hb', hq]
    omega
  · rcases hcase with ⟨fd, m, he, -⟩ | ⟨i, chunk, p, off, room, p', he, -⟩ |
        ⟨i, c, ret, he, -⟩ | ⟨i, he, -⟩ |
      ⟨c, he, -⟩ | ⟨db, io, he, -⟩ <;> cases he

theorem Rounds.cons {env : Env} {n : Nat} {w w1 w2 : World} (hn : w.step env .round = some (.ok w1))
    (hbusy : w1.busy.isSome) (h : Rounds env n w1 w2) : Rounds env (n + 1) w w2 := by
  induction h with
  | none => exact .one (.none w) hn hbusy
  | one _ hn' hbusy' ih => exact .one (ih hn hbusy) hn' hbusy'

/-- **The loop comes to an end**: every round that goes on leaves fewer bytes. -/
theorem loop_terminates {env : Env} {w : World} {b : Busy} (h : Receiving w) (hb : w.busy = some b)
    (hsound : SoundLoop env w) :
    ∃ n, (Loop.run (packetRound env b.slot) n (w.clc, b.len, b.buf)).isSome := by
  let world : RoundState → World := fun s => ⟨s.1, some ⟨b.slot, s.2.1, s.2.2⟩⟩
  have hw : world (w.clc, b.len, b.buf) = w := by
    obtain ⟨c, busy⟩ := w
    obtain rfl : busy = some b := hb
    rfl
  refine ⟨w.pending + 1, Loop.run_isSome
    (I := fun s => Receiving (world s) ∧ SoundLoop env (world s))
    (μ := fun s => (world s).pending) ?_ (by rw [hw]; exact ⟨h, hsound⟩) (by rw [hw]; omega)⟩
  rintro s t ⟨hrec, hloop⟩ hround
  have hn : (world s).step env .round = some (.ok (world t)) := by
    simp only [world, World.step, World.rounded, hround]
  have hfirst := hloop 0 _ (.none _)
  have hremoved := round_removes hrec hfirst hn rfl
  refine ⟨⟨receiving_step hrec hfirst hn, fun n w' hr => hloop (n + 1) w' (hr.cons hn rfl)⟩, ?_⟩
  rw [hdr_eq] at hremoved
  omega

/-- What holds of the receive path in a state and of whatever happens next. -/
structure Robust (env : Env) (w : World) : Prop where
  /-- The stored bytes fit in the buffer. -/
  stored : ∀ i p, (w.clc.store.ents i).pkt = some p → p.pktBufReceived ≤ p.pktBufSize
  /-- The buffer is not left. -/
  inside : ∀ ev, SoundStep w ev → w.step env ev ≠ some (.error .pktBuf)
  /-- A round that goes on has removed a header. -/
  removes : ∀ w', SoundStep w .round → w.step env .round = some (.ok w') → w'.busy.isSome →
    w'.pending + sizeofLYPacketHeader ≤ w.pending
  /-- The packet loop comes to an end. -/
  terminates : ∀ b, w.busy = some b → SoundLoop env w →
    ∃ n, (Loop.run (packetRound env b.slot) n (w.clc, b.len, b.buf)).isSome

/-- **The receive path keeps to its buffers and comes to an end**, in every run whose rounds are
sound. -/
theorem receive_robust {env : Env} {w : World} (h : Reachable env SoundStep w) : Robust env w := by
  have hrec := receiving_reachable h
  refine ⟨?_, ?_, ?_, ?_⟩
  · intro i p hp
    obtain ⟨m, hr⟩ := hrec.ready i p hp
    rw [hr.size]
    exact hr.le
  · intro ev hsound
    exact step_inside env hrec hsound
  · intro w' hsound hn hbusy
    exact round_removes hrec hsound hn hbusy
  · intro b hb hsound
    exact loop_terminates hrec hb hsound

/-- The packet at the front of the buffer has a length, and the last `recv` began where a header
fits. -/
def soundTest (w : World) : Event → Bool
  | .round => w.busy.all fun b =>
    ((w.clc.store.ents b.slot).pkt.bind LYPacketRecv.pktBuf).all fun m =>
    decide (0 ≤ m.header.length) && decide (b.buf + sizeofLYPacketHeader ≤ luoyunPacketSizeMax)
  | _ => true

theorem soundTest_sound {w : World} {ev : Event} (h : soundTest w ev = true) : SoundStep w ev := by
  unfold SoundStep
  split
  · rename_i b hb
    intro p m hp hm
    unfold soundTest at h
    rw [hb, Option.all_some, hp, Option.bind_some, hm, Option.all_some, Bool.and_eq_true,
      decide_eq_true_eq, decide_eq_true_eq] at h
    exact ⟨fun _ _ => .inl h.1, fun _ _ => h.2⟩
  · trivial

/-- Somebody connects and sends an echo request. -/
def sendEcho : List Event :=
  [.accept 4 fun _ => 0, .recv 1 (packet PktType.testEchoRequest (cstr "ly"))]

/-- The round that answers it is sound, and so is the one after it. -/
theorem receive_robust_echo : ∃ w w',
    Machine.exec (World.next .plain) sendEcho (World.start {} []) = some w ∧
    w.pending = 10 ∧ Robust .plain w ∧ SoundStep w .round ∧ w.next .plain .round = some (.ok w') ∧
    w'.pending = 0 ∧ Robust .plain w' ∧ SoundStep w' .round := by
  have hsent : (Machine.execIf (World.next .plain) soundTest sendEcho (World.start {} [])).map
      (fun w =>
      (w.pending, soundTest w .round, (Machine.exec (World.next .plain) [.round] w).map fun w' =>
        (w'.pending, soundTest w' .round))) = some (10, true, some (0, true)) := by
    decide +kernel
  obtain ⟨w, hw, hs⟩ := Option.map_eq_some_iff.mp hsent
  simp only [Prod.mk.injEq, Option.map_eq_some_iff] at hs
  obtain ⟨hpending, hround, w', hw', hpending', hround'⟩ := hs
  have hreach : Reachable .plain SoundStep w :=
    .of_execIf (.of_init (start_boot {} [])) (fun _ _ => soundTest_sound) hw
  have hnext : w.next .plain .round = some (.ok w') := Machine.next_of_exec hw'
  exact ⟨w, w', Machine.exec_of_execIf hw, hpending, receive_robust hreach,
    soundTest_sound hround, hnext,
    hpending', receive_robust (hreach.step _ (soundTest_sound hround) hnext),
      soundTest_sound hround'⟩

/-! ## A packet of length -8 -/

/-- A reply to a query, for a job that there is not, with a length of -8. -/
def negativeReply : Bytes := le32 PktType.clcOsmQueryReply ++ le32 (-8) ++ cstr "999 1 1 x" ++ [0]

/-- Somebody connects and sends it. -/
def sendNegative : List Event := [.accept 4 fun _ => 0, .recv 1 negativeReply]

/-- The loop goes round and round: a round has removed nothing. -/
theorem receive_not_robust : ∃ w w', Reachable .plain (fun _ _ => True) w ∧
    w.next .plain .round = some (.ok w') ∧
    w'.busy.isSome ∧ ¬ w'.pending + sizeofLYPacketHeader ≤ w.pending := by
  have hsent : (Machine.exec (World.next .plain) sendNegative (World.start {} [])).map
      World.pending = some 18 := by
    decide +kernel
  have hround :
      (Machine.exec (World.next .plain) (sendNegative ++ [.round]) (World.start {} [])).map
      (fun w => (w.busy.isSome, w.pending)) = some (true, 18) := by
    decide +kernel
  obtain ⟨w, hw, hpending⟩ := Option.map_eq_some_iff.mp hsent
  obtain ⟨w', hw', hstate⟩ := Option.map_eq_some_iff.mp hround
  obtain ⟨hbusy, hpending'⟩ := Prod.mk.inj hstate
  rw [Machine.exec_append hw] at hw'
  refine ⟨w, w', .of_exec (.of_init (start_boot {} [])) (fun _ _ _ => trivial) hw,
    Machine.next_of_exec hw', hbusy, ?_⟩
  rw [hpending, hpending', hdr_eq]
  omega

end LuoYun

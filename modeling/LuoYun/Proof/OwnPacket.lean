import LuoYun.Util.PacketSpec
import LuoYun.Proof.DataType

/-!
# What a packet does to the packets behind it

The packets that have arrived in one piece lie behind one another in the buffer while the first of
them is handled. `ly_packet_recv` and `ly_packet_recv_done` take care of the one byte they overwrite
themselves. The authentication handlers decrypt and rewrite an `AuthInfo` in place, whatever length
the packet has declared: if it is shorter, they write into the packets behind it.
-/

namespace LuoYun

variable {i : Nat}

/-! ## Handlers and the packet buffer -/

/-- Any run; the buffer is written to if `auth` holds. -/
def frameRules (auth : Prop) : Rules where
  wild := True
  web := True
  live := False
  ordered := False
  strict := False
  quiet := False
  writes := auth

/-- Of the packet structure `p` with the memory `m`, at most the authentication data has changed,
and that only if `auth` holds. -/
def BufferKept (auth : Prop) (p : LYPacketRecv) (m : Mem) (e : LYEntity) : Prop :=
  ∃ m', e.pkt = some { p with pktBuf := some m' } ∧
    ∀ k, (auth → k < authDataOff ∨ authDataOff + luoyunAuthDataLen ≤ k) → m' k = m k

theorem BufferKept.of_pkt {auth : Prop} {p : LYPacketRecv} {m : Mem} {e e' : LYEntity}
    (h : BufferKept auth p m e) (he : e'.pkt = e.pkt) : BufferKept auth p m e' := by
  obtain ⟨m', hp, hm⟩ := h
  exact ⟨m', he.trans hp, hm⟩

theorem slotAct_bufferKept {auth : Prop} {p : LYPacketRecv} {m : Mem} {s s' : Slot}
    (ha : SlotAct (frameRules auth) s s') (h : BufferKept auth p m s.ent) :
    BufferKept auth p m s'.ent := by
  cases ha with
  | mem e hist m2 hm =>
    obtain ⟨hw, m1, hbuf, hout⟩ := hm
    obtain ⟨m', hp, hk⟩ := h
    have hpkt : e.pkt = some { p with pktBuf := some m' } := hp
    rw [hpkt] at hbuf
    obtain rfl : m' = m1 := Option.some.inj hbuf
    refine ⟨m2, ?_, fun k hq => ?_⟩
    · show e.pkt.map _ = _
      rw [hpkt]
      rfl
    · rw [hout k (hq hw)]
      exact hk k hq
  | verified e hist hs hq =>
    refine h.of_pkt ?_
    dsimp only
    split <;> rfl
  | init e hist type ht hl hty =>
    refine h.of_pkt ?_
    cases type <;> rfl
  | enable e hist d b he hlo hhi hq =>
    refine h.of_pkt ?_
    cases b <;> rfl
  | _ => exact h.of_pkt rfl

/-- **The frame of the handlers.** -/
theorem does_bufferKept {auth : Prop} {p : LYPacketRecv} {m : Mem} {c c' : Clc}
    (h : Does (frameRules auth) i c c') (hc : BufferKept auth p m (c.store.ents i)) :
    BufferKept auth p m (c'.store.ents i) := by
  refine h.inv (I := fun c => BufferKept auth p m (c.store.ents i)) ?_ hc
  intro a b ha hprim
  cases hprim with
  | outside hout hq =>
    rw [hout.store]
    exact ha
  | jobs hkeys hstore hhist hq =>
    rw [hstore]
    exact ha
  | insert hstore hhist hw hq =>
    rw [hstore]
    exact ha
  | slot j ht hact hq =>
    by_cases hj : i = j
    · subst hj
      exact slotAct_bufferKept hact ha
    · exact ha.of_pkt (congrArg (fun s : Slot => s.ent.pkt) (ht.others i hj))
  | displace j ht hrel hq =>
    by_cases hj : i = j
    · subst hj
      exact ha.of_pkt (congrArg (fun s : Slot => s.ent.pkt) hrel)
    · exact ha.of_pkt (congrArg (fun s : Slot => s.ent.pkt) (ht.others i hj))

theorem frameRules_packetOk (env : Env) (c : Clc) (i : Nat) (type size : Int) :
    PacketOk (frameRules (IsAuth type)) env c i type size where
  text := .inl trivial
  bounded := .inl trivial
  live := fun _ hl => hl.elim
  typed := fun _ => trivial
  writes := id
  web := fun _ => ⟨trivial, id⟩
  query := fun _ => id
  report := fun _ => ⟨fun _ _ _ _ _ => ⟨fun h => h.elim, fun h => h.elim⟩, id⟩
  reply := fun _ h => h.elim
  register := fun _ h => h.elim
  quiet := fun h => h.elim
  xml := fun h => h.elim
  unverified := fun h => h.elim
  registers := nodeRegistersOk_free env id id c type
  nodeAuth := fun _ ht => ht.elim
  osmTyped := fun ht => ht.elim

theorem handlePacket_bufferKept (hi : i < lyEntityMax) {env : Env}
    {c c' : Clc} {type size ret : Int}
    {p : LYPacketRecv} {m : Mem} (h : handlePacket env c i type size = .ok (c', ret))
    (hc : (c.store.ents i).pkt = some p) (hm : p.pktBuf = some m) :
    BufferKept (IsAuth type) p m (c'.store.ents i) := by
  have hd := (handlePacket_sat hi env c type size (frameRules_packetOk env c i type size)).of_ok h
  refine does_bufferKept hd ⟨m, ?_, fun _ _ => rfl⟩
  rw [hc, ← hm]

/-! ## One round -/

/-- The state after a round, whether the loop goes on or not. -/
def roundClc : RoundState ⊕ (Clc × Int) → Clc
  | .inl s => s.1
  | .inr r => r.1

/-- What `ly_packet_recv_done` leaves: everything behind the packet, if the handler has kept it. -/
theorem recvDone_rest {p : LYPacketRecv} {m m' : Mem} {h : LYPacketHeader} (hr : Ready p m)
    (h8 : sizeofLYPacketHeader ≤ p.pktBufReceived) (ht : toUInt32 h.total ≤ p.pktBufReceived)
    (hk : ∀ k, toUInt32 h.total < k → m' k = m k) :
    ∃ q' m'', lyPacketRecvDone ⟨h, p.pktBufSize, p.pktBufReceived, some m', m (toUInt32 h.total)⟩ =
        .ok (0, q') ∧ Ready q' m'' ∧ stored q' m'' = (stored p m).drop (toUInt32 h.total) := by
  have hle := hr.le
  obtain ⟨hnn, hnat⟩ := total_nonneg (by omega) ht
  have hready : Ready ⟨h, p.pktBufSize, p.pktBufReceived, some m', m (toUInt32 h.total)⟩ m' :=
    ⟨rfl, hr.size, hr.le⟩
  have hdone := lyPacketRecvDone_eq hready h8 ht
  dsimp only at hdone
  rw [hnat] at hdone
  generalize toUInt32 h.total = t at *
  by_cases hend : p.pktBufReceived ≤ t
  · rw [if_pos hend] at hdone
    refine ⟨_, m', hdone, ⟨rfl, hr.size, Nat.zero_le _⟩, ?_⟩
    rw [List.drop_of_length_le (by simpa using hend)]
    rfl
  · rw [if_neg hend] at hdone
    refine ⟨_, _, hdone, ⟨rfl, hr.size, ?_⟩, ?_⟩
    · exact le_trans (Nat.sub_le _ _) hle
    · -- the first byte is put back, the others are copied from where they were
      rw [stored, stored, drop_slice ht]
      refine Mem.slice_congr fun k hlt => ?_
      dsimp only at hlt
      rw [Nat.zero_add]
      cases k with
      | zero => rfl
      | succ k =>
        have hlen : k + 1 < (m'.slice t (p.pktBufReceived - t)).length := by
          rw [Mem.length_slice]
          exact hlt
        have hcopy := @Mem.write_getElem m' 0 (k + 1) (m'.slice t (p.pktBufReceived - t)) hlen
        rw [Nat.zero_add] at hcopy
        have hone : 0 + [m t].length ≤ k + 1 := by
          show 1 ≤ k + 1
          omega
        rw [Mem.write_of_ge hone, hcopy]
        simp only [Mem.slice, List.getElem_map, List.getElem_range]
        exact hk _ (by omega)

/-- The packet structure with the bytes just received counted. -/
def LYPacketRecv.counting (p : LYPacketRecv) (len : Nat) : LYPacketRecv :=
  { p with pktBufReceived := p.pktBufReceived + len }

/-- **One round.** The buffer begins with a complete packet; what is behind it is kept if the
handler does not reach there. -/
theorem packetRound_rest (hi : i < lyEntityMax) {env : Env} {c : Clc}
    {p₀ p : LYPacketRecv} {m : Mem}
    {h : LYPacketHeader} {len buf : Nat} {r : RoundState ⊕ (Clc × Int)}
    (hp : (c.store.ents i).pkt = some p₀) (hcount : p₀.counting len = p) (hr : Ready p m)
    (hhdr : m.header = h)
    (h8 : sizeofLYPacketHeader ≤ p.pktBufReceived) (ht : toUInt32 h.total ≤ p.pktBufReceived)
    (hlong : IsAuth h.type → authDataOff + luoyunAuthDataLen ≤ toUInt32 h.total + 1)
    (hround : packetRound env i (c, len, buf) = .ok r) :
    ∃ q m', ((roundClc r).store.ents i).pkt = some q ∧ Ready q m' ∧
      stored q m' = (stored p m).drop (toUInt32 h.total) := by
  have hle := hr.le
  obtain ⟨hnn, hnat⟩ := total_nonneg (by omega) ht
  have hrecv : lyPacketRecv p₀ len = lyPacketRecv p 0 := by
    have hbuf : p₀.pktBuf = some m := by
      rw [← hr.buf, ← hcount]
      rfl
    have hsum : p₀.pktBufReceived + len = p.pktBufReceived := by
      rw [← hcount]
      rfl
    rw [lyPacketRecv_size hbuf (by omega), ← hcount]
    rfl
  rw [lyPacketRecv_eq hr] at hrecv
  rw [hhdr, hnat, if_neg (by omega), if_pos ht, hr.size] at hrecv
  rw [packetRound, hp] at hround
  dsimp only at hround
  rw [hrecv] at hround
  dsimp only [bind, Except.bind] at hround
  rw [if_neg (by omega), if_neg (by omega)] at hround
  generalize hq :
    (⟨h, luoyunPacketSizeMax - 1, p.pktBufReceived, some (m.write (toUInt32 h.total) [0]),
    m (toUInt32 h.total)⟩ : LYPacketRecv) = q at hround
  have hqpkt : ((c.setPkt i q).store.ents i).pkt = some q := by simp [Clc.setPkt, Clc.modifyEnt]
  have hqbuf : q.pktBuf = some (m.write (toUInt32 h.total) [0]) := by rw [← hq]
  have hqtype : lyPacketType q = h.type := by
    rw [← hq, lyPacketType]
    dsimp only
    rw [if_neg (by omega)]
  cases hh : handlePacket env (c.setPkt i q) i (lyPacketType q) h.length with
  | error e =>
    rw [hh] at hround
    cases hround
  | ok x =>
    rw [hh] at hround
    obtain ⟨c1, ret⟩ := x
    obtain ⟨m1, hpkt1, hkept⟩ := handlePacket_bufferKept hi hh hqpkt hqbuf
    have hbehind : ∀ k, toUInt32 h.total < k → m1 k = m k := by
      intro k hk
      have hzero : toUInt32 h.total + [(0 : UInt8)].length ≤ k := hk
      rw [hkept k ?_, Mem.write_of_ge hzero]
      intro hauth
      rw [hqtype] at hauth
      exact .inr (le_trans (hlong hauth) hk)
    obtain ⟨q', m', hdone, hready, hrest⟩ := recvDone_rest hr h8 ht hbehind
    have hq1 : { q with pktBuf := some m1 } =
        (⟨h, p.pktBufSize, p.pktBufReceived, some m1, m (toUInt32 h.total)⟩ : LYPacketRecv) := by
      rw [← hq, hr.size]
    refine ⟨q', m', ?_, hready, hrest⟩
    have hset : ∀ c : Clc, ((c.setPkt i q').store.ents i).pkt = some q' := by
      intro c
      simp [Clc.setPkt, Clc.modifyEnt]
    dsimp only at hround
    rw [roundEnd, hpkt1, hq1] at hround
    dsimp only [bind, Except.bind] at hround
    rw [hdone] at hround
    dsimp only at hround
    split at hround
    · obtain rfl := Except.ok.inj hround
      exact hset _
    · split at hround
      · obtain rfl := Except.ok.inj hround
        exact hset _
      · obtain rfl := Except.ok.inj hround
        exact hset _

/-! ## Which packets keep the others -/

/-- Whatever the CLC is doing and whatever is in the buffer, with `len` bytes of it just received:
when a packet with this header has been processed, the bytes behind it are left, and nothing else.
-/
def KeepsRest (type length : Int) : Prop :=
  ∀ (env : Env) (c : Clc) (i : Nat) (p₀ p : LYPacketRecv) (m : Mem) (len buf : Nat)
    (r : RoundState ⊕ (Clc × Int)), i < lyEntityMax → (c.store.ents i).pkt = some p₀ →
    p₀.counting len = p → Ready p m → sizeofLYPacketHeader ≤ p.pktBufReceived →
    m.header = ⟨type, length⟩ → toUInt32 (LYPacketHeader.total ⟨type, length⟩) ≤ p.pktBufReceived →
    packetRound env i (c, len, buf) = .ok r →
      ∃ q m', ((roundClc r).store.ents i).pkt = some q ∧ Ready q m' ∧
        stored q m' = (stored p m).drop (toUInt32 (LYPacketHeader.total ⟨type, length⟩))

theorem header_length_range (m : Mem) : -2147483648 ≤ m.header.length ∧
    m.header.length < 2147483648 := by
  have hrange : ∀ x : Int, -2147483648 ≤ toInt32 x ∧ toInt32 x < 2147483648 := by
    intro x
    unfold toInt32
    omega
  have hint : ∀ bs : Bytes, -2147483648 ≤ int32Of bs ∧ int32Of bs < 2147483648 := by
    intro bs
    unfold int32Of
    exact hrange _
  exact hint _

/-- A complete packet has a length that is at least the negated header size. -/
theorem total_complete {type length : Int} {n : Nat} (hn : n ≤ luoyunPacketSizeMax)
    (hlo : -2147483648 ≤ length) (hhi : length < 2147483648)
    (ht : toUInt32 (LYPacketHeader.total ⟨type, length⟩) ≤ n) :
    (toUInt32 (LYPacketHeader.total ⟨type, length⟩) : Int) = length + 8 := by
  rw [max_eq] at hn
  unfold LYPacketHeader.total toInt32 toUInt32 at *
  dsimp only at *
  rw [hdr_eq] at *
  omega

/-- A packet without authentication data, or with all of it but the last byte, keeps the others. -/
theorem keepsRest_of_long {type length : Int}
    (h : IsAuth type → (sizeofAuthInfo : Int) ≤ length + 1 ∨ length < -8) :
    KeepsRest type length := by
  intro env c i p₀ p m len buf r hi hp hcount hr h8 hhdr ht hround
  have hle := hr.le
  obtain ⟨hlo, hhi⟩ : -2147483648 ≤ length ∧ length < 2147483648 := by
    have hrange := header_length_range m
    rw [hhdr] at hrange
    exact hrange
  have htot := total_complete (by omega) hlo hhi ht
  refine packetRound_rest hi hp hcount hr hhdr h8 ht ?_ hround
  intro hauth
  generalize toUInt32 (LYPacketHeader.total ⟨type, length⟩) = t at *
  have hoff : authDataOff + luoyunAuthDataLen = 52 := rfl
  have hsize : sizeofAuthInfo = 44 := rfl
  rw [hsize] at h
  rcases h hauth with hlong | hneg
  · omega
  · omega

/-- A buffer that begins with this header and holds 52 bytes, the last of which is 7. -/
def authMem (type length : Int) : Mem :=
  (Mem.write (fun _ => 0) 0 (le32 type ++ le32 length)).write 51 [7]

def authBuffer (type length : Int) : LYPacketRecv :=
  ⟨{}, luoyunPacketSizeMax - 1, 52, some (authMem type length), 0⟩

theorem authBuffer_received (type length : Int) :
    (authBuffer type length).pktBufReceived = 52 := rfl

theorem authBuffer_ready (type length : Int) :
    Ready (authBuffer type length) (authMem type length) := by
  refine ⟨rfl, rfl, ?_⟩
  rw [authBuffer_received, max_eq]
  omega

theorem authMem_last (type length : Int) : authMem type length 51 = 7 := by
  have hlast : 0 < ([7] : Bytes).length := Nat.one_pos
  exact Mem.write_getElem hlast

/-- A CLC on every connection of which such a buffer has arrived, after an authentication. -/
def authClc (type length : Int) : Clc where
  store.ents := fun _ =>
    { fd := 4
      id := 1
      auth := ⟨some (cstr "luoyun"), some (Env.plain.uuid 0)⟩
      type := if type = PktType.nodeAuthRequest ∨ type = PktType.nodeAuthReply then .node else .osm
      entity := if type = PktType.nodeAuthRequest ∨ type = PktType.nodeAuthReply
        then .node {} else .osm {}
      pkt := some (authBuffer type length) }

/-- A byte of the buffer after a round. -/
def byteAt (k : Nat) : Res (RoundState ⊕ (Clc × Int)) → Option UInt8
  | .ok r => (((roundClc r).store.ents 1).pkt.bind LYPacketRecv.pktBuf).map fun m => m k
  | .error _ => none

/-- Where the 7 has got to when the first packet has been processed. -/
def byteBehind (type length : Int) : Option UInt8 :=
  byteAt (43 - length).toNat (packetRound Env.keyed 1 (authClc type length, 0, 8))

theorem byteBehind_changed :
    ∀ type ∈ [PktType.nodeAuthRequest, PktType.nodeAuthReply, PktType.osmAuthRequest,
        PktType.osmAuthReply],
      ∀ l : Fin 51, (authMem type ((l : Nat) - 8 : Int)).header = ⟨type, (l : Nat) - 8⟩ ∧
        (byteBehind type ((l : Nat) - 8 : Int) = some 0 ∨
          byteBehind type ((l : Nat) - 8 : Int) = some 68) := by
  intro type ht
  simp only [List.mem_cons, List.not_mem_nil, or_false] at ht
  rcases ht with rfl | rfl | rfl | rfl
  all_goals decide +kernel

/-- The byte at the end of the buffer, where it has got to. -/
theorem byteAt_of_keepsRest {type length : Int} (h : KeepsRest type length)
    (hhdr : (authMem type length).header = ⟨type, length⟩) (hlo : -8 ≤ length) (hhi : length < 43)
    {x : Res (RoundState ⊕ (Clc × Int))}
    (hx : packetRound Env.keyed 1 (authClc type length, 0, 8) = x) :
    byteAt (43 - length).toNat x = none ∨ byteAt (43 - length).toNat x = some 7 := by
  have htot : toUInt32 (LYPacketHeader.total ⟨type, length⟩) = (length + 8).toNat := by
    unfold LYPacketHeader.total toInt32 toUInt32
    dsimp only
    rw [hdr_eq]
    omega
  have hrec := authBuffer_received type length
  have h8 := hdr_eq
  cases x with
  | error e => exact .inl rfl
  | ok r =>
    obtain ⟨q, m', hpkt, hready, hrest⟩ :=
      h Env.keyed (authClc type length) 1 (authBuffer type length)
      (authBuffer type length) (authMem type length) 0 8 r (by decide) rfl rfl
      (authBuffer_ready type length) (by omega) hhdr (by omega) hx
    have hlast := congrArg (fun bs : Bytes => bs[(43 - length).toNat]?) hrest
    have hidx : (length + 8).toNat + (43 - length).toNat = 51 := by omega
    rw [htot, List.getElem?_drop, stored, stored, Mem.getElem?_slice, Mem.getElem?_slice, hidx,
      if_pos (show 51 < (authBuffer type length).pktBufReceived by omega),
        Nat.zero_add, Nat.zero_add,
      authMem_last] at hlast
    right
    rw [byteAt, hpkt, Option.bind_some, hready.buf, Option.map_some]
    split at hlast
    · exact hlast
    · cases hlast

/-- Every shorter authentication packet is found to change a byte that is not its own. -/
theorem long_of_keepsRest {type length : Int} (h : KeepsRest type length) (hauth : IsAuth type) :
    (sizeofAuthInfo : Int) ≤ length + 1 ∨ length < -8 := by
  have hsize : (sizeofAuthInfo : Int) = 44 := rfl
  by_contra hshort
  rw [not_or, hsize] at hshort
  have hmem : type ∈
      [PktType.nodeAuthRequest, PktType.nodeAuthReply, PktType.osmAuthRequest,
        PktType.osmAuthReply] := by
    rcases hauth with rfl | rfl | rfl | rfl <;> decide
  obtain ⟨l, hl⟩ : ∃ l : Fin 51, length = (l : Nat) - 8 := ⟨⟨(length + 8).toNat, by omega⟩, by
    show length = ((length + 8).toNat : Int) - 8
    omega⟩
  obtain ⟨hhdr, hbyte⟩ := byteBehind_changed type hmem l
  rw [← hl] at hhdr hbyte
  have hseven := byteAt_of_keepsRest h hhdr (by omega) (by omega) rfl
  rw [byteBehind] at hbyte
  rcases hbyte with hb | hb <;> rw [hb] at hseven <;> exact absurd hseven (by decide)

/-- **Which packets keep the packets behind them**: all but authentication packets that are more
than one byte short. -/
theorem rest_kept_iff (type length : Int) :
    KeepsRest type length ↔ (IsAuth type → (sizeofAuthInfo : Int) ≤ length + 1 ∨ length < -8) :=
  ⟨fun h hauth => long_of_keepsRest h hauth, keepsRest_of_long⟩

/-- A node sends only its tag where the authentication data should be. -/
theorem rest_overwritten : ¬ ∀ type length : Int, KeepsRest type length := by
  intro hall
  have hlong := long_of_keepsRest (hall PktType.nodeAuthRequest 4) (.inl rfl)
  exact absurd hlong (by decide)

end LuoYun

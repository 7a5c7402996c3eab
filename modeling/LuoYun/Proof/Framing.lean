import LuoYun.Util.PacketSpec
import LuoYun.Lib.Loop

/-!
# Framing is lossless

`ly_packet_send` writes a header and a payload onto a byte stream; the network cuts the
stream wherever it likes. The receive loop of `ly_epoll_entity_recv` and
`ly_epoll_work_recv` appends each chunk, and while `ly_packet_recv` reports a complete packet
hands it to its handler and calls `ly_packet_recv_done`.

Here the loop is taken with a handler that only writes down what it sees: the type, the
payload and the byte behind the payload. The result is that what is written down depends
on the packets alone, not on the cuts.

The invariant between two chunks: the stored bytes and those still to come are the packets
not delivered yet, and the stored bytes do not reach to the end of the first of them. The
second half is what keeps the buffer from filling up, because a packet that was accepted
for sending is shorter than the buffer.
-/

namespace LuoYun

/-- A packet as its handler sees it. -/
structure Delivered where
  type : Int
  data : Bytes
  /-- The byte right behind the payload. -/
  behind : UInt8
  deriving DecidableEq, Repr

/-- Look at the packet `ly_packet_recv` has found. -/
def deliver (p : LYPacketRecv) : Res Delivered :=
  match p.pktBuf with
  | none => .error .nullDeref
  | some m => do
    let data ← m.load sizeofLYPacketHeader p.pktHeader.length.toNat
    let behind ← m.load (sizeofLYPacketHeader + p.pktHeader.length.toNat) 1
    .ok ⟨lyPacketType p, data, behind.headD 0⟩

/-- One round of the packet loop: the buffer, the bytes just received, the packets so far. -/
def deliverRound : LYPacketRecv × Int × List Delivered →
    Res ((LYPacketRecv × Int × List Delivered) ⊕ (LYPacketRecv × List Delivered))
  | (p, len, out) => do
    let (ret, p) ← lyPacketRecv p len
    if ret ≤ 0 then .ok (.inr (p, out))
    else
      let d ← deliver p
      let (_, p) ← lyPacketRecvDone p
      .ok (.inl (p, 0, out ++ [d]))

/-- Append one chunk and go round the packet loop, `n` times at most. -/
def recvChunk (n : Nat) (p : LYPacketRecv) (chunk : Bytes) :
    Option (Res (LYPacketRecv × List Delivered)) :=
  match recvInto p chunk with
  | .error e => some (.error e)
  | .ok p => Loop.run deliverRound n (p, chunk.length, [])

/-- Append the chunks one after the other. -/
def recvChunks (n : Nat) (p : LYPacketRecv) : List Bytes →
    Option (Res (LYPacketRecv × List Delivered))
  | [] => some (.ok (p, []))
  | chunk :: chunks =>
    match recvChunk n p chunk with
    | some (.ok (q, out)) =>
      match recvChunks n q chunks with
      | some (.ok (r, out')) => some (.ok (r, out ++ out'))
      | other => other
    | other => other

/-- Every chunk is non-empty and fits the free space `ly_packet_buf` reports when it arrives. -/
def FitsFree (n : Nat) (p : LYPacketRecv) (chunks : List Bytes) : Prop :=
  ∀ before chunk after, chunks = before ++ chunk :: after →
    chunk ≠ [] ∧ ∀ q out off size, recvChunks n p before = some (.ok (q, out)) →
      lyPacketBuf q = some (off, size) → chunk.length ≤ size

/-! ## One packet -/

/-- The bytes of a list of packets, one after the other. -/
def wires (pkts : List (Int × Bytes)) : Bytes := pkts.flatMap fun x => wire x.1 x.2

/-- The delivery of a packet by the book: its payload, and a zero byte behind it. -/
def delivery (x : Int × Bytes) : Delivered := ⟨x.1, x.2, 0⟩

theorem deliver_found {q : LYPacketRecv} {m : Mem} {type : Int} {data tail : Bytes}
    (h : Found q m type data tail) : deliver q = .ok ⟨type, data, 0⟩ := by
  have hwl := length_wire type data
  have hle := h.ready.le
  have hrec := h.received
  have hlen : q.pktHeader.length.toNat = data.length := by rw [h.header]; rfl
  have htype : lyPacketType q = type := by
    rw [lyPacketType, h.ready.buf]
    dsimp only
    rw [if_neg (by omega), h.header]
  have hpos : sizeofLYPacketHeader + data.length + 1 ≤ luoyunPacketSizeMax := by
    have := max_eq
    omega
  have hz : (m.slice (sizeofLYPacketHeader + data.length) 1).headD 0 = 0 := by
    have := h.zero
    rw [hwl] at this
    simp [Mem.slice, this]
  rw [deliver, h.ready.buf]
  dsimp only [bind, Except.bind]
  rw [hlen, Mem.load_ok (by omega), h.payload]
  dsimp only
  rw [Mem.load_ok hpos]
  dsimp only
  rw [hz, htype]

/-- **A round that finds a packet** delivers it and leaves exactly the bytes behind it. -/
theorem deliverRound_complete (out : List Delivered) {p : LYPacketRecv} {m : Mem} {x : Int × Bytes}
    {tail : Bytes} (h : Ready p m) (hs : Sendable x.1 x.2)
    (hp : stored p m = wire x.1 x.2 ++ tail) :
    ∃ q m', deliverRound (p, 0, out) = .ok (.inl (q, 0, out ++ [delivery x])) ∧ Ready q m'
      ∧ stored q m' = tail := by
  obtain ⟨q, m', hrecv, hf⟩ := lyPacketRecv_complete h hs hp
  obtain ⟨r, m'', hdone, hr, hst⟩ := lyPacketRecvDone_found hs hf fun _ _ => rfl
  have hself : { q with pktBuf := some m' } = q := by rw [← hf.ready.buf]
  rw [hself] at hdone
  refine ⟨r, m'', ?_, hr, hst⟩
  have h1 : ¬ (1 : Int) ≤ 0 := by omega
  rw [deliverRound, hrecv]
  dsimp only [bind, Except.bind]
  rw [if_neg h1, deliver_found hf]
  dsimp only
  rw [hdone]
  rfl

/-- **A round that finds none** leaves the stored bytes alone. -/
theorem deliverRound_partial (out : List Delivered) {p : LYPacketRecv} {m : Mem} {x : Int × Bytes}
    {rest more : Bytes} (h : Ready p m) (hs : Sendable x.1 x.2)
    (hp : stored p m ++ rest = wire x.1 x.2 ++ more)
    (hlt : p.pktBufReceived < (wire x.1 x.2).length) :
    ∃ q, deliverRound (p, 0, out) = .ok (.inr (q, out)) ∧ Ready q m
      ∧ q.pktBufReceived = p.pktBufReceived := by
  obtain ⟨q, hrecv, hq, hrec⟩ := lyPacketRecv_partial h hs hp hlt
  refine ⟨q, ?_, hq, hrec⟩
  rw [deliverRound, hrecv]
  rfl

theorem deliverRound_empty {p : LYPacketRecv} {m : Mem} {out : List Delivered} (h : Ready p m)
    (h0 : p.pktBufReceived = 0) : deliverRound (p, 0, out) = .ok (.inr (p, out)) := by
  rw [deliverRound, lyPacketRecv_empty h h0]
  rfl

/-! ## One chunk -/

/-- **Between chunks.** `rest` are the packets not delivered yet, `more` the bytes to come. -/
structure Between (p : LYPacketRecv) (rest : List (Int × Bytes)) (more : Bytes) : Prop where
  /-- The buffer is in use, and with the bytes to come it holds the undelivered packets. -/
  bytes : ∃ m, Ready p m ∧ stored p m ++ more = wires rest
  /-- The first of them is not complete. -/
  short : ∀ x xs, rest = x :: xs → p.pktBufReceived < (wire x.1 x.2).length
  /-- Nothing is stored when none is left. -/
  idle : rest = [] → p.pktBufReceived = 0

theorem append_eq_append_of_le {a b c d : Bytes} (h : a ++ b = c ++ d) (hle : c.length ≤ a.length) :
    ∃ t, a = c ++ t ∧ t ++ b = d := by
  refine ⟨a.drop c.length, ?_, ?_⟩
  · have := congrArg (List.take c.length) h
    rw [List.take_append_of_le_length hle, List.take_left' rfl] at this
    conv_lhs => rw [← List.take_append_drop c.length a, this]
  · have := congrArg (List.drop c.length) h
    rwa [List.drop_append_of_le_length hle, List.drop_left' rfl] at this

/-- **The packet loop on an honest stream** delivers every packet that is complete, in order,
and leaves the buffer between chunks. -/
theorem run_deliverRound {rest : List (Int × Bytes)} (hs : ∀ x ∈ rest, Sendable x.1 x.2)
    {p : LYPacketRecv} {m : Mem} {more : Bytes} {n : Nat} (out : List Delivered)
    (h : Ready p m) (hp : stored p m ++ more = wires rest) (hn : p.pktBufReceived < n) :
    ∃ q done left, rest = done ++ left ∧ Between q left more ∧
      Loop.run deliverRound n (p, 0, out) = some (.ok (q, out ++ done.map delivery)) := by
  induction rest generalizing p m out n with
  | nil =>
    have h0 : p.pktBufReceived = 0 := by
      have := congrArg List.length hp
      simp [wires] at this
      omega
    obtain ⟨n, rfl⟩ : ∃ k, n = k + 1 := ⟨n - 1, by omega⟩
    refine ⟨p, [], [], rfl, ⟨⟨m, h, hp⟩, by simp, fun _ => h0⟩, ?_⟩
    rw [Loop.run_stop (deliverRound_empty h h0)]
    simp
  | cons x xs ih =>
    have hx := hs x (by simp)
    obtain ⟨n, rfl⟩ : ∃ k, n = k + 1 := ⟨n - 1, by omega⟩
    have hp' : stored p m ++ more = wire x.1 x.2 ++ wires xs := by
      simpa [wires] using hp
    by_cases hlt : p.pktBufReceived < (wire x.1 x.2).length
    · obtain ⟨q, hround, hq, hrec⟩ := deliverRound_partial out h hx hp' hlt
      refine ⟨q, [], x :: xs, rfl, ⟨⟨m, hq, ?_⟩, ?_, by simp⟩, ?_⟩
      · rw [stored, hrec]; exact hp
      · rintro y ys ⟨⟩
        rw [hrec]; exact hlt
      · rw [Loop.run_stop hround]; simp
    · obtain ⟨t, ht, htm⟩ := append_eq_append_of_le hp' (by rw [length_stored]; omega)
      obtain ⟨q, m', hround, hq, hst⟩ := deliverRound_complete out h hx ht
      have hlen : q.pktBufReceived < n := by
        have h1 := congrArg List.length ht
        have h2 := congrArg List.length hst
        have h3 := hdr_eq
        simp only [length_stored, List.length_append, length_wire] at h1 h2
        omega
      obtain ⟨r, done, left, rfl, hb, hrun⟩ := ih (fun y hy => hs y (by simp [hy]))
        (out ++ [delivery x]) hq (by rw [hst]; exact htm) hlen
      refine ⟨r, x :: done, left, rfl, hb, ?_⟩
      rw [Loop.run_continue hround, hrun]
      simp

/-- The bytes just received may as well have been stored before the loop. -/
theorem run_deliverRound_size {p : LYPacketRecv} {m : Mem} (hb : p.pktBuf = some m) {size : Nat}
    (hle : p.pktBufReceived + size ≤ luoyunPacketSizeMax) (n : Nat) (out : List Delivered) :
    Loop.run deliverRound n (p, (size : Int), out)
      = Loop.run deliverRound n ({ p with pktBufReceived := p.pktBufReceived + size }, 0, out) := by
  cases n with
  | zero => rfl
  | succ n =>
    have hd : deliverRound (p, (size : Int), out)
        = deliverRound ({ p with pktBufReceived := p.pktBufReceived + size }, 0, out) := by
      rw [deliverRound, deliverRound, lyPacketRecv_size hb hle]
    rw [Loop.run, Loop.run, hd]

/-- Between chunks there is always room for another byte. -/
theorem Between.free {p : LYPacketRecv} {rest : List (Int × Bytes)} {more : Bytes}
    (hs : ∀ x ∈ rest, Sendable x.1 x.2) (h : Between p rest more) :
    lyPacketBuf p = some (p.pktBufReceived, luoyunPacketSizeMax - 1 - p.pktBufReceived) := by
  obtain ⟨m, hm, -⟩ := h.bytes
  refine lyPacketBuf_ready hm ?_
  have hmax := max_eq
  cases rest with
  | nil =>
    have := h.idle rfl
    omega
  | cons x xs =>
    have hfit := (hs x (by simp)).fits
    have := h.short x xs rfl
    rw [length_wire] at this
    omega

/-- **One chunk** delivers some of the packets and leaves the rest. -/
theorem recvChunk_between {rest : List (Int × Bytes)} (hs : ∀ x ∈ rest, Sendable x.1 x.2)
    {p : LYPacketRecv} {chunk more : Bytes} {n : Nat} (h : Between p rest (chunk ++ more))
    (hfit : chunk.length ≤ luoyunPacketSizeMax - 1 - p.pktBufReceived)
    (hn : luoyunPacketSizeMax ≤ n) :
    ∃ q done left, rest = done ++ left ∧ Between q left more ∧
      recvChunk n p chunk = some (.ok (q, done.map delivery)) := by
  obtain ⟨m, hm, hp⟩ := h.bytes
  have hle := hm.le
  have hmax := max_eq
  obtain ⟨m', hinto, hready, hbytes⟩ := recvInto_ready hm chunk (by omega)
  have hstored :
      stored { p with pktBuf := some m', pktBufReceived := p.pktBufReceived + chunk.length } m' ++
      more = wires rest := by
    rw [stored]
    dsimp only
    rw [hbytes, List.append_assoc]
    exact hp
  obtain ⟨q, done, left, hrest, hb, hrun⟩ := run_deliverRound (n := n) hs [] hready hstored
    (by dsimp only; omega)
  refine ⟨q, done, left, hrest, hb, ?_⟩
  rw [recvChunk, hinto]
  dsimp only
  rw [run_deliverRound_size rfl (by dsimp only; omega), hrun]
  rfl

/-! ## The whole stream -/

theorem recvChunks_cons {n : Nat} {p q r : LYPacketRecv} {chunk : Bytes} {chunks : List Bytes}
    {out out' : List Delivered} (h : recvChunk n p chunk = some (.ok (q, out)))
    (h' : recvChunks n q chunks = some (.ok (r, out'))) :
    recvChunks n p (chunk :: chunks) = some (.ok (r, out ++ out')) := by
  rw [recvChunks, h]
  dsimp only
  rw [h']

theorem FitsFree.tail {n : Nat} {p q : LYPacketRecv} {chunk : Bytes} {chunks : List Bytes}
    {out : List Delivered} (h : FitsFree n p (chunk :: chunks))
    (hc : recvChunk n p chunk = some (.ok (q, out))) : FitsFree n q chunks := by
  intro before c after he
  obtain ⟨hne, hfit⟩ := h (chunk :: before) c after (by rw [he]; rfl)
  exact ⟨hne, fun r out' off size hr hbuf => hfit r _ off size (recvChunks_cons hc hr) hbuf⟩

/-- **Any chunks of an honest stream.** What is left over are the bytes to come. -/
theorem recvChunks_between {chunks : List Bytes} {rest : List (Int × Bytes)}
    (hs : ∀ x ∈ rest, Sendable x.1 x.2) {p : LYPacketRecv} {more : Bytes} {n : Nat}
    (h : Between p rest (chunks.flatten ++ more)) (hfit : FitsFree n p chunks)
    (hn : luoyunPacketSizeMax ≤ n) :
    ∃ q done left, rest = done ++ left ∧ Between q left more ∧
      recvChunks n p chunks = some (.ok (q, done.map delivery)) := by
  induction chunks generalizing p rest with
  | nil => exact ⟨p, [], rest, rfl, h, rfl⟩
  | cons chunk chunks ih =>
    have hle := (hfit [] chunk chunks rfl).2 p [] _ _ rfl (h.free hs)
    rw [List.flatten_cons, List.append_assoc] at h
    obtain ⟨q, done, left, rfl, hb, hc⟩ := recvChunk_between hs h hle hn
    obtain ⟨r, done', left', rfl, hb', hcs⟩ :=
      ih (fun x hx => hs x (by simp [hx])) hb (hfit.tail hc)
    refine ⟨r, done ++ done', left', by simp, hb', ?_⟩
    rw [recvChunks_cons hc hcs, List.map_append]

theorem between_init (m : Mem) (pkts : List (Int × Bytes)) :
    Between (lyPacketInit m) pkts (wires pkts) where
  bytes := ⟨m, ready_init m, rfl⟩
  short := by
    intro x xs _
    rw [length_wire]
    have := hdr_eq
    show 0 < _
    omega
  idle := fun _ => rfl

/-- What `ly_packet_send` put on the wire, packet by packet. -/
theorem sendable_of_frames {fd : Int} (hfd : 0 ≤ fd) {pkts : List (Int × Bytes)}
    {frames : List Bytes} (hint : ∀ x ∈ pkts, IsInt32 x.1)
    (hsend : pkts.map (fun x => lyPacketFrame fd x.1 x.2) = frames.map .ok) :
    (∀ x ∈ pkts, Sendable x.1 x.2) ∧ frames.flatten = wires pkts := by
  induction pkts generalizing frames with
  | nil =>
    cases frames with
    | nil => exact ⟨by simp, rfl⟩
    | cons f fs => simp at hsend
  | cons x xs ih =>
    cases frames with
    | nil => simp at hsend
    | cons f fs =>
      simp only [List.map_cons, List.cons.injEq] at hsend
      obtain ⟨hsx, hf⟩ := (lyPacketFrame_ok_iff hfd (hint x (by simp)).2).mp hsend.1
      obtain ⟨hxs, hfs⟩ := ih (fun y hy => hint y (by simp [hy])) hsend.2
      refine ⟨?_, ?_⟩
      · intro y hy
        rcases List.mem_cons.mp hy with rfl | hy
        · exact hsx
        · exact hxs y hy
      · rw [List.flatten_cons, hf, hfs]
        simp [wires]

/-- **Framing round trip.** Whatever packets `ly_packet_send` accepts on a connection, and
however their bytes are cut into chunks that fit the free space, the receiver's loop delivers
exactly these packets in order, each with a zero byte behind its payload. The buffer is not
full after any of the chunks. -/
theorem recvChunks_round_trip (fd : Int) (pkts : List (Int × Bytes)) (frames : List Bytes)
    (m : Mem) (chunks : List Bytes) (n : Nat) (hfd : 0 ≤ fd) (hint : ∀ x ∈ pkts, IsInt32 x.1)
    (hsend : pkts.map (fun x => lyPacketFrame fd x.1 x.2) = frames.map .ok)
    (hcut : chunks.flatten = frames.flatten) (hfit : FitsFree n (lyPacketInit m) chunks)
    (hn : luoyunPacketSizeMax ≤ n) :
    (∃ q, recvChunks n (lyPacketInit m) chunks
        = some (.ok (q, pkts.map fun x => ⟨x.1, x.2, 0⟩))) ∧
      ∀ before after, chunks = before ++ after →
        ∃ q out off size, recvChunks n (lyPacketInit m) before = some (.ok (q, out)) ∧
          lyPacketBuf q = some (off, size) ∧ 0 < size := by
  obtain ⟨hs, hbytes⟩ := sendable_of_frames hfd hint hsend
  constructor
  · have hb := between_init m pkts
    rw [← hbytes, ← hcut, ← List.append_nil chunks.flatten] at hb
    obtain ⟨q, done, left, hsplit, hq, hrun⟩ := recvChunks_between hs hb hfit hn
    -- every byte has arrived, so no incomplete packet can be left
    have hleft : left = [] := by
      obtain ⟨mq, hmq, hst⟩ := hq.bytes
      cases left with
      | nil => rfl
      | cons x xs =>
        have hshort := hq.short x xs rfl
        have := congrArg List.length hst
        simp only [List.append_nil, length_stored, wires, List.flatMap_cons,
          List.length_append] at this
        omega
    subst hleft
    rw [List.append_nil] at hsplit
    rw [hsplit]
    exact ⟨q, hrun⟩
  · intro before after hc
    have hb := between_init m pkts
    rw [← hbytes, ← hcut, hc, List.flatten_append] at hb
    have hfit' : FitsFree n (lyPacketInit m) before := by
      intro b c a he
      exact hfit b c (a ++ after) (by rw [hc, he]; simp)
    obtain ⟨q, done, left, hsplit, hq, hrun⟩ := recvChunks_between hs hb hfit' hn
    have hsl : ∀ x ∈ left, Sendable x.1 x.2 := fun x hx => hs x (by rw [hsplit]; simp [hx])
    refine ⟨q, _, _, _, hrun, hq.free hsl, ?_⟩
    have hmax := max_eq
    obtain ⟨mq, hmq, -⟩ := hq.bytes
    cases left with
    | nil => have := hq.idle rfl; omega
    | cons x xs =>
      have h1 := hq.short x xs rfl
      have h2 := (hsl x (by simp)).fits
      rw [length_wire] at h1
      omega

/-- Two packets that arrive in one piece. -/
theorem recvChunks_round_trip_two :
    ∃ q, recvChunks luoyunPacketSizeMax (lyPacketInit fun _ => 0)
        [[133, 3, 0, 0, 2, 0, 0, 0, 104, 105, 17, 39, 0, 0, 1, 0, 0, 0, 7]]
      = some (.ok (q, [⟨901, [104, 105], 0⟩, ⟨10001, [7], 0⟩])) :=
  (recvChunks_round_trip 3 [(901, [104, 105]), (10001, [7])]
    [[133, 3, 0, 0, 2, 0, 0, 0, 104, 105], [17, 39, 0, 0, 1, 0, 0, 0, 7]] (fun _ => 0)
    [[133, 3, 0, 0, 2, 0, 0, 0, 104, 105, 17, 39, 0, 0, 1, 0, 0, 0, 7]] luoyunPacketSizeMax
    (by decide) (by simp [IsInt32]) (by decide) (by decide)
    (by
      intro before chunk after h
      obtain ⟨rfl, rfl, rfl⟩ : before = [] ∧ chunk = _ ∧ after = [] := by
        cases before with
        | nil =>
          obtain ⟨h1, h2⟩ := List.cons.inj h
          exact ⟨rfl, h1.symm, h2.symm⟩
        | cons b bs => simp at h
      refine ⟨by simp, fun q out off size hq hbuf => ?_⟩
      obtain ⟨rfl, -⟩ : lyPacketInit (fun _ => 0) = q ∧ [] = out := by
        simpa [recvChunks] using hq
      rw [lyPacketBuf_ready (ready_init _) (by decide)] at hbuf
      obtain ⟨-, rfl⟩ := Prod.mk.inj (Option.some.inj hbuf)
      decide)
    (Nat.le_refl _)).1

end LuoYun

import LuoYun.Proof.NonInterference
import LuoYun.Proof.Robust

/-!
# Authentication without the secret

Either party proves that it knows the secret by encrypting the other's challenge with it, and the
keystream starts anew on every call. The CLC answers the challenge of a peer before it sends its
own. So a peer asks for the encryption of zeros, which is the keystream, and has what it needs to
encrypt the challenge of the CLC (`replay`).

A strategy is a function of what the peer was sent. `Forges` is about one strategy and every
database in which a secret is stored for the tag: the strategy does not depend on it.
-/

namespace LuoYun

/-! ## The game -/

/-- Who the peer claims to be: a node, or the OS manager of an instance. -/
inductive Peer where
  | node
  | osm
  deriving DecidableEq, Repr

namespace Peer

def requestType : Peer → Int
  | node => PktType.nodeAuthRequest
  | osm => PktType.osmAuthRequest

def replyType : Peer → Int
  | node => PktType.nodeAuthReply
  | osm => PktType.osmAuthReply

/-- The type that the connection takes. -/
def entityType : Peer → EntityType
  | node => .node
  | osm => .osm

/-- The private data that a connection of this type begins with. -/
def entityData : Peer → EntityData
  | node => .node {}
  | osm => .osm {}

/-- The secret that is stored for a tag. -/
def secretOf : Peer → Db → Int → Option Bytes
  | node, db, tag =>
    match db.nodesById tag with
    | [r] => nonEmpty r.key
    | _ => none
  | osm, db, tag =>
    match db.instancesById tag with
    | [r] => (nonEmpty r.key).map keySecret
    | _ => none

end Peer

/-- What the peer on descriptor `fd` was sent, when `n` packets had been sent to anyone before. -/
def Clc.inbox (c : Clc) (n : Nat) (fd : Int) : List (Int × Bytes) :=
  ((c.io.sent.drop n).filter fun s => s.fd = fd).map fun s => (s.type, s.data)

/-- What a peer sends next, from what it was sent. -/
abbrev Strategy := List (Int × Bytes) → Bytes

/-- The CLC and a peer on the connection in slot `i` that follows the strategy; `n` packets had been
sent when the connection was accepted. -/
inductive Plays (env : Env) (strategy : Strategy) (i n : Nat) (c : Clc) : Clc → Prop where
  | start : Plays env strategy i n c c
  | move {c1 c2 : Clc} {fuel : Nat} (h : Plays env strategy i n c c1)
      (hin : epollIn env fuel c1 i (.data (strategy (c1.inbox n (c1.store.ents i).fd))) =
        some (.ok c2)) :
      Plays env strategy i n c c2

/-- With this strategy the connection in slot `i` comes to be authenticated, whatever secret is
stored for the tag. -/
def Forges (env : Env) (peer : Peer) (tag : Int) (c : Clc) (i : Nat) (strategy : Strategy) : Prop :=
  ∀ db secret, peer.secretOf db tag = some secret → (env.cipher secret).isSome →
    ∃ c', Plays env strategy i c.io.sent.length { c with db } c' ∧
      lyEntityIsAuthenticated c'.store i = true

/-- No strategy brings the connection to the status `AUTHENTICATED` for every secret. -/
def Unforgeable (env : Env) (peer : Peer) (tag : Int) (c : Clc) (i : Nat) : Prop :=
  ∀ strategy, ¬ Forges env peer tag c i strategy

/-- Nothing is in the buffer of the connection. -/
def Emptied (e : LYEntity) : Prop := ∃ p m, e.pkt = some p ∧ Ready p m ∧ p.pktBufReceived = 0

/-- A connection on which nothing has been received yet. -/
structure FreshConn (e : LYEntity) : Prop where
  fd : 0 ≤ e.fd
  type : e.type = .unknown
  auth : e.auth = {}
  flag : e.flag = 0
  pkt : Emptied e

/-- A connection that has been accepted is fresh. -/
theorem lyEntityNew_fresh {s : EntityStore} {fd : Int} {m : Mem} {i : Nat} {h : ConnHist}
    (hnew : (lyEntityNew s fd m).2 = i) (hbuf : SlotReady ⟨s.ents i, h⟩) :
    i < lyEntityMax ∧ FreshConn ((lyEntityNew s fd m).1.ents i) := by
  unfold lyEntityNew at hnew ⊢
  by_cases hfd : fd < 0
  · rw [if_pos hfd] at hnew
    exact absurd hnew (by omega)
  · rw [if_neg hfd] at hnew ⊢
    cases hfree : freeSlot s with
    | none =>
      simp only [hfree] at hnew
      exact absurd hnew (by omega)
    | some j =>
      simp only [hfree] at hnew ⊢
      by_cases hused : (s.ents j).entity ≠ .null ∨ (s.ents j).auth.challenge ≠ none ∨
        (s.ents j).auth.secret ≠ none
      · rw [if_pos hused] at hnew
        exact absurd hnew (by omega)
      · rw [if_neg hused] at hnew ⊢
        obtain rfl : j = i := Int.ofNat.inj hnew
        obtain ⟨m', hready, hzero⟩ := freshPkt_ready hbuf m
        simp only [not_or, not_not] at hused
        refine ⟨(freeSlot_some hfree).1, ?_⟩
        rw [EntityStore.set_ents_self]
        refine ⟨Int.not_lt.mp hfd, rfl, ?_, rfl, _, m', rfl, hready, hzero⟩
        show (s.ents j).auth = ⟨none, none⟩
        rw [← hused.2.1, ← hused.2.2]

theorem epollWorkRecv_store (c : Clc) (fd : Int) (m : Mem) :
    (epollWorkRecv c fd m).store = (lyEntityNew c.store fd m).1 := by
  unfold epollWorkRecv
  dsimp only
  cases slot? (lyEntityNew c.store fd m).2 <;> rfl

/-! ## The strategy -/

/-- The bytes of an `AuthInfo`. -/
def authInfo (tag : Int) (data : Bytes) : Bytes := le32 tag ++ data

/-- Zeros for the challenge of the peer. -/
def zeros : Bytes := List.replicate luoyunAuthDataLen 0

/-- Two texts, byte by byte. -/
def xorBytes (a b : Bytes) : Bytes := List.zipWith (· ^^^ ·) a b

/-- Ask for the encryption of zeros; what comes back is the keystream, and the CLC's own challenge
follows it. -/
def replay (peer : Peer) (tag : Int) : Strategy
  | [] => wire peer.requestType (authInfo tag zeros)
  | [(_, answer), (_, challenge)] =>
    wire peer.replyType (authInfo tag (xorBytes (challenge.drop 4) (answer.drop 4)))
  | _ => []

theorem xorBytes_xorFrom_zeros (ks : Nat → UInt8) (k : Nat) (bs : Bytes) :
    xorBytes bs (xorFrom ks k (List.replicate bs.length 0)) = xorFrom ks k bs := by
  induction bs generalizing k with
  | nil => rfl
  | cons b bs ih =>
    have htail := ih (k + 1)
    unfold xorBytes at htail ⊢
    rw [List.length_cons, List.replicate_succ, xorFrom, xorFrom, List.zipWith_cons_cons, htail,
      UInt8.zero_xor]

/-! ## One packet -/

variable {env : Env} {i : Nat}

theorem setPkt_setPkt (c : Clc) (i : Nat) (p q : LYPacketRecv) :
    (c.setPkt i p).setPkt i q = c.setPkt i q := by
  simp only [Clc.setPkt, Clc.modifyEnt, EntityStore.modify_modify]

@[simp] theorem setPkt_ents (c : Clc) (i : Nat) (p : LYPacketRecv) :
    (c.setPkt i p).store.ents i = { c.store.ents i with pkt := some p } := by
  simp [Clc.setPkt, Clc.modifyEnt]

/-- The payload of an authentication packet is as long as the handlers take it to be. -/
def WholeAuth (type : Int) (data : Bytes) : Prop := IsAuth type → sizeofAuthInfo ≤ data.length

/-- A packet that arrives in one piece on a connection with an empty buffer is handled, and leaves
the buffer empty. -/
theorem epollIn_packet (env : Env) (hi : i < lyEntityMax) {c : Clc} {p : LYPacketRecv} {m : Mem}
    {type : Int} {data : Bytes}
    (hfd : 0 ≤ (c.store.ents i).fd) (hp : (c.store.ents i).pkt = some p) (hr : Ready p m)
    (h0 : p.pktBufReceived = 0) (hs : Sendable type data) (hwhole : WholeAuth type data) :
    ∃ q m1, Found q m1 type data [] ∧
      ∀ c1, handlePacket env (c.setPkt i q) i type data.length = .ok (c1, 0) →
        ∃ q' m', epollIn env 2 c i (.data (wire type data)) =
          some (.ok (c1.setPkt i q')) ∧ Ready q' m' ∧
          q'.pktBufReceived = 0 := by
  have hfits := hs.fits
  have hlen := length_wire type data
  -- the bytes are received
  obtain ⟨m0, hinto, hready0, hslice⟩ :=
    recvInto_ready hr (wire type data) (by rw [h0, hlen]; omega)
  have hstored :
      stored
      { p with pktBuf := some m0, pktBufReceived := p.pktBufReceived + (wire type data).length }
      m0 =
      wire type data ++ [] := by
    have hnone : stored p m = [] := by simp [stored, h0, Mem.slice]
    rw [stored]
    dsimp only
    rw [hslice, hnone, List.append_nil]
    rfl
  obtain ⟨q, m1, hrecv, hfound⟩ := lyPacketRecv_complete hready0 hs hstored
  refine ⟨q, m1, hfound, ?_⟩
  intro c1 hhandle
  have hpkt1 : ((c.setPkt i q).store.ents i).pkt = some q := by simp
  obtain ⟨m2, hpkt2, hkept⟩ := handlePacket_bufferKept hi hhandle hpkt1 hfound.ready.buf
  have hbehind : ∀ k, (wire type data).length < k → m2 k = m1 k := by
    intro k hk
    refine hkept k fun hauth => .inr ?_
    have hle := hwhole hauth
    rw [hlen] at hk
    simp only [authDataOff, sizeofAuthInfo] at hle ⊢
    omega
  obtain ⟨q', m', hdone, hready', hempty⟩ := lyPacketRecvDone_found hs hfound hbehind
  have hq0 : q'.pktBufReceived = 0 := by
    have := congrArg List.length hempty
    simpa using this
  have hfirst : packetRound env i (c.setPkt i { p with pktBuf := some m0 },
    ((wire type data).length : Nat),
      p.pktBufReceived) = .ok (.inl (c1.setPkt i q', 0, sizeofLYPacketHeader)) := by
    have hsize : lyPacketRecv { p with pktBuf := some m0 } ((wire type data).length : Nat) =
      .ok (1, q) := by
      rw [lyPacketRecv_size rfl (by simp only; rw [h0, hlen]; omega)]
      exact hrecv
    have htype : lyPacketType q = type := by
      have hrec := hfound.received
      rw [hlen] at hrec
      simp only [lyPacketType, hfound.ready.buf, hfound.header]
      rw [if_neg (by omega)]
    simp only [packetRound, setPkt_ents, hsize, bind, Except.bind]
    rw [if_neg (by decide), if_neg (by decide), setPkt_setPkt, htype, hfound.header, hhandle]
    simp only [roundEnd, hpkt2, hdone, bind, Except.bind]
    rw [if_neg (by decide), if_neg (by decide)]
  have hsecond : packetRound env i (c1.setPkt i q', 0, sizeofLYPacketHeader) =
      .ok (.inr (c1.setPkt i q', 0)) := by
    have hnone : ¬ 0 < q'.pktBufReceived := by omega
    simp only [packetRound, setPkt_ents, lyPacketRecv_empty hready' hq0, bind, Except.bind,
      setPkt_setPkt]
    rw [if_neg (by decide), if_true, if_neg hnone]
  refine ⟨q', m', ?_, hready', hq0⟩
  have hroom : p.pktBufReceived < luoyunPacketSizeMax - 1 := by
    rw [h0]
    decide
  unfold epollIn lyEpollEntityRecv
  simp only [if_neg (Int.not_lt.mpr hfd), hp, lyPacketBuf_ready hr hroom, hinto]
  rw [Loop.run_continue hfirst, Loop.run_stop hsecond]
  rfl

/-! ## What the CLC answers -/

theorem lyPacketSend_works (hok : env.Works) (c : Clc) {fd type : Int} {data : Bytes} (hfd : 0 ≤ fd)
    (hs : Sendable type data) :
    lyPacketSend env c fd type data =
      ({ c with io := { tick := c.io.tick + 1, sent := c.io.sent ++ [⟨fd, type, data⟩] } }, 0) := by
  have hframe : lyPacketFrame fd type data = .ok (wire type data) :=
    (lyPacketFrame_ok_iff hfd hs.int32).mpr ⟨hs, rfl⟩
  simp [lyPacketSend, hframe, hok.sendmsg, SendResult.code]

theorem authInfo_sendable {type : Int} (h0 : 0 < type) (h1 : type < 2 ^ 31)
    (tag : Int) {data : Bytes}
    (hlen : data.length = luoyunAuthDataLen) : Sendable type (authInfo tag data) where
  pos := h0
  int32 := h1
  ne := by simp [authInfo, le32]
  fits := by
    have : luoyunAuthDataLen = 40 := rfl
    rw [authInfo, List.length_append, length_le32, hlen, max_eq, hdr_eq]
    omega

@[simp] theorem setMem_fd (c : Clc) (i : Nat) (m : Mem) :
    ((c.setMem i m).store.ents i).fd = (c.store.ents i).fd := by
  simp [Clc.setMem, Clc.modifyEnt]

/-- The `AuthInfo` in the buffer once its data has been overwritten. -/
theorem slice_authInfo {m : Mem} {tag : Int} {data : Bytes}
    (htag : m.slice sizeofLYPacketHeader 4 = le32 tag) (hlen : data.length = luoyunAuthDataLen) :
    (m.write authDataOff data).slice sizeofLYPacketHeader sizeofAuthInfo = authInfo tag data := by
  rw [sizeofAuthInfo, Mem.slice_add, Mem.slice_write_before (by decide), htag, ← hlen]
  exact congrArg (le32 tag ++ ·) (Mem.slice_write m authDataOff data)

/-- **The answer to a request**: the data of the peer under the keystream, and a challenge. -/
theorem authAnswer_works (hok : env.Works) (hi : i < lyEntityMax) (tag : Int) {c : Clc}
    {q : LYPacketRecv} {m : Mem}
    {secret data : Bytes} {ks : Nat → UInt8} {t replyType requestType : Int}
    (hpkt : (c.store.ents i).pkt = some q) (hbuf : q.pktBuf = some m)
    (hfd : 0 ≤ (c.store.ents i).fd)
    (hsecret : (c.store.ents i).auth.secret = some secret) (hks : env.cipher secret = some ks)
    (htag : m.slice sizeofLYPacketHeader 4 = le32 t)
    (hdata : m.slice authDataOff luoyunAuthDataLen = data)
    (hreply : 0 < replyType ∧ replyType < 2 ^ 31)
    (hrequest : 0 < requestType ∧ requestType < 2 ^ 31) :
    ∃ c1 challenge, authAnswer env c i replyType requestType tag = .ok (c1, 0) ∧
      c1.io.sent = c.io.sent ++ [⟨(c.store.ents i).fd, replyType, authInfo t (xorFrom ks 0 data)⟩,
        ⟨(c.store.ents i).fd, requestType, authInfo t (strncpy luoyunAuthDataLen challenge.text)⟩] ∧
      (c1.store.ents i).fd = (c.store.ents i).fd ∧ (c1.store.ents i).type = (c.store.ents i).type ∧
      (c1.store.ents i).auth = ⟨some secret, some challenge⟩ := by
  have hlen : data.length = luoyunAuthDataLen := by
    rw [← hdata]
    simp
  have hmem : c.mem i = .ok m := by simp [Clc.mem, hpkt, hbuf]
  have hload : ∀ m : Mem, m.load sizeofLYPacketHeader sizeofAuthInfo =
      .ok (m.slice sizeofLYPacketHeader sizeofAuthInfo) := fun m => Mem.load_ok (by decide)
  have hanswer : (xorFrom ks 0 data).length = luoyunAuthDataLen := by rw [length_xorFrom, hlen]
  have hstore : ∀ (m : Mem) {bs : Bytes}, bs.length = luoyunAuthDataLen →
      m.store authDataOff bs = .ok (m.write authDataOff bs) := by
    intro m bs hbs
    refine Mem.store_ok ?_
    rw [hbs]
    decide
  have hfirst := slice_authInfo htag hanswer
  have htag1 : (m.write authDataOff (xorFrom ks 0 data)).slice sizeofLYPacketHeader 4 = le32 t := by
    rw [Mem.slice_write_before (by decide), htag]
  unfold authAnswer
  simp only [hmem, bind, Except.bind]
  rw [Mem.load_ok (by decide), hdata]
  simp only [lyauthAnswer, hsecret, lyauthCrypt, hks, Option.map_some]
  rw [hstore m hanswer]
  simp only [hload, hfirst, setMem_fd]
  rw [lyPacketSend_works hok _ hfd (authInfo_sendable hreply.1 hreply.2 t hanswer)]
  simp only [lt_irrefl, if_false]
  generalize env.uuid _ = challenge
  have hch : (strncpy luoyunAuthDataLen challenge.text).length = luoyunAuthDataLen :=
    length_strncpy _ _
  rw [hstore _ hch]
  simp only [slice_authInfo htag1 hch]
  rw [lyPacketSend_works hok _ hfd (authInfo_sendable hrequest.1 hrequest.2 t hch)]
  simp only [lt_irrefl, if_false]
  refine ⟨_, challenge, rfl, ?_, ?_⟩
  · exact List.append_assoc c.io.sent [_] [_]
  · rw [update_ents_self hi (by decide)]
    simp [LYEntity.claiming, LYEntity.withStatus, Clc.setMem, Clc.modifyEnt, Clc.called, hsecret]

/-- **A reply that is right.** -/
theorem authVerify_works (hi : i < lyEntityMax) {c : Clc} {q : LYPacketRecv}
    {m : Mem} {secret : Bytes}
    {challenge : Uuid} {ks : Nat → UInt8} (hpkt : (c.store.ents i).pkt = some q)
    (hbuf : q.pktBuf = some m)
    (hauth : (c.store.ents i).auth = ⟨some secret, some challenge⟩)
    (hks : env.cipher secret = some ks)
    (hdata : m.slice authDataOff luoyunAuthDataLen =
      xorFrom ks 0 (strncpy luoyunAuthDataLen challenge.text)) :
    ∃ c1, authVerify env c i = .ok (c1, 0) ∧ lyEntityIsAuthenticated c1.store i = true := by
  have hmem : c.mem i = .ok m := by simp [Clc.mem, hpkt, hbuf]
  have hverify : lyauthVerify env.cipher (c.store.ents i).auth
      (m.slice authDataOff luoyunAuthDataLen) =
      (1, strncpy luoyunAuthDataLen challenge.text) := by
    simp [lyauthVerify, lyauthAnswer, lyauthCrypt, hauth, hks, hdata, xorFrom_xorFrom,
      strcaseEq_strncpy]
  have hstore : m.store authDataOff (strncpy luoyunAuthDataLen challenge.text) =
      .ok (m.write authDataOff (strncpy luoyunAuthDataLen challenge.text)) := by
    refine Mem.store_ok ?_
    rw [length_strncpy]
    decide
  unfold authVerify
  simp only [hmem, bind, Except.bind]
  rw [Mem.load_ok (by decide)]
  simp only [hverify, hstore]
  rw [if_neg (by decide), if_neg (by decide)]
  split
  · next h => exact ⟨_, rfl, h⟩
  · refine ⟨_, rfl, ?_⟩
    rw [lyEntityIsAuthenticated, lyEntityIs, slot?_natCast hi]
    dsimp only
    rw [update_ents_self hi (by decide), status_claiming,
      status_withStatus _ (by decide) (by decide)]
    rfl

theorem init_fresh (hi : i < lyEntityMax) {c : Clc}
    (htype : (c.store.ents i).type = .unknown) (peer : Peer) :
    (c.init i peer.entityType).store.ents i =
        { c.store.ents i with type := peer.entityType, entity := peer.entityData } ∧
      (c.init i peer.entityType).db = c.db ∧ (c.init i peer.entityType).io = c.io := by
  cases peer <;>
    simp [Clc.init, lyEntityInit, slot?_natCast hi, htype, Clc.withStore, Peer.entityType,
      Peer.entityData]

/-- **The first packet.** The secret is looked up for the tag that the peer has claimed. -/
theorem handlePacket_request (hok : env.Works) (hi : i < lyEntityMax) (peer : Peer)
    {c : Clc} {q : LYPacketRecv}
    {m : Mem} {tag : Int} {secret data : Bytes} {ks : Nat → UInt8} {size : Int}
    (hpkt : (c.store.ents i).pkt = some q) (hbuf : q.pktBuf = some m)
    (hfd : 0 ≤ (c.store.ents i).fd)
    (htype : (c.store.ents i).type = .unknown) (hauth : (c.store.ents i).auth = {})
    (htag : m.slice sizeofLYPacketHeader 4 = le32 tag) (hint : IsInt32 tag)
    (hdata : m.slice authDataOff luoyunAuthDataLen = data)
    (hsecret : peer.secretOf c.db tag = some secret) (hks : env.cipher secret = some ks) :
    ∃ c1 challenge, handlePacket env c i peer.requestType size = .ok (c1, 0) ∧
      c1.io.sent = c.io.sent ++
        [⟨(c.store.ents i).fd, peer.replyType, authInfo tag (xorFrom ks 0 data)⟩,
        ⟨(c.store.ents i).fd, peer.requestType,
          authInfo tag (strncpy luoyunAuthDataLen challenge.text)⟩] ∧
      (c1.store.ents i).fd = (c.store.ents i).fd ∧ (c1.store.ents i).type ≠ .unknown ∧
      (c1.store.ents i).auth = ⟨some secret, some challenge⟩ := by
  obtain ⟨hent, hdb, hio⟩ := init_fresh hi htype peer
  have htagRead : authTag (c.init i peer.entityType) i = .ok tag := by
    have hmem : (c.init i peer.entityType).mem i = .ok m := by simp [Clc.mem, hent, hpkt, hbuf]
    have hread : int32Of (m.slice sizeofLYPacketHeader 4) = tag := by
      rw [htag]
      simpa using int32Of_le32 hint []
    simp only [authTag, hmem, bind, Except.bind]
    rw [Mem.load_ok (by decide)]
    exact congrArg Except.ok hread
  -- what the two kinds of peer share: the answer, once the secret is kept
  have hanswer : ∀ {c0 : Clc} {t : Int} {e : LYEntity},
      c0.io.sent = c.io.sent → c0.store.ents i = e →
      e.pkt = some q → e.fd = (c.store.ents i).fd → e.type ≠ .unknown →
        e.auth = ⟨some secret, none⟩ →
      ∃ c1 challenge, authAnswer env c0 i peer.replyType peer.requestType t = .ok (c1, 0) ∧
        c1.io.sent = c.io.sent ++
          [⟨(c.store.ents i).fd, peer.replyType, authInfo tag (xorFrom ks 0 data)⟩,
          ⟨(c.store.ents i).fd, peer.requestType,
            authInfo tag (strncpy luoyunAuthDataLen challenge.text)⟩] ∧
        (c1.store.ents i).fd = (c.store.ents i).fd ∧ (c1.store.ents i).type ≠ .unknown ∧
        (c1.store.ents i).auth = ⟨some secret, some challenge⟩ := by
    rintro c0 t e hsent rfl hp hf ht ha
    have hreply : 0 < peer.replyType ∧ peer.replyType < 2 ^ 31 := by cases peer <;> decide
    have hrequest : 0 < peer.requestType ∧ peer.requestType < 2 ^ 31 := by cases peer <;> decide
    obtain ⟨c1, challenge, hrun, hsent1, hfd1, htype1, hauth1⟩ := authAnswer_works hok hi t hp hbuf
      (hf ▸ hfd) (by rw [ha]) hks htag hdata hreply hrequest
    refine ⟨c1, challenge, hrun, ?_, hfd1.trans hf, htype1 ▸ ht, hauth1⟩
    rw [hsent1, hsent, hf]
  cases peer with
  | node =>
    simp only [Peer.entityType, Peer.entityData] at hent hdb hio htagRead
    have hpacket : handlePacket env c i Peer.node.requestType size =
        nodeAuthRequest env (c.init i .node) i := rfl
    obtain ⟨r, hrow, hkey⟩ : ∃ r, c.db.nodesById tag = [r] ∧ nonEmpty r.key = some secret := by
      unfold Peer.secretOf at hsecret
      dsimp only at hsecret
      split at hsecret
      · next r hr => exact ⟨r, hr, hsecret⟩
      · cases hsecret
    have hfind : dbNodeFindSecret env (c.init i .node) tag =
        ((c.init i .node).called, r.id, some secret) := by
      have hpos := r.id_pos
      have hrow' : (c.init i .node).db.nodesById tag = [r] := by rw [hdb, hrow]
      simp [dbNodeFindSecret, dbSelect, hok.ok .dbSelect, hrow', hkey, Int.not_le.mpr hpos]
    rw [hpacket, nodeAuthRequest]
    simp only [htagRead, hent, nodeAuthSecret, hauth, hfind, ne_eq, not_true, if_false,
      if_neg (Int.not_le.mpr r.id_pos), dbNodeUpdateStatus, dbExec, hok.ok .dbExec, if_true,
      lt_irrefl]
    have hkept : ∀ c0 : Clc, c0.store =
        ((((c.init i .node).called.keepSecret i tag (some secret)).setNode i
          (LYNodeData.withTag {} tag))).store → c0.store.ents i =
        { c.store.ents i with
          type := .node
          entity := .node (LYNodeData.withTag {} tag)
          auth := ⟨some secret, none⟩ } := by
      intro c0 hc0
      rw [hc0]
      simp [Clc.setNode, Clc.keepSecret, Clc.modifyEnt, hent, hauth]
    have hsent := congrArg Io.sent hio
    exact hanswer hsent (hkept _ rfl) hpkt rfl (fun h => by cases h) rfl
  | osm =>
    simp only [Peer.entityType, Peer.entityData] at hent hdb hio htagRead
    have hpacket : handlePacket env c i Peer.osm.requestType size =
        osmAuthRequest env (c.init i .osm) i := rfl
    obtain ⟨r, hrow, hkey⟩ : ∃ r, c.db.instancesById tag = [r] ∧
        (nonEmpty r.key).map keySecret = some secret := by
      unfold Peer.secretOf at hsecret
      dsimp only at hsecret
      split at hsecret
      · next r hr => exact ⟨r, hr, hsecret⟩
      · cases hsecret
    have hfind : dbInstanceFindSecret env (c.init i .osm) tag =
        ((c.init i .osm).called, 1, some secret) := by
      have hrow' : (c.init i .osm).db.instancesById tag = [r] := by rw [hdb, hrow]
      simp [dbInstanceFindSecret, dbSelect, hok.ok .dbSelect, hrow', hkey]
    rw [hpacket, osmAuthRequest]
    simp only [htagRead, hent, osmAuthSecret, hauth, hfind, ne_eq, not_true, if_false]
    have hkept : ∀ c0 : Clc, c0.store =
        ((((c.init i .osm).called.keepSecret i tag (some secret)).setOsm i { tag })).store →
        c0.store.ents i =
        { c.store.ents i with
          type := .osm
          entity := .osm { tag }
          auth := ⟨some secret, none⟩ } := by
      intro c0 hc0
      rw [hc0]
      simp [Clc.setOsm, Clc.keepSecret, Clc.modifyEnt, hent, hauth]
    rw [if_neg (by decide)]
    have hsent := congrArg Io.sent hio
    exact hanswer hsent (hkept _ rfl) hpkt rfl (fun h => by cases h) rfl

/-- **The second packet.** -/
theorem handlePacket_reply (env : Env) (hi : i < lyEntityMax) (peer : Peer) {c : Clc}
    {q : LYPacketRecv} {m : Mem}
    {secret : Bytes} {challenge : Uuid} {ks : Nat → UInt8} {size : Int}
    (hpkt : (c.store.ents i).pkt = some q)
    (hbuf : q.pktBuf = some m) (htype : (c.store.ents i).type ≠ .unknown)
    (hauth : (c.store.ents i).auth = ⟨some secret, some challenge⟩)
    (hks : env.cipher secret = some ks)
    (hdata : m.slice authDataOff luoyunAuthDataLen =
      xorFrom ks 0 (strncpy luoyunAuthDataLen challenge.text)) :
    ∃ c1, handlePacket env c i peer.replyType size = .ok (c1, 0) ∧
      lyEntityIsAuthenticated c1.store i = true := by
  have hinit : ∀ type, c.init i type = c := by
    intro type
    simp [Clc.init, lyEntityInit, slot?_natCast hi, htype, Clc.withStore]
  have hpacket : handlePacket env c i peer.replyType size = authVerify env c i := by
    cases peer with
    | node =>
      show authVerify env (c.init i .node) i = _
      rw [hinit]
    | osm =>
      show authVerify env (c.init i .osm) i = _
      rw [hinit]
  rw [hpacket]
  exact authVerify_works hi hpkt hbuf hauth hks hdata

/-- The tag and the data of an authentication packet, in the buffer. -/
theorem found_authInfo {q : LYPacketRecv} {m : Mem} {type tag : Int} {data : Bytes}
    (hlen : data.length = luoyunAuthDataLen) (h : Found q m type (authInfo tag data) []) :
    m.slice sizeofLYPacketHeader 4 = le32 tag ∧ m.slice authDataOff luoyunAuthDataLen = data := by
  have hpayload := h.payload
  have hsize : (authInfo tag data).length = 4 + luoyunAuthDataLen := by
    rw [authInfo, List.length_append, length_le32, hlen]
  rw [hsize, Mem.slice_add] at hpayload
  exact List.append_inj hpayload (by simp)

theorem authInfo_whole (type tag : Int) {data : Bytes} (hlen : data.length = luoyunAuthDataLen) :
    WholeAuth type (authInfo tag data) := by
  intro _
  rw [authInfo, List.length_append, length_le32, hlen]
  rfl

/-- The first move: the keystream comes back, and a challenge. -/
theorem epollIn_request (hok : env.Works) (hi : i < lyEntityMax) (peer : Peer)
    {tag : Int} (hint : IsInt32 tag)
    {c : Clc} {secret : Bytes} {ks : Nat → UInt8} (hfresh : FreshConn (c.store.ents i))
    (hsecret : peer.secretOf c.db tag = some secret) (hks : env.cipher secret = some ks) :
    ∃ c1 challenge, epollIn env 2 c i (.data (wire peer.requestType (authInfo tag zeros))) =
      some (.ok c1) ∧
      c1.io.sent = c.io.sent ++
        [⟨(c.store.ents i).fd, peer.replyType, authInfo tag (xorFrom ks 0 zeros)⟩,
        ⟨(c.store.ents i).fd, peer.requestType,
          authInfo tag (strncpy luoyunAuthDataLen challenge.text)⟩] ∧
      (c1.store.ents i).fd = (c.store.ents i).fd ∧ (c1.store.ents i).type ≠ .unknown ∧
      (c1.store.ents i).auth = ⟨some secret, some challenge⟩ ∧ Emptied (c1.store.ents i) := by
  obtain ⟨p, m, hp, hr, h0⟩ := hfresh.pkt
  have htype : 0 < peer.requestType ∧ peer.requestType < 2 ^ 31 := by cases peer <;> decide
  have hzeros : zeros.length = luoyunAuthDataLen := by simp [zeros]
  obtain ⟨q, m1, hfound, hdone⟩ := epollIn_packet env hi hfresh.fd hp hr h0
    (authInfo_sendable htype.1 htype.2 tag hzeros) (authInfo_whole peer.requestType tag hzeros)
  obtain ⟨htag, hdata⟩ := found_authInfo hzeros hfound
  have hent := setPkt_ents c i q
  obtain ⟨c1, challenge, hrun, hsent, hfd1, htype1, hauth1⟩ := handlePacket_request hok hi peer
    (c := c.setPkt i q) (by rw [hent]) hfound.ready.buf (by rw [hent]; exact hfresh.fd)
    (by rw [hent]; exact hfresh.type) (by rw [hent]; exact hfresh.auth) htag hint hdata hsecret hks
  obtain ⟨q1, m2, hin, hr1, h1⟩ := hdone c1 hrun
  rw [hent] at hsent hfd1
  refine ⟨c1.setPkt i q1, challenge, hin, hsent, ?_⟩
  rw [setPkt_ents]
  exact ⟨hfd1, htype1, hauth1, q1, m2, rfl, hr1, h1⟩

/-- The second move: the challenge under the keystream. -/
theorem epollIn_reply (env : Env) (hi : i < lyEntityMax) (peer : Peer) (tag : Int)
    {c : Clc} {secret : Bytes}
    {challenge : Uuid} {ks : Nat → UInt8} (hfd : 0 ≤ (c.store.ents i).fd)
    (htype : (c.store.ents i).type ≠ .unknown)
    (hauth : (c.store.ents i).auth = ⟨some secret, some challenge⟩)
    (hpkt : Emptied (c.store.ents i)) (hks : env.cipher secret = some ks) :
    ∃ c1, epollIn env 2 c i (.data (wire peer.replyType (authInfo tag
        (xorFrom ks 0 (strncpy luoyunAuthDataLen challenge.text))))) = some (.ok c1) ∧
      lyEntityIsAuthenticated c1.store i = true := by
  obtain ⟨p, m, hp, hr, h0⟩ := hpkt
  have hrange : 0 < peer.replyType ∧ peer.replyType < 2 ^ 31 := by cases peer <;> decide
  have hlen : (xorFrom ks 0 (strncpy luoyunAuthDataLen challenge.text)).length =
      luoyunAuthDataLen := by
    rw [length_xorFrom, length_strncpy]
  obtain ⟨q, m1, hfound, hdone⟩ := epollIn_packet env hi hfd hp hr h0
    (authInfo_sendable hrange.1 hrange.2 tag hlen) (authInfo_whole peer.replyType tag hlen)
  obtain ⟨-, hdata⟩ := found_authInfo hlen hfound
  have hent := setPkt_ents c i q
  obtain ⟨c1, hrun, hstatus⟩ := handlePacket_reply env hi peer (c := c.setPkt i q) (by rw [hent])
    hfound.ready.buf (by rw [hent]; exact htype) (by rw [hent]; exact hauth) hks hdata
  obtain ⟨q1, m2, hin, -, -⟩ := hdone c1 hrun
  refine ⟨c1.setPkt i q1, hin, ?_⟩
  rw [lyEntityIsAuthenticated, lyEntityIs, slot?_natCast hi] at hstatus ⊢
  dsimp only at hstatus ⊢
  rw [setPkt_ents]
  exact hstatus

/-- **The strategy works**, on every fresh connection and for every tag. -/
theorem replay_forges (hok : env.Works) (hi : i < lyEntityMax) (peer : Peer) {tag : Int}
    (hint : IsInt32 tag) {c : Clc}
    (hfresh : FreshConn (c.store.ents i)) : Forges env peer tag c i (replay peer tag) := by
  intro db secret hsecret hcipher
  obtain ⟨ks, hks⟩ := Option.isSome_iff_exists.mp hcipher
  obtain ⟨c1, challenge, hin1, hsent, hfd1, htype1, hauth1, hpkt1⟩ :=
    epollIn_request hok hi peer hint (c := { c with db }) hfresh hsecret hks
  obtain ⟨c2, hin2, hstatus⟩ :=
    epollIn_reply env hi peer tag (hfd1 ▸ hfresh.fd) htype1 hauth1 hpkt1 hks
  -- what the peer knows before each of its moves
  have hstart : replay peer tag (({ c with db } : Clc).inbox c.io.sent.length (c.store.ents i).fd) =
      wire peer.requestType (authInfo tag zeros) := by
    simp [Clc.inbox, replay]
  have hinbox : c1.inbox c.io.sent.length (c1.store.ents i).fd =
      [(peer.replyType, authInfo tag (xorFrom ks 0 zeros)),
        (peer.requestType, authInfo tag (strncpy luoyunAuthDataLen challenge.text))] := by
    rw [Clc.inbox, hsent, List.drop_left' rfl, hfd1]
    simp
  have hmove : replay peer tag (c1.inbox c.io.sent.length (c1.store.ents i).fd) =
      wire peer.replyType
        (authInfo tag (xorFrom ks 0 (strncpy luoyunAuthDataLen challenge.text))) := by
    have hdrop : ∀ bs, (authInfo tag bs).drop 4 = bs := fun bs => List.drop_left' (by simp)
    have hks0 := xorBytes_xorFrom_zeros ks 0 (strncpy luoyunAuthDataLen challenge.text)
    rw [length_strncpy] at hks0
    rw [hinbox, replay, hdrop, hdrop, zeros, hks0]
  exact ⟨c2, .move (.move .start (hstart ▸ hin1)) (hmove ▸ hin2), hstatus⟩

/-- **Authentication can be forged**: as long as the calls of the CLC succeed, on no connection and
for no tag is there a secret that has to be known. -/
theorem not_unforgeable (hok : env.Works) (hi : i < lyEntityMax) (peer : Peer)
    {tag : Int} (hint : IsInt32 tag)
    {c : Clc} (hfresh : FreshConn (c.store.ents i)) : ¬ Unforgeable env peer tag c i := by
  intro h
  exact h (replay peer tag) (replay_forges hok hi peer hint hfresh)

theorem keyed_works : Env.keyed.Works := ⟨fun _ _ => rfl, fun _ => rfl⟩

/-- The connection in slot 1 of a CLC that has just been started. -/
theorem newConnection_fresh (db : Db) : FreshConn ((newConnection db).clc.store.ents 1) := by
  have hstart : (World.start db []).clc.store = .listening 3 fun _ =>
      0 := by simp only [World.start]
  have hnew : (lyEntityNew (.listening 3 fun _ => 0) 4 fun _ => 0).2 =
      (1 : Nat) := by decide +kernel
  have hnone : ((EntityStore.listening 3 fun _ => 0).ents 1).pkt.isNone := by decide +kernel
  have hsane : SlotReady ⟨(EntityStore.listening 3 fun _ => 0).ents 1, {}⟩ := by
    intro p hp
    rw [hp] at hnone
    cases hnone
  rw [newConnection, epollWorkRecv_store, hstart]
  exact (lyEntityNew_fresh hnew hsane).2

/-- Somebody who does not know the secret of node 1 is taken for it. -/
theorem unforgeable_fails : Peer.node.secretOf oneNodeRow 1 = some (cstr "luoyun") ∧
    (Env.keyed.cipher (cstr "luoyun")).isSome ∧
      ¬ Unforgeable .keyed .node 1 (newConnection oneNodeRow).clc 1 := by
  refine ⟨rfl, rfl, fun h => h (replay .node 1) ?_⟩
  exact replay_forges keyed_works (by decide) .node (by unfold IsInt32; decide)
    (newConnection_fresh oneNodeRow)

theorem not_unforgeable_osm : FreshConn ((newConnection {}).clc.store.ents 1) ∧
    ¬ Unforgeable .keyed .osm 7 (newConnection {}).clc 1 :=
  ⟨newConnection_fresh {}, not_unforgeable keyed_works (by decide) .osm (by unfold IsInt32; decide)
    (newConnection_fresh {})⟩

end LuoYun

import LuoYun.Lib.Duplex
import LuoYun.Proof.Answers
import LuoYun.Proof.Forge
import LuoYun.Proof.Requests
import LuoYun.Proof.Traffic

/-!
# The controller's side of the handshake

The controller takes the packets of a node one after the other and answers on the same connection.
Here is what it does with the packets of a node that knows its secret: it answers the challenge and
sends its own, it accepts the answer, and it registers the node.

A packet may release other connections that hold the same database id, and otherwise touches only
the slot that it came in on (`OnlySlot`). So a node whose address no other registered connection has
(`Vacant`) is not turned away.
-/

namespace LuoYun

/-! ## The entity store -/

/-- Only slot `i` has changed, but other connections may be gone. -/
structure OnlySlot (i : Nat) (s s' : EntityStore) : Prop where
  list : ∀ j ∈ s'.nodeList, j ∈ s.nodeList ∨ j = i
  others : ∀ j ∈ s'.nodeList, j ≠ i → s'.ents j = s.ents j
  id : (s'.ents i).id = (s.ents i).id

namespace OnlySlot

variable {i : Nat} {s s' s'' : EntityStore}

theorem refl (i : Nat) (s : EntityStore) : OnlySlot i s s :=
  ⟨fun _ h => .inl h, fun _ _ _ => rfl, rfl⟩

theorem trans (h : OnlySlot i s s') (h' : OnlySlot i s' s'') : OnlySlot i s s'' := by
  refine ⟨fun j hj => ?_, fun j hj hne => ?_, h'.id.trans h.id⟩
  · rcases h'.list j hj with hj' | rfl
    · exact h.list j hj'
    · exact .inr rfl
  · have hj' := (h'.list j hj).resolve_right hne
    rw [h'.others j hj hne, h.others j hj' hne]

theorem modify {f : LYEntity → LYEntity} (hid : (f (s.ents i)).id = (s.ents i).id) :
    OnlySlot i s (s.modify i f) :=
  ⟨fun _ h => .inl h, fun _ _ hne => EntityStore.modify_ents_ne _ _ hne, by
    rw [EntityStore.modify_ents_self, hid]⟩

theorem modifyEnt {c : Clc} (h : OnlySlot i s c.store) {f : LYEntity → LYEntity}
    (hid : ∀ e, (f e).id = e.id) :
    OnlySlot i s (c.modifyEnt i f).store := h.trans (.modify (hid _))

theorem setMem {c : Clc} (h : OnlySlot i s c.store) (m : Mem) : OnlySlot i s (c.setMem i m).store :=
  h.modifyEnt fun _ => rfl

/-- Releasing another connection. -/
theorem release {k : Nat} (hk : k ≠ i) :
    OnlySlot i s (((s.cleanup k).listDel k).modify k LYEntity.released) := by
  refine ⟨fun j hj => .inl (List.mem_of_mem_filter hj), fun j hj hne => ?_, ?_⟩
  · have hjk : j ≠ k := by
      have := (List.mem_filter.mp hj).2
      exact of_decide_eq_true this
    rw [EntityStore.modify_ents_ne _ _ hjk]
    rfl
  · rw [EntityStore.modify_ents_ne _ _ (Ne.symm hk)]
    rfl

theorem claim (s : EntityStore) (i : Nat) (d : Int) : OnlySlot i s (claimDbId s i d) := by
  unfold claimDbId
  split
  · exact .refl i s
  · dsimp only
    split
    · rename_i h
      rcases lyEntityRelease_cases s (lyEntityFindByDb s (s.ents i).type d) with he | ⟨k, hk, he⟩
      · rw [he]
        exact .modify rfl
      · have hki : k ≠ i := by
          have := (slot?_eq_some.mp hk).1
          omega
        rw [he]
        exact (OnlySlot.release hki).trans (.modify rfl)
    · exact .modify rfl

theorem update (s : EntityStore) (i : Nat) (d status : Int) :
    OnlySlot i s (lyEntityUpdate s i d status).1 := by
  unfold lyEntityUpdate
  split
  · exact .refl i s
  · rename_i k hk
    obtain rfl : k = i := by
      have := (slot?_eq_some.mp hk).1
      omega
    dsimp only
    split
    · exact (OnlySlot.modify rfl).trans (.claim _ _ _)
    · exact .claim _ _ _

theorem enable (s : EntityStore) (i : Nat) (d : Int) (b : Bool) :
    OnlySlot i s (lyEntityEnable s i d b).1 := by
  unfold lyEntityEnable
  split
  · exact .refl i s
  · rename_i k hk
    obtain rfl : k = i := by
      have := (slot?_eq_some.mp hk).1
      omega
    exact (OnlySlot.modify rfl).trans (.claim _ _ _)

theorem init (s : EntityStore) (i : Nat) : OnlySlot i s (lyEntityInit s i .node).1 := by
  unfold lyEntityInit
  split
  · exact .refl i s
  · rename_i k hk
    obtain rfl : k = i := by
      have := (slot?_eq_some.mp hk).1
      omega
    split
    · exact .refl k s
    · dsimp only
      refine ⟨fun j hj => ?_, fun j _ hne => ?_, ?_⟩
      · rcases List.mem_cons.mp hj with rfl | hj
        · exact .inr rfl
        · exact .inl hj
      · simp only
        rw [EntityStore.modify_ents_ne _ _ hne]
      · simp only
        rw [EntityStore.modify_ents_self]

end OnlySlot

theorem OnlySlot.setPkt {i : Nat} {s : EntityStore} {c : Clc}
    (h : OnlySlot i s c.store) (q : LYPacketRecv) :
    OnlySlot i s (c.setPkt i q).store := by
  unfold Clc.setPkt
  exact h.modifyEnt fun _ => rfl

theorem OnlySlot.keepSecret {i : Nat} {s : EntityStore} {c : Clc}
    (h : OnlySlot i s c.store) (t : Int)
    (secret : Option Bytes) : OnlySlot i s (c.keepSecret i t secret).store := by
  cases secret with
  | none => exact h
  | some v =>
    show OnlySlot i s (c.modifyEnt i fun e =>
        { e with auth := { e.auth with secret := some v } }).store
    exact h.modifyEnt fun _ => rfl

/-- No other connection with this address is that of a registered node. -/
def Vacant (s : EntityStore) (i : Nat) (ip : Bytes) : Prop :=
  ∀ j ∈ s.nodeList, (s.ents j).id = j ∧ (j ≠ i → Flag.registered ≤ (s.ents j).status →
    ∃ nd, (s.ents j).entity = .node nd ∧ nd.node.hostIp ≠ some ip)

theorem Vacant.of_onlySlot {s s' : EntityStore} {i : Nat} {ip : Bytes} (h : Vacant s i ip)
    (hid : (s.ents i).id = i) (ho : OnlySlot i s s') : Vacant s' i ip := by
  intro j hj
  by_cases hji : j = i
  · subst hji
    exact ⟨ho.id.trans hid, fun hne => absurd rfl hne⟩
  · rw [ho.others j hj hji]
    exact h j ((ho.list j hj).resolve_right hji)

theorem lyEntityNodeActive_vacant {s : EntityStore} {i : Nat} {ip : Bytes} (h : Vacant s i ip)
    (hi : (s.ents i).status < Flag.registered) : lyEntityNodeActive s ip = .ok false := by
  have hgo : ∀ l : List Nat, (∀ j ∈ l, j ∈ s.nodeList) →
      lyEntityNodeActive.go s ip l = .ok false := by
    intro l hl
    -- the walk over the node list, by what is left of it
    induction l with
    | nil => rfl
    | cons j l ih =>
      have hrest := ih fun k hk => hl k (List.mem_cons_of_mem _ hk)
      obtain ⟨hid, hother⟩ := h j (hl j (List.mem_cons_self ..))
      rw [lyEntityNodeActive.go]
      by_cases hreg : lyEntityIsRegistered s (s.ents j).id = true
      · have hstatus : Flag.registered ≤ (s.ents j).status := by
          rw [hid, lyEntityIsRegistered, lyEntityIs] at hreg
          split at hreg
          · exact absurd hreg (by decide)
          · rename_i k hk
            obtain rfl : k = j := by
              have := (slot?_eq_some.mp hk).1
              omega
            exact of_decide_eq_true hreg
        have hji : j ≠ i := by
          rintro rfl
          omega
        obtain ⟨nd, hent, hne⟩ := hother hji hstatus
        rw [if_pos hreg, nodeData, hent]
        simp only [if_neg hne]
        exact hrest
      · rw [if_neg hreg]
        exact hrest
  exact hgo s.nodeList fun _ hj => hj

/-! ## Packets -/

/-- A packet: its type and its data. -/
abbrev Packet := Int × Bytes

/-- The CLC takes a packet that has come in on the connection in slot `i`. -/
def clcParty (env : Env) (i : Nat) : Duplex.Party Clc Packet Packet := fun c p =>
  match epollIn env 2 c i (.data (wire p.1 p.2)) with
  | some (.ok c') => some (c', c'.inbox c.io.sent.length (c.store.ents i).fd)
  | _ => none

/-- The controller takes the peer in slot `i` for the node with tag `t`, and shares the secret `s`
with it. -/
structure Knows (c : Clc) (i : Nat) (t : Int) (s : Bytes) (status : Int) : Prop where
  id : (c.store.ents i).id = i
  fd : 0 ≤ (c.store.ents i).fd
  type : (c.store.ents i).type = .node
  tag : ∃ nd, (c.store.ents i).entity = .node nd ∧ nd.node.hostTag = t
  secret : (c.store.ents i).auth.secret = some s
  status : (c.store.ents i).status = status
  row : ∃ r, c.db.nodesById t = [r] ∧ nonEmpty r.ip ≠ none

/-- What the CLC has sent to the peer since. -/
theorem inbox_append {c c' : Clc} {fd : Int} {out : List Packet}
    (h : c'.io.sent = c.io.sent ++ out.map fun p => ⟨fd, p.1, p.2⟩) :
    c'.inbox c.io.sent.length fd = out := by
  rw [Clc.inbox, h, List.drop_left' rfl]
  simp [List.filter_map, Function.comp_def]

/-- **One packet of the peer**, when its handler has answered with `out`. -/
theorem clcParty_packet (env : Env) {i : Nat} (hi : i < lyEntityMax) {c : Clc}
    {type : Int} {data : Bytes}
    {P : Clc → List Packet → Prop} (hfd : 0 ≤ (c.store.ents i).fd) (hbuf : Emptied (c.store.ents i))
    (hs : Sendable type data) (hwhole : WholeAuth type data)
    (hhandle : ∀ q m, Found q m type data [] → ∃ c1 out,
      handlePacket env (c.setPkt i q) i type data.length = .ok (c1, 0) ∧
      c1.io.sent = c.io.sent ++ out.map
        (fun p : Packet => ⟨(c.store.ents i).fd, p.1, p.2⟩) ∧ P c1 out)
    (hP : ∀ c1 q out, P c1 out → P (c1.setPkt i q) out) :
    ∃ c' out, clcParty env i c (type, data) = some (c', out) ∧ P c' out ∧
      Emptied (c'.store.ents i) := by
  obtain ⟨p, m, hp, hr, h0⟩ := hbuf
  obtain ⟨q, m1, hfound, hdone⟩ := epollIn_packet env hi hfd hp hr h0 hs hwhole
  obtain ⟨c1, out, hrun, hsent, hc1⟩ := hhandle q m1 hfound
  obtain ⟨q', m', hin, hr', h0'⟩ := hdone c1 hrun
  refine ⟨c1.setPkt i q', out, ?_, hP c1 q' out hc1, q', m', by rw [setPkt_ents], hr', h0'⟩
  have hinbox : (c1.setPkt i q').inbox c.io.sent.length (c.store.ents i).fd = out :=
    inbox_append hsent
  rw [clcParty, hin]
  simp only [hinbox]

/-! ## Authentication -/

section Authentication

variable {env : Env} {i : Nat}

/-- The peer is asked to prove that it knows the secret. -/
structure Challenged (c c1 : Clc) (i : Nat) (t : Int) (s : Bytes) (ch : Uuid) : Prop where
  knows : Knows c1 i t s Flag.online
  challenge : (c1.store.ents i).auth.challenge = some ch
  fd : (c1.store.ents i).fd = (c.store.ents i).fd
  only : OnlySlot i c.store c1.store

theorem Challenged.of_store {c c0 c1 : Clc} {t : Int} {s : Bytes} {ch : Uuid}
    (h : Challenged c c1 i t s ch) (hstore : c.store = c0.store) : Challenged c0 c1 i t s ch :=
  ⟨h.knows, h.challenge, hstore ▸ h.fd, hstore ▸ h.only⟩

theorem update_knows (hi : i < lyEntityMax) {c : Clc} {t : Int} {s : Bytes} {status : Int}
    (hk : Knows c i t s status) {status' : Int} (h0 : 0 ≤ status') (h8 : status' < 8) (d : Int) :
    Knows (c.update i d status') i t s status' where
  id := by rw [update_ents_self hi h0]; exact hk.id
  fd := by rw [update_ents_self hi h0]; exact hk.fd
  type := by rw [update_ents_self hi h0]; exact hk.type
  tag := by rw [update_ents_self hi h0]; exact hk.tag
  secret := by rw [update_ents_self hi h0]; exact hk.secret
  status := by rw [update_ents_self hi h0, status_claiming, status_withStatus _ h0 h8]
  row := hk.row

theorem challenged_update (hi : i < lyEntityMax) {c c2 : Clc} {t : Int} {s : Bytes}
    {status : Int} {ch : Uuid}
    (hk : Knows c2 i t s status) (hch : (c2.store.ents i).auth.challenge = some ch)
    (hfd : (c2.store.ents i).fd = (c.store.ents i).fd) (ho : OnlySlot i c.store c2.store) :
    Challenged c (c2.update i t Flag.online) i t s ch where
  knows := update_knows hi hk (by decide) (by decide) t
  challenge := by
    rw [update_ents_self hi (by decide)]
    exact hch
  fd := by
    rw [update_ents_self hi (by decide)]
    exact hfd
  only := ho.trans (OnlySlot.update _ _ _ _)

/-- The answer to a request, when the secret is known. -/
theorem authAnswer_knows (hok : env.Works) (hi : i < lyEntityMax) {c : Clc}
    {q : LYPacketRecv} {m : Mem} {t : Int}
    {s data : Bytes} {ks : Nat → UInt8} {status : Int} (hk : Knows c i t s status)
    (hpkt : (c.store.ents i).pkt = some q) (hbuf : q.pktBuf = some m) (hks : env.cipher s = some ks)
    (htag : m.slice sizeofLYPacketHeader 4 = le32 t)
    (hdata : m.slice authDataOff luoyunAuthDataLen = data) :
    ∃ c1 ch, authAnswer env c i PktType.nodeAuthReply PktType.nodeAuthRequest t = .ok (c1, 0) ∧
      c1.io.sent = c.io.sent ++
        [⟨(c.store.ents i).fd, PktType.nodeAuthReply, authInfo t (xorFrom ks 0 data)⟩,
        ⟨(c.store.ents i).fd, PktType.nodeAuthRequest,
          authInfo t (strncpy luoyunAuthDataLen ch.text)⟩] ∧
      Challenged c c1 i t s ch := by
  have hlen : data.length = luoyunAuthDataLen := by
    rw [← hdata]
    simp
  have hmem : c.mem i = .ok m := by simp [Clc.mem, hpkt, hbuf]
  have hload : ∀ m : Mem, m.load sizeofLYPacketHeader sizeofAuthInfo =
      .ok (m.slice sizeofLYPacketHeader sizeofAuthInfo) := fun m => Mem.load_ok (by decide)
  have hanswer : (xorFrom ks 0 data).length = luoyunAuthDataLen := by rw [length_xorFrom, hlen]
  have hstore : ∀ (m : Mem) {bs : Bytes}, bs.length = luoyunAuthDataLen →
      m.store authDataOff bs = .ok (m.write authDataOff bs) := by
    intro m bs hbs
    refine Mem.store_ok ?_
    rw [hbs]
    decide
  have hfirst := slice_authInfo htag hanswer
  have htag1 : (m.write authDataOff (xorFrom ks 0 data)).slice sizeofLYPacketHeader 4 = le32 t := by
    rw [Mem.slice_write_before (by decide), htag]
  -- the answer is written over the challenge, and the packet is sent out of the same buffer
  unfold authAnswer
  simp only [hmem, bind, Except.bind]
  rw [Mem.load_ok (by decide), hdata]
  simp only [lyauthAnswer, hk.secret, lyauthCrypt, hks, Option.map_some]
  rw [hstore m hanswer]
  simp only [hload, hfirst, setMem_fd]
  rw [lyPacketSend_works hok _ hk.fd (authInfo_sendable (by decide) (by decide) t hanswer)]
  simp only [lt_irrefl, if_false]
  -- and so is the challenge of the controller
  generalize env.uuid _ = ch
  have hch : (strncpy luoyunAuthDataLen ch.text).length = luoyunAuthDataLen := length_strncpy _ _
  rw [hstore _ hch]
  simp only [slice_authInfo htag1 hch]
  rw [lyPacketSend_works hok _ hk.fd (authInfo_sendable (by decide) (by decide) t hch)]
  simp only [lt_irrefl, if_false]
  refine ⟨_, ch, rfl, List.append_assoc c.io.sent [_] [_], ?_⟩
  refine @challenged_update i hi _ _ t s status ch ?_ ?_ ?_ ?_
  · exact {
      id := by simpa [Clc.setMem, Clc.modifyEnt, Clc.called] using hk.id
      fd := by simpa [Clc.setMem, Clc.modifyEnt, Clc.called] using hk.fd
      type := by simpa [Clc.setMem, Clc.modifyEnt, Clc.called] using hk.type
      tag := by simpa [Clc.setMem, Clc.modifyEnt, Clc.called] using hk.tag
      secret := by simpa [Clc.setMem, Clc.modifyEnt, Clc.called] using hk.secret
      status := by simpa [Clc.setMem, Clc.modifyEnt, Clc.called, LYEntity.status] using hk.status
      row := hk.row }
  · simp [Clc.setMem, Clc.modifyEnt, Clc.called]
  · simp [Clc.setMem, Clc.modifyEnt, Clc.called]
  · dsimp only
    refine .setMem (.modifyEnt ?_ ?_) _
    · exact .setMem (.refl i c.store) (m.write authDataOff (xorFrom ks 0 data))
    · exact fun _ => rfl

/-- A statement about the row of a node changes that row. -/
theorem nodesById_updateNode (db : Db) (t : Int) {f : NodeRow → NodeRow}
    (hid : ∀ r, (f r).id = r.id) :
    (db.updateNode t f).nodesById t = (db.nodesById t).map f := by
  unfold Db.updateNode Db.nodesById
  induction db.nodes with
  | nil => rfl
  | cons r rows ih =>
    by_cases hr : r.id = t
    · have hr' : (f r).id = t := (hid r).trans hr
      simp only [List.map_cons, List.filter_cons, hr', hr, beq_self_eq_true, if_true, ih]
    · simp only [List.map_cons, List.filter_cons, beq_iff_eq, hr, if_false, ih]

theorem Knows.of_db {c c2 : Clc} {t : Int} {s : Bytes} {status : Int} (hk : Knows c i t s status)
    (f : NodeRow → NodeRow) (hstore : c2.store = c.store) (hid : ∀ r, (f r).id = r.id)
    (hip : ∀ r, (f r).ip = r.ip) (hdb : c2.db = c.db.updateNode t f) : Knows c2 i t s status where
  id := by rw [hstore]; exact hk.id
  fd := by rw [hstore]; exact hk.fd
  type := by rw [hstore]; exact hk.type
  tag := by rw [hstore]; exact hk.tag
  secret := by rw [hstore]; exact hk.secret
  status := by rw [hstore]; exact hk.status
  row := by
    obtain ⟨r, hrow, hne⟩ := hk.row
    refine ⟨f r, ?_, by rw [hip]; exact hne⟩
    rw [hdb, nodesById_updateNode _ _ hid, hrow]
    rfl

theorem dbNodeUpdateStatus_works (hok : env.Works) (c : Clc) (id status : Int) :
    dbNodeUpdateStatus env c id status =
      ({ c.called with db := c.db.updateNode id fun r => { r with status } }, 0) := by
  rw [dbNodeUpdateStatus, dbExec, if_pos (hok.ok _ _)]

/-- The request branch of `eh_process_node_auth`, once the secret is there. -/
theorem nodeAuthRequest_knows (hok : env.Works) (hi : i < lyEntityMax) {c c2 : Clc}
    {q : LYPacketRecv} {m : Mem}
    {t : Int} {s data : Bytes} {ks : Nat → UInt8} {status : Int} {nd nd2 : LYNodeData}
    (htagRead : authTag c i = .ok t) (hent : (c.store.ents i).entity = .node nd)
    (hsecret : nodeAuthSecret env c i nd t = (c2, some nd2)) (hnd : nd2.node.hostTag = t)
    (hk : Knows c2 i t s status) (hpkt : (c2.store.ents i).pkt = some q) (hbuf : q.pktBuf = some m)
    (hks : env.cipher s = some ks) (htag : m.slice sizeofLYPacketHeader 4 = le32 t)
    (hdata : m.slice authDataOff luoyunAuthDataLen = data) :
    ∃ c1 ch, nodeAuthRequest env c i = .ok (c1, 0) ∧
      c1.io.sent = c2.io.sent ++
        [⟨(c2.store.ents i).fd, PktType.nodeAuthReply, authInfo t (xorFrom ks 0 data)⟩,
        ⟨(c2.store.ents i).fd, PktType.nodeAuthRequest,
          authInfo t (strncpy luoyunAuthDataLen ch.text)⟩] ∧
      Challenged c2 c1 i t s ch := by
  rw [nodeAuthRequest, htagRead]
  simp only [hent, hsecret, dbNodeUpdateStatus_works hok, lt_irrefl, if_false, hnd]
  -- the status goes into the row before the answer goes out; that leaves the connection as it is
  have hanswer : ∀ c3 : Clc, c3.store = c2.store → c3.io.sent = c2.io.sent →
      c3.db = c2.db.updateNode t (fun r => { r with status := NodeStatus.authenticating }) →
      ∃ c1 ch, authAnswer env c3 i PktType.nodeAuthReply PktType.nodeAuthRequest t = .ok (c1, 0) ∧
        c1.io.sent = c2.io.sent ++
          [⟨(c2.store.ents i).fd, PktType.nodeAuthReply, authInfo t (xorFrom ks 0 data)⟩,
          ⟨(c2.store.ents i).fd, PktType.nodeAuthRequest,
            authInfo t (strncpy luoyunAuthDataLen ch.text)⟩] ∧
        Challenged c2 c1 i t s ch := by
    intro c3 hstore hsent hdb
    have hk3 := hk.of_db (fun r => { r with status := NodeStatus.authenticating })
      hstore (fun _ => rfl)
      (fun _ => rfl) hdb
    rw [← hstore] at hpkt ⊢
    obtain ⟨c1, ch, hrun, hsent1, hch⟩ := authAnswer_knows hok hi hk3 hpkt hbuf hks htag hdata
    exact ⟨c1, ch, hrun, hsent ▸ hsent1, hch.of_store hstore⟩
  exact hanswer _ rfl rfl rfl

theorem authTag_ok {c : Clc} {q : LYPacketRecv} {m : Mem} {t : Int}
    (hpkt : (c.store.ents i).pkt = some q)
    (hbuf : q.pktBuf = some m) (htag : m.slice sizeofLYPacketHeader 4 = le32 t) (hint : IsInt32 t) :
    authTag c i = .ok t := by
  have hmem : c.mem i = .ok m := by simp [Clc.mem, hpkt, hbuf]
  have hread : int32Of (m.slice sizeofLYPacketHeader 4) = t := by
    rw [htag]
    simpa using int32Of_le32 hint []
  simp only [authTag, hmem, bind, Except.bind]
  rw [Mem.load_ok (by decide)]
  exact congrArg Except.ok hread

/-- The secret is looked up for the tag that the node claims. -/
theorem handleRequest_fresh (hok : env.Works) (hi : i < lyEntityMax) {c : Clc}
    {q : LYPacketRecv} {m : Mem} {t : Int}
    {s data : Bytes} {r : NodeRow} {ks : Nat → UInt8} (hfd : 0 ≤ (c.store.ents i).fd)
    (htype : (c.store.ents i).type = .unknown) (hauth : (c.store.ents i).auth = {})
    (hid : (c.store.ents i).id = i)
    (hpkt : (c.store.ents i).pkt = some q) (hbuf : q.pktBuf = some m)
    (hint : IsInt32 t) (hrow : c.db.nodesById t = [r]) (hkey : nonEmpty r.key = some s)
    (hip : nonEmpty r.ip ≠ none)
    (hks : env.cipher s = some ks) (htag : m.slice sizeofLYPacketHeader 4 = le32 t)
    (hdata : m.slice authDataOff luoyunAuthDataLen = data) (size : Int) :
    ∃ c1 ch, handlePacket env c i PktType.nodeAuthRequest size = .ok (c1, 0) ∧
      c1.io.sent = c.io.sent ++
        [⟨(c.store.ents i).fd, PktType.nodeAuthReply, authInfo t (xorFrom ks 0 data)⟩,
        ⟨(c.store.ents i).fd, PktType.nodeAuthRequest,
          authInfo t (strncpy luoyunAuthDataLen ch.text)⟩] ∧
      Challenged c c1 i t s ch := by
  obtain ⟨hent, hdb, hio⟩ := init_fresh hi htype .node
  simp only [Peer.entityType, Peer.entityData] at hent hdb hio
  have hpacket : handlePacket env c i PktType.nodeAuthRequest size =
      nodeAuthRequest env (c.init i .node) i := rfl
  have hrow' : (c.init i .node).db.nodesById t = [r] := by rw [hdb, hrow]
  have hfind : dbNodeFindSecret env (c.init i .node) t =
      ((c.init i .node).called, r.id, some s) := by
    have hpos := r.id_pos
    simp [dbNodeFindSecret, dbSelect, hok.ok .dbSelect, hrow', hkey, Int.not_le.mpr hpos]
  have hsecret : nodeAuthSecret env (c.init i .node) i {} t =
      ((((c.init i .node).called.keepSecret i t (some s)).setNode i (LYNodeData.withTag {} t)),
        some (LYNodeData.withTag {} t)) := by
    simp only [nodeAuthSecret, hent, hauth, hfind, ne_eq, not_true, if_false,
      if_neg (Int.not_le.mpr r.id_pos)]
  generalize hc2 : ((c.init i .node).called.keepSecret i t (some s)).setNode i
    (LYNodeData.withTag {} t) = c2 at hsecret
  have hent2 : c2.store.ents i = { c.store.ents i with
      type := .node, entity := .node (LYNodeData.withTag {} t), auth := ⟨some s, none⟩ } := by
    rw [← hc2]
    simp [Clc.setNode, Clc.keepSecret, Clc.modifyEnt, hent, hauth]
  have hdb2 : c2.db = c.db := by
    rw [← hc2]
    exact hdb
  have hsent2 : c2.io.sent = c.io.sent := by
    rw [← hc2]
    show (c.init i .node).io.sent = _
    rw [hio]
  have honly : OnlySlot i c.store c2.store := by
    rw [← hc2]
    exact .modifyEnt (.keepSecret (.init c.store i) _ _) fun _ => rfl
  have hk : Knows c2 i t s (c.store.ents i).status := {
    id := by rw [hent2]; exact hid
    fd := by rw [hent2]; exact hfd
    type := by rw [hent2]
    tag := by rw [hent2]; exact ⟨_, rfl, rfl⟩
    secret := by rw [hent2]
    status := by rw [hent2]; rfl
    row := by rw [hdb2]; exact ⟨r, hrow, hip⟩ }
  obtain ⟨c1, ch, hrun, hsent, hch⟩ := nodeAuthRequest_knows hok hi
    (authTag_ok (by rw [hent]; exact hpkt) hbuf htag hint) (by rw [hent]) hsecret rfl hk
    (by rw [hent2]; exact hpkt) hbuf hks htag hdata
  have hfd2 : (c2.store.ents i).fd = (c.store.ents i).fd := by rw [hent2]
  refine ⟨c1, ch, hpacket.trans hrun, ?_, hch.knows, hch.challenge,
    hch.fd.trans hfd2, honly.trans hch.only⟩
  rw [hsent, hsent2, hfd2]

theorem Knows.setPkt {c : Clc} {t : Int} {s : Bytes} {status : Int}
    (hk : Knows c i t s status) (q : LYPacketRecv) :
    Knows (c.setPkt i q) i t s status := by
  have hent := setPkt_ents c i q
  obtain ⟨hid, hfd, htype, htag, hsecret, hstatus, hrow⟩ := hk
  exact ⟨by rw [hent]; exact hid, by rw [hent]; exact hfd, by rw [hent]; exact htype, by
    rw [hent]; exact htag, by rw [hent]; exact hsecret, by rw [hent]; exact hstatus, hrow⟩

theorem Challenged.setPkt {c c1 : Clc} {t : Int} {s : Bytes} {ch : Uuid}
    (h : Challenged c c1 i t s ch) (q : LYPacketRecv) : Challenged c (c1.setPkt i q) i t s ch := by
  have hent := setPkt_ents c1 i q
  exact ⟨h.knows.setPkt q, by rw [hent]; exact h.challenge, by
    rw [hent]; exact h.fd, h.only.setPkt q⟩

/-- What a challenge answers: the data of the peer under the keystream, and the challenge. -/
def challengePackets (t : Int) (ks : Nat → UInt8) (data : Bytes) (ch : Uuid) : List Packet :=
  [(PktType.nodeAuthReply, authInfo t (xorFrom ks 0 data)),
    (PktType.nodeAuthRequest, authInfo t (strncpy luoyunAuthDataLen ch.text))]

/-- A request, when its handler has answered with a challenge. -/
theorem request_handled (hi : i < lyEntityMax) {c : Clc} {t : Int}
    {s data : Bytes} {ks : Nat → UInt8}
    (hfd : 0 ≤ (c.store.ents i).fd) (hempty : Emptied (c.store.ents i))
    (hlen : data.length = luoyunAuthDataLen)
    (hhandle : ∀ q m, Found q m PktType.nodeAuthRequest (authInfo t data) [] → ∃ c1 ch,
      handlePacket env (c.setPkt i q) i PktType.nodeAuthRequest (authInfo t data).length =
        .ok (c1, 0) ∧
      c1.io.sent = c.io.sent ++
        (challengePackets t ks data ch).map (fun p : Packet => ⟨(c.store.ents i).fd, p.1, p.2⟩) ∧
      Challenged (c.setPkt i q) c1 i t s ch) :
    ∃ c' ch, clcParty env i c (PktType.nodeAuthRequest, authInfo t data) =
      some (c', challengePackets t ks data ch) ∧
      Challenged c c' i t s ch ∧ Emptied (c'.store.ents i) := by
  have hparty := clcParty_packet env (P := fun c1 out => ∃ ch, out = challengePackets t ks data ch ∧
    Challenged c c1 i t s ch) hi hfd hempty
    (authInfo_sendable (by decide) (by decide) t hlen)
      (authInfo_whole PktType.nodeAuthRequest t hlen) ?_ ?_
  · obtain ⟨c', out, hrun, ⟨ch, rfl, hch⟩, hempty'⟩ := hparty
    exact ⟨c', ch, hrun, hch, hempty'⟩
  · intro q m hfound
    obtain ⟨c1, ch, hrun, hsent, hch⟩ := hhandle q m hfound
    refine ⟨c1, challengePackets t ks data ch, hrun, hsent, ch, rfl,
      hch.knows, hch.challenge, ?_, ?_⟩
    · rw [hch.fd, setPkt_ents]
    · exact (OnlySlot.setPkt (.refl i c.store) q).trans hch.only
  · rintro c1 q out ⟨ch, rfl, hch⟩
    exact ⟨ch, rfl, hch.setPkt q⟩

/-- **The first packet of a node**, on a connection that is new. -/
theorem request_fresh (hok : env.Works) (hi : i < lyEntityMax) {c : Clc} {t : Int}
    {s data : Bytes} {r : NodeRow}
    {ks : Nat → UInt8} (hfresh : FreshConn (c.store.ents i))
    (hid : (c.store.ents i).id = i) (hint : IsInt32 t)
    (hrow : c.db.nodesById t = [r]) (hkey : nonEmpty r.key = some s) (hip : nonEmpty r.ip ≠ none)
    (hks : env.cipher s = some ks) (hlen : data.length = luoyunAuthDataLen) :
    ∃ c' ch, clcParty env i c (PktType.nodeAuthRequest, authInfo t data) =
      some (c', challengePackets t ks data ch) ∧
      Challenged c c' i t s ch ∧ Emptied (c'.store.ents i) := by
  refine request_handled hi hfresh.fd hfresh.pkt hlen ?_
  intro q m hfound
  obtain ⟨htag, hdata⟩ := found_authInfo hlen hfound
  have hent := setPkt_ents c i q
  obtain ⟨c1, ch, hrun, hsent, hch⟩ :=
    handleRequest_fresh hok hi (c := c.setPkt i q) (by rw [hent]; exact hfresh.fd)
    (by rw [hent]; exact hfresh.type) (by rw [hent]; exact hfresh.auth)
      (by rw [hent]; exact hid) (by rw [hent])
    hfound.ready.buf hint hrow hkey hip hks htag hdata (authInfo t data).length
  rw [hent] at hsent
  exact ⟨c1, ch, hrun, hsent, hch⟩

/-- A connection whose peer is known already. -/
theorem init_knows (hi : i < lyEntityMax) {c : Clc} {t : Int} {s : Bytes} {status : Int}
    (hk : Knows c i t s status) (type : EntityType) : c.init i type = c := by
  have htype : (c.store.ents i).type ≠ .unknown := by
    rw [hk.type]
    decide
  simp [Clc.init, lyEntityInit, slot?_natCast hi, htype, Clc.withStore]

/-- **A request of a node** that has been given its secret on this connection. -/
theorem request_known (hok : env.Works) (hi : i < lyEntityMax) {c : Clc} {t : Int}
    {s data : Bytes} {status : Int}
    {ks : Nat → UInt8} (hk : Knows c i t s status)
    (hempty : Emptied (c.store.ents i)) (hint : IsInt32 t)
    (hks : env.cipher s = some ks) (hlen : data.length = luoyunAuthDataLen) :
    ∃ c' ch, clcParty env i c (PktType.nodeAuthRequest, authInfo t data) =
      some (c', challengePackets t ks data ch) ∧
      Challenged c c' i t s ch ∧ Emptied (c'.store.ents i) := by
  refine request_handled hi hk.fd hempty hlen ?_
  intro q m hfound
  obtain ⟨htag, hdata⟩ := found_authInfo hlen hfound
  have hent := setPkt_ents c i q
  have hkq := hk.setPkt q
  obtain ⟨nd, hnode, hnd⟩ := hkq.tag
  have hpkt : ((c.setPkt i q).store.ents i).pkt = some q := by rw [hent]
  have hpacket : ∀ size, handlePacket env (c.setPkt i q) i PktType.nodeAuthRequest size =
      nodeAuthRequest env ((c.setPkt i q).init i .node) i := fun _ => rfl
  have hsecret : nodeAuthSecret env (c.setPkt i q) i nd t = (c.setPkt i q, some nd) := by
    rw [nodeAuthSecret, if_pos]
    rw [hkq.secret]
    exact Option.some_ne_none s
  obtain ⟨c1, ch, hrun, hsent, hch⟩ :=
    nodeAuthRequest_knows hok hi (authTag_ok hpkt hfound.ready.buf htag hint) hnode
    hsecret hnd hkq hpkt hfound.ready.buf hks htag hdata
  rw [hent] at hsent
  refine ⟨c1, ch, ?_, hsent, hch⟩
  rw [hpacket, init_knows hi hkq, hrun]

/-- The peer has proved that it knows the secret, or more. -/
structure Proved (c c1 : Clc) (i : Nat) (t : Int) (s : Bytes) (status : Int) : Prop where
  knows : Knows c1 i t s status
  fd : (c1.store.ents i).fd = (c.store.ents i).fd
  only : OnlySlot i c.store c1.store

theorem Proved.setPkt {c c1 : Clc} {t : Int} {s : Bytes} {status : Int}
    (h : Proved c c1 i t s status) (q : LYPacketRecv) : Proved c (c1.setPkt i q) i t s status :=
  ⟨h.knows.setPkt q, by rw [setPkt_ents]; exact h.fd, h.only.setPkt q⟩

/-- The right answer to the challenge. -/
theorem authVerify_knows (hi : i < lyEntityMax) {c : Clc} {q : LYPacketRecv}
    {m : Mem} {t : Int} {s : Bytes} {ch : Uuid} {ks : Nat → UInt8} (hk : Knows c i t s Flag.online)
    (hch : (c.store.ents i).auth.challenge = some ch) (hpkt : (c.store.ents i).pkt = some q)
    (hbuf : q.pktBuf = some m) (hks : env.cipher s = some ks)
    (hdata : m.slice authDataOff luoyunAuthDataLen =
      xorFrom ks 0 (strncpy luoyunAuthDataLen ch.text)) :
    ∃ c1, authVerify env c i = .ok (c1, 0) ∧ c1.io = c.io ∧
      Proved c c1 i t s Flag.authenticated := by
  have hmem : c.mem i = .ok m := by simp [Clc.mem, hpkt, hbuf]
  have hverify : lyauthVerify env.cipher (c.store.ents i).auth
      (m.slice authDataOff luoyunAuthDataLen) =
      (1, strncpy luoyunAuthDataLen ch.text) := by
    simp [lyauthVerify, lyauthAnswer, lyauthCrypt, hch, hk.secret, hks, hdata, xorFrom_xorFrom,
      strcaseEq_strncpy]
  have hstore : m.store authDataOff (strncpy luoyunAuthDataLen ch.text) =
      .ok (m.write authDataOff (strncpy luoyunAuthDataLen ch.text)) := by
    refine Mem.store_ok ?_
    rw [length_strncpy]
    decide
  unfold authVerify
  simp only [hmem, bind, Except.bind]
  rw [Mem.load_ok (by decide)]
  simp only [hverify, hstore]
  rw [if_neg (by decide), if_neg (by decide)]
  generalize hc2 : (c.setMem i (m.write authDataOff (strncpy luoyunAuthDataLen ch.text))).note i _ =
    c2
  have hent2 : c2.store.ents i =
      { c.store.ents i with
        pkt := some
          { q with
            pktBuf := some (m.write authDataOff (strncpy luoyunAuthDataLen ch.text)) } } := by
    rw [← hc2]
    simp [Clc.setMem, Clc.modifyEnt, Clc.note, hpkt]
  have hk2 : Knows c2 i t s Flag.online := by
    obtain ⟨hid, hfd, htype, htag, hsecret, hstatus, hrow⟩ := hk
    refine ⟨by rw [hent2]; exact hid, by rw [hent2]; exact hfd, by rw [hent2]; exact htype, by
      rw [hent2]; exact htag, by rw [hent2]; exact hsecret, by rw [hent2]; exact hstatus, ?_⟩
    rw [← hc2]
    exact hrow
  have honly : OnlySlot i c.store c2.store := by
    rw [← hc2]
    exact .setMem (.refl i c.store) _
  have hnot : lyEntityIsAuthenticated c2.store i = false := by
    rw [lyEntityIsAuthenticated, lyEntityIs, slot?_natCast hi]
    simp only [hk2.status]
    decide
  rw [if_neg (by rw [hnot]; decide)]
  refine ⟨_, rfl, ?_, update_knows hi hk2 (by decide) (by decide) _, ?_,
    honly.trans (.update _ _ _ _)⟩
  · rw [← hc2]
    rfl
  · rw [update_ents_self hi (by decide), hent2]
    rfl

/-- **The answer to the challenge.** -/
theorem reply_knows (hi : i < lyEntityMax) {c : Clc} {t : Int} {s : Bytes}
    {ch : Uuid} {ks : Nat → UInt8}
    (hk : Knows c i t s Flag.online) (hch : (c.store.ents i).auth.challenge = some ch)
    (hempty : Emptied (c.store.ents i)) (hks : env.cipher s = some ks) (tag : Int) :
    ∃ c', clcParty env i c (PktType.nodeAuthReply,
        authInfo tag (xorFrom ks 0 (strncpy luoyunAuthDataLen ch.text))) = some (c', []) ∧
      Proved c c' i t s Flag.authenticated ∧ Emptied (c'.store.ents i) := by
  have hlen : (xorFrom ks 0 (strncpy luoyunAuthDataLen ch.text)).length = luoyunAuthDataLen := by
    rw [length_xorFrom, length_strncpy]
  have hparty := clcParty_packet env (P := fun c1 out => out = [] ∧
    Proved c c1 i t s Flag.authenticated) hi hk.fd
    hempty (authInfo_sendable (by decide) (by decide) tag hlen)
      (authInfo_whole PktType.nodeAuthReply tag hlen) ?_ ?_
  · obtain ⟨c', out, hrun, ⟨rfl, hproved⟩, hempty'⟩ := hparty
    exact ⟨c', hrun, hproved, hempty'⟩
  · intro q m hfound
    have hdata := (found_authInfo hlen hfound).2
    have hent := setPkt_ents c i q
    have hkq := hk.setPkt q
    have hpacket : ∀ size, handlePacket env (c.setPkt i q) i PktType.nodeAuthReply size =
        authVerify env ((c.setPkt i q).init i .node) i := fun _ => rfl
    obtain ⟨c1, hrun, hio, hproved⟩ :=
      authVerify_knows hi hkq (by rw [hent]; exact hch) (by rw [hent])
      hfound.ready.buf hks hdata
    refine ⟨c1, [], ?_, ?_, rfl, hproved.knows, ?_, ?_⟩
    · rw [hpacket, init_knows hi hkq]
      exact hrun
    · rw [hio, List.map_nil, List.append_nil]
      rfl
    · rw [hproved.fd, hent]
    · exact (OnlySlot.setPkt (.refl i c.store) q).trans hproved.only
  · rintro c1 q out ⟨rfl, hproved⟩
    exact ⟨rfl, hproved.setPkt q⟩

end Authentication

/-! ## Registration -/

section Registration

variable {env : Env} {i : Nat} {c : Clc} {t : Int} {s : Bytes} {status : Int}

theorem Knows.setNode (hk : Knows c i t s status) {nd : LYNodeData} (hnd : nd.node.hostTag = t) :
    Knows (c.setNode i nd) i t s status where
  id := by simpa [Clc.setNode, Clc.modifyEnt] using hk.id
  fd := by simpa [Clc.setNode, Clc.modifyEnt] using hk.fd
  type := by simpa [Clc.setNode, Clc.modifyEnt] using hk.type
  tag := ⟨nd, setNode_entity c i nd, hnd⟩
  secret := by simpa [Clc.setNode, Clc.modifyEnt] using hk.secret
  status := by rw [setNode_status]; exact hk.status
  row := hk.row

theorem Knows.enable (hi : i < lyEntityMax) (hk : Knows c i t s status) (d : Int) (b : Bool) :
    Knows (c.withStore (lyEntityEnable c.store i d b).1) i t s status := by
  have hent : (c.withStore (lyEntityEnable c.store i d b).1).store.ents i =
      ((c.store.ents i).withEnabled b).claiming d := enable_ents_self hi
  obtain ⟨hid, hfd, htype, htag, hsecret, hstatus, hrow⟩ := hk
  exact ⟨by rw [hent]; exact hid, by rw [hent]; exact hfd, by rw [hent]; exact htype, by
    rw [hent]; exact htag,
    by rw [hent]; exact hsecret, by
      rw [hent, status_claiming, status_withEnabled]; exact hstatus, hrow⟩

theorem dbNodeFind_byId (hok : env.Works) {r : NodeRow} (hrow : c.db.nodesById t = [r]) :
    dbNodeFind env c (.byId t) =
      (c.called, 1, ⟨r.id, r.status, nonEmpty r.ip, nonEmpty r.key, r.isenable,
        r.vcpus, r.vmemory⟩) := by
  rw [dbNodeFind, dbSelect, if_pos (hok.ok _ _), hrow]
  rfl

/-- A secret that the controller can put into a statement. -/
structure Storable (s : Bytes) : Prop where
  quote : quotable [s] = true
  short : s.length ≤ 1024

theorem Knows.updateSecret (hok : env.Works) (hk : Knows c i t s status)
    (hint : IsInt32 t) (hs : Storable s) :
    ∃ c1, dbNodeUpdateSecret env c t (some s) = (c1, 0) ∧ c1.store = c.store ∧
      c1.io.sent = c.io.sent ∧
      c1.db = c.db.updateNode t (fun r => { r with key := some s }) ∧ Knows c1 i t s status := by
  have hshort : ¬ lineMax ≤
      (cstr "UPDATE node SET key = '" ++ s ++ cstr "', updated = 'now' WHERE id= " ++ dec t ++
      cstr ";").length := by
    have h1 : (cstr "UPDATE node SET key = '").length = 23 := by decide
    have h2 : (cstr "', updated = 'now' WHERE id= ").length = 29 := by decide
    have h3 : (cstr ";").length = 1 := by decide
    have h4 : lineMax = 2048 := rfl
    have h5 := length_dec_int32 hint
    have h6 := hs.short
    simp only [List.length_append]
    omega
  rw [dbNodeUpdateSecret, dbExecText, if_neg hshort, if_pos hs.quote, dbExec, if_pos (hok.ok _ _)]
  exact ⟨_, rfl, rfl, rfl, rfl, hk.of_db (fun r => { r with key := some s }) rfl
    (fun _ => rfl) (fun _ => rfl) rfl⟩

theorem Knows.updateStatus (hok : env.Works) (hk : Knows c i t s status) (x : Int) :
    ∃ c1, dbNodeUpdateStatus env c t x = (c1, 0) ∧ c1.store = c.store ∧ c1.io.sent = c.io.sent ∧
      c1.db = c.db.updateNode t (fun r => { r with status := x }) ∧ Knows c1 i t s status :=
  ⟨_, dbNodeUpdateStatus_works hok c t x, rfl, rfl, rfl,
    hk.of_db (fun r => { r with status := x }) rfl (fun _ => rfl) (fun _ => rfl) rfl⟩

theorem Knows.called (hk : Knows c i t s status) : Knows c.called i t s status :=
  ⟨hk.id, hk.fd, hk.type, hk.tag, hk.secret, hk.status, hk.row⟩

theorem Knows.note (hk : Knows c i t s status) (f : ConnHist → ConnHist) :
    Knows (c.note i f) i t s status :=
  ⟨hk.id, hk.fd, hk.type, hk.tag, hk.secret, hk.status, hk.row⟩

theorem setNode_fd (c : Clc) (i : Nat) (nd : LYNodeData) :
    ((c.setNode i nd).store.ents i).fd = (c.store.ents i).fd := by
  simp [Clc.setNode, Clc.modifyEnt]

theorem OnlySlot.setNode {st : EntityStore} (h : OnlySlot i st c.store) (nd : LYNodeData) :
    OnlySlot i st (c.setNode i nd).store := by
  unfold Clc.setNode
  exact h.modifyEnt fun _ => rfl

/-- The row is there and the connection is authenticated. -/
theorem nodeRegisterAuth_knows (hok : env.Works) (hi : i < lyEntityMax) (hpos : 0 < t)
    (hk : Knows c i t s Flag.authenticated) {nd : LYNodeData} (hnd : nd.node.hostTag = t) :
    ∃ c1, nodeRegisterAuth env c i nd = .ok (c1, LyS.registeringDoneSuccess) ∧
      c1.io.sent = c.io.sent ∧
      Proved c c1 i t s Flag.authenticated := by
  obtain ⟨r, hrow, hip⟩ := hk.row
  have hauth : lyEntityIsAuthenticated c.called.store i = true := by
    rw [lyEntityIsAuthenticated, lyEntityIs, slot?_natCast hi]
    simp only [hk.called.status]
    decide
  rw [nodeRegisterAuth, hnd, if_neg (Int.not_le.mpr hpos), dbNodeFind_byId hok hrow]
  simp only [if_true, hauth, Bool.true_eq_false, if_false, if_neg hip]
  have hk1 : Knows (c.called.setNode i (nd.withVlimit r.vcpus r.vmemory)) i
      t s Flag.authenticated :=
    hk.called.setNode hnd
  refine ⟨_, rfl, rfl, hk1.enable hi r.id r.isenable, ?_, ?_⟩
  · refine (congrArg LYEntity.fd (enable_ents_self hi)).trans ?_
    exact setNode_fd _ _ _
  · exact (OnlySlot.setNode (c := c.called) (.refl i c.store) _).trans (.enable _ _ _ _)

/-- The row of a node holds the secret. -/
def Stored (db : Db) (t : Int) (s : Bytes) : Prop :=
  ∃ r, db.nodesById t = [r] ∧ r.key = some s ∧ nonEmpty r.ip ≠ none

/-- A node with the tag of its row is registered. -/
theorem nodeRegisterTagged_knows (hok : env.Works) (hi : i < lyEntityMax)
    (hint : IsInt32 t) (hpos : 0 < t)
    (hs : Storable s) (hk : Knows c i t s Flag.authenticated) {nd : LYNodeData}
    (hnd : nd.node.hostTag = t) :
    ∃ c1, nodeRegisterTagged env c i nd t = .ok (c1, LyS.registeringDoneSuccess) ∧
      c1.io.sent = c.io.sent ∧
      Proved c c1 i t s Flag.registered ∧ (c1.store.ents i).dbId = t ∧ Stored c1.db t s := by
  have htag : (nd.withTag t).node.hostTag = t := rfl
  obtain ⟨c1, hrun, hsent, hk1, hfd1, honly1⟩ :=
    nodeRegisterAuth_knows hok hi hpos (hk.setNode htag) htag
  obtain ⟨c2, hrun2, hstore2, hsent2, hdb2, hk2⟩ := hk1.updateSecret hok hint hs
  obtain ⟨c3, hrun3, hstore3, hsent3, hdb3, hk3⟩ := hk2.updateStatus hok NodeStatus.registered
  have hstored : Stored c3.db t s := by
    obtain ⟨r, hrow, hip⟩ := hk1.row
    have hrow2 : c2.db.nodesById t = [{ r with key := some s }] := by
      rw [hdb2, nodesById_updateNode, hrow]
      · rfl
      · exact fun _ => rfl
    refine ⟨{ { r with key := some s } with status := NodeStatus.registered }, ?_, rfl, hip⟩
    rw [hdb3, nodesById_updateNode, hrow2]
    · rfl
    · exact fun _ => rfl
  have hk4 : Knows (c3.update i t Flag.registered) i t s Flag.registered :=
    update_knows hi hk3 (by decide) (by decide) t
  have hent4 : (c3.update i t Flag.registered).store.ents i =
      ((c1.store.ents i).withStatus Flag.registered).claiming t := by
    rw [update_ents_self hi (by decide), hstore3, hstore2]
  rw [nodeRegisterTagged, if_neg (fun h => h.2 hnd.symm)]
  simp only [hrun, if_true, hk1.secret, hrun2, hrun3, lt_irrefl, if_false]
  refine ⟨_, rfl, hsent3.trans (hsent2.trans hsent), ⟨hk4.note _, ?_, ?_⟩, ?_, hstored⟩
  · refine (congrArg LYEntity.fd hent4).trans ?_
    exact hfd1.trans (setNode_fd c i (nd.withTag t))
  · refine (OnlySlot.setNode (.refl i c.store) (nd.withTag t)).trans (honly1.trans ?_)
    rw [← hstore2, ← hstore3]
    exact .update _ _ _ _
  · refine (congrArg LYEntity.dbId hent4).trans ?_
    rw [LYEntity.claiming]
    exact if_neg (by omega)

/-- What the node says in its register request. -/
structure Presents (ni : NodeInfo) (t : Int) (reqId : Int) : Prop where
  tag : ni.hostTag = t
  status : ni.status < NodeStatus.registered
  wellFormed : (NodeMessage.register reqId ni).WellFormed

theorem nodeRegister_knows (hok : env.Works) (hi : i < lyEntityMax)
    (hint : IsInt32 t) (hpos : 0 < t)
    (hs : Storable s) (hk : Knows c i t s Flag.authenticated) {ni : NodeInfo} {reqId : Int}
    (hni : Presents ni t reqId) (hvacant : Vacant c.store i (ni.hostIp.getD [])) :
    ∃ c1, nodeRegister env c i ni = .ok (c1, LyS.registeringDoneSuccess) ∧ c1.io.sent = c.io.sent ∧
      Proved c c1 i t s Flag.registered ∧ (c1.store.ents i).dbId = t ∧ Stored c1.db t s := by
  obtain ⟨nd, hent, hnd⟩ := hk.tag
  have hfresh : lyEntityIsRegistered c.store i = false := by
    rw [lyEntityIsRegistered, lyEntityIs, slot?_natCast hi]
    simp only [hk.status]
    decide
  have hlearn : ({ nd with node := ni.learn env.cfg nd.node } : LYNodeData).node.hostTag = t := hnd
  have hk1 : Knows (c.setNode i { nd with node := ni.learn env.cfg nd.node }) i t s
    Flag.authenticated := hk.setNode hlearn
  have honly1 :
      OnlySlot i c.store (c.setNode i { nd with node := ni.learn env.cfg nd.node }).store :=
    .setNode (.refl i c.store) _
  have hactive : lyEntityNodeActive (c.setNode i { nd with node := ni.learn env.cfg nd.node }).store
      (ni.hostIp.getD []) = .ok false := by
    refine lyEntityNodeActive_vacant (hvacant.of_onlySlot hk.id honly1) ?_
    rw [hk1.status]
    decide
  have hstatus : ¬ NodeStatus.registered ≤ (ni.learn env.cfg nd.node).status :=
    Int.not_le.mpr hni.status
  have hip : (ni.learn env.cfg nd.node).hostIp.getD [] = ni.hostIp.getD [] := rfl
  obtain ⟨c1, hrun, hsent, hproved, hdb⟩ :=
    nodeRegisterTagged_knows hok hi hint hpos hs hk1 hlearn
  refine ⟨c1, ?_, hsent,
    ⟨hproved.knows, hproved.fd.trans (setNode_fd _ _ _), honly1.trans hproved.only⟩, hdb⟩
  rw [nodeRegister, if_neg (by rw [hfresh]; decide), hent]
  simp only [if_neg hstatus, hip, hactive, hni.tag, if_pos hpos]
  exact hrun

/-- The answer to a register request fits into its buffer. -/
theorem answer_fits {reqId ret : Int} {secret : Bytes} (hreq : IsInt32 reqId)
    (hret : IsInt32 ret) (hint : IsInt32 t) (hsecret : secret.length ≤ luoyunAuthDataLen) :
    ∃ text, lyxmlDataReplyAuthInfo reqId ret t secret = some text ∧ text ≠ [] ∧
      text.length < luoyunXmlDataMax := by
  have hlen : 0 < (xmlReplyAuthInfo reqId ret t secret).length ∧
      (xmlReplyAuthInfo reqId ret t secret).length < luoyunXmlDataMax := by
    have h0 : (xmlOpen .clc .node).length = 85 := by decide
    have h1 : (cstr "<response id=\"").length = 14 := by decide
    have h2 : (cstr "\" status=\"").length = 10 := by decide
    have h3 : (cstr "\"><data><tag>").length = 13 := by decide
    have h4 : (cstr "</tag><secret>").length = 14 := by decide
    have h5 : (cstr "</secret></data></response></luoyun>").length = 36 := by decide
    have h6 := length_dec_int32 hreq
    have h7 := length_dec_int32 hint
    have h8 := length_dec_int32 hret
    have h9 : luoyunXmlDataMax = 2048 := rfl
    have h10 : luoyunAuthDataLen = 40 := rfl
    simp only [xmlReplyAuthInfo, List.length_append]
    omega
  have hne : xmlReplyAuthInfo reqId ret t secret ≠ [] := List.ne_nil_of_length_pos hlen.1
  refine ⟨_, ?_, hne, hlen.2⟩
  rw [lyxmlDataReplyAuthInfo, xmlFits, if_neg (not_or.mpr ⟨hne, Nat.not_le.mpr hlen.2⟩)]

/-- A text that is followed by a zero byte. -/
theorem found_holdsText {q : LYPacketRecv} {m : Mem} {type : Int} {text : Bytes}
    (h : Found q m type text [])
    (hlen : text.length < luoyunXmlDataMax) (hzero : (0 : UInt8) ∉ text) :
    HoldsText (c.setPkt i q) i text := by
  have hmem : (c.setPkt i q).mem i = .ok m := by simp [Clc.mem, h.ready.buf]
  have hmax : sizeofLYPacketHeader + luoyunXmlDataMax ≤ luoyunPacketSizeMax := by decide
  have hend := h.zero
  rw [length_wire] at hend
  exact ⟨m, hmem, Mem.loadStr_text (by omega) h.payload hzero hend⟩

theorem document_sendable {type : Int} (h0 : 0 < type) (h1 : type < 2 ^ 31)
    {text : Bytes} (hne : text ≠ [])
    (hlen : text.length < luoyunXmlDataMax) : Sendable type text where
  pos := h0
  int32 := h1
  ne := hne
  fits := by
    have hmax : luoyunXmlDataMax + sizeofLYPacketHeader ≤ luoyunPacketSizeMax := by decide
    omega

theorem Knows.of_same (hk : Knows c i t s status) {c1 : Clc} (hstore : c1.store = c.store)
    (hdb : c1.db = c.db) :
    Knows c1 i t s status := by
  obtain ⟨hid, hfd, htype, htag, hsecret, hstatus, hrow⟩ := hk
  exact ⟨by rw [hstore]; exact hid, by rw [hstore]; exact hfd, by rw [hstore]; exact htype, by
    rw [hstore]; exact htag,
    by rw [hstore]; exact hsecret, by rw [hstore]; exact hstatus, by rw [hdb]; exact hrow⟩

/-- The secret in the answer to a register request: only a node that has just been given one is told
it. -/
def told (ret : Int) (s : Bytes) : Bytes :=
  if ret = LyS.registeringConfig then s.take luoyunAuthDataLen else []

theorem length_told (ret : Int) (s : Bytes) : (told ret s).length ≤ luoyunAuthDataLen := by
  unfold told
  split
  · exact List.length_take_le _ _
  · exact Nat.zero_le _

/-- The node is told what came of its request. -/
theorem registerAnswer_knows (hok : env.Works) (hpos : 0 < t) (hint : IsInt32 t)
    {reqId ret : Int} (hreq : IsInt32 reqId)
    (hret : IsInt32 ret) (hne0 : ret ≠ 0) (hk : Knows c i t s status) :
    ∃ c1 answer, registerAnswer env c i reqId ret = .ok (c1, 0) ∧
      lyxmlDataReplyAuthInfo reqId ret t (told ret s) = some answer ∧
      c1.io.sent = c.io.sent ++ [⟨(c.store.ents i).fd, PktType.nodeRegisterReply, answer⟩] ∧
      c1.store = c.store ∧ c1.db = c.db := by
  obtain ⟨nd, hent, hnd⟩ := hk.tag
  obtain ⟨answer, hanswer, hne, hlen⟩ := answer_fits hreq hret hint (length_told ret s)
  have hsendable : Sendable PktType.nodeRegisterReply answer :=
    document_sendable (by decide) (by decide) hne hlen
  have htold : (if ret = LyS.registeringConfig then
      (((c.store.ents i).auth.secret).getD []).take luoyunAuthDataLen
      else []) = told ret s := by
    rw [hk.secret]
    rfl
  rw [registerAnswer, if_neg hne0, hent]
  simp only [hnd, if_pos hpos, htold, hanswer, lyPacketSend_works hok c hk.fd hsendable]
  exact ⟨_, answer, rfl, rfl, rfl, rfl, rfl⟩

/-- A node has been registered for the request `reqId`. -/
structure Registered (c c1 : Clc) (i : Nat) (t : Int) (s : Bytes) (reqId : Int)
    (out : List Packet) : Prop where
  proved : Proved c c1 i t s Flag.registered
  dbId : (c1.store.ents i).dbId = t
  stored : Stored c1.db t s
  answer : ∃ answer, lyxmlDataReplyAuthInfo reqId LyS.registeringDoneSuccess t [] = some answer ∧
    out = [(PktType.nodeRegisterReply, answer)]

/-- The handler of a register request, once the node is known. -/
theorem handleRegister_answered (hok : env.Works) (hr : ReadsPlain env.readDoc)
    {c0 c1 : Clc} {ni : NodeInfo} {reqId ret : Int} {text : Bytes} (hinit : c.init i .node = c0)
    (hwell : (NodeMessage.register reqId ni).WellFormed)
      (htext : lyxmlDataNodeRegister reqId ni = some text)
    (hbuf : HoldsText c0 i text) (hrun : nodeRegister env c0 i ni = .ok (c1, ret))
      (hpos : 0 < t) (hint : IsInt32 t)
    (hret : IsInt32 ret) (hne0 : ret ≠ 0) (hk : Knows c1 i t s status) (size : Int) :
    ∃ c2 answer, handlePacket env c i PktType.nodeRegisterRequest size = .ok (c2, 0) ∧
      lyxmlDataReplyAuthInfo reqId ret t (told ret s) = some answer ∧
      c2.io.sent = c1.io.sent ++ [⟨(c1.store.ents i).fd, PktType.nodeRegisterReply, answer⟩] ∧
      c2.store = c1.store ∧ c2.db = c1.db := by
  have hmsg : (NodeMessage.register reqId ni).text = some text := htext
  have hpacket : handlePacket env c i PktType.nodeRegisterRequest size =
      ehProcessNodeXml env (c.init i .node) i := rfl
  obtain ⟨c2, answer, hrun2, hanswer, hsent2, hstore2, hdb2⟩ :=
    registerAnswer_knows hok hpos hint hwell.1 hret hne0 hk
  refine ⟨c2, answer, ?_, hanswer, hsent2, hstore2, hdb2⟩
  rw [hpacket, hinit, ehProcessNodeXml_register hr hwell hmsg hbuf]
  simp only [NodeMessage.handle, hrun, hrun2]

/-- A register request, when its handler has answered with `out`. -/
theorem register_handled (env : Env) (hi : i < lyEntityMax) {P : Clc → List Packet → Prop}
    (hfd : 0 ≤ (c.store.ents i).fd) (hempty : Emptied (c.store.ents i)) {ni : NodeInfo}
    {reqId : Int} {text : Bytes}
    (hwell : (NodeMessage.register reqId ni).WellFormed)
    (htext : lyxmlDataNodeRegister reqId ni = some text)
    (hhandle : ∀ q, HoldsText (c.setPkt i q) i text → ∃ c1 out,
      handlePacket env (c.setPkt i q) i PktType.nodeRegisterRequest text.length = .ok (c1, 0) ∧
      c1.io.sent = c.io.sent ++ out.map
        (fun p : Packet => ⟨(c.store.ents i).fd, p.1, p.2⟩) ∧ P c1 out)
    (hP : ∀ c1 q out, P c1 out → P (c1.setPkt i q) out) :
    ∃ c' out, clcParty env i c (PktType.nodeRegisterRequest, text) = some (c', out) ∧ P c' out ∧
      Emptied (c'.store.ents i) := by
  have hmsg : (NodeMessage.register reqId ni).text = some text := htext
  have hlen := NodeMessage.text_length hmsg
  have hzero : (0 : UInt8) ∉ text := by
    rw [NodeMessage.text_eq hmsg]
    exact zero_not_mem_messageText .node .clc (NodeMessage.item_plain hwell)
  have hnot : ¬ IsAuth PktType.nodeRegisterRequest := by
    unfold IsAuth
    decide
  have hs : Sendable PktType.nodeRegisterRequest text :=
    document_sendable (by decide) (by decide) (xmlFits_ne htext) hlen
  refine clcParty_packet env hi hfd hempty hs (fun h => absurd h hnot) ?_ hP
  intro q m hfound
  exact hhandle q (found_holdsText hfound hlen hzero)

/-- **The register request** of a node that has proved who it is. -/
theorem register_knows (hok : env.Works) (hr : ReadsPlain env.readDoc)
    (hi : i < lyEntityMax) (hint : IsInt32 t)
    (hpos : 0 < t) (hs : Storable s) (hk : Knows c i t s Flag.authenticated)
    (hempty : Emptied (c.store.ents i))
    {ni : NodeInfo} {reqId : Int} (hni : Presents ni t reqId) {text : Bytes}
    (htext : lyxmlDataNodeRegister reqId ni = some text)
    (hvacant : Vacant c.store i (ni.hostIp.getD [])) :
    ∃ c' out, clcParty env i c (PktType.nodeRegisterRequest, text) = some (c', out) ∧
      Registered c c' i t s reqId out ∧ Emptied (c'.store.ents i) := by
  refine register_handled env (P := fun c1 out => Registered c c1 i t s reqId out) hi hk.fd hempty
    hni.wellFormed htext ?_ ?_
  · intro q hbuf
    have hkq := hk.setPkt q
    have honlyq : OnlySlot i c.store (c.setPkt i q).store := .setPkt (.refl i c.store) q
    have hfdq : ((c.setPkt i q).store.ents i).fd = (c.store.ents i).fd := by rw [setPkt_ents]
    have hret : IsInt32 LyS.registeringDoneSuccess := by decide
    obtain ⟨c1, hrun, hsent, ⟨hk1, hfd, honly⟩, hdb, hstored⟩ :=
      nodeRegister_knows hok hi hint hpos hs hkq hni
      (hvacant.of_onlySlot hk.id honlyq)
    obtain ⟨c2, answer, hrun2, hanswer, hsent2, hstore2, hdb2⟩ :=
      handleRegister_answered hok hr (init_knows hi hkq .node)
      hni.wellFormed htext hbuf hrun hpos hint hret (by decide) hk1 text.length
    refine ⟨c2, [(PktType.nodeRegisterReply, answer)], hrun2, ?_,
      ⟨hk1.of_same hstore2 hdb2, ?_, ?_⟩, ?_, ?_, answer, hanswer, rfl⟩
    · rw [hsent2, hsent, hfd, hfdq]
      rfl
    · rw [hstore2, hfd, hfdq]
    · rw [hstore2]
      exact honlyq.trans honly
    · rw [hstore2, hdb]
    · rw [hdb2]
      exact hstored
  · intro c1 q out hdone
    exact ⟨hdone.proved.setPkt q, by rw [setPkt_ents]; exact hdone.dbId, hdone.stored, hdone.answer⟩

end Registration

end LuoYun

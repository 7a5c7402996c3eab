import LuoYun.Proof.HandshakeNode
import LuoYun.Proof.Lyauth

/-!
# A node joins

The controller and a node, and the packets that are on their way between them. Each takes its
packets in the order in which they were sent, but nothing says who is next. One order is followed
from the node's first packet to the end, and by `Duplex.run_of_done` every other one ends there too,
after as many packets.

So a node that knows its secret comes to be registered, and so does the connection that the
controller has for it (`handshake_known`); and a node that knows nothing, but has been enabled, is
given a tag and a secret first (`handshake_new`).
-/

namespace LuoYun

open LuoYun.Duplex LuoYun.Markup

/-- The controller, with the node in slot `i`, and the node. -/
abbrev NodeLink := Pair Clc NodeControl Packet Packet

/-- A packet is taken. -/
abbrev LinkStep (env : Env) (wenv : WorkEnv) (i : Nat) : NodeLink → NodeLink → Prop :=
  Step (clcParty env i) (nodeParty wenv)

/-- The node has connected, and its first packet is on its way. -/
def firstContact (wenv : WorkEnv) (c : Clc) (g : NodeControl) : NodeLink where
  left := c
  right := workConnect wenv g
  toLeft := (workConnect wenv g).sent.drop g.sent.length

/-- Both take the node for registered, under the tag `t` and with the secret `s`. -/
structure Joined (p : NodeLink) (i : Nat) (ip : Bytes) (t : Int) (s : Bytes) : Prop where
  quiet : p.Quiet
  node : Enrolled ip t s p.right
  state : p.right.state = NodeStatus.registered
  clc : Knows p.left i t s Flag.registered
  dbId : (p.left.store.ents i).dbId = t
  stored : Stored p.left.db t s

section Finish

variable {env : Env} {wenv : WorkEnv} {i : Nat} {ip : Bytes} {t : Int}
    {s : Bytes} {ks : Nat → UInt8}

/-- What the two agree on before they begin. -/
structure Agreed (env : Env) (wenv : WorkEnv) (i : Nat) (ip : Bytes) (t : Int)
    (s : Bytes) (ks : Nat → UInt8) :
    Prop where
  works : env.Works
  readDoc : ReadsPlain env.readDoc
  slot : i < lyEntityMax
  tag : IsInt32 t
  pos : 0 < t
  secret : Storable s
  cipher : env.cipher s = some ks
  node : NodeWorks wenv ip
  cipherNode : wenv.cipher s = some ks

/-- **From the challenges to the end.** -/
theorem run_challenged (ha : Agreed env wenv i ip t s ks) {c0 c : Clc}
    {g : NodeControl} {ch ch' : Uuid}
    (hid : (c0.store.ents i).id = i) (hvacant : Vacant c0.store i ip)
    (hc : Challenged c0 c i t s ch)
    (hempty : Emptied (c.store.ents i)) (hg : Enrolled ip t s g)
    (hstate : g.state = NodeStatus.authenticating) (hch : g.auth.challenge = some ch') :
    ∃ e, Run (LinkStep env wenv i) 5
      ⟨c, g, [], challengePackets t ks (strncpy luoyunAuthDataLen ch'.text) ch⟩ e ∧
        Joined e i ip t s := by
  have hlen := length_strncpy luoyunAuthDataLen ch.text
  -- the node
  obtain ⟨g1, hrun1, hg1, hstate1⟩ := reply_node hg hstate hch ha.cipherNode t
  obtain ⟨g2, text, reqId, hrun2, hasks, hg2, hstate2⟩ :=
    request_node ha.node hg1 ha.tag hstate1 ha.cipherNode t hlen
  -- the controller
  obtain ⟨c1, hrun3, hc1, hempty1⟩ := reply_knows ha.slot hc.knows hc.challenge hempty ha.cipher t
  have hvacant1 : Vacant c1.store i (g2.node.hostIp.getD []) := by
    rw [hasks.node.ip]
    exact hvacant.of_onlySlot hid (hc.only.trans hc1.only)
  obtain ⟨c2, out, hrun4, ⟨⟨hk2, -, -⟩, hdb2, hstored2, answer, hanswer, rfl⟩, -⟩ :=
    register_knows ha.works ha.readDoc ha.slot ha.tag
    ha.pos ha.secret hc1.knows hempty1 hasks.presents hasks.text hvacant1
  -- the node again
  obtain ⟨g3, hrun5, hg3, hstate3⟩ := done_node ha.node hg2 ha.tag hanswer
  refine ⟨⟨c2, g3, [], []⟩, ?_, ⟨⟨rfl, rfl⟩, hg3, hstate3, hk2, hdb2, hstored2⟩⟩
  refine .head (.right hrun1) <| .head (.right hrun2) <| .head (.left hrun3) <|
    .head (.left hrun4) <|
    .head (.right hrun5) ?_
  exact .refl _

/-- **A node that knows its secret joins.** Whoever takes the next packet, after six of them both
sides take the node for registered. -/
theorem handshake_known (ha : Agreed env wenv i ip t s ks) {c : Clc} {g : NodeControl} {r : NodeRow}
    (hfresh : FreshConn (c.store.ents i)) (hid : (c.store.ents i).id = i)
    (hvacant : Vacant c.store i ip)
    (hrow : c.db.nodesById t = [r]) (hkey : nonEmpty r.key = some s) (hip : nonEmpty r.ip ≠ none)
    (htag : g.node.hostTag = t) (hsecret : g.auth.secret = some s) (hn : Presentable ip g.node) :
    ∃ e, Joined e i ip t s ∧ ∀ n p, Run (LinkStep env wenv i) n (firstContact wenv c g) p →
      n ≤ 6 ∧ Run (LinkStep env wenv i) (6 - n) p e := by
  obtain ⟨ch, hsent, hg, hstate, hch⟩ := workConnect_known ha.node ha.pos htag hsecret hn
  obtain ⟨c1, ch1, hrun1, hc1, hempty1⟩ :=
    request_fresh ha.works ha.slot hfresh hid ha.tag hrow hkey hip ha.cipher
    (length_strncpy luoyunAuthDataLen ch.text)
  obtain ⟨e, hrun, hjoined⟩ := run_challenged ha hid hvacant hc1 hempty1 hg hstate hch
  have hstart : firstContact wenv c g = ⟨c, workConnect wenv g,
      [(PktType.nodeAuthRequest, authInfo t (strncpy luoyunAuthDataLen ch.text))], []⟩ := by
    rw [firstContact, hsent, List.drop_left' rfl]
  have hall : Run (LinkStep env wenv i) 6 (firstContact wenv c g) e := by
    rw [hstart]
    exact .head (.left hrun1) hrun
  exact ⟨e, hjoined, fun n p hp => run_of_done hall hjoined.quiet hp⟩

end Finish

/-! ## A node with a secret -/

/-- ARCFOUR; libgcrypt refuses a key of less than forty bits. -/
def arcfour : Cipher := fun key =>
  if key.length < 5 then none
  else some (Osm.keyStream key)

theorem arcfour_some (key : Bytes) (h : 5 ≤ key.length) : ∃ ks, arcfour key = some ks :=
  ⟨_, if_neg (Nat.not_lt.mpr h)⟩

/-- Surroundings of the controller in which its calls succeed. -/
def Env.arcfour : Env := { Env.plain with cipher := LuoYun.arcfour, readDoc := plainReader }

/-- Surroundings of a node in which its calls succeed. -/
def WorkEnv.arcfour : WorkEnv :=
  { WorkEnv.plain with cipher := LuoYun.arcfour, readDoc := plainReader }

/-- The data of a node. -/
def demoNode (hostTag : Int) : NodeInfo :=
  { hostTag
    hostName := some (cstr "node1")
    hostIp := some (cstr "10.0.0.1")
    cpuModel := some (cstr "Xeon") }

theorem demoNode_presentable (hostTag : Int) :
    Presentable (cstr "10.0.0.1") (demoNode hostTag) := by
  refine ⟨rfl, ?_, ?_⟩
  · show ∀ t ∈ [cstr "node1", cstr "10.0.0.1", cstr "Xeon"], PlainText t ∧ t ≠ [] ∧ t.length ≤ 256
    decide +kernel
  · show ∀ x ∈ [(0 : Int), 0, 0, 0, 0, 0, 0, 0, 0, 0, 0, 0], IsUInt32 x
    decide

theorem arcfour_nodeWorks : NodeWorks .arcfour (cstr "10.0.0.1") where
  connect := by
    have hfd : (0 : Int) < 5 := by decide
    exact fun _ => hfd
  sendmsg := fun _ => rfl
  readDoc := plainReader_reads
  host := by
    have hone : 1 < 2 ^ 32 := by decide
    have hzero : (0 : Int) < 2 ^ 32 := by decide
    exact fun _ _ => ⟨.inl rfl, ⟨Nat.one_pos, hone⟩, ⟨Nat.one_pos, hone⟩, ⟨le_rfl, hzero⟩, rfl⟩

/-- The slot of a new connection. -/
theorem newConnection_slot (db : Db) : ((newConnection db).clc.store.ents 1).id = (1 : Nat) ∧
    ∀ ip, Vacant (newConnection db).clc.store 1 ip := by
  have hstart : (World.start db []).clc.store = .listening 3 fun _ =>
      0 := by simp only [World.start]
  have hid : ((lyEntityNew (.listening 3 fun _ => 0) 4 fun _ => 0).1.ents 1).id =
      (1 : Nat) := by decide +kernel
  have hnil : (lyEntityNew (.listening 3 fun _ => 0) 4 fun _ => 0).1.nodeList =
      [] := by decide +kernel
  rw [newConnection, epollWorkRecv_store, hstart]
  refine ⟨hid, fun ip j hj => ?_⟩
  rw [hnil] at hj
  cases hj

/-- The row of a node that has been registered before. -/
def knownRow : NodeRow :=
  { id := 1, id_pos := Int.one_pos, ip := some (cstr "10.0.0.1"), key := some (cstr "luoyun") }

theorem handshake_known_demo :
    ∃ e, Joined e 1 (cstr "10.0.0.1") 1 (cstr "luoyun") ∧ ∀ n p,
      Run (LinkStep .arcfour .arcfour 1) n
      (firstContact .arcfour (newConnection { nodes := [knownRow] }).clc
        { node := demoNode 1, auth := { secret := some (cstr "luoyun") } }) p →
      n ≤ 6 ∧ Run (LinkStep .arcfour .arcfour 1) (6 - n) p e := by
  obtain ⟨ks, hks⟩ := arcfour_some (cstr "luoyun") (by decide)
  have ha : Agreed .arcfour .arcfour 1 (cstr "10.0.0.1") 1 (cstr "luoyun") ks := {
    works := ⟨fun _ _ => rfl, fun _ => rfl⟩
    readDoc := plainReader_reads
    slot := by decide
    tag := by decide
    pos := by decide
    secret := ⟨by decide, by decide⟩
    cipher := hks
    node := arcfour_nodeWorks
    cipherNode := hks }
  obtain ⟨hid, hvacant⟩ := newConnection_slot { nodes := [knownRow] }
  have hdb := newConnection_db { nodes := [knownRow] }
  refine handshake_known ha (r := knownRow) (newConnection_fresh _) hid
    (hvacant _) ?_ rfl ?_ rfl rfl (demoNode_presentable 1)
  · rw [hdb]
    rfl
  · exact Option.some_ne_none _

end LuoYun

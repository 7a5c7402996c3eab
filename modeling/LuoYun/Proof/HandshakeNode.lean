import LuoYun.Proof.HandshakeClc
import LuoYun.Proof.NodeInfo

/-!
# The node's side of the handshake

The node asks the controller for a proof, accepts it, and answers the controller's own challenge;
then it brings its data up to date and registers with them. Its data change from one packet to the
next, as memory and load do, but they stay fit for a register request (`Presentable`).
-/

namespace LuoYun

open LuoYun.Markup

/-! ## The data of a node -/

/-- The data of a node at address `ip` that make a register request: its texts are plain, short and
not empty, and its numbers are values of their types. -/
structure Presentable (ip : Bytes) (ni : NodeInfo) : Prop where
  ip : ni.hostIp = some ip
  texts : ∀ t ∈ registerTexts ni, PlainText t ∧ t ≠ [] ∧ t.length ≤ 256
  nats : ∀ x ∈ registerNats ni, IsUInt32 x

theorem Presentable.ip_ne {ip : Bytes} {ni : NodeInfo} (h : Presentable ip ni) : ip ≠ [] := by
  have hmem : ip ∈ registerTexts ni := by
    rw [registerTexts, h.ip]
    exact List.mem_cons_of_mem _ (List.mem_cons_self ..)
  exact (h.texts ip hmem).2.1

/-- What the host and libvirt answer, so that an update succeeds. -/
structure HostWorks (ip : Bytes) (hv : Hypervisor) (host : HostState) : Prop where
  nodeIp : host.nodeIp = none ∨ host.nodeIp = some ip
  memory : 0 < host.freeMemory ∧ host.freeMemory < 2 ^ 32
  storage : 0 < host.freeStorage ∧ host.freeStorage < 2 ^ 32
  load : 0 ≤ host.loadAverage ∧ host.loadAverage < 2 ^ 32
  answers : hv.answers = true

/-- The status of a node that is not online yet is reported as it is. -/
theorem reportedStatus_early {host : HostState} (h : host.state < NodeStatus.online) :
    reportedStatus host = host.state := if_neg fun hon => absurd hon.1 (Int.not_le.mpr h)

/-- What the host says of itself. -/
def NodeInfo.seen (host : HostState) (ni : NodeInfo) : NodeInfo :=
  { ni with
    memFree := host.freeMemory
    storageFree := host.freeStorage
    loadAverage := host.loadAverage
    status := reportedStatus host }

/-- **An update succeeds and leaves the data fit for a request**, with the status of the node in
them. -/
theorem update_presentable {ip : Bytes} {hv : Hypervisor} {host : HostState} {ni : NodeInfo}
    (hf : Presentable ip ni)
    (hw : HostWorks ip hv host) (h0 : 0 ≤ host.state) (h1 : host.state < NodeStatus.online) :
    ∃ ni', lyNodeInfoUpdate hv host ni = (ni', 0) ∧ Presentable ip ni' ∧ ni'.hostTag = ni.hostTag ∧
      ni'.status = host.state ∧ registerTexts ni' = registerTexts ni := by
  obtain ⟨hip, htexts, hnats⟩ := hf
  have hsame : (if host.nodeIp = none then ni else { ni with hostIp := host.nodeIp }) = ni := by
    rcases hw.nodeIp with h | h
    · rw [if_pos h]
    · rw [h, if_neg (by simp), ← hip]
  have hstate : IsUInt32 host.state := ⟨h0, by simp only [NodeStatus.online] at h1; omega⟩
  have hmem := hw.memory
  have hstorage := hw.storage
  simp only [registerNats, List.forall_mem_cons] at hnats
  obtain ⟨-, hhyp, harch, hmhz, hmax, hcpu, hmm, -, hcommit, hstot, -, -, hnil⟩ := hnats
  have hwrap : ∀ n : Int, IsUInt32 (toUInt32 n) := by
    intro n
    unfold toUInt32 IsUInt32
    omega
  have hrun : lyNodeInfoUpdate hv host ni = ((libvirtNodeInfoUpdate hv (ni.seen host)).1,
      if (libvirtNodeInfoUpdate hv (ni.seen host)).2 < 0 then -1 else 0) := by
    simp only [lyNodeInfoUpdate, hsame, if_neg (Nat.pos_iff_ne_zero.mp hmem.1),
      if_neg (Nat.pos_iff_ne_zero.mp hstorage.1), if_neg (Int.not_lt.mpr hw.load.1)]
    rfl
  have hfine : ∀ cpu mem : Int, IsUInt32 cpu → IsUInt32 mem →
      Presentable ip { ni.seen host with cpuCommit := cpu, memCommit := mem } := by
    intro cpu mem hc hm
    refine ⟨hip, htexts, ?_⟩
    simp only [registerNats, NodeInfo.seen, List.forall_mem_cons, reportedStatus_early h1]
    have hfree : IsUInt32 host.freeMemory := by
      unfold IsUInt32
      omega
    have hsfree : IsUInt32 host.freeStorage := by
      unfold IsUInt32
      omega
    exact ⟨hstate, hhyp, harch, hmhz, hmax, hc, hmm, hfree, hm, hstot, hsfree, hw.load, hnil⟩
  have hstatus : (ni.seen host).hostTag = ni.hostTag ∧ (ni.seen host).status = host.state ∧
      registerTexts (ni.seen host) = registerTexts ni := ⟨rfl, reportedStatus_early h1, rfl⟩
  rcases libvirtNodeInfoUpdate_cases hv (ni.seen host) with ⟨hno, -⟩ |
      ⟨-, -, hidle⟩ | ⟨-, -, n, hsums⟩
  · rw [hw.answers] at hno
    cases hno
  · rw [hidle] at hrun
    exact ⟨ni.seen host, hrun, hfine ni.cpuCommit ni.memCommit hcpu hcommit, hstatus⟩
  · rw [hsums, if_neg (by simp)] at hrun
    exact ⟨_, hrun, hfine _ _ (hwrap _) (hwrap _), hstatus⟩

theorem length_decU (x : Int) : (decU x).length ≤ 11 := length_dec_int32 (toInt32_isInt32 x)

/-- The text around the fields. -/
theorem registerText_empty : (xmlNodeRegister 0 {}).length = 517 := by decide +kernel

/-- Such data fit into a register request. -/
theorem register_fits {ip : Bytes} {ni : NodeInfo} (hf : Presentable ip ni)
    (htag : IsInt32 ni.hostTag) {reqId : Int} (hreq : IsInt32 reqId) :
    ∃ text, lyxmlDataNodeRegister reqId ni = some text ∧
      (NodeMessage.register reqId ni).WellFormed := by
  have hfixed : (xmlNodeRegister 0 {}).length = 517 := registerText_empty
  have htexts := hf.texts
  simp only [registerTexts, List.map_cons, List.map_nil, List.forall_mem_cons] at htexts
  obtain ⟨⟨-, hne, hname⟩, ⟨-, -, hip⟩, ⟨-, -, hmodel⟩, -⟩ := htexts
  have hint : ∀ x, IsUInt32 x → (dec x).length ≤ 11 := by
    intro x hx
    have hlen : (decNat x.natAbs).length ≤ 10 := by
      refine length_decNat (by decide) ?_
      obtain ⟨h0, h1⟩ := hx
      omega
    rw [dec]
    split
    · exact Nat.succ_le_succ hlen
    · omega
  have hnats := hf.nats
  simp only [registerNats, List.forall_mem_cons] at hnats
  obtain ⟨-, -, -, -, -, -, hmm, hmf, hmc, hst, hsf, -, -⟩ := hnats
  have hmax : luoyunXmlDataMax = 2048 := rfl
  have hlen : 0 < (xmlNodeRegister reqId ni).length ∧
      (xmlNodeRegister reqId ni).length < luoyunXmlDataMax := by
    have hpos := List.length_pos_of_ne_nil hne
    delta xmlNodeRegister at hfixed ⊢
    simp only [List.length_append] at hfixed ⊢
    -- `hfixed` counts the template, and these count the numbers
    have n1 := length_dec_int32 hreq
    have n2 := length_dec_int32 htag
    have n3 := hint _ hmm
    have n4 := hint _ hmf
    have n5 := hint _ hmc
    have n6 := hint _ hst
    have n7 := hint _ hsf
    have n8 := length_decU ni.status
    have n9 := length_decU ni.hypervisor
    have n10 := length_decU ni.cpuArch
    have n11 := length_decU ni.cpuMhz
    have n12 := length_decU ni.cpuMax
    have n13 := length_decU ni.cpuCommit
    have n14 := length_decU ni.loadAverage
    omega
  have hsome : xmlNodeRegister reqId ni ≠ [] := List.ne_nil_of_length_pos hlen.1
  refine ⟨xmlNodeRegister reqId ni, ?_, hreq, htag, hf.nats,
    fun t ht => ⟨(hf.texts t ht).1, (hf.texts t ht).2.1⟩⟩
  rw [lyxmlDataNodeRegister, xmlFits, if_neg (not_or.mpr ⟨hsome, Nat.not_le.mpr hlen.2⟩)]

/-! ## Packets -/

/-- A packet as the handlers of the node see it. -/
def workPacketOf (p : Packet) : WorkPacket := ⟨p.1, p.2.length, p.2, p.2.takeWhile (· ≠ 0)⟩

/-- The node takes a packet from the controller. -/
def nodeParty (env : WorkEnv) : Duplex.Party NodeControl Packet Packet := fun g p =>
  let r := workPacket env g (workPacketOf p)
  if r.2 = 0 then some (r.1, r.1.sent.drop g.sent.length) else none

theorem nodeParty_packet {env : WorkEnv} {g g' : NodeControl} {p : Packet} {out : List Packet}
    (h : workPacket env g (workPacketOf p) = (g', 0)) (hsent : g'.sent = g.sent ++ out) :
    nodeParty env g p = some (g', out) := by
  rw [nodeParty, h]
  simp [hsent]

/-- What a node calls works, and its host is at address `ip`. -/
structure NodeWorks (env : WorkEnv) (ip : Bytes) : Prop where
  connect : ∀ n, 0 < env.connect n
  sendmsg : ∀ n, env.sendmsg n = .all
  readDoc : ReadsPlain env.readDoc
  host : ∀ n state, HostWorks ip (env.hypervisor n) { env.host n with state }

/-- A node with the tag `t` and the secret `s`. -/
structure Enrolled (ip : Bytes) (t : Int) (s : Bytes) (g : NodeControl) : Prop where
  wfd : 0 ≤ g.wfd
  tag : g.node.hostTag = t
  secret : g.auth.secret = some s
  node : Presentable ip g.node

section Steps

variable {env : WorkEnv} {ip : Bytes} {g : NodeControl}

theorem workSend_works (hw : NodeWorks env ip) (hfd : 0 ≤ g.wfd) {type : Int} {data : Bytes}
    (hs : Sendable type data) :
    workSend env g type data = ({ g.called with sent := g.sent ++ [(type, data)] }, 0) := by
  have hframe : lyPacketFrame g.wfd type data = .ok (wire type data) :=
    (lyPacketFrame_ok_iff hfd hs.int32).mpr ⟨hs, rfl⟩
  simp only [workSend, hframe, hw.sendmsg, if_true, SendResult.code]

/-- The node asks for a proof. -/
theorem requestChallenging_works (hw : NodeWorks env ip) (hfd : 0 ≤ g.wfd) :
    ∃ g' ch, requestChallenging env g = (g', 0) ∧
      g'.sent = g.sent ++
        [(PktType.nodeAuthRequest, authInfo g.node.hostTag (strncpy luoyunAuthDataLen ch.text))] ∧
      g'.state = NodeStatus.authenticating ∧ g'.auth = { g.auth with challenge := some ch } ∧
        g'.node = g.node ∧
      g'.wfd = g.wfd := by
  have hs : ∀ ch : Uuid, Sendable PktType.nodeAuthRequest
      (le32 g.node.hostTag ++ strncpy luoyunAuthDataLen ch.text) := fun ch =>
    authInfo_sendable (by decide) (by decide) _ (length_strncpy _ _)
  unfold requestChallenging
  dsimp only
  generalize env.uuid g.tick = ch
  rw [workSend_works hw (by exact hfd) (by exact hs ch)]
  exact ⟨_, ch, rfl, rfl, rfl, rfl, rfl, rfl⟩

/-- What a register request says. -/
structure Asks (ip : Bytes) (text : Bytes) (reqId : Int) (ni : NodeInfo) (t : Int) : Prop where
  text : lyxmlDataNodeRegister reqId ni = some text
  presents : Presents ni t reqId
  node : Presentable ip ni

/-- The node sends a register request. -/
theorem requestRegister_works (hw : NodeWorks env ip) (hfd : 0 ≤ g.wfd) (hn : Presentable ip g.node)
    (htag : IsInt32 g.node.hostTag) (h0 : 0 ≤ g.state) (h1 : g.state < NodeStatus.unregistered) :
    ∃ g' text reqId, requestRegister env g = (g', 0) ∧
      g'.sent = g.sent ++ [(PktType.nodeRegisterRequest, text)] ∧
      Asks ip text reqId g'.node g.node.hostTag ∧ registerTexts g'.node =
        registerTexts g.node ∧ g'.auth = g.auth ∧
      g'.wfd = g.wfd ∧ g'.state = if NodeStatus.authenticated ≤ g.state then
        NodeStatus.registering
        else g.state := by
  obtain ⟨ni, hupdate, hni, htag', hstatus, hsame⟩ :=
    update_presentable hn (hw.host g.tick g.state) h0
    (h1.trans (by decide))
  have hupd : workNodeInfoUpdate env g = ({ g.called with node := ni }, 0) := by
    simp only [workNodeInfoUpdate]
    rw [hupdate]
  have hreq := toInt32_isInt32 g.requestId
  obtain ⟨text, htext, hwell⟩ := register_fits hni (htag'.symm ▸ htag) hreq
  have hmsg : (NodeMessage.register (toInt32 g.requestId) ni).text = some text := htext
  have hs : Sendable PktType.nodeRegisterRequest text :=
    document_sendable (by decide) (by decide) (xmlFits_ne htext) (NodeMessage.text_length hmsg)
  have hsend : ∀ g1 : NodeControl, g1.wfd = g.wfd →
      workSend env g1 PktType.nodeRegisterRequest text =
      ({ g1.called with sent := g1.sent ++ [(PktType.nodeRegisterRequest, text)] }, 0) :=
    fun g1 h => workSend_works hw (h.symm ▸ hfd) hs
  have hask : Asks ip text (toInt32 g.requestId) ni g.node.hostTag := by
    refine ⟨htext, ⟨htag', ?_, hwell⟩, hni⟩
    rw [hstatus]
    exact h1.trans (by decide)
  rw [requestRegister, hupd]
  simp only [lt_irrefl, if_false]
  -- only a node that is authenticated goes on to wait for the answer
  by_cases hauth : NodeStatus.authenticated ≤ g.state
  · have hcond : NodeStatus.unauthenticated ≤ g.called.state ∧
        NodeStatus.authenticated ≤ g.called.state :=
      ⟨le_trans (by decide) hauth, hauth⟩
    simp only [if_pos hcond, if_pos hauth]
    simp only [NodeControl.setState, NodeControl.mark, NodeControl.called, htext, hsend, lt_irrefl,
      if_false, if_true]
    exact ⟨_, text, _, rfl, rfl, hask, hsame, rfl, rfl, rfl⟩
  · have hcond : ¬ (NodeStatus.unauthenticated ≤ g.called.state ∧
        NodeStatus.authenticated ≤ g.called.state) :=
      fun h => hauth h.2
    have hne : ¬ g.state = NodeStatus.unregistered := (ne_of_lt h1)
    simp only [if_neg hcond, if_neg hauth]
    simp only [NodeControl.called, htext, hsend, lt_irrefl, if_false, if_neg hne]
    exact ⟨_, text, _, rfl, rfl, hask, hsame, rfl, rfl, rfl⟩

variable {t : Int} {s : Bytes} {ks : Nat → UInt8}

theorem length_authInfo (tag : Int) {data : Bytes} (hlen : data.length = luoyunAuthDataLen) :
    ((authInfo tag data).length : Int) = sizeofAuthInfo := by
  rw [authInfo, List.length_append, length_le32, hlen]
  rfl

/-- The controller has proved that it knows the secret. -/
theorem reply_node (hh : Enrolled ip t s g)
    (hstate : g.state = NodeStatus.authenticating) {ch : Uuid}
    (hch : g.auth.challenge = some ch) (hks : env.cipher s = some ks) (tag : Int) :
    ∃ g', nodeParty env g (PktType.nodeAuthReply,
      authInfo tag (xorFrom ks 0 (strncpy luoyunAuthDataLen ch.text))) =
        some (g', []) ∧ Enrolled ip t s g' ∧ g'.state = NodeStatus.authenticated := by
  have hlen : (xorFrom ks 0 (strncpy luoyunAuthDataLen ch.text)).length = luoyunAuthDataLen := by
    rw [length_xorFrom, length_strncpy]
  have hpacket : ∀ data : Bytes, workPacket env g (workPacketOf (PktType.nodeAuthReply, data)) =
      processWorkAuthtication env g true data data.length := fun _ => rfl
  have hdrop : (authInfo tag (xorFrom ks 0 (strncpy luoyunAuthDataLen ch.text))).drop 4 =
      xorFrom ks 0 (strncpy luoyunAuthDataLen ch.text) := List.drop_left' rfl
  have hverify :
      (lyauthVerify env.cipher g.auth (xorFrom ks 0 (strncpy luoyunAuthDataLen ch.text))).1 =
      1 := by
    simp [lyauthVerify, lyauthAnswer, lyauthCrypt, hch, hh.secret, hks, xorFrom_xorFrom,
      strcaseEq_strncpy]
  refine ⟨(g.mark (.verified ch)).setState NodeStatus.authenticated,
    nodeParty_packet ?_ (List.append_nil _).symm, ⟨hh.wfd, hh.tag, hh.secret, hh.node⟩, rfl⟩
  rw [hpacket, processWorkAuthtication, if_neg (not_not.mpr (length_authInfo tag hlen)), if_pos rfl,
    hdrop, processAuthReply, if_neg (not_not.mpr hstate)]
  simp only [hverify, hch]
  rfl

/-- The node answers the challenge of the controller, and registers. -/
theorem request_node (hw : NodeWorks env ip) (hh : Enrolled ip t s g) (hint : IsInt32 t)
    (hstate : g.state = NodeStatus.authenticated) (hks : env.cipher s = some ks)
    (tag : Int) {data : Bytes} (hlen : data.length = luoyunAuthDataLen) :
    ∃ g' text reqId, nodeParty env g (PktType.nodeAuthRequest, authInfo tag data) =
        some (g', [(PktType.nodeAuthReply, authInfo tag (xorFrom ks 0 data)),
          (PktType.nodeRegisterRequest, text)]) ∧
      Asks ip text reqId g'.node t ∧ Enrolled ip t s g' ∧ g'.state = NodeStatus.registering := by
  have hpacket : workPacket env g (workPacketOf (PktType.nodeAuthRequest, authInfo tag data)) =
      processWorkAuthtication env g false (authInfo tag data) (authInfo tag data).length := rfl
  have hsplit : (authInfo tag data).take 4 = le32 tag ∧ (authInfo tag data).drop 4 = data :=
    ⟨List.take_left' rfl, List.drop_left' rfl⟩
  have hanswer : lyauthAnswer env.cipher g.auth data = some (xorFrom ks 0 data) := by
    simp [lyauthAnswer, lyauthCrypt, hh.secret, hks]
  have hxlen : (xorFrom ks 0 data).length = luoyunAuthDataLen := by rw [length_xorFrom, hlen]
  have hsendable : Sendable PktType.nodeAuthReply (authInfo tag (xorFrom ks 0 data)) :=
    authInfo_sendable (by decide) (by decide) tag hxlen
  have hsend := workSend_works hw hh.wfd hsendable
  rw [authInfo] at hsend
  obtain ⟨g1, hg1, hwfd1, hstate1, hnode1, hauth1, hsent1⟩ :
      ∃ g1, workSend env g PktType.nodeAuthReply
      (le32 tag ++ xorFrom ks 0 data) = (g1, 0) ∧ g1.wfd = g.wfd ∧
        g1.state = NodeStatus.authenticated ∧
      g1.node = g.node ∧ g1.auth = g.auth ∧
      g1.sent = g.sent ++ [(PktType.nodeAuthReply, authInfo tag (xorFrom ks 0 data))] :=
    ⟨_, hsend, rfl, hstate, rfl, rfl, rfl⟩
  obtain ⟨g2, text, reqId, hrun, hsent2, hasks, -, hauth2, hwfd2, hstate2⟩ :=
    requestRegister_works (g := g1) hw
    (by rw [hwfd1]; exact hh.wfd) (by rw [hnode1]; exact hh.node)
      (by rw [hnode1, hh.tag]; exact hint)
    (by rw [hstate1]; decide) (by rw [hstate1]; decide)
  rw [hnode1, hh.tag] at hasks
  rw [hstate1, if_pos (by decide)] at hstate2
  have hregister : lyRegisterNode env g1 = (g2, 0) := by
    rw [lyRegisterNode, if_neg (by rw [hwfd1]; exact Int.not_lt.mpr hh.wfd),
      if_neg (by rw [hstate1]; decide), hrun]
  refine ⟨g2, text, reqId, nodeParty_packet ?_ ?_, hasks,
    ⟨by rw [hwfd2, hwfd1]; exact hh.wfd, hasks.presents.tag, by
      rw [hauth2, hauth1]; exact hh.secret, hasks.node⟩, hstate2⟩
  · rw [hpacket, processWorkAuthtication, if_neg (not_not.mpr (length_authInfo tag hlen)),
      if_neg (by decide), hsplit.1, hsplit.2, processAuthRequest, hanswer]
    simp only [hg1, lt_irrefl, if_false, hregister]
  · rw [hsent2, hsent1, List.append_assoc]
    rfl

/-- The answer to a register request. -/
theorem workPacket_authInfo (hr : ReadsPlain env.readDoc)
    {reqId status tag : Int} {secret text : Bytes}
    (h : (ClcMessage.authInfo reqId status tag secret).WellFormed)
    (htext : (ClcMessage.authInfo reqId status tag secret).text = some text) {type : Int}
    (htype : isOther type = false ∧ isDocument type = true) (g : NodeControl) :
    workPacket env g (workPacketOf (type, text)) = ((registerResult env g status tag secret).1,
      if (registerResult env g status tag secret).2 < 0 then -1 else 0) := by
  have hzero : (0 : UInt8) ∉ text := by
    rw [ClcMessage.text_eq htext]
    exact zero_not_mem_messageText .clc .node (ClcMessage.item_plain h)
  have hwhole : text.takeWhile (· ≠ 0) = text := by
    refine List.takeWhile_eq_self_iff.mpr fun b hb => decide_eq_true ?_
    rintro rfl
    exact hzero hb
  rw [workPacket, workPacketOf, if_pos htype, hwhole]
  exact processWorkXml_authInfo hr h htext g

/-- The controller says that the node is registered. -/
theorem done_node (hw : NodeWorks env ip) (hh : Enrolled ip t s g) (hint : IsInt32 t)
    {reqId : Int} {text : Bytes}
    (htext : lyxmlDataReplyAuthInfo reqId LyS.registeringDoneSuccess t [] = some text) :
    ∃ g', nodeParty env g (PktType.nodeRegisterReply, text) = some (g', []) ∧ Enrolled ip t s g' ∧
      g'.state = NodeStatus.registered := by
  have hwell : (ClcMessage.authInfo reqId LyS.registeringDoneSuccess t []).WellFormed :=
    ⟨by decide, hint, plainText_nil⟩
  refine ⟨g.setState NodeStatus.registered, nodeParty_packet ?_ (List.append_nil _).symm,
    ⟨hh.wfd, hh.tag, hh.secret, hh.node⟩, rfl⟩
  rw [workPacket_authInfo hw.readDoc hwell htext (by decide)]
  rfl

/-- The controller has given out a tag and a secret. -/
theorem config_node (hw : NodeWorks env ip) (hfd : 0 ≤ g.wfd)
    (hn : Presentable ip g.node) (hint : IsInt32 t)
    (hplain : PlainText s) (hne : s ≠ []) {reqId : Int} {text : Bytes}
    (htext : lyxmlDataReplyAuthInfo reqId LyS.registeringConfig t s = some text) :
    ∃ g' ch, nodeParty env g (PktType.nodeRegisterReply, text) =
        some (g', [(PktType.nodeAuthRequest, authInfo t (strncpy luoyunAuthDataLen ch.text))]) ∧
      Enrolled ip t s g' ∧ g'.state = NodeStatus.authenticating ∧ g'.auth.challenge = some ch := by
  have hwell : (ClcMessage.authInfo reqId LyS.registeringConfig t s).WellFormed :=
    ⟨by decide, hint, hplain⟩
  obtain ⟨g1, hg1, hstate1, hwfd1, hnode1, hauth1, hsent1⟩ : ∃ g1,
      ((g.setTag t).setSecret (some s)).setState NodeStatus.initialized = g1 ∧
        g1.state = NodeStatus.initialized ∧
      g1.wfd = g.wfd ∧ g1.node = { g.node with hostTag := t } ∧
        g1.auth = { g.auth with secret := some s } ∧
      g1.sent = g.sent := ⟨_, rfl, rfl, rfl, rfl, rfl, rfl⟩
  obtain ⟨g2, ch, hrun, hsent, hstate, hauth, hnode, hwfd⟩ :=
    requestChallenging_works (g := g1) hw (by rw [hwfd1]; exact hfd)
  have hregister : lyRegisterNode env g1 = (g2, 0) := by
    rw [lyRegisterNode, if_neg (by rw [hwfd1]; exact Int.not_lt.mpr hfd), if_pos hstate1, hrun]
  have hresult : registerResult env g LyS.registeringConfig t s = (g2, 0) := by
    rw [registerResult, if_neg (by decide), if_neg (by decide), if_neg (by decide), if_pos rfl,
      configRequest, if_neg hne, hg1, hregister]
    rfl
  refine ⟨g2, ch, nodeParty_packet ?_ ?_,
    ⟨by rw [hwfd, hwfd1]; exact hfd, by rw [hnode, hnode1], ?_, ?_⟩, hstate, ?_⟩
  · rw [workPacket_authInfo hw.readDoc hwell htext (by decide), hresult]
    rfl
  · rw [hsent, hsent1, hnode1]
  · rw [hauth, hauth1]
  · rw [hnode, hnode1]
    exact ⟨hn.ip, hn.texts, hn.nats⟩
  · rw [hauth]

/-! ### The first packet -/

/-- What a new connection comes down to. -/
theorem workConnect_works (hw : NodeWorks env ip) (g : NodeControl) :
    ∃ g1, g1.wfd = env.connect g.tick ∧ g1.state = initialState g ∧
      g1.node = g.node ∧ g1.auth = g.auth ∧
      g1.sent = g.sent ∧ workConnect env g = workResult (lyRegisterNode env g1) := by
  refine ⟨_, ?_, ?_, ?_, ?_, ?_, if_neg (Int.not_le.mpr (hw.connect _))⟩ <;> rfl

/-- A node with a tag asks for a proof. -/
theorem workConnect_known (hw : NodeWorks env ip) (hpos : 0 < t) (htag : g.node.hostTag = t)
    (hsecret : g.auth.secret = some s) (hn : Presentable ip g.node) :
    ∃ ch, (workConnect env g).sent = g.sent ++
        [(PktType.nodeAuthRequest, authInfo t (strncpy luoyunAuthDataLen ch.text))] ∧
      Enrolled ip t s (workConnect env g) ∧ (workConnect env g).state = NodeStatus.authenticating ∧
      (workConnect env g).auth.challenge = some ch := by
  obtain ⟨g1, hwfd1, hstate1, hnode1, hauth1, hsent1, hrun1⟩ := workConnect_works hw g
  have hfd : 0 < g1.wfd := by
    rw [hwfd1]
    exact hw.connect _
  rw [initialState, htag, if_pos hpos] at hstate1
  obtain ⟨g2, ch, hrun, hsent, hstate, hauth, hnode, hwfd⟩ := requestChallenging_works hw hfd.le
  have hconnect : workConnect env g = g2 := by
    rw [hrun1, lyRegisterNode, if_neg (by omega), if_pos hstate1, hrun]
    rfl
  rw [hconnect]
  refine ⟨ch, ?_, ⟨by omega, ?_, ?_, ?_⟩, hstate, ?_⟩
  · rw [hsent, hsent1, hnode1, htag]
  · rw [hnode, hnode1, htag]
  · rw [hauth, hauth1, ← hsecret]
  · rw [hnode, hnode1]
    exact hn
  · rw [hauth]

/-- A node without one asks for it. -/
theorem workConnect_new (hw : NodeWorks env ip) (hpos : g.node.hostTag ≤ 0)
    (htag : IsInt32 g.node.hostTag) (hn : Presentable ip g.node) :
    ∃ text reqId, (workConnect env g).sent = g.sent ++ [(PktType.nodeRegisterRequest, text)] ∧
      Asks ip text reqId (workConnect env g).node g.node.hostTag ∧
      registerTexts (workConnect env g).node = registerTexts g.node ∧
        0 ≤ (workConnect env g).wfd := by
  obtain ⟨g1, hwfd1, hstate1, hnode1, hauth1, hsent1, hrun1⟩ := workConnect_works hw g
  have hfd : 0 < g1.wfd := by
    rw [hwfd1]
    exact hw.connect _
  rw [initialState, if_neg (Int.not_lt.mpr hpos)] at hstate1
  obtain ⟨g2, text, reqId, hrun, hsent, hasks, htexts, -, hwfd, -⟩ :=
    requestRegister_works hw hfd.le
    (by rw [hnode1]; exact hn) (by rw [hnode1]; exact htag) (by rw [hstate1]; decide)
      (by rw [hstate1]; decide)
  have hconnect : workConnect env g = g2 := by
    rw [hrun1, lyRegisterNode, if_neg (by omega), if_neg (by rw [hstate1]; decide), hrun]
    rfl
  rw [hnode1] at hasks htexts
  rw [hconnect]
  exact ⟨text, reqId, by rw [hsent, hsent1], hasks, htexts, by omega⟩

end Steps

end LuoYun

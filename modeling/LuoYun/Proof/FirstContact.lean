import LuoYun.Proof.Handshake

/-!
# The first contact

A node that has never been registered has no tag. When it asks for one, the controller finds the row
of its address; if somebody has enabled the node there, it gets the id of the row for its tag, and a
secret that is made up on the spot. From then on it is a node that knows its secret, and the
handshake goes on as usual, on the same connection.
-/

namespace LuoYun

open LuoYun.Duplex LuoYun.Markup

section New

variable {env : Env} {i : Nat} {c : Clc} {ip : Bytes} {r : NodeRow}

/-- The one row for the address `ip` is that of a node that has been enabled, and holds no secret
yet. -/
structure Awaited (db : Db) (ip : Bytes) (r : NodeRow) : Prop where
  byIp : db.nodesByIp ip = [r]
  byId : db.nodesById r.id = [r]
  enabled : r.isenable = true
  key : nonEmpty r.key = none

/-- What a node has to say so that the controller can write it down. -/
structure Writable (ip : Bytes) (ni : NodeInfo) : Prop where
  node : Presentable ip ni
  quote : quotable (registerTexts ni) = true

theorem dbNodeFind_byIp (hok : env.Works) (hr : Awaited c.db ip r) (hquote : quotable [ip] = true)
    (hlen : ip.length ≤ 256) :
    dbNodeFind env c (.byIp ip) =
      (c.called, 1, ⟨r.id, r.status, nonEmpty r.ip, none, true, r.vcpus, r.vmemory⟩) := by
  have hshort : ¬ lineMax ≤ (sqlNodeFindByIp ip).length := by
    have h1 :
        (cstr
          "SELECT id, status, ip, key, vcpus, vmemory, isenable from node where ip = '").length =
          75 := by decide
    have h2 : (cstr "' order by key DESC;").length = 20 := by decide
    have h3 : lineMax = 2048 := rfl
    simp only [sqlNodeFindByIp, List.length_append]
    omega
  rw [dbNodeFind, if_neg hshort, if_pos hquote, dbSelect, if_pos (hok.ok _ _), hr.byIp]
  show (c.called, nodeFindResult [r]) = _
  rw [nodeFindResult, hr.key, hr.enabled]

/-- The text around the fields of the statement. -/
theorem sqlNodeUpdate_empty :
    (sqlNodeUpdate 0 { hostName := some [], cpuModel := some [], hostIp := some [] }).length =
      142 := by
  decide +kernel

theorem dbNodeUpdate_writable (hok : env.Works) (c : Clc) {id : Int}
    (hid : IsInt32 id) {ni : NodeInfo} (hw : Writable ip ni) :
    ∃ c1, dbNodeUpdate env c id ni = (c1, 0) ∧ c1.store = c.store ∧ c1.io.sent = c.io.sent ∧
      c1.db = c.db.updateNode id fun r => r.withInfo ni := by
  have hfixed :
      (sqlNodeUpdate 0 { hostName := some [], cpuModel := some [], hostIp := some [] }).length =
      142 :=
    sqlNodeUpdate_empty
  have htexts := hw.node.texts
  simp only [registerTexts, List.map_cons, List.map_nil, List.forall_mem_cons] at htexts
  obtain ⟨⟨-, hname, hname'⟩, ⟨-, hip, hip'⟩, ⟨-, hmodel, hmodel'⟩, -⟩ := htexts
  have hnull : ∀ s : Option Bytes, s.getD [] ≠ [] → orNull s = s.getD [] := by
    intro s hs
    cases s with
    | none => exact absurd rfl hs
    | some t => rfl
  have hshort : ¬ lineMax ≤ (sqlNodeUpdate id ni).length := by
    have hmax : lineMax = 2048 := rfl
    have n1 := length_dec_int32 hid
    have n2 := length_decU ni.memMax
    have n3 := length_decU ni.cpuArch
    have n4 := length_decU ni.cpuMax
    have n5 := length_decU ni.cpuMhz
    have n6 := length_decU ni.status
    rw [← hnull _ hname] at hname'
    rw [← hnull _ hip] at hip'
    rw [← hnull _ hmodel] at hmodel'
    delta sqlNodeUpdate at hfixed ⊢
    simp only [List.length_append] at hfixed ⊢
    omega
  have hquote : quotable [orNull ni.hostName, orNull ni.cpuModel, orNull ni.hostIp] = true := by
    have h := hw.quote
    rw [hnull _ hname, hnull _ hip, hnull _ hmodel]
    simp only [quotable, registerTexts, List.map_cons, List.map_nil, List.all_cons, List.all_nil,
      Bool.and_true] at h ⊢
    simp only [Bool.and_eq_true] at h ⊢
    exact ⟨h.1, h.2.2, h.2.1⟩
  rw [dbNodeUpdate, dbExecText, if_neg hshort, if_pos hquote, dbExec, if_pos (hok.ok _ _)]
  exact ⟨_, rfl, rfl, rfl, rfl⟩

/-- Tag and status of a node are not among what it writes down. -/
theorem Writable.enrolled {ni : NodeInfo} (hw : Writable ip ni) (t : Int) :
    Writable ip { ni with hostTag := t, status := NodeStatus.online } := by
  refine ⟨⟨hw.node.ip, hw.node.texts, ?_⟩, hw.quote⟩
  have h := hw.node.nats
  simp only [registerNats, List.forall_mem_cons] at h ⊢
  exact ⟨by decide, h.2⟩

/-- What the controller has learnt can be written down as well. -/
theorem Writable.learn {ni : NodeInfo} (hw : Writable ip ni) (cfg : CLCConfig) (nf : NodeInfo) :
    Writable ip (ni.learn cfg nf) := by
  refine ⟨⟨?_, hw.node.texts, hw.node.nats⟩, hw.quote⟩
  show some (ni.hostIp.getD []) = some ip
  rw [hw.node.ip, Option.getD_some]

/-- What `db_node_find` says of the row. -/
def NodeRow.awaited (r : NodeRow) : DBNodeRegInfo :=
  ⟨r.id, r.status, nonEmpty r.ip, none, true, r.vcpus, r.vmemory⟩

/-- The connection of a node that has said who it is, and no more. -/
structure Stranger (c : Clc) (i : Nat) : Prop where
  id : (c.store.ents i).id = i
  fd : 0 ≤ (c.store.ents i).fd
  type : (c.store.ents i).type = .node
  secret : (c.store.ents i).auth.secret = none

/-- **A secret is made up** for a node that has been enabled. -/
theorem nodeNewOnline_awaited (hok : env.Works) (hi : i < lyEntityMax) (hs : Stranger c i)
    (hr : c.db.nodesById r.id = [r])
    (hid : IsInt32 r.id) {nd : LYNodeData} (hw : Writable ip nd.node) :
    ∃ c1 n, nodeNewOnline env c i nd r.awaited = (c1, LyS.registeringConfig) ∧
      c1.io.sent = c.io.sent ∧
      Proved c c1 i r.id (env.uuid n).text Flag.online := by
  have hent1 : (c.update i r.id Flag.online).store.ents i =
      ((c.store.ents i).withStatus Flag.online).claiming r.id :=
    update_ents_self hi (by decide)
  have hsecret : ((c.update i r.id Flag.online).store.ents i).auth.secret = none := by
    rw [hent1]
    exact hs.secret
  generalize hu : env.uuid (c.update i r.id Flag.online).io.tick = u
  obtain ⟨c2, hc2⟩ : ∃ c2,
      ((c.update i r.id Flag.online).called.keepSecret i r.id (some u.text)).setNode i
      ((nd.withTag r.id).withStatus NodeStatus.online) = c2 := ⟨_, rfl⟩
  have hent2 : c2.store.ents i = { ((c.store.ents i).withStatus Flag.online).claiming r.id with
      auth := { (c.store.ents i).auth with secret := some u.text },
      entity := .node ((nd.withTag r.id).withStatus NodeStatus.online) } := by
    rw [← hc2]
    simp [Clc.setNode, Clc.keepSecret, Clc.modifyEnt, Clc.called, hent1, LYEntity.claiming,
      LYEntity.withStatus]
  have hdb2 : c2.db = c.db := by
    rw [← hc2]
    rfl
  have hsent2 : c2.io.sent = c.io.sent := by
    rw [← hc2]
    rfl
  have honly2 : OnlySlot i c.store c2.store := by
    rw [← hc2]
    refine .setNode (.keepSecret ?_ _ _) _
    exact .update c.store i r.id Flag.online
  have hw' := hw.enrolled r.id
  have hnode : ((nd.withTag r.id).withStatus NodeStatus.online).node =
      { nd.node with hostTag := r.id, status := NodeStatus.online } := rfl
  obtain ⟨c3, hrun3, hstore3, hsent3, hdb3⟩ := dbNodeUpdate_writable hok c2 hid hw'
  have hid' : r.awaited.id = r.id ∧ r.awaited.enabled = true := ⟨rfl, rfl⟩
  refine ⟨c3, (c.update i r.id Flag.online).io.tick, ?_, hsent3.trans hsent2, ?_, ?_, ?_⟩
  · rw [nodeNewOnline]
    simp only [hid'.1, hid'.2, hsecret, ne_eq, not_true, and_false, if_false, if_true, hu, hc2,
      hnode, hrun3, lt_irrefl]
  · rw [hu]
    constructor
    · rw [hstore3, hent2]
      exact hs.id
    · rw [hstore3, hent2]
      exact hs.fd
    · rw [hstore3, hent2]
      exact hs.type
    · rw [hstore3, hent2]
      exact ⟨_, rfl, rfl⟩
    · rw [hstore3, hent2]
    · rw [hstore3, hent2]
      exact status_withStatus (c.store.ents i) (by decide) (by decide)
    · have hip : nd.node.hostIp = some ip := hw.node.ip
      have hne : ip ≠ [] := hw.node.ip_ne
      refine ⟨r.withInfo { nd.node with hostTag := r.id, status := NodeStatus.online }, ?_, ?_⟩
      · rw [hdb3, nodesById_updateNode, hdb2, hr]
        · rfl
        · exact fun _ => rfl
      · rw [NodeRow.withInfo, hip]
        cases ip with
        | nil => exact absurd rfl hne
        | cons b bs => exact Option.some_ne_none _
  · rw [hstore3, hent2]
    rfl
  · rw [hstore3]
    exact honly2

/-- A register request without a tag. -/
theorem nodeRegister_awaited (hok : env.Works) (hi : i < lyEntityMax) (hs : Stranger c i)
    (hstatus : (c.store.ents i).status < Flag.registered)
    (hent : (c.store.ents i).entity = .node {})
    (hr : Awaited c.db ip r) (hid : IsInt32 r.id) {ni : NodeInfo} (hw : Writable ip ni)
    (htag : ni.hostTag ≤ 0)
    (hearly : ni.status < NodeStatus.registered) (hvacant : Vacant c.store i ip) :
    ∃ c1 n, nodeRegister env c i ni = .ok (c1, LyS.registeringConfig) ∧ c1.io.sent = c.io.sent ∧
      Proved c c1 i r.id (env.uuid n).text Flag.online := by
  have hfresh : lyEntityIsRegistered c.store i = false := by
    rw [lyEntityIsRegistered, lyEntityIs, slot?_natCast hi]
    exact decide_eq_false (Int.not_le.mpr hstatus)
  obtain ⟨nd, hnd⟩ : ∃ nd : LYNodeData,
      { ({} : LYNodeData) with node := ni.learn env.cfg {} } = nd := ⟨_, rfl⟩
  have hnode : nd.node = ni.learn env.cfg {} := by rw [← hnd]
  have hw1 : Writable ip nd.node := by
    rw [hnode]
    exact hw.learn _ _
  have hip : nd.node.hostIp.getD [] = ip := by
    rw [hw1.node.ip]
    rfl
  have hquote : quotable [ip] = true := by
    have h := hw1.quote
    simp only [quotable, registerTexts, List.map_cons, List.map_nil, List.all_cons, List.all_nil,
      Bool.and_true, Bool.and_eq_true, hip] at h ⊢
    exact h.2.1
  have hlen : ip.length ≤ 256 := by
    have hmem : ip ∈ registerTexts nd.node := by
      rw [registerTexts, ← hip]
      exact List.mem_cons_of_mem _ (List.mem_cons_self ..)
    exact (hw1.node.texts ip hmem).2.2
  have honly1 : OnlySlot i c.store (c.setNode i nd).store := .setNode (.refl i c.store) nd
  -- nobody else has the address, and this connection is not registered yet
  have hactive : lyEntityNodeActive (c.setNode i nd).store ip = .ok false := by
    refine lyEntityNodeActive_vacant (hvacant.of_onlySlot hs.id honly1) ?_
    rw [setNode_status]
    exact hstatus
  -- the row is found, and it has no secret
  have hfind : dbNodeFind env (c.setNode i nd) (.byIp ip) =
      ((c.setNode i nd).called, 1, r.awaited) :=
    dbNodeFind_byIp hok hr hquote hlen
  have hs2 : Stranger ((c.setNode i nd).called.setNode i nd) i := by
    have hent2 : ((c.setNode i nd).called.setNode i nd).store.ents i =
        { c.store.ents i with entity := .node nd } := by
      simp [Clc.setNode, Clc.modifyEnt, Clc.called]
    exact ⟨by rw [hent2]; exact hs.id, by rw [hent2]; exact hs.fd, by rw [hent2]; exact hs.type,
      by rw [hent2]; exact hs.secret⟩
  obtain ⟨c1, n, hrun, hsent, hproved⟩ := nodeNewOnline_awaited (r := r) hok hi hs2 hr.byId hid hw1
  have hsecret : r.awaited.secret = none := rfl
  have hnew : nodeRegisterNew env (c.setNode i nd) i nd = .ok (c1, LyS.registeringConfig) := by
    have hrow : nodeNewRow env ((c.setNode i nd).called.setNode i nd) nd.node 1 r.awaited =
        .ok ((c.setNode i nd).called.setNode i nd, some r.awaited) := by
      rw [nodeNewRow, if_neg (not_or.mpr ⟨by decide, not_not.mpr hsecret⟩)]
    rw [nodeRegisterNew, hip, hfind]
    simp only [hsecret, Int.reduceLT, or_self, if_false, Int.reduceEq, ne_eq, not_true, hrow, hrun]
  refine ⟨c1, n, ?_, hsent, hproved.knows, ?_, ?_⟩
  · have hno : ¬ NodeStatus.registered ≤ (ni.learn env.cfg {}).status := Int.not_le.mpr hearly
    rw [hnode] at hip
    rw [nodeRegister, if_neg (by rw [hfresh]; decide), hent]
    simp only [hnd, if_neg hno, hip, hactive, if_neg (Int.not_lt.mpr htag), hnew]
  · rw [hproved.fd]
    simp [Clc.setNode, Clc.modifyEnt, Clc.called]
  · exact (honly1.trans (.setNode (.refl i _) nd)).trans hproved.only

/-- The secrets that the controller makes up are plain and can be written down. -/
structure HexUuids (env : Env) : Prop where
  plain : ∀ n, PlainText (env.uuid n).text
  quote : ∀ n, quotable [(env.uuid n).text] = true

/-- A node has been given the tag `t` and the secret `s`, in answer to the request `reqId`. -/
structure Configured (c c1 : Clc) (i : Nat) (t : Int) (s : Bytes) (reqId : Int)
    (out : List Packet) : Prop where
  proved : Proved c c1 i t s Flag.online
  answer : ∃ answer, lyxmlDataReplyAuthInfo reqId LyS.registeringConfig t s = some answer ∧
    out = [(PktType.nodeRegisterReply, answer)]

/-- **The first packet of a node without a tag.** -/
theorem register_awaited (hok : env.Works) (hread : ReadsPlain env.readDoc) (hi : i < lyEntityMax)
    (hfresh : FreshConn (c.store.ents i)) (hid : (c.store.ents i).id = i)
    (hvacant : Vacant c.store i ip)
    (hr : Awaited c.db ip r) (hint : IsInt32 r.id) {text : Bytes} {reqId t : Int} {ni : NodeInfo}
    (hasks : Asks ip text reqId ni t) (ht : t ≤ 0) (hquote : quotable (registerTexts ni) = true) :
    ∃ c' out n, clcParty env i c (PktType.nodeRegisterRequest, text) = some (c', out) ∧
      Configured c c' i r.id (env.uuid n).text reqId out ∧ Emptied (c'.store.ents i) := by
  have hparty := register_handled env
    (P := fun c1 out => ∃ n, Configured c c1 i r.id (env.uuid n).text reqId out) hi
    hfresh.fd hfresh.pkt hasks.presents.wellFormed hasks.text ?_ ?_
  · obtain ⟨c', out, hrun, ⟨n, hdone⟩, hempty⟩ := hparty
    exact ⟨c', out, n, hrun, hdone, hempty⟩
  · intro q hbuf
    have hentq := setPkt_ents c i q
    obtain ⟨hent0, hdb0, hio0⟩ :=
      init_fresh (c := c.setPkt i q) hi (by rw [hentq]; exact hfresh.type) .node
    simp only [Peer.entityType, Peer.entityData, hentq] at hent0 hdb0 hio0
    have honly0 : OnlySlot i c.store ((c.setPkt i q).init i .node).store :=
      (OnlySlot.setPkt (.refl i c.store) q).trans (.init _ i)
    have hs0 : Stranger ((c.setPkt i q).init i .node) i :=
      ⟨by rw [hent0]; exact hid, by rw [hent0]; exact hfresh.fd, by rw [hent0], by
        rw [hent0, hfresh.auth]⟩
    have hstatus0 : (((c.setPkt i q).init i .node).store.ents i).status < Flag.registered := by
      rw [hent0, LYEntity.status, hfresh.flag]
      decide
    have hbuf0 : HoldsText ((c.setPkt i q).init i .node) i text := by
      obtain ⟨m, hm, hload⟩ := hbuf
      refine ⟨m, ?_, hload⟩
      rw [← hm]
      simp only [Clc.mem, hent0, hentq]
    have hawaited0 : Awaited ((c.setPkt i q).init i .node).db ip r := by
      rw [hdb0]
      exact hr
    have hret : IsInt32 LyS.registeringConfig := by decide
    obtain ⟨c1, n, hrun, hsent, ⟨hk1, hfd1, honly1⟩⟩ :=
      nodeRegister_awaited hok hi hs0 hstatus0 (by rw [hent0]) hawaited0
      hint ⟨hasks.node, hquote⟩ (hasks.presents.tag.symm ▸ ht) hasks.presents.status
        (hvacant.of_onlySlot hid honly0)
    obtain ⟨c2, answer, hrun2, hanswer, hsent2, hstore2, hdb2⟩ :=
      handleRegister_answered hok hread rfl
      hasks.presents.wellFormed hasks.text hbuf0 hrun r.id_pos hint hret (by decide) hk1 text.length
    -- the secret is cut to the length of authentication data, which a uuid does not exceed
    have htold : told LyS.registeringConfig (env.uuid n).text = (env.uuid n).text := by
      have hlen := (env.uuid n).length_text
      rw [told, if_pos rfl, List.take_of_length_le]
      rw [hlen]
      decide
    rw [htold] at hanswer
    have hfd0 : (((c.setPkt i q).init i .node).store.ents i).fd =
        (c.store.ents i).fd := by rw [hent0]
    refine ⟨c2, [(PktType.nodeRegisterReply, answer)], hrun2, ?_, n,
      ⟨hk1.of_same hstore2 hdb2, ?_, ?_⟩, answer, hanswer, rfl⟩
    · rw [hsent2, hsent, hio0, hfd1, hfd0]
      rfl
    · rw [hstore2, hfd1, hfd0]
    · rw [hstore2]
      exact honly0.trans honly1
  · rintro c1 q out ⟨n, hdone⟩
    exact ⟨n, hdone.proved.setPkt q, hdone.answer⟩

/-- **A node that has been enabled joins.** Whoever takes the next packet, after eight of them both
sides take the node for registered, under the id of its row and with a secret that the controller
has made up. -/
theorem handshake_new {wenv : WorkEnv} {g : NodeControl} (hok : env.Works)
    (hread : ReadsPlain env.readDoc)
    (hi : i < lyEntityMax) (hnode : NodeWorks wenv ip) (hhex : HexUuids env)
    (hcipher : ∀ n, ∃ ks, env.cipher (env.uuid n).text = some ks ∧
      wenv.cipher (env.uuid n).text = some ks)
    (hfresh : FreshConn (c.store.ents i)) (hid : (c.store.ents i).id = i)
    (hvacant : Vacant c.store i ip)
    (hr : Awaited c.db ip r) (hint : IsInt32 r.id) (htag : g.node.hostTag ≤ 0)
    (htag' : IsInt32 g.node.hostTag) (hn : Writable ip g.node) :
    ∃ e n, Joined e i ip r.id (env.uuid n).text ∧ ∀ k p,
      Run (LinkStep env wenv i) k (firstContact wenv c g) p →
      k ≤ 8 ∧ Run (LinkStep env wenv i) (8 - k) p e := by
  obtain ⟨text, reqId, hsent, hasks, htexts, hfd⟩ := workConnect_new hnode htag htag' hn.node
  obtain ⟨c1, out, n, hrun1, ⟨⟨hk1, -, honly1⟩, answer, hanswer, rfl⟩, hempty1⟩ :=
    register_awaited hok hread hi hfresh hid
    hvacant hr hint hasks htag (htexts.symm ▸ hn.quote)
  obtain ⟨ks, hks, hksNode⟩ := hcipher n
  have hlen := (env.uuid n).length_text
  have ha : Agreed env wenv i ip r.id (env.uuid n).text ks :=
    ⟨hok, hread, hi, hint, r.id_pos, ⟨hhex.quote n, by omega⟩, hks, hnode, hksNode⟩
  have hne : (env.uuid n).text ≠ [] := List.ne_nil_of_length_pos (by omega)
  -- the node learns its tag and its secret, and from here on it is as with a known node
  obtain ⟨g2, ch, hrun2, hg2, hstate2, hch2⟩ :=
    config_node hnode hfd hasks.node hint (hhex.plain n) hne hanswer
  obtain ⟨c2, ch2, hrun3, hc2, hempty2⟩ :=
    request_known hok hi hk1 hempty1 hint hks (length_strncpy luoyunAuthDataLen ch.text)
  obtain ⟨e, hrun, hjoined⟩ :=
    run_challenged ha hk1.id (hvacant.of_onlySlot hid honly1) hc2 hempty2 hg2 hstate2 hch2
  have hstart : firstContact wenv c g =
      ⟨c, workConnect wenv g, [(PktType.nodeRegisterRequest, text)], []⟩ := by
    rw [firstContact, hsent, List.drop_left' rfl]
  have hall : Run (LinkStep env wenv i) 8 (firstContact wenv c g) e := by
    rw [hstart]
    exact .head (.left hrun1) <| .head (.right hrun2) <| .head (.left hrun3) hrun
  exact ⟨e, n, hjoined, fun k p hp => run_of_done hall hjoined.quiet hp⟩

end New

theorem awaitedId_pos : (0 : Int) < 7 := by decide

/-- The row of a node that has just been enabled. -/
def awaitedRow : NodeRow :=
  { id := 7, id_pos := awaitedId_pos, ip := some (cstr "10.0.0.1"), isenable := true }

theorem handshake_new_demo :
    ∃ e n, Joined e 1 (cstr "10.0.0.1") 7 (Env.arcfour.uuid n).text ∧ ∀ k p,
      Run (LinkStep .arcfour .arcfour 1) k
      (firstContact .arcfour (newConnection { nodes := [awaitedRow] }).clc
        { node := demoNode (-1) }) p →
      k ≤ 8 ∧ Run (LinkStep .arcfour .arcfour 1) (8 - k) p e := by
  have hhex : HexUuids .arcfour := by
    have hplain : PlainText (cstr "d2719ad5-6f8a-4b1e-9d3f-0c5a7e2b4c61") := by decide +kernel
    have hquote : quotable [cstr "d2719ad5-6f8a-4b1e-9d3f-0c5a7e2b4c61"] = true := by decide +kernel
    exact ⟨fun _ => hplain, fun _ => hquote⟩
  have hcipher : ∀ n, ∃ ks, Env.arcfour.cipher (Env.arcfour.uuid n).text = some ks ∧
      WorkEnv.arcfour.cipher (Env.arcfour.uuid n).text = some ks := by
    intro n
    obtain ⟨ks, hks⟩ := arcfour_some (Env.arcfour.uuid n).text (by rw [Uuid.length_text]; decide)
    exact ⟨ks, hks, hks⟩
  have hn : Writable (cstr "10.0.0.1") (demoNode (-1)) := by
    refine ⟨demoNode_presentable (-1), ?_⟩
    show quotable [cstr "node1", cstr "10.0.0.1", cstr "Xeon"] = true
    decide
  obtain ⟨hid, hvacant⟩ := newConnection_slot { nodes := [awaitedRow] }
  have hr : Awaited (newConnection { nodes := [awaitedRow] }).clc.db
    (cstr "10.0.0.1") awaitedRow := by
    rw [newConnection_db]
    exact ⟨by decide, rfl, rfl, rfl⟩
  exact handshake_new ⟨fun _ _ => rfl, fun _ => rfl⟩ plainReader_reads
    (by decide) arcfour_nodeWorks hhex hcipher (newConnection_fresh _)
    hid (hvacant _) hr (by decide) (by decide) (by decide) hn

end LuoYun

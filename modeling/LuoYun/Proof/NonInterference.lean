import LuoYun.Proof.DataType

/-!
# What an unauthenticated peer can do to others

A connection on which `lyauth_verify` has never returned 1 is still served: its register request may
put a row into table `node`, and its authentication request writes the status of the row it names
and makes the connection the holder of that tag, so that an older connection with the tag is
released. That is how the handshake is meant to work, and it is all: the queued jobs, the instances,
the other rows of nodes that have a secret and the other connections are left alone
(`quiet_noninterference`).

Responses, replies to queries and reports of OS managers are left out here; the CLC takes them from
anybody. So is what comes after a fault (`Fault`): a peer can also make the CLC follow a NULL
pointer, read data through the layout of another type, run over the packet buffer or free a number,
and what that does to others is not said.
-/

namespace LuoYun

/-! ## Packets of one peer -/

/-- An event of the connection in slot `i`: its packets satisfy `P`, and nobody is verified on it.
-/
structure FromPeer (env : Env) (i : Nat) (P : Clc → Nat → Int → Int → Prop)
    (w : World) (ev : Event) :
    Prop where
  event : ev = .round ∨ ∃ chunk, ev = .recv i chunk
  packet : OnPacket P w ev
  unverified : ∀ w', w.next env ev = some (.ok w') → (w'.clc.hist i).verified = false

/-- What the packets of the connection in slot `i` lead to from `w`, as long as the CLC stays in
defined behaviour. -/
def PeerReach (env : Env) (i : Nat) (P : Clc → Nat → Int → Int → Prop) (w : World) : World → Prop :=
  Machine.Reach (World.next env) (FromPeer env i P) (· = w)

/-- Nothing but the connection in slot `i` and the rows of nodes without a secret has changed. -/
structure Undisturbed (i : Nat) (c c' : Clc) : Prop where
  slots : ∀ j, j ≠ i → c'.slot j = c.slot j
  jobs : c'.jobs = c.jobs
  instances : c'.db.instances = c.db.instances
  tagged : ∀ r ∈ c.db.nodes, r.Tagged → r ∈ c'.db.nodes

/-- The same, up to what the handshake does on purpose: an older holder of the tag is released, and
the row of a node is marked as authenticating. -/
structure Undisturbed' (i : Nat) (c c' : Clc) : Prop where
  slots : ∀ j, j ≠ i → c'.slot j = c.slot j ∨
    c'.slot j = ⟨(c.store.ents j).released, c.hist j⟩ ∧ Listed (c.store.ents j).type ∧
      0 < (c.store.ents j).dbId
  jobs : c'.jobs = c.jobs
  instances : c'.db.instances = c.db.instances
  tagged : ∀ r ∈ c.db.nodes, r.Tagged → ∃ r' ∈ c'.db.nodes, r.Kept r'

/-- A packet that is not from the web, and none of those that are taken from anybody; the texts of a
register request have no quote in them. -/
structure Handshake (env : Env) (c : Clc) (i : Nat) (type _size : Int) : Prop where
  web : type ≠ PktType.webNewJobRequest
  query : type ≠ PktType.clcOsmQueryReply
  report : type ≠ PktType.osmReport
  xml : ∀ s root, PayloadText c i s → env.readDoc s = some root → QuietXml root

/-- The state a connection that is not authenticated is served from: the books of the store and of
the database are in order. -/
structure Serving (i : Nat) (w : World) : Prop where
  slot : i < lyEntityMax
  busy : ∀ b, w.busy = some b → b.slot = i
  wf : StoreWf w.clc.store
  db : DbWf w.clc.db
  low : (w.clc.store.ents i).status < Flag.authenticated

/-- The rules of such a connection. -/
def quietRules : Rules where
  wild := True
  web := False
  live := False
  ordered := False
  strict := False
  quiet := True

/-! ## One change -/

/-- What holds along the run, as far as the state goes. -/
structure Quiet (i : Nat) (c₀ c : Clc) : Prop where
  wf : StoreWf c.store
  db : DbWf c.db
  low : (c.store.ents i).status < Flag.authenticated
  slots : ∀ j, j ≠ i → c.slot j = c₀.slot j ∨
    c.slot j = ⟨(c₀.store.ents j).released, c₀.hist j⟩ ∧ Listed (c₀.store.ents j).type ∧
      0 < (c₀.store.ents j).dbId
  jobs : c.jobs = c₀.jobs
  quiet : QuietDb c₀.db c.db

/-- A change to slot `i` alone. -/
theorem Quiet.own {i : Nat} {c₀ c c' : Clc} (h : Quiet i c₀ c) (ht : Touches i c c')
    (hlow : (c'.store.ents i).status < Flag.authenticated) : Quiet i c₀ c' where
  wf := ht.wf h.wf
  db := ht.db ▸ h.db
  low := hlow
  slots := fun j hj => by rw [ht.others j hj]; exact h.slots j hj
  jobs := ht.jobs.trans h.jobs
  quiet := ht.db ▸ h.quiet

theorem quiet_prim {i : Nat} {c₀ a b : Clc} (h : Quiet i c₀ a) (hp : Prim quietRules i a b) :
    Quiet i c₀ b := by
  cases hp with
  | outside ho hq =>
    have hq := hq trivial
    refine ⟨ho.store ▸ h.wf, hq.wf h.db, ho.store ▸ h.low, fun j hj => ?_, ho.jobs.trans h.jobs,
      h.quiet.trans hq⟩
    rw [Clc.slot, ho.store, ho.hist]
    exact h.slots j hj
  | jobs _ _ _ hn => exact absurd trivial hn
  | insert _ _ _ hn => exact absurd trivial hn
  | slot j ht ha hj _ =>
    obtain rfl := hj trivial
    exact h.own ht (ha.low trivial h.low)
  | displace j ht ha _ hq =>
    obtain ⟨hlist, hpos⟩ := hq trivial h.wf
    by_cases hji : j = i
    · subst hji
      have hent : b.store.ents j = (a.store.ents j).released := congrArg Slot.ent ha
      exact h.own ht (by rw [hent, status_released]; decide)
    · have hi : b.slot i = a.slot i := ht.others i fun hc => hji hc.symm
      refine ⟨ht.wf h.wf, ht.db ▸ h.db, ?_, fun k hk => ?_, ht.jobs.trans h.jobs, ht.db ▸ h.quiet⟩
      · show (b.slot i).ent.status < _
        rw [hi]
        exact h.low
      · by_cases hkj : k = j
        · subst hkj
          rcases h.slots k hk with hs | ⟨hs, -⟩
          · have hent : a.store.ents k = c₀.store.ents k := congrArg Slot.ent hs
            have hhist : a.hist k = c₀.hist k := congrArg Slot.hist hs
            refine .inr ⟨?_, hent ▸ hlist, hent ▸ hpos⟩
            rw [ha, hs]
            rfl
          · -- a slot that was released has no type, and is not released again
            have hent : a.store.ents k = (c₀.store.ents k).released := congrArg Slot.ent hs
            rw [hent] at hlist
            rcases hlist with hc | hc <;> cases hc
        · rw [ht.others k hkj]
          exact h.slots k hk

theorem quiet_setPkt {i : Nat} {c₀ c : Clc} (h : Quiet i c₀ c) (p : LYPacketRecv) :
    Quiet i c₀ (c.setPkt i p) := by
  have ht : Touches i c (c.setPkt i p) :=
    touches_modify (f := fun e => { e with pkt := some p }) rfl rfl rfl (fun _ _ => rfl) rfl rfl
  refine h.own ht ?_
  show ((c.store.modify i fun e => { e with pkt := some p }).ents i).status < _
  rw [EntityStore.modify_ents_self]
  exact h.low

/-! ## The run -/

theorem Handshake.packetOk {env : Env} {c₀ c : Clc} {i : Nat} {type size : Int}
    (h : Handshake env c i type size) (hq : Quiet i c₀ c)
    (hun : ∀ r, handlePacket env c i type size = .ok r → (r.1.hist i).verified = false) :
    PacketOk quietRules env c i type size where
  text := .inl trivial
  bounded := .inl trivial
  live := fun _ hl => hl.elim
  typed := fun _ => trivial
  writes := fun _ => trivial
  web := fun ht => absurd ht h.web
  query := fun ht => absurd ht h.query
  report := fun ht => absurd ht h.report
  reply := fun _ hs => hs.elim
  register := fun _ hs => hs.elim
  quiet := fun _ => ⟨hq.low, hq.db⟩
  xml := fun _ => h.xml
  unverified := fun _ => hun
  registers := nodeRegistersOk_free env id id c type
  nodeAuth := fun _ ht => ht.elim
  osmTyped := fun ht => ht.elim

theorem quiet_rounded {env : Env} {i : Nat} (hi : i < lyEntityMax) {c₀ : Clc}
    {w w' : World} {b : Busy} (hb : w.busy = some b) (hbi : b.slot = i) (h : Quiet i c₀ w.clc)
    (hQ : FromPeer env i (Handshake env) w .round) (hr : World.rounded env w.clc b = .ok w')
    (hunv : (w'.clc.hist i).verified = false) :
    Quiet i c₀ w'.clc ∧ ∀ b', w'.busy = some b' → b'.slot = i := by
  subst hbi
  rcases rounded_cases hr with ⟨p, r, hp, hrecv, hle, rfl⟩ | ⟨p, r, x, p', d, hround, hend⟩
  · exact ⟨quiet_setPkt h r.2, fun _ hc => nomatch hc⟩
  · have hpacket := hQ.packet
    unfold OnPacket at hpacket
    rw [hb] at hpacket
    have hshake := hpacket p r hround.pkt hround.recv hround.complete
    have hq1 := quiet_setPkt h r.2
    have hxhist : (x.1.hist b.slot).verified = false := by
      rcases hend with ⟨-, rfl⟩ | ⟨-, rfl⟩ | ⟨-, rfl⟩ <;> exact hunv
    have hok := hshake.packetOk hq1 fun y hy => by
      rw [hround.handle] at hy
      obtain rfl := Except.ok.inj hy
      exact hxhist
    have hdoes := (handlePacket_sat hi env _ _ _ hok).of_ok hround.handle
    have hq2 : Quiet b.slot c₀ (x.1.setPkt b.slot d.2) :=
      quiet_setPkt (hdoes.inv (fun _ _ => quiet_prim) hq1) d.2
    rcases hend with ⟨-, rfl⟩ | ⟨-, rfl⟩ | ⟨-, rfl⟩
    · exact ⟨hq2, fun _ hc => nomatch hc⟩
    · exact ⟨(release_does id _).inv (fun _ _ => quiet_prim) hq2, fun _ hc => nomatch hc⟩
    · refine ⟨hq2, fun b' hb' => ?_⟩
      obtain rfl := Option.some.inj hb'
      rfl

theorem quiet_reach {env : Env} {i : Nat} {w w' : World} (hs : Serving i w)
    (h : PeerReach env i (Handshake env) w w') : Quiet i w.clc w'.clc := by
  have hstart : Quiet i w.clc w.clc :=
    ⟨hs.wf, hs.db, hs.low, fun _ _ => .inl rfl, rfl, .refl _⟩
  refine (Machine.Reach.inv (I := fun u => Quiet i w.clc u.clc ∧ ∀ b,
    u.busy = some b → b.slot = i) h
    (fun u hu => ?_) fun u ev u' hI hQ hn => ?_).1
  · subst hu
    exact ⟨hstart, hs.busy⟩
  · obtain ⟨hI, hbusy⟩ := hI
    rcases next_cases hn with ⟨b, rfl, hb, hr⟩ | ⟨hidle, hcase⟩
    · exact quiet_rounded hs.slot hb (hbusy b hb) hI hQ hr (hQ.unverified u' hn)
    · rcases hQ.event with rfl | ⟨chunk, rfl⟩
      · have hstep := (next_eq_ok.mp hn).1
        unfold World.step at hstep
        rw [hidle] at hstep
        cases hstep
      · rcases hcase with ⟨_, _, he, -⟩ | ⟨j, ch, p, off, room, p', he, -, rfl⟩ | ⟨_, _, _, he, -⟩ |
          ⟨_, he, -⟩ | ⟨_, he, -⟩ | ⟨_, _, he, -⟩
        · cases he
        · obtain ⟨rfl, rfl⟩ := Event.recv.inj he
          refine ⟨quiet_setPkt hI p', fun b hb => ?_⟩
          obtain rfl := Option.some.inj hb
          rfl
        all_goals cases he

/-- **An unauthenticated peer leaves the others alone**, up to what the handshake does on purpose.
-/
theorem quiet_noninterference (env : Env) (i : Nat) (w w' : World) (hs : Serving i w)
    (h : PeerReach env i (Handshake env) w w') : Undisturbed' i w.clc w'.clc :=
  let hq := quiet_reach hs h
  ⟨hq.slots, hq.jobs, hq.quiet.instances, hq.quiet.tagged hs.db⟩

/-- A new connection. -/
def newConnection (db : Db) : World := ⟨epollWorkRecv (World.start db []).clc 4 fun _ => 0, none⟩

theorem newConnection_db (db : Db) : (newConnection db).clc.db = db := by
  have hdb : (World.start db []).clc.db = db := by simp only [World.start]
  unfold newConnection
  rcases epollWorkRecv_cases (World.start db []).clc 4 fun _ => 0 with
    he | ⟨i, -, -, -, -, -, -, -, -, hdb', -⟩
  · rw [he, hdb]
  · rw [hdb', hdb]

theorem newConnection_serving {db : Db} (h : DbWf db) : Serving 1 (newConnection db) := by
  have hboot : ((World.start db []).clc.store.ents 1).status < Flag.authenticated := by
    show ((World.start db []).clc.slot 1).ent.status < Flag.authenticated
    rcases boot_slot (start_boot db []) 1 with hs | ⟨_, _, hc, -⟩
    · rw [hs]; decide
    · cases hc
  have hty : Typed (epollWorkRecv (World.start db []).clc 4 fun _ => 0) :=
    (typed_kept anyRules).accept _ _ _ (typed_boot (start_boot db []))
  refine ⟨by decide, nofun, by unfold newConnection; exact hty.wf, by
    rw [newConnection_db]; exact h, ?_⟩
  unfold newConnection
  rcases epollWorkRecv_cases (World.start db []).clc 4 fun _ => 0 with
    he | ⟨i, -, -, -, -, -, -, hstore, -⟩
  · rw [he]; exact hboot
  · rw [hstore]
    by_cases hi : 1 = i
    · subst hi
      rw [EntityStore.set_ents_self]
      show ((0 : BitVec 8) &&& Flag.statusMask).toNat < Flag.authenticated
      decide
    · rw [EntityStore.set_ents_ne _ _ hi]
      exact hboot

/-! ## What the handshake does to a row -/

/-- A node with a secret. -/
def oneNodeRow : Db where
  nodes :=
    [{ id := 1, id_pos := by decide, status := NodeStatus.registered, key := some (cstr "luoyun") }]
  nodeIdSeq := 1

/-- Someone asks to authenticate as that node. -/
def askAsNode : Event :=
  .recv 1 (packet PktType.nodeAuthRequest (le32 1 ++ List.replicate luoyunAuthDataLen 0))

theorem oneNodeRow_wf : DbWf oneNodeRow := ⟨by decide, by decide⟩

/-- The request is received, and the packet loop goes round once: the row is marked. -/
theorem askAsNode_reach {P : Clc → Nat → Int → Int → Prop}
    (hP : ∀ c i size, P c i PktType.nodeAuthRequest size) :
    ∃ w, PeerReach .keyed 1 P (newConnection oneNodeRow) w ∧
      w.clc.db.nodes.map NodeRow.status = [NodeStatus.authenticating] := by
  have hask : (Machine.exec (World.next .keyed) [askAsNode] (newConnection oneNodeRow)).map
      (fun w =>
      (w.packetType, (w.clc.hist 1).verified)) = some (some PktType.nodeAuthRequest, false) := by
    decide +kernel
  have hdone : (Machine.exec (World.next .keyed) [askAsNode, .round] (newConnection oneNodeRow)).map
      (fun w =>
      ((w.clc.hist 1).verified, w.clc.db.nodes.map NodeRow.status)) =
      some (false, [NodeStatus.authenticating]) := by
    decide +kernel
  obtain ⟨w₁, hw₁, hrun₁⟩ := Option.map_eq_some_iff.mp hask
  obtain ⟨w₂, hw₂, hrun₂⟩ := Option.map_eq_some_iff.mp hdone
  obtain ⟨htype, hv₁⟩ := Prod.mk.inj hrun₁
  obtain ⟨hv₂, hrow⟩ := Prod.mk.inj hrun₂
  have hn₁ := Machine.next_of_exec hw₁
  rw [Machine.exec_cons hn₁] at hw₂
  have hn₂ := Machine.next_of_exec hw₂
  have hpeer₁ : FromPeer .keyed 1 P (newConnection oneNodeRow) askAsNode := by
    refine ⟨.inr ⟨_, rfl⟩, onPacket_of_ne (show askAsNode ≠ .round from nofun) _, fun w' hw' => ?_⟩
    rw [hn₁] at hw'
    obtain rfl := Except.ok.inj (Option.some.inj hw')
    exact hv₁
  have hpeer₂ : FromPeer .keyed 1 P w₁ .round := by
    refine ⟨.inl rfl, onPacket_of_type htype hP _, fun w' hw' => ?_⟩
    rw [hn₂] at hw'
    obtain rfl := Except.ok.inj (Option.some.inj hw')
    exact hv₂
  exact ⟨w₂, .step (.step (.of_init rfl) askAsNode hpeer₁ hn₁) .round hpeer₂ hn₂, hrow⟩

/-- The others are left alone by that request. -/
theorem quiet_noninterference_asked : ∃ w : World, w.clc.db.nodes.map NodeRow.status =
    [NodeStatus.authenticating] ∧
    Undisturbed' 1 (newConnection oneNodeRow).clc w.clc := by
  obtain ⟨w, hreach, hrow⟩ := askAsNode_reach (P := Handshake .keyed) fun c i size =>
    ⟨by decide, by decide, by decide, fun _ _ _ hr => nomatch hr⟩
  exact ⟨w, hrow, quiet_noninterference .keyed 1 _ w (newConnection_serving oneNodeRow_wf) hreach⟩

/-- The row is not what it was. -/
theorem auth_request_marks_row : ¬ ∀ (env : Env) (i : Nat) (w w' : World), Serving i w →
    PeerReach env i (fun _ _ type _ => type ≠ PktType.webNewJobRequest) w w' →
    Undisturbed i w.clc w'.clc := by
  intro h
  obtain ⟨w, hreach, hrow⟩ :=
    askAsNode_reach (P := fun _ _ type _ => type ≠ PktType.webNewJobRequest)
    fun _ _ _ => by decide
  have htagged := (h .keyed 1 _ w (newConnection_serving oneNodeRow_wf) hreach).tagged
  rw [newConnection_db] at htagged
  have hkey : nonEmpty (some (cstr "luoyun")) ≠ none := by decide
  have hmem := List.mem_map_of_mem (f := NodeRow.status) (htagged _ List.mem_cons_self hkey)
  rw [hrow] at hmem
  exact absurd hmem (by decide)

end LuoYun

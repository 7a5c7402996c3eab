import LuoYun.Proof.NodeEffect

/-!
# What a packet does to the state

The handlers of `ev_osm.c`, and then `ly_epoll_entity_recv`'s choice among all handlers. What a
packet has to satisfy for the rules of a run is collected in `PacketOk`: it is a condition on
the packet and on the state before it is handled.
-/

namespace LuoYun

/-! ## What a handler finds in the packet -/

/-- The first `int` of the payload. -/
def PayloadInt (c : Clc) (i : Nat) (v : Int) : Prop :=
  ∃ m, c.mem i = .ok m ∧ v = int32Of (m.slice sizeofLYPacketHeader 4)

/-- A report of a running or failed application, as far as it is ruled out. -/
def ReportOk (R : Rules) (c : Clc) (i : Nat) (size : Int) : Prop :=
  size = 4 → ∀ v, PayloadInt c i v → LyS.appRunning ≤ v → v ≤ LyS.appFailed →
    (R.ordered → (c.hist i).registered = true) ∧
      (R.strict → Flag.registered ≤ (c.store.ents i).status)

/-- A register request of an OS manager that has authenticated names the tag its secret goes
with. -/
def RegisterOk (c : Clc) (i : Nat) : Prop :=
  Flag.authenticated ≤ (c.store.ents i).status → ∀ s tag rest, PayloadText c i s →
    scanInt s = some (tag, rest) → (c.hist i).secretTag = some tag

section

variable {R : Rules} {i : Nat} (hi : i < lyEntityMax) (env : Env)

/-! ## `ev_osm.c` -/

theorem ehProcessOsmQuery_sat (hloud : ¬ R.quiet) (c : Clc) (ht : Terminated R c i) :
    Sat R.May (fun r => Does R i c r.1) (ehProcessOsmQuery env c i) := by
  have hscan : ∀ s e, scanIp s = some (.error e) → R.May e := by
    intro s e h
    unfold scanIp at h
    obtain ⟨w, -, hw⟩ := Option.map_eq_some_iff.mp h
    split at hw
    · obtain rfl := Except.error.inj hw
      exact Rules.may_of_ne (by decide)
    · cases hw
  unfold ehProcessOsmQuery
  refine (mem_sat c).bind fun m hm => (loadStr_sat ht hm).bind fun s _ => ?_
  split
  · exact Does.refl c
  · split
    · exact Does.refl c
    · split
      · exact Does.refl c
      · rename_i s3 _
        split
        · exact Does.refl c
        · rename_i e he
          exact hscan s3 e he
        · split
          · exact Does.refl c
          · have h := fun id => jobUpdateStatus_sat (i := i) hloud env c id LyS.finishedSuccess
            split
            · exact (h _).of_error (by assumption)
            · rename_i r hr
              have h1 : Does R i c r.1 := (h _).of_ok hr
              exact h1

include hi in
theorem osmReportStatus_does (hloud : ¬ R.quiet) (c : Clc) (domain flag : Int)
    (hflag : flag = Flag.running ∨ flag = Flag.serving)
    (ho : R.ordered → (c.hist i).registered = true)
    (hs : R.strict → Flag.registered ≤ (c.store.ents i).status) :
    Does R i c (osmReportStatus env c i domain flag).1 := by
  have hout := dbInstanceUpdateStatus_outside env c (c.store.ents i).dbId
    (some { status := domain, gport := -1 }) (-1)
  have h1 : Does R i c _ := .outside hout hloud
  unfold osmReportStatus
  dsimp only
  generalize dbInstanceUpdateStatus env c (c.store.ents i).dbId
    (some { status := domain, gport := -1 }) (-1) = q at hout h1
  split
  · exact h1
  · refine h1.trans (update_does hi (by rcases hflag with rfl | rfl <;> decide) ?_
      (claimTidy_neg (by decide)))
    have hact := SlotAct.report (R := R) (q.1.store.ents i) (q.1.hist i) flag hflag
      (by rw [hout.hist]; exact ho) (by rw [hout.store]; exact hs) hloud
    exact hact

include hi in
theorem ehProcessOsmReport_sat (hloud : ¬ R.quiet) (c : Clc) (size : Int)
    (hr : ReportOk R c i size) :
    Sat R.May (fun r => Does R i c r.1) (ehProcessOsmReport env c size i) := by
  unfold ehProcessOsmReport
  split
  · exact Does.refl c
  · rename_i hsize
    refine (mem_sat c).bind fun m hm => ?_
    refine (load_sat (by decide)).bind fun b hb => ?_
    have hok := hr (Classical.not_not.mp hsize) (int32Of b) ⟨m, by rw [Clc.mem, hm], by rw [hb]⟩
    generalize int32Of b = v at hok
    dsimp only
    split
    · rename_i hrun
      split
      · exact Does.refl c
      · obtain ⟨h1, h2⟩ := hok (Int.le_of_eq hrun.symm)
          (by rw [hrun]; show (2000 : Int) ≤ 2130; omega)
        exact osmReportStatus_does hi env hloud c _ _ (.inr rfl) h1 h2
    · split
      · rename_i hrange
        split
        · obtain ⟨h1, h2⟩ := hok (Int.le_of_lt hrange.1) hrange.2
          exact osmReportStatus_does hi env hloud c _ _ (.inl rfl) h1 h2
        · exact Does.refl c
      · exact Does.refl c

/-- As far as the rules know, only an entity of another type holds the data of an OS manager. -/
def OsmTyped (R : Rules) (c : Clc) (i : Nat) : Prop :=
  R.tidy → ∀ oi, (c.store.ents i).entity = .osm oi → (c.store.ents i).type ≠ .node

@[simp] theorem setOsm_type (c : Clc) (i : Nat) (oi : OSMInfo) :
    ((c.setOsm i oi).store.ents i).type = (c.store.ents i).type := by
  simp [Clc.setOsm, Clc.modifyEnt]

@[simp] theorem setOsm_status (c : Clc) (i : Nat) (oi : OSMInfo) :
    ((c.setOsm i oi).store.ents i).status = (c.store.ents i).status := by
  simp [Clc.setOsm, Clc.modifyEnt, LYEntity.status]

theorem scanRegister_tag {buf : Bytes} {oi : OSMInfo} {x : Res Bytes}
    (h : (scanRegister buf oi).2 = some x) :
    ∃ rest, scanInt buf = some ((scanRegister buf oi).1.tag, rest) := by
  unfold scanRegister at h ⊢
  cases h1 : scanInt buf with
  | none => rw [h1] at h; cases h
  | some a =>
    obtain ⟨tag, s⟩ := a
    rw [h1] at h
    dsimp only at h ⊢
    cases h2 : scanInt s with
    | none => rw [h2] at h; cases h
    | some b => exact ⟨s, rfl⟩

theorem scanRegister_sat {buf : Bytes} {oi : OSMInfo} {e : Fault}
    (h : (scanRegister buf oi).2 = some (.error e)) : R.May e := by
  unfold scanRegister at h
  split at h
  · cases h
  · split at h
    · cases h
    · unfold scanIp at h
      obtain ⟨w, -, hw⟩ := Option.map_eq_some_iff.mp h
      split at hw
      · obtain rfl := Except.error.inj hw
        exact Rules.may_of_ne (by decide)
      · cases hw

include hi in
theorem ehProcessOsmRegister_sat (c : Clc) (ht : Terminated R c i) (hp : QuietPre R i c)
    (hreg : R.strict → RegisterOk c i) (htyped : OsmTyped R c i) :
    Sat R.May (fun r => Does R i c r.1) (ehProcessOsmRegister env c i) := by
  unfold ehProcessOsmRegister
  refine (mem_sat c).bind fun m hm => (loadStr_sat ht hm).bind fun buf hbuf => ?_
  split
  · exact Does.refl c
  · split
    · exact Does.refl c
    · exact Rules.may_of_ne (by decide)
    · rename_i oi he
      have htag := @scanRegister_tag buf oi
      have herr := @scanRegister_sat R buf oi
      generalize scanRegister buf oi = q at htag herr
      obtain ⟨oi1, ip⟩ := q
      dsimp only at htag herr
      cases ip with
      | none => exact setOsm_does he
      | some x =>
        cases x with
        | error e => exact herr rfl
        | ok ip =>
          obtain ⟨rest, hrest⟩ := htag rfl
          have h1 : Does R i c (c.setOsm i { oi1 with ip := some ip }) := setOsm_does he
          have hst1 := setOsm_status c i { oi1 with ip := some ip }
          have hent1 : ((c.setOsm i { oi1 with ip := some ip }).store.ents i).entity ≠ .null := by
            simp [Clc.setOsm, Clc.modifyEnt]
          have hhist1 : (c.setOsm i { oi1 with ip := some ip }).hist = c.hist := rfl
          have htype1 := setOsm_type c i { oi1 with ip := some ip }
          dsimp only
          generalize c.setOsm i { oi1 with ip := some ip } = c1 at h1 hst1 hhist1 hent1 htype1
          generalize hres : (if lyEntityIsAuthenticated c1.store i = false ∨
            oi1.status ≠ osmStatusUnregistered then LyS.registeringDoneFail
            else LyS.registeringDoneSuccess) = result
          have hsend := lyPacketSend_outside env c1 (c1.store.ents i).fd PktType.osmRegisterReply
            (le32 result)
          have h2 := h1.trans (.call hsend (lyPacketSend_db env c1 (c1.store.ents i).fd
            PktType.osmRegisterReply (le32 result)))
          generalize lyPacketSend env c1 (c1.store.ents i).fd PktType.osmRegisterReply
            (le32 result) = r at hsend h2
          split
          · exact h2
          · split
            · exact h2
            · rename_i hsucc
              -- success is answered to an authenticated connection only
              have hauth : Flag.authenticated ≤ (c.store.ents i).status := by
                have hres' : result = LyS.registeringDoneSuccess := Classical.not_not.mp hsucc
                rw [← hres] at hres'
                split at hres'
                · exact absurd hres' (by decide)
                · rename_i hcond
                  have : lyEntityIsAuthenticated c1.store i = true := by
                    cases h : lyEntityIsAuthenticated c1.store i with
                    | true => rfl
                    | false => exact absurd (.inl h) hcond
                  rw [lyEntityIsAuthenticated, lyEntityIs_natCast hi, hst1] at this
                  simpa using this
              have hloud : ¬ R.quiet := by
                intro hc
                have := (hp hc).1
                omega
              have hout := dbInstanceUpdateStatus_outside env r.1 oi1.tag
                (some { status := DomainS.running, ip := some ip, gport := -1 }) (-1)
              have h3 := h2.trans (.outside hout hloud)
              unfold osmRegistered
              dsimp only
              generalize dbInstanceUpdateStatus env r.1 oi1.tag
                (some { status := DomainS.running, ip := some ip, gport := -1 }) (-1) = q at hout h3
              split
              · exact h3
              · have hent : q.1.store.ents i = c1.store.ents i := by
                  rw [hout.store, hsend.store]
                have hhist : q.1.hist i = c.hist i := by
                  rw [hout.hist, hsend.hist, hhist1]
                have hact := SlotAct.registerOsm (R := R) (q.1.store.ents i) (q.1.hist i) oi1.tag
                  (by rw [hent]; exact hent1) (by rw [hent, hst1]; exact hauth)
                  (fun hstrict => by
                    rw [hhist]
                    exact hreg hstrict hauth buf oi1.tag rest ⟨m, hbuf⟩ hrest) hloud
                exact h3.trans (update_note_does hi Flag.registered
                  (g := fun h => { h with registered := true }) (by decide) hact
                  (claimTidy_of_type fun htidy => by rw [hent, htype1]; exact htyped htidy oi he))

theorem keepSecret_setOsm_does {c : Clc} {oi oi' : OSMInfo} {tag : Int} {s : Bytes}
    (he : (c.store.ents i).entity = .osm oi) (hs : (c.store.ents i).auth.secret = none)
    (ht : 0 < tag) (htag : oi'.tag = tag) :
    Does R i c ((c.keepSecret i tag (some s)).setOsm i oi') := by
  subst htag
  exact does_modify_note_modify (fun e => e.withSecret s) (fun e => { e with entity := .osm oi' })
    (fun h => { h with secretTag := some oi'.tag }) rfl rfl
    (.osmSecret _ _ oi oi' s he hs ht)

theorem osmAuthSecret_entity (c : Clc) (oi : OSMInfo) (tag : Int)
    (he : (c.store.ents i).entity = .osm oi) {oi' : OSMInfo}
    (h : (osmAuthSecret env c i oi tag).2 = some oi') :
    ((osmAuthSecret env c i oi tag).1.store.ents i).entity = .osm oi' := by
  unfold osmAuthSecret at h ⊢
  split at h
  · rename_i hs
    rw [if_pos hs]
    obtain rfl := Option.some.inj h
    exact he
  · rename_i hs
    rw [if_neg hs]
    generalize dbInstanceFindSecret env c tag = q at h
    obtain ⟨c1, ret, secret⟩ := q
    dsimp only at h ⊢
    split at h
    · cases h
    · rename_i hret
      rw [if_neg hret]
      obtain rfl := Option.some.inj h
      simp [Clc.setOsm, Clc.modifyEnt]

theorem osmAuthSecret_spec (c : Clc) (oi : OSMInfo) (tag : Int)
    (he : (c.store.ents i).entity = .osm oi) : Does R i c (osmAuthSecret env c i oi tag).1 := by
  obtain ⟨hcalled, hpos, htag⟩ := dbInstanceFindSecret_spec env c tag
  unfold osmAuthSecret
  split
  · exact .refl c
  · rename_i hs
    have hs' : (c.store.ents i).auth.secret = none := Classical.not_not.mp hs
    generalize dbInstanceFindSecret env c tag = q at hcalled hpos htag
    obtain ⟨c1, ret, secret⟩ := q
    dsimp only at hcalled hpos htag ⊢
    subst hcalled
    have h1 : Does R i c c.called := .call (.called c) rfl
    cases secret with
    | none =>
      split
      · exact h1
      · exact h1.trans (setOsm_does (c := c.called) he)
    | some s =>
      have hret := hpos (by simp)
      rw [if_neg (by omega)]
      exact h1.trans (keepSecret_setOsm_does (c := c.called) he hs' (htag hret) rfl)

/-- Reading the secret leaves the type alone. -/
theorem osmAuthSecret_type (c : Clc) (oi : OSMInfo) (tag : Int) :
    ((osmAuthSecret env c i oi tag).1.store.ents i).type = (c.store.ents i).type := by
  obtain ⟨hcalled, -, -⟩ := dbInstanceFindSecret_spec env c tag
  unfold osmAuthSecret
  split
  · rfl
  · generalize dbInstanceFindSecret env c tag = q at hcalled
    obtain ⟨c1, ret, secret⟩ := q
    dsimp only at hcalled ⊢
    subst hcalled
    have hkept : ((c.called.keepSecret i tag secret).store.ents i).type =
        (c.store.ents i).type := by
      cases secret with
      | none => rfl
      | some s => simp [Clc.keepSecret, Clc.note, Clc.modifyEnt, Clc.called]
    split
    · exact hkept
    · exact (setOsm_type ..).trans hkept

include hi in
theorem osmAuthRequest_sat (hw : R.writes) (c : Clc) (htyped : OsmTyped R c i) :
    Sat R.May (fun r => Does R i c r.1) (osmAuthRequest env c i) := by
  have htag := authTag_sat (R := R) (i := i) c
  unfold osmAuthRequest
  split
  · exact htag.of_error (by assumption)
  · rename_i tag _
    split
    · exact Does.refl c
    · exact Rules.may_of_ne (by decide)
    · rename_i oi he
      have hsec := osmAuthSecret_spec (R := R) env c oi tag he
      have hent := fun oi' => @osmAuthSecret_entity i env c oi tag he oi'
      have htype := osmAuthSecret_type (i := i) env c oi tag
      generalize osmAuthSecret env c i oi tag = q at hsec hent htype
      obtain ⟨c1, found⟩ := q
      cases found with
      | none => exact hsec
      | some oi1 =>
        refine (authAnswer_sat hi env hw c1 _ _ _ ?_ (claimTidy_of_type fun ht => ?_)).mono fun _ =>
          hsec.trans
        · rw [hent oi1 rfl]
          simp
        · rw [htype]
          exact htyped ht oi he

/-! ## The web and the echo -/

theorem processWebJob_sat (hloud : ¬ R.quiet) (hw : R.web) (c : Clc) (size : Int) :
    Sat R.May (fun r => Does R i c r.1) (processWebJob env c size i) := by
  unfold processWebJob
  split
  · exact Does.refl c
  · refine (mem_sat c).bind fun m _ => (load_sat (by decide)).bind fun b _ => ?_
    exact webJob_sat hloud hw env c _

/-- The payload lies inside the buffer, or nothing is known about the buffer. -/
def Bounded (R : Rules) (size : Int) : Prop :=
  R.wild ∨ sizeofLYPacketHeader + size.toNat ≤ luoyunPacketSizeMax

theorem processTestEcho_sat (c : Clc) (size : Int) (ht : Terminated R c i) (hb : Bounded R size) :
    Sat R.May (fun r => Does R i c r.1) (processTestEcho env c size i) := by
  unfold processTestEcho
  refine (mem_sat c).bind fun m hm => (loadStr_sat ht hm).bind fun _ _ => ?_
  split
  · exact Does.refl c
  · have hload : Sat R.May (fun _ => True) (m.load sizeofLYPacketHeader size.toNat) := by
      unfold Mem.load
      split
      · exact trivial
      · rename_i h
        exact fun _ => hb.resolve_right h
    exact hload.bind fun data _ => Does.call (lyPacketSend_outside ..) (lyPacketSend_db ..)

/-! ## Any packet -/

/-- The packets that imply a type for their sender. -/
def ImpliesType (type : Int) : Prop :=
  type = PktType.webNewJobRequest ∨ type = PktType.nodeRegisterRequest ∨
    type = PktType.nodeAuthRequest ∨ type = PktType.nodeAuthReply ∨ type = PktType.osmAuthRequest ∨
    type = PktType.osmAuthReply ∨ type = PktType.osmRegisterRequest

/-- The packets that carry an `AuthInfo`. -/
def IsAuth (type : Int) : Prop :=
  type = PktType.nodeAuthRequest ∨ type = PktType.nodeAuthReply ∨ type = PktType.osmAuthRequest ∨
    type = PktType.osmAuthReply

/-- The packets whose payload is read as a document from a node. -/
def NodeXml (type : Int) : Prop :=
  type ≠ PktType.nodeAuthRequest ∧ type ≠ PktType.nodeAuthReply ∧ type ≠ PktType.clcOsmQueryReply ∧
    (PktType.entityGroup type = EntityType.clc.code ∨
      PktType.entityGroup type = EntityType.node.code)

/-- The state in which `eh_process_node_xml` finds the connection. -/
def Clc.announced (c : Clc) (i : Nat) (type : Int) : Clc :=
  if type = PktType.nodeRegisterRequest then c.init i .node else c

/-- What the rules of a run ask of a packet. -/
structure PacketOk (R : Rules) (env : Env) (c : Clc) (i : Nat) (type size : Int) : Prop where
  text : Terminated R c i
  bounded : Bounded R size
  live : ImpliesType type → R.live → (c.store.ents i).id ≠ -1
  typed : ImpliesType type → R.typed
  writes : IsAuth type → R.writes
  web : type = PktType.webNewJobRequest → R.web ∧ ¬ R.quiet
  query : type = PktType.clcOsmQueryReply → ¬ R.quiet
  report : type = PktType.osmReport → ReportOk R c i size ∧ ¬ R.quiet
  /-- An answer is verified with a secret. -/
  reply : type = PktType.nodeAuthReply ∨ type = PktType.osmAuthReply →
    R.strict → (c.store.ents i).auth.secret ≠ none
  register : type = PktType.osmRegisterRequest → R.strict → RegisterOk c i
  quiet : QuietPre R i c
  xml : R.quiet → ∀ s root, PayloadText c i s → env.readDoc s = some root → QuietXml root
  unverified : R.quiet → ∀ r, handlePacket env c i type size = .ok r → (r.1.hist i).verified = false
  registers : NodeXml type → ∀ s root, PayloadText c i s → env.readDoc s = some root →
    NodeRegistersOk R env root i root.children (c.announced i type) 0
  nodeAuth : type = PktType.nodeAuthRequest → R.tidy → NodeAuthTidy env (c.init i .node) i
  osmTyped : OsmTyped R c i

/-- Where handlers may release nodes and the architecture is not looked at, nothing more is asked.
-/
theorem nodeRegistersOk_free (hm : ¬ R.tidy) (ha : ¬ R.arch) (c : Clc) (type : Int) :
    NodeXml type → ∀ s root, PayloadText c i s → env.readDoc s = some root →
      NodeRegistersOk R env root i root.children (c.announced i type) 0 :=
  fun _ _ root _ _ => nodeRegistersOk_of_plain env hm root (fun h => absurd h ha) _ _

theorem init_ents (hi : i < lyEntityMax) (c : Clc) (t : EntityType) :
    (c.init i t).store.ents i = c.store.ents i ∨
      (c.init i t).store.ents i = (c.store.ents i).inited t := by
  unfold Clc.init lyEntityInit
  rw [slot?_natCast hi]
  dsimp only
  split
  · exact .inl rfl
  · right
    cases t <;> simp [LYEntity.inited, EntityStore.modify, EntityStore.set]

/-- Giving the entity its type changes nothing that `PacketOk` speaks of. -/
theorem init_same (hi : i < lyEntityMax) (c : Clc) (t : EntityType) :
    (c.init i t).mem i = c.mem i ∧
      ((c.init i t).store.ents i).status = (c.store.ents i).status ∧
      ((c.init i t).store.ents i).auth = (c.store.ents i).auth := by
  have hpkt : ((c.init i t).store.ents i).pkt = (c.store.ents i).pkt := by
    rcases init_ents hi c t with h | h <;> rw [h]
    cases t <;> rfl
  refine ⟨?_, ?_, ?_⟩
  · unfold Clc.mem
    rw [hpkt]
  · rcases init_ents hi c t with h | h <;> rw [h]
    exact status_inited _ _
  · rcases init_ents hi c t with h | h <;> rw [h]
    cases t <;> rfl

theorem PacketOk.terminated_init {c : Clc} {type size : Int} (h : PacketOk R env c i type size)
    (hi : i < lyEntityMax) (t : EntityType) : Terminated R (c.init i t) i := by
  refine h.text.imp_right fun ht m hm => ht m ?_
  rw [← (init_same hi c t).1]
  exact hm

theorem payloadText_init {c : Clc} (hi : i < lyEntityMax) {t : EntityType} {s : Bytes}
    (h : PayloadText (c.init i t) i s) : PayloadText c i s := by
  obtain ⟨m, hm, hs⟩ := h
  exact ⟨m, (init_same hi c t).1 ▸ hm, hs⟩

theorem OsmTyped.init {c : Clc} (h : OsmTyped R c i) (hi : i < lyEntityMax) :
    OsmTyped R (c.init i .osm) i := by
  intro ht oi he
  rcases init_ents hi c .osm with hs | hs <;> rw [hs] at he ⊢
  · exact h ht oi he
  · exact nofun

include hi in
/-- **What handling a packet does**, whatever the packet is. -/
theorem handlePacket_sat (c : Clc) (type size : Int) (h : PacketOk R env c i type size) :
    Sat R.May (fun r => Does R i c r.1) (handlePacket env c i type size) := by
  have hunv := h.unverified
  have hinit : ∀ t, ImpliesType type → Does R i c (c.init i t) :=
    fun t ht => init_does hi t (h.live ht) (h.typed ht)
  have hauth : ∀ t, type = PktType.nodeAuthReply ∨ type = PktType.osmAuthReply →
      R.strict → ((c.init i t).store.ents i).auth.secret ≠ none := by
    intro t ht hs
    rw [(init_same hi c t).2.2]
    exact h.reply ht hs
  unfold handlePacket at hunv ⊢
  split
  · -- the web
    rename_i ht
    exact (processWebJob_sat env (h.web ht).2 (h.web ht).1 _ size).mono fun _ =>
      (hinit _ (.inl ht)).trans
  split
  · -- a node registers
    rename_i _ ht
    have h1 := hinit .node (.inr (.inl ht))
    subst ht
    exact (ehProcessNodeXml_sat hi env _ (h.terminated_init env hi _) (h1.quietPre h.quiet)
      (fun hc s root hs => h.xml hc s root (payloadText_init hi hs)) fun s root hs =>
      h.registers ⟨by decide, by decide, by decide, .inr (by decide)⟩ s root
        (payloadText_init hi hs)).mono
        fun _ => h1.trans
  split
  · -- a node authenticates
    rename_i h1 h2 ht
    have hd := hinit .node (.inr (.inr (ht.elim .inl fun h => .inr (.inl h))))
    rw [if_neg h1, if_neg h2, if_pos ht] at hunv
    unfold ehProcessNodeAuth at hunv ⊢
    by_cases hr : (type == PktType.nodeAuthReply) = true
    · rw [if_pos hr] at hunv ⊢
      have hw := h.writes (ht.elim .inl fun h => .inr (.inl h))
      exact (authVerify_sat hi env hw _ (hauth _ (.inl (by simpa using hr))) hunv).mono
        fun _ => hd.trans
    · rw [if_neg hr]
      have hw := h.writes (ht.elim .inl fun h => .inr (.inl h))
      have hreq := ht.resolve_right (by simpa using hr)
      exact (nodeAuthRequest_sat hi env hw _ (h.nodeAuth hreq)).mono fun _ => hd.trans
  split
  · -- an OS manager authenticates
    rename_i h1 h2 h3 ht
    have hd := hinit .osm (.inr (.inr (.inr (.inr (ht.elim .inl fun h => .inr (.inl h))))))
    rw [if_neg h1, if_neg h2, if_neg h3, if_pos ht] at hunv
    unfold ehProcessOsmAuth at hunv ⊢
    by_cases hr : (type == PktType.osmAuthReply) = true
    · rw [if_pos hr] at hunv ⊢
      have hw := h.writes (ht.elim (fun h => .inr (.inr (.inl h))) fun h => .inr (.inr (.inr h)))
      exact (authVerify_sat hi env hw _ (hauth _ (.inr (by simpa using hr))) hunv).mono
        fun _ => hd.trans
    · rw [if_neg hr]
      have hw := h.writes (ht.elim (fun h => .inr (.inr (.inl h))) fun h => .inr (.inr (.inr h)))
      exact (osmAuthRequest_sat hi env hw _ (h.osmTyped.init hi)).mono fun _ => hd.trans
  split
  · rename_i ht
    exact ehProcessOsmQuery_sat env (h.query ht) c h.text
  split
  · rename_i _ hnot hauth _ hquery hgroup
    have hregs := h.registers ⟨fun hc => hauth (.inl hc), fun hc => hauth (.inr hc), hquery, hgroup⟩
    unfold Clc.announced at hregs
    rw [if_neg hnot] at hregs
    exact ehProcessNodeXml_sat hi env c h.text h.quiet h.xml hregs
  split
  · -- an OS manager registers
    rename_i ht
    have hd := hinit .osm (.inr (.inr (.inr (.inr (.inr (.inr ht))))))
    refine (ehProcessOsmRegister_sat hi env _ (h.terminated_init env hi _)
      (hd.quietPre h.quiet) (fun hs => ?_) (h.osmTyped.init hi)).mono fun _ => hd.trans
    intro hst s tag rest hpay hscan
    rw [(init_same hi c _).2.1] at hst
    exact h.register ht hs hst s tag rest (payloadText_init hi hpay) hscan
  split
  · rename_i ht
    exact ehProcessOsmReport_sat hi env (h.report ht).2 c size (h.report ht).1
  split
  · exact processTestEcho_sat env c size h.text h.bounded
  · exact Does.refl c

/-! ## The end of a connection -/

theorem entityClosed_sat (hloud : ¬ R.quiet) (c : Clc) :
    Sat R.May (fun r => Does R i c r.1) (entityClosed env c i) := by
  unfold entityClosed
  dsimp only
  split
  · have h := jobCleanOnEntity_sat (i := i) hloud env i LyS.finishedFailureNodeNotOnline c
    split
    · exact h.of_error (by assumption)
    · rename_i c1 hc
      have h1 : Does R i c c1 := h.of_ok hc
      exact h1.trans (.outside (dbNodeUpdateStatus_outside ..) hloud)
  · exact Does.outside ((dbInstanceUpdateStatus_outside ..).trans
      (jobInternalQueryInstance_outside ..)) hloud
  · exact Does.refl c

end

end LuoYun

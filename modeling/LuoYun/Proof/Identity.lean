import LuoYun.Proof.StatusOrder
import LuoYun.Proof.DataType

/-!
# The registered identity is the verified one

The tag of a peer travels in every authentication packet, in the register request and in the data of
the entity, and the secret is read for the first tag that is named. What is proved to the CLC is the
knowledge of that secret. A node is registered under the tag that goes with its secret. An OS
manager is registered under whatever tag its register request names, an answer is verified without
any secret when none has been read, and a report writes a registered status by itself. And a
connection that packets of both types arrive at has its tag read through the layout of the other
one. In runs without these four (`Honest`) the registered identity is the verified one, and no tag
is read so.

A run is followed up to the first fault, such as `wrongType`.
-/

namespace LuoYun

/-- A registered entity has the database id that was verified on its connection. -/
def RegisteredAsVerified (s : Slot) : Prop :=
  Flag.registered ≤ s.ent.status → s.hist.verifiedTag = some s.ent.dbId

/-- A packet as an honest peer sends it, given what the connection has done so far. -/
structure Honest (env : Env) (c : Clc) (i : Nat) (type size : Int) : Prop
    extends Matching env c i type size where
  /-- An answer to a challenge comes when the secret has been read. -/
  reply : type = PktType.nodeAuthReply ∨ type = PktType.osmAuthReply →
    (c.store.ents i).auth.secret ≠ none
  /-- An authenticated OS manager registers with the tag its secret was read for. -/
  register : type = PktType.osmRegisterRequest → RegisterOk c i
  /-- A report comes from a registered connection. -/
  report : type = PktType.osmReport → size = 4 → ∀ v, PayloadInt c i v → LyS.appRunning ≤ v →
    v ≤ LyS.appFailed → Flag.registered ≤ (c.store.ents i).status

/-- The rules of a run of honest peers. -/
def strictRules : Rules where
  wild := True
  web := True
  live := False
  ordered := False
  strict := True
  quiet := False

theorem Honest.packetOk {env : Env} {c : Clc} {i : Nat} {type size : Int}
    (h : Honest env c i type size) : PacketOk strictRules env c i type size where
  text := .inl trivial
  bounded := .inl trivial
  live := fun _ hl => hl.elim
  typed := fun _ => trivial
  writes := fun _ => trivial
  web := fun _ => ⟨trivial, id⟩
  query := fun _ => id
  report := fun ht =>
    ⟨fun hs v hv h1 h2 => ⟨fun ho => ho.elim, fun _ => h.report ht hs v hv h1 h2⟩, id⟩
  reply := fun ht _ => h.reply ht
  register := fun ht _ => h.register ht
  quiet := fun hq => hq.elim
  xml := fun hq => hq.elim
  unverified := fun hq => hq.elim
  registers := nodeRegistersOk_free env id id c type
  nodeAuth := fun _ ht => ht.elim
  osmTyped := fun ht => ht.elim

/-- What ties the tag, the secret, the verification and the database id together. -/
structure Tied (s : Slot) : Prop where
  /-- A secret goes with a tag. -/
  tag : s.ent.auth.secret ≠ none → ∃ t, s.hist.secretTag = some t ∧ 0 < t
  /-- The tag of a node is the one its secret goes with. -/
  node : s.ent.auth.secret ≠ none → ∀ nd, s.ent.entity = .node nd →
    s.hist.secretTag = some nd.node.hostTag
  untyped : s.ent.type = .unknown → s.ent.auth.secret = none
  data : s.ent.entity ≠ .null → s.ent.type ≠ .unknown
  authenticated : Flag.authenticated ≤ s.ent.status →
    s.ent.auth.secret ≠ none ∧ s.hist.verifiedTag = s.hist.secretTag
  registered : RegisteredAsVerified s

/-- A slot without a secret whose status is low. -/
theorem Tied.of_low {s : Slot} (hs : s.ent.auth.secret = none)
    (hlow : s.ent.status < Flag.authenticated)
    (hdata : s.ent.entity ≠ .null → s.ent.type ≠ .unknown) : Tied s where
  tag := fun h => absurd hs h
  node := fun h => absurd hs h
  untyped := fun _ => hs
  data := hdata
  authenticated := fun h => absurd h (by omega)
  registered := fun h => by
    have : Flag.authenticated ≤ s.ent.status := Int.le_trans (by decide) h
    omega

/-- Without a secret nobody is authenticated. -/
theorem Tied.low {s : Slot} (h : Tied s) (hs : s.ent.auth.secret = none) :
    s.ent.status < Flag.authenticated := by
  by_contra hc
  exact (h.authenticated (by omega)).1 hs

/-- A change that keeps the secret, the type, the status, the database id and the history, and
keeps the tag of a node that has a secret. -/
theorem Tied.of_data {s : Slot} {e : LYEntity} (h : Tied s) (hs : e.auth.secret = s.ent.auth.secret)
    (ht : e.type = s.ent.type) (hst : e.status = s.ent.status) (hd : e.dbId = s.ent.dbId)
    (hnull : e.entity ≠ .null → s.ent.entity ≠ .null)
    (hnode : s.ent.auth.secret ≠ none → ∀ nd, e.entity = .node nd →
      ∃ nd', s.ent.entity = .node nd' ∧ nd'.node.hostTag = nd.node.hostTag) : Tied ⟨e, s.hist⟩ where
  tag := by rw [hs]; exact h.tag
  node := by
    intro hsec nd hnd
    rw [hs] at hsec
    obtain ⟨nd', hnd', htag⟩ := hnode hsec nd hnd
    rw [← htag]
    exact h.node hsec nd' hnd'
  untyped := by rw [ht, hs]; exact h.untyped
  data := fun he => by rw [ht]; exact h.data (hnull he)
  authenticated := by rw [hst, hs]; exact h.authenticated
  registered := by
    intro hr
    rw [hst] at hr
    rw [hd]
    exact h.registered hr

/-- A change to the status and the database id. -/
theorem Tied.of_status {s : Slot} {e : LYEntity} {h' : ConnHist} (h : Tied s)
    (ha : e.auth = s.ent.auth) (ht : e.type = s.ent.type) (hent : e.entity = s.ent.entity)
    (hsec : h'.secretTag = s.hist.secretTag)
    (hauth : Flag.authenticated ≤ e.status →
      s.ent.auth.secret ≠ none ∧ h'.verifiedTag = s.hist.secretTag)
    (hreg : RegisteredAsVerified ⟨e, h'⟩) : Tied ⟨e, h'⟩ where
  tag := by rw [ha, hsec]; exact h.tag
  node := by rw [ha, hsec, hent]; exact h.node
  untyped := by rw [ht, ha]; exact h.untyped
  data := by rw [hent, ht]; exact h.data
  authenticated := by rw [ha, hsec]; exact hauth
  registered := hreg

theorem busyDec_node {d : EntityData} {nd : LYNodeData} (h : busyDec d = .node nd) :
    ∃ nd', d = .node nd' ∧ nd'.node.hostTag = nd.node.hostTag := by
  cases d with
  | null => cases h
  | osm oi =>
    rw [busyDec] at h
    split at h <;> cases h
  | node nd' =>
    refine ⟨nd', rfl, ?_⟩
    rw [busyDec] at h
    split at h
    · rw [← EntityData.node.inj h]
    · rw [← EntityData.node.inj h]

theorem busyDec_ne_null {d : EntityData} (h : busyDec d ≠ .null) : d ≠ .null := by
  rintro rfl
  exact h rfl

theorem tied_init {e : LYEntity} {hist : ConnHist} (h : Tied ⟨e, hist⟩) {type : EntityType}
    (ht : e.type = .unknown) : Tied ⟨e.inited type, hist⟩ := by
  have hsec : e.auth.secret = none := h.untyped ht
  refine .of_low ?_ (by rw [status_inited]; exact h.low hsec) ?_
  · cases type <;> exact hsec
  · cases type with
    | node => intro _ hc; cases hc
    | osm => intro _ hc; cases hc
    | unknown => intro he; exact absurd ht (h.data he)
    | web => intro _ hc; cases hc
    | clc => intro _ hc; cases hc

theorem tied_registered {e : LYEntity} {hist : ConnHist} (h : Tied ⟨e, hist⟩) {tag : Int}
    (hlo : Flag.authenticated ≤ e.status) (htag : hist.secretTag = some tag) :
    Tied ⟨(e.withStatus Flag.registered).claiming tag, { hist with registered := true }⟩ := by
  obtain ⟨hsec, hver⟩ := h.authenticated hlo
  obtain ⟨t, ht, hpos⟩ := h.tag hsec
  have htt : t = tag := Option.some.inj (ht.symm.trans htag)
  refine h.of_status rfl rfl rfl rfl (fun _ => ⟨hsec, hver⟩) fun _ => ?_
  have hclaim : ((e.withStatus Flag.registered).claiming tag).dbId = tag := by
    rw [LYEntity.claiming, if_neg (by omega)]
  show hist.verifiedTag = some ((e.withStatus Flag.registered).claiming tag).dbId
  rw [hclaim, hver]
  exact htag

theorem tied_act {s s' : Slot} (h : Tied s) (ha : SlotAct strictRules s s') : Tied s' := by
  cases ha with
  | mem e hist m hm => exact h.of_data rfl rfl rfl rfl id fun _ nd hnd => ⟨nd, hnd, rfl⟩
  | release e hist => exact .of_low rfl (by rw [status_released]; decide) fun hc => absurd rfl hc
  | busy e hist => exact h.of_data rfl rfl rfl rfl busyDec_ne_null fun _ nd hnd => busyDec_node hnd
  | init e hist type ht _ _ => exact tied_init h ht
  | node e hist nd nd' he ht =>
    refine h.of_data rfl rfl rfl rfl (fun _ hc => by rw [he] at hc; cases hc) fun hsec nd₁ hnd => ?_
    obtain rfl := EntityData.node.inj hnd
    refine ⟨nd, he, ?_⟩
    -- a node with a secret has a positive tag
    obtain ⟨t, ht', hpos⟩ := h.tag hsec
    have htag : some nd.node.hostTag = some t := (h.node hsec nd he).symm.trans ht'
    rcases ht with ht | ht | ht
    · exact ht.symm
    · have := Option.some.inj htag
      omega
    · exact absurd ht hsec
  | osm e hist oi oi' he =>
    exact h.of_data rfl rfl rfl rfl (fun _ hc => by rw [he] at hc; cases hc) fun _ nd hnd =>
      nomatch hnd
  | nodeSecret e hist nd nd' s he hs ht =>
    have hlow := h.low hs
    have htype : e.type ≠ .unknown := h.data (by rw [he]; simp)
    refine ⟨fun _ => ⟨_, rfl, ht⟩, fun _ nd₁ hnd => ?_, fun hc => absurd hc htype, fun _ => htype,
      fun hst => absurd hst (Int.not_le.mpr hlow), fun hst => absurd (Int.le_trans (by decide) hst)
        (Int.not_le.mpr hlow)⟩
    obtain rfl := EntityData.node.inj hnd
    rfl
  | osmSecret e hist oi oi' s he hs ht =>
    have hlow := h.low hs
    have htype : e.type ≠ .unknown := h.data (by rw [he]; simp)
    exact ⟨fun _ => ⟨_, rfl, ht⟩, fun _ nd₁ hnd => (nomatch hnd),
      fun hc => absurd hc htype, fun _ => htype,
      fun hst => absurd hst (Int.not_le.mpr hlow), fun hst => absurd (Int.le_trans (by decide) hst)
        (Int.not_le.mpr hlow)⟩
  | challenge e hist u _ => exact h.of_data rfl rfl rfl rfl id fun _ nd hnd => ⟨nd, hnd, rfl⟩
  | online e hist d _ =>
    have hst : ((e.withStatus Flag.online).claiming d).status = Flag.online := by
      rw [status_claiming, status_withStatus _ (by decide) (by decide)]
    refine h.of_status rfl rfl rfl rfl (fun hc => ?_) fun hc => ?_
    · rw [hst] at hc
      exact absurd hc (by decide)
    · rw [hst] at hc
      exact absurd hc (by decide)
  | verified e hist hs _ =>
    split
    · exact h.of_status rfl rfl rfl rfl (fun _ => ⟨hs trivial, rfl⟩) fun hst => by
        have hauth : Flag.authenticated ≤ e.status := Int.le_trans (by decide) hst
        have := h.registered hst
        rwa [(h.authenticated hauth).2] at this
    · refine h.of_status rfl rfl rfl rfl (fun _ => ⟨hs trivial, rfl⟩) fun hst => ?_
      rw [status_withStatus _ (by decide) (by decide)] at hst
      exact absurd hst (by decide)
  | enable e hist d b _ hlo hhi _ =>
    refine h.of_status rfl rfl rfl rfl (fun _ => h.authenticated hlo) fun hst => ?_
    rw [status_claiming, status_withEnabled] at hst
    omega
  | disable e hist =>
    exact h.of_data rfl rfl (status_withEnabled e false) rfl id fun _ nd hnd => ⟨nd, hnd, rfl⟩
  | registerNode e hist nd he hs hlo _ => exact tied_registered h hlo (h.node hs nd he)
  | registerOsm e hist tag _ hlo ht _ => exact tied_registered h hlo (ht trivial)
  | report e hist status _ _ hr _ =>
    have hst := hr trivial
    exact h.of_status rfl rfl rfl rfl
      (fun _ => h.authenticated (Int.le_trans (by decide) hst)) fun _ => h.registered hst

theorem tied_kept : Kept strictRules fun c => ∀ j, Tied (c.slot j) := by
  refine kept_slots ?_ ?_ fun s s' => tied_act
  · intro e fd i p n he _ hs
    refine .of_low hs ?_ fun hc => absurd he hc
    show ((0 : BitVec 8) &&& Flag.statusMask).toNat < Flag.authenticated
    decide
  · intro e hist p h
    exact h.of_data rfl rfl rfl rfl id fun _ nd hnd => ⟨nd, hnd, rfl⟩

theorem tied_boot {w : World} (h : Boot w) (j : Nat) : Tied (w.clc.slot j) := by
  rcases boot_slot h j with hs | ⟨fd, p, -, hs⟩ <;> rw [hs]
  · exact .of_low rfl (by decide) fun hc => absurd rfl hc
  · refine .of_low rfl ?_ fun _ hc => nomatch hc
    show ((0 : BitVec 8) &&& Flag.statusMask).toNat < Flag.authenticated
    decide

/-- **A registered entity has the identity it was verified with**, in every state of every run of
honest peers, and the next honest packet is handled through the layout of its connection. -/
theorem registered_as_verified (env : Env) (w : World)
    (h : Reachable env (OnPacket (Honest env)) w) :
    (∀ j, RegisteredAsVerified (w.clc.slot j)) ∧
      (OnPacket (Honest env) w .round → w.next env .round ≠ some (.error .wrongType)) := by
  have htied :=
    (reachable_inv tied_kept id id (fun _ => tied_boot) (fun _ _ _ _ _ _ hp => hp.packetOk) h).1
  obtain ⟨htyped, hin⟩ := reachable_inv (typed_kept strictRules) id id (fun _ => typed_boot)
    (fun _ _ _ _ _ _ hp => hp.packetOk) h
  exact ⟨fun j => (htied j).registered,
    fun hround => next_fine env htyped hin (hround.mono fun _ _ _ _ h => h.toMatching)⟩

/-- The text of the packet, if it ends in the buffer. -/
def payloadText? (c : Clc) (i : Nat) : Option Bytes :=
  (do let m ← c.mem i; m.loadStr sizeofLYPacketHeader : Res Bytes).toOption

theorem payloadText?_eq {c : Clc} {i : Nat} {s : Bytes} (h : PayloadText c i s) :
    payloadText? c i = some s := by
  obtain ⟨m, hm, hs⟩ := h
  simp only [payloadText?, hm, bind, Except.bind, hs]
  rfl

/-- A packet of an OS manager that keeps to its tag. -/
def honestTest (c : Clc) (i : Nat) (type _size : Int) : Bool :=
  (c.store.ents i).type != .node &&
    (type == PktType.osmAuthRequest ||
      type == PktType.osmAuthReply && (c.store.ents i).auth.secret.isSome ||
      type == PktType.osmRegisterRequest &&
        ((payloadText? c i).bind scanInt).all (fun r => (c.hist i).secretTag == some r.1) ||
      type == PktType.osmReport && decide (Flag.registered ≤ (c.store.ents i).status))

theorem honestTest_honest (env : Env) (c : Clc) (i : Nat) (type size : Int)
    (h : honestTest c i type size = true) : Honest env c i type size := by
  simp only [honestTest, Bool.and_eq_true, Bool.or_eq_true, bne_iff_ne, beq_iff_eq,
    decide_eq_true_eq] at h
  obtain ⟨htype, h⟩ := h
  have hosm : type = PktType.osmAuthRequest ∨ type = PktType.osmAuthReply ∨
      type = PktType.osmRegisterRequest ∨ type = PktType.osmReport := by
    rcases h with ((h | h) | h) | h
    · exact .inl h
    · exact .inr (.inl h.1)
    · exact .inr (.inr (.inl h.1))
    · exact .inr (.inr (.inr h.1))
  have hnode : type ≠ PktType.nodeAuthRequest ∧ type ≠ PktType.nodeAuthReply ∧ ¬ NodeXml type := by
    rcases hosm with rfl | rfl | rfl | rfl <;>
      exact ⟨by decide, by decide, fun hx => absurd hx.2.2.2 (by decide)⟩
  refine ⟨⟨fun ht => absurd ht hnode.1, fun hx => absurd hx hnode.2.2, fun _ => htype,
    fun _ ht => absurd ht htype⟩, fun ht => ?_, fun ht _ s tag rest hs hscan =>
      ?_, fun ht _ v _ _ _ => ?_⟩
  · rcases h with ((h | h) | h) | h
    · subst h; rcases ht with ht | ht <;> exact absurd ht (by decide)
    · exact Option.isSome_iff_ne_none.mp h.2
    · obtain ⟨rfl, -⟩ := h; rcases ht with ht | ht <;> exact absurd ht (by decide)
    · obtain ⟨rfl, -⟩ := h; rcases ht with ht | ht <;> exact absurd ht (by decide)
  · rcases h with ((h | h) | h) | h
    · exact absurd (h.symm.trans ht) (by decide)
    · exact absurd (h.1.symm.trans ht) (by decide)
    · have hall := h.2
      rw [payloadText?_eq hs, Option.bind_some, hscan, Option.all_some, beq_iff_eq] at hall
      exact hall
    · exact absurd (h.1.symm.trans ht) (by decide)
  · rcases h with ((h | h) | h) | h
    · exact absurd (h.symm.trans ht) (by decide)
    · exact absurd (h.1.symm.trans ht) (by decide)
    · exact absurd (h.1.symm.trans ht) (by decide)
    · exact h.2

theorem registered_as_verified_serving :
    ∃ w, Machine.exec (World.next .keyed) authRegisterReport (World.start oneInstance []) = some w ∧
      (w.clc.slot 1).ent.status = Flag.serving ∧ (w.clc.slot 1).ent.dbId = 1 ∧
      RegisteredAsVerified (w.clc.slot 1) := by
  have hrun : (Machine.execIf (World.next .keyed) (World.passes honestTest) authRegisterReport
      (World.start oneInstance [])).map
        (fun w => ((w.clc.slot 1).ent.status, (w.clc.slot 1).ent.dbId)) =
        some (Flag.serving, 1) := by
    decide +kernel
  obtain ⟨w, hw, hs⟩ := Option.map_eq_some_iff.mp hrun
  obtain ⟨hst, hid⟩ := Prod.mk.inj hs
  refine ⟨w, Machine.exec_of_execIf hw, hst, hid, (registered_as_verified .keyed w ?_).1 1⟩
  exact .of_execIf (.of_init (start_boot oneInstance []))
    (fun _ _ => onPacket_of_passes (honestTest_honest .keyed)) hw

/-! ## An instance that registers as another one -/

/-- Two instances. The first one has the key. -/
def twoInstances : Db where
  instances := [{ id := 1, id_pos := Int.one_pos, key := some (cstr "luoyun") },
    { id := 2, id_pos := by decide, key := some (cstr "another") }]

/-- The first instance authenticates, and registers as the second. -/
def registerAsOther : List Event :=
  [.accept 4 fun _ => 0,
    .recv 1 (packet PktType.osmAuthRequest (le32 1 ++ List.replicate luoyunAuthDataLen 0) ++
      packet PktType.osmAuthReply (le32 1 ++
        xorFrom (fun n => keystreamLuoyun.getD n 0) 0
          (strncpy luoyunAuthDataLen (Env.keyed.uuid 0).text)) ++
      packet PktType.osmRegisterRequest (cstr "2 7 10.0.0.1")),
    .round, .round, .round]

/-- It is registered as instance 2, and verified as instance 1. -/
theorem registered_as_other : ¬ ∀ (env : Env) (w : World), Reachable env Machine.Always w →
    ∀ j, RegisteredAsVerified (w.clc.slot j) := by
  intro h
  have hrun : (Machine.exec (World.next .keyed) registerAsOther (World.start twoInstances [])).map
      (fun w =>
      ((w.clc.slot 1).ent.status, (w.clc.slot 1).ent.dbId, (w.clc.slot 1).hist.verifiedTag)) =
        some (Flag.registered, 2, some 1) := by
    decide +kernel
  obtain ⟨w, hw, hs⟩ := Option.map_eq_some_iff.mp hrun
  simp only [Prod.mk.injEq] at hs
  obtain ⟨hst, hd, hv⟩ := hs
  have := h .keyed w (.of_exec (.of_init (start_boot twoInstances [])) (fun _ _ _ => trivial) hw) 1
    (by rw [hst])
  rw [hd, hv] at this
  cases this

end LuoYun

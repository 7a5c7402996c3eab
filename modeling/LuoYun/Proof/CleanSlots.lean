import LuoYun.Proof.DataType

/-!
# Released slots

`ly_entity_release` leaves a slot with nothing in it, and `ly_entity_new` takes the first slot with
id `-1` and refuses to use it if anything is left in it. A handler may release the very connection
whose chunk is being worked off: a register request of a node that is registered already does, and
so does a response that stops the instance at the other end. The packets behind it in the chunk then
meet a slot with id `-1`, and one that implies a type gives it a type, private data and a place in a
list. From then on every new connection is refused, since the first free slot is not empty. And a
node that has registered with a number for its architecture ends the CLC when it is released: the
number is passed to `free`. In runs without such packets, whose packets belong to the type of their
connection, the released slots stay clean and no release ends the CLC (`released_slots_clean`).

A run is followed up to the first fault, such as `wrongType`.
-/

namespace LuoYun

/-- Nothing is left in the entity of a free slot. -/
structure Blank (e : LYEntity) : Prop where
  fd : e.fd = -1
  type : e.type = .unknown
  dbId : e.dbId = -1
  entity : e.entity = .null
  auth : e.auth = {}

/-- Every slot with id `-1` is blank and in neither list, and so the next connection finds a slot
whenever there is one. -/
structure CleanStore (s : EntityStore) : Prop where
  blank : ∀ j, (s.ents j).id = -1 → Blank (s.ents j) ∧ j ∉ s.nodeList ∧ j ∉ s.instanceList
  accepts : ∀ fd m, 0 ≤ fd → (∃ j, j < lyEntityMax ∧ (s.ents j).id = -1) →
    0 ≤ (lyEntityNew s fd m).2

/-- A packet that implies a type for its sender meets a connection that has not been released. -/
def TypedWhileLive (c : Clc) (i : Nat) (type _size : Int) : Prop :=
  ImpliesType type → (c.store.ents i).id ≠ -1

/-- The packet belongs to its connection, which has not been released where a type is implied, and
no register request in it names an architecture. -/
structure Harmless (env : Env) (c : Clc) (i : Nat) (type size : Int) : Prop
    extends Matching env c i type size where
  live : TypedWhileLive c i type size
  arch : NodeXml type → ∀ s root, PayloadText c i s → env.readDoc s = some root →
    ∀ n ∈ root.children, n.IsRegister → PlainArch root

/-- The rules of a run in which released slots get no type and no node names an architecture. -/
def liveRules : Rules where
  wild := True
  web := True
  live := True
  ordered := False
  strict := False
  quiet := False
  arch := True

theorem Harmless.packetOk {env : Env} {c : Clc} {i : Nat} {type size : Int}
    (h : Harmless env c i type size) : PacketOk liveRules env c i type size where
  text := .inl trivial
  bounded := .inl trivial
  live := fun ht _ => h.live ht
  typed := fun _ => trivial
  writes := fun _ => trivial
  web := fun _ => ⟨trivial, id⟩
  query := fun _ => id
  report := fun _ => ⟨fun _ _ _ _ _ => ⟨fun ho => ho.elim, fun hs => hs.elim⟩, id⟩
  reply := fun _ hs => hs.elim
  register := fun _ hs => hs.elim
  quiet := fun hq => hq.elim
  xml := fun hq => hq.elim
  unverified := fun hq => hq.elim
  registers := fun hx s root hs hr =>
    nodeRegistersOk_of_plain env id root (fun _ => h.arch hx s root hs hr) _ _
  nodeAuth := fun _ ht => ht.elim
  osmTyped := fun ht => ht.elim

/-- The slot is in use, or blank. -/
def UsedOrBlank (s : Slot) : Prop := s.ent.id = -1 → Blank s.ent

theorem blank_released (e : LYEntity) : Blank e.released := ⟨rfl, rfl, rfl, rfl, rfl⟩

/-- Writing the flag, the buffer or the counter of a blank entity leaves it blank. -/
theorem Blank.congr {e e' : LYEntity} (h : Blank e) (hfd : e'.fd = e.fd) (ht : e'.type = e.type)
    (hd : e'.dbId = e.dbId) (he : e.entity = .null → e'.entity = .null) (ha : e'.auth = e.auth) :
    Blank e' :=
  ⟨hfd.trans h.fd, ht.trans h.type, hd.trans h.dbId, he h.entity, ha.trans h.auth⟩

theorem usedOrBlank_act {s s' : Slot} (h : UsedOrBlank s) (ha : SlotAct liveRules s s') :
    UsedOrBlank s' := by
  -- what needs private data does not happen on a slot with id -1
  have hdata : s.ent.entity ≠ .null → s'.ent.id = s.ent.id → UsedOrBlank s' := fun he hid hc =>
    absurd (h (hid ▸ hc)).entity he
  cases ha with
  | mem e hist m hm => exact fun hid => (h hid).congr rfl rfl rfl id rfl
  | release e hist => exact fun _ => blank_released e
  | busy e hist =>
    refine fun hid => (h hid).congr rfl rfl rfl (fun he => ?_) rfl
    show busyDec e.entity = .null
    rw [he]
    rfl
  | init e hist type _ hl _ =>
    intro hid
    have : (e.inited type).id = e.id := by cases type <;> rfl
    exact absurd (this ▸ hid) (hl trivial)
  | node e hist nd nd' he _ _ => exact hdata (by rw [he]; simp) rfl
  | osm e hist oi oi' he => exact hdata (by rw [he]; simp) rfl
  | nodeSecret e hist nd nd' s he _ _ _ => exact hdata (by rw [he]; simp) rfl
  | osmSecret e hist oi oi' s he _ _ => exact hdata (by rw [he]; simp) rfl
  | challenge e hist u he => exact hdata he rfl
  | online e hist d he => exact hdata he rfl
  | verified e hist _ _ =>
    split
    · exact h
    · exact fun hid => (h hid).congr rfl rfl rfl id rfl
  | enable e hist d b he _ _ _ => exact hdata he rfl
  | disable e hist => exact fun hid => (h hid).congr rfl rfl rfl id rfl
  | registerNode e hist nd he _ _ _ => exact hdata (by rw [he]; simp) rfl
  | registerOsm e hist tag he _ _ _ => exact hdata he rfl
  | report e hist status _ _ _ _ => exact fun hid => (h hid).congr rfl rfl rfl id rfl

theorem usedOrBlank_kept : Kept liveRules fun c => ∀ j, UsedOrBlank (c.slot j) := by
  refine kept_slots ?_ ?_ fun s s' => usedOrBlank_act
  · intro e fd i p n _ _ _ hid
    have : (i : Int) = -1 := hid
    omega
  · intro e hist p h hid
    exact (h hid).congr rfl rfl rfl id rfl

/-- The lists are in order and the free slots blank. -/
structure Orderly (c : Clc) : Prop where
  wf : StoreWf c.store
  slots : ∀ j, UsedOrBlank (c.slot j)

theorem orderly_kept : Kept liveRules Orderly where
  accept := by
    intro c fd m h
    refine ⟨?_, usedOrBlank_kept.accept c fd m h.slots⟩
    rcases epollWorkRecv_cases c fd m with he | ⟨i, -, -, hid, -, -, -, hstore, -⟩
    · rw [he]
      exact h.wf
    · rw [hstore]
      have ht : (c.store.ents i).type = .unknown := (h.slots i hid).type
      refine storeWf_set h.wf (fun hl => ?_) (.inr rfl)
      rw [ht] at hl
      rcases hl with hl | hl <;> cases hl
  pkt := by
    intro c i p h
    have hwf : StoreWf (c.store.modify i fun e => { e with pkt := some p }) :=
      storeWf_modify rfl rfl h.wf
    exact ⟨hwf, usedOrBlank_kept.pkt c i p h.slots⟩
  prim := by
    intro i a b h hp
    refine ⟨?_, usedOrBlank_kept.prim i a b h.slots hp⟩
    cases hp with
    | outside ho _ => rw [ho.store]; exact h.wf
    | jobs _ hstore _ _ => rw [hstore]; exact h.wf
    | insert hstore _ _ _ => rw [hstore]; exact h.wf
    | slot j ht _ _ _ => exact ht.wf h.wf
    | displace j ht _ _ _ => exact ht.wf h.wf

theorem orderly_boot {w : World} (h : Boot w) : Orderly w.clc := by
  refine ⟨boot_storeWf h, fun j hid => ?_⟩
  rcases boot_slot h j with hs | ⟨fd, p, -, hs⟩
  · rw [hs]
    exact ⟨rfl, rfl, rfl, rfl, rfl⟩
  · rw [hs] at hid
    exact absurd (show (0 : Int) = -1 from hid) (by decide)

theorem Orderly.cleanStore {c : Clc} (h : Orderly c) : CleanStore c.store where
  blank := fun j hid => ⟨h.slots j hid, h.wf.not_mem (h.slots j hid).type .node (.inl rfl),
    h.wf.not_mem (h.slots j hid).type .osm (.inr rfl)⟩
  accepts := by
    rintro fd m hfd ⟨j, hj, hid⟩
    unfold lyEntityNew
    rw [if_neg (by omega)]
    cases hfree : freeSlot c.store with
    | none => exact absurd hid (freeSlot_eq_none.mp hfree j hj).2
    | some i =>
      have hb := h.slots i (freeSlot_some hfree).2
      have hnull : (c.store.ents i).entity = .null := hb.entity
      have hauth : (c.store.ents i).auth = {} := hb.auth
      dsimp only
      rw [if_neg (by rw [hnull, hauth]; simp)]
      dsimp only
      omega

/-! ## Nodes without an architecture -/

/-- The data of a node does not name an architecture. -/
def ArchLess (s : Slot) : Prop := ∀ nd, s.ent.entity = .node nd → nd.node.cpuArch = 0

theorem archLess_busy {e : LYEntity} {hist : ConnHist} (h : ArchLess ⟨e, hist⟩) {nd : LYNodeData}
    (hnd : busyDec e.entity = .node nd) : nd.node.cpuArch = 0 := by
  unfold busyDec at hnd
  split at hnd
  · cases hnd
  · rename_i nd0 he
    have h0 : nd0.node.cpuArch = 0 := h nd0 he
    split at hnd
    · obtain rfl := EntityData.node.inj hnd
      exact h0
    · obtain rfl := EntityData.node.inj hnd
      exact h0
  · split at hnd <;> cases hnd

theorem archLess_act {s s' : Slot} (h : ArchLess s)
    (ha : SlotAct liveRules s s') : ArchLess s' := by
  cases ha with
  | release e hist => exact fun nd hnd => nomatch (show EntityData.null = .node nd from hnd)
  | busy e hist => exact fun nd hnd => archLess_busy h hnd
  | init e hist type ht _ _ =>
    intro nd hnd
    cases type with
    | node =>
      obtain rfl := EntityData.node.inj hnd
      rfl
    | osm => exact nomatch (show EntityData.osm {} = .node nd from hnd)
    | _ => exact h nd hnd
  | node e hist nd nd' he _ harch =>
    intro nd1 hnd
    obtain rfl : nd' = nd1 := EntityData.node.inj hnd
    exact harch trivial (h nd he)
  | osm e hist oi oi' he => exact fun nd hnd =>
    nomatch (show EntityData.osm oi' = .node nd from hnd)
  | nodeSecret e hist nd nd' s he _ _ harch =>
    intro nd1 hnd
    obtain rfl : nd' = nd1 := EntityData.node.inj hnd
    exact harch trivial (h nd he)
  | osmSecret e hist oi oi' s he _ _ =>
    exact fun nd hnd => nomatch (show EntityData.osm oi' = .node nd from hnd)
  | verified e hist _ _ =>
    intro nd hnd
    dsimp only at hnd
    split at hnd <;> exact h nd hnd
  | _ => exact h

theorem archLess_kept : Kept liveRules fun c => ∀ j, ArchLess (c.slot j) := by
  refine kept_slots ?_ ?_ fun s s' => archLess_act
  · intro e fd i p n he _ _ nd hnd
    rw [show (e.accepted fd i p).entity = e.entity from rfl, he] at hnd
    cases hnd
  · exact fun e hist p h => h

/-- What the next event needs to find: no number has been passed to `free`, and none will be. -/
structure Sane (c : Clc) : Prop where
  typed : Typed c
  orderly : Orderly c
  archless : ∀ j, ArchLess (c.slot j)
  stray : c.store.strayFree = false

theorem sane_kept : Kept liveRules Sane where
  accept := by
    intro c fd m h
    refine ⟨(typed_kept liveRules).accept c fd m h.typed, orderly_kept.accept c fd m h.orderly,
      archLess_kept.accept c fd m h.archless, ?_⟩
    rcases epollWorkRecv_cases c fd m with he | ⟨i, -, -, -, -, -, -, hstore, -⟩
    · rw [he]; exact h.stray
    · rw [hstore]; exact h.stray
  pkt := fun c i p h => ⟨(typed_kept liveRules).pkt c i p h.typed, orderly_kept.pkt c i p h.orderly,
    archLess_kept.pkt c i p h.archless, h.stray⟩
  prim := by
    intro i a b h hp
    refine ⟨(typed_kept liveRules).prim i a b h.typed hp, orderly_kept.prim i a b h.orderly hp,
      archLess_kept.prim i a b h.archless hp, ?_⟩
    have hfree : ∀ {j}, Touches j a b → b.store.strayFree = false := by
      intro j ht
      cases hs : b.store.strayFree with
      | false => rfl
      | true =>
        rcases ht.stray hs with hs' | ⟨nd, hnd, harch⟩
        · rw [h.stray] at hs'
          cases hs'
        · exact absurd (h.archless j nd hnd) harch
    cases hp with
    | outside ho _ => rw [ho.store]; exact h.stray
    | jobs _ hstore _ _ => rw [hstore]; exact h.stray
    | insert hstore _ _ _ => rw [hstore]; exact h.stray
    | slot j ht _ _ _ => exact hfree ht
    | displace j ht _ _ _ => exact hfree ht

theorem sane_boot {w : World} (h : Boot w) : Sane w.clc := by
  refine ⟨typed_boot h, orderly_boot h, fun j nd hnd => ?_, ?_⟩
  · rcases boot_slot h j with hs | ⟨fd, p, -, hs⟩ <;> rw [hs] at hnd <;> cases hnd
  · obtain ⟨fd, m, hfd, hstore⟩ := h.store
    rw [hstore, listening_eq hfd]
    rfl

/-- The CLC survives an event after which no number has been passed to `free`. -/
theorem next_eq_step {env : Env} {w : World} {ev : Event}
    (h : ∀ w', w.step env ev = some (.ok w') → w'.clc.store.strayFree = false) :
    w.next env ev = w.step env ev := by
  unfold World.next
  cases hs : w.step env ev with
  | none => rfl
  | some r =>
    cases r with
    | error e => rfl
    | ok w' => simp [bind, Except.bind, World.alive, h w' hs]

/-- **Released slots stay clean and the CLC keeps accepting**, in every state of every run of
harmless packets; and what the code does at the next event does not end the CLC by a release, nor
does the next packet read private data through another layout. -/
theorem released_slots_clean (env : Env) (w : World)
    (h : Reachable env (OnPacket (Harmless env)) w) :
    CleanStore w.clc.store ∧
      (∀ ev, OnPacket (Harmless env) w ev → w.next env ev = w.step env ev) ∧
      (OnPacket (Harmless env) w .round → w.next env .round ≠ some (.error .wrongType)) := by
  have hok : ∀ c i type size, i < lyEntityMax → Sane c → Harmless env c i type size →
      PacketOk liveRules env c i type size := fun _ _ _ _ _ _ hp => hp.packetOk
  obtain ⟨hsane, hin⟩ := reachable_inv sane_kept id id (fun _ => sane_boot) hok h
  refine ⟨hsane.orderly.cleanStore, fun ev hev => next_eq_step fun w' hw => ?_, fun hround => ?_⟩
  · exact (step_inv sane_kept id id hok hsane hin hev hw).1.stray
  · exact next_fine env hsane.typed hin (hround.mono fun _ _ _ _ h => h.toMatching)

/-- A connection that has not been released authenticates as what it is. -/
def authTest (c : Clc) (i : Nat) (type _size : Int) : Bool :=
  type == PktType.osmAuthRequest && (c.store.ents i).type != .node && (c.store.ents i).id != -1

theorem authTest_harmless (env : Env) (c : Clc) (i : Nat) (type size : Int)
    (h : authTest c i type size = true) : Harmless env c i type size := by
  simp only [authTest, Bool.and_eq_true, beq_iff_eq, bne_iff_ne] at h
  obtain ⟨⟨rfl, htype⟩, hid⟩ := h
  have hxml : ¬ NodeXml PktType.osmAuthRequest := fun hx => absurd hx.2.2.2 (by decide)
  exact ⟨⟨nofun, fun hx => absurd hx hxml, fun _ => htype, nofun⟩, fun _ => hid,
    fun hx => absurd hx hxml⟩

/-- Two OS managers authenticate, the first one hangs up, and the next connection gets its slot. -/
def slotReused : List Event :=
  let auth tag := packet PktType.osmAuthRequest (le32 tag ++ List.replicate luoyunAuthDataLen 0)
  [.accept 4 fun _ => 0, .accept 5 fun _ => 0, .recv 1 (auth 1), .round, .round,
    .recv 2 (auth 5 ++ auth 5), .round, .round, .round, .hangUp 1, .accept 6 fun _ => 0]

/-- Two instances that have the key. -/
def keyedInstances : Db where
  instances := [{ id := 1, id_pos := Int.one_pos, key := some (cstr "luoyun") },
    { id := 5, id_pos := by decide, key := some (cstr "luoyun") }]

theorem released_slots_clean_reused :
    ∃ w, Machine.exec (World.next .keyed) slotReused (World.start keyedInstances []) = some w ∧
      (w.clc.store.ents 1).fd = 6 ∧ CleanStore w.clc.store ∧
      w.next .keyed (.hangUp 2) = w.step .keyed (.hangUp 2) := by
  have hrun : (Machine.execIf (World.next .keyed) (World.passes authTest) slotReused
      (World.start keyedInstances [])).map (fun w => (w.clc.store.ents 1).fd) = some 6 := by
    decide +kernel
  obtain ⟨w, hw, hfd⟩ := Option.map_eq_some_iff.mp hrun
  have hreach : Reachable .keyed (OnPacket (Harmless .keyed)) w :=
    .of_execIf (.of_init (start_boot keyedInstances []))
      (fun _ _ => onPacket_of_passes (authTest_harmless .keyed)) hw
  obtain ⟨hclean, hnext, -⟩ := released_slots_clean .keyed w hreach
  exact ⟨w, Machine.exec_of_execIf hw, hfd, hclean, hnext _ (onPacket_of_ne Event.noConfusion w)⟩

/-! ## A connection that releases itself -/

/-- The response of a node whose instance has stopped, as it is sent. -/
def stoppedText : Bytes := cstr "<luoyun><response id=\"7\" status=\"259\"/></luoyun>"

/-- The same response as a document. -/
def stoppedDoc : XmlNode :=
  .element (cstr "luoyun") []
    [.element (cstr "response") [(cstr "id", cstr "7"), (cstr "status", cstr "259")] []]

/-- Plain surroundings in which that response can be read. -/
def Env.stopped : Env :=
  { Env.plain with readDoc := fun s => if s = stoppedText then some stoppedDoc else none }

/-- An instance, and a job that stops it. -/
def stopping : World :=
  .start { instances := [{ id := 5, id_pos := by decide }] }
    [{ jId := 7, jStatus := LyS.pending, jTargetType := jobTargetInstance, jTargetId := 5,
       jAction := LyA.nodeStopInstance }]

/-- One chunk from the OS manager of the instance: it authenticates, says that the job has stopped
its instance, and authenticates again. -/
def authStopAuth : List Event :=
  let auth := packet PktType.osmAuthRequest (le32 5 ++ List.replicate luoyunAuthDataLen 0)
  [.accept 4 fun _ => 0, .recv 1 (auth ++ packet PktType.nodeReport stoppedText ++ auth),
    .round, .round, .round]

/-- Slot 1 is free, and it is an OS manager. -/
theorem released_slot_typed :
    ¬ ∀ (env : Env) (w : World), Reachable env Machine.Always w → CleanStore w.clc.store := by
  intro h
  have hrun : (Machine.exec (World.next .stopped) authStopAuth stopping).map (fun w =>
      ((w.clc.store.ents 1).id, (w.clc.store.ents 1).type)) = some (-1, .osm) := by
    decide +kernel
  obtain ⟨w, hw, hs⟩ := Option.map_eq_some_iff.mp hrun
  obtain ⟨hid, ht⟩ := Prod.mk.inj hs
  have hb :=
    ((h .stopped w (.of_exec (.of_init (start_boot _ _)) (fun _ _ _ => trivial) hw)).blank 1 hid).1
  rw [hb.type] at ht
  cases ht

end LuoYun

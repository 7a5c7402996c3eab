import LuoYun.Proof.QuietDb
import LuoYun.Proof.EntityInv
import LuoYun.Lib.Outcome
import Mathlib.Logic.Relation

/-!
# What the CLC can do to its state

Every handler of the CLC is a sequence of small changes: a call that leaves the program, a job
that is taken off the queue, a write to one entity. `Prim` lists them, each with the conditions
under which the code makes it, and `Does` is a sequence of them. What a handler does is proved
once, as a `Does`; an invariant of the CLC is then a matter of one case for each change.

Some theorems are about runs in which certain packets do not occur. `Rules` says which of the
changes those runs are without.
-/

namespace LuoYun

/-- An entity together with what is remembered about its connection. -/
structure Slot where
  ent : LYEntity
  hist : ConnHist

/-- Slot `j`. -/
def Clc.slot (c : Clc) (j : Nat) : Slot := ⟨c.store.ents j, c.hist j⟩

/-- What is known about the packets of a run. -/
structure Rules where
  /-- Nothing: the packet buffer may be left. -/
  wild : Prop
  /-- There may be jobs from the web. -/
  web : Prop
  /-- No packet gives a type to a slot that has been released. -/
  live : Prop
  /-- A report comes after an accepted register request. -/
  ordered : Prop
  /-- Tags and secrets are used as an honest peer uses them. -/
  strict : Prop
  /-- The peer never authenticates and sends none of the packets that act before that. -/
  quiet : Prop
  /-- An entity may get a type. -/
  typed : Prop := True
  /-- The packet buffer may be written to. -/
  writes : Prop := True
  /-- No node registers with a number for its architecture. -/
  arch : Prop := False
  /-- No handler releases a node. -/
  tidy : Prop := False

/-- The faults these rules do not exclude. -/
def Rules.May (R : Rules) (e : Fault) : Prop := e = .pktBuf → R.wild

theorem Rules.may_of_ne {R : Rules} {e : Fault} (h : e ≠ .pktBuf) : R.May e := fun he => absurd he h

/-! ## One slot -/

/-- What `ly_entity_init` makes of an entity that has no type yet. -/
def LYEntity.inited (e : LYEntity) : EntityType → LYEntity
  | .node => { e with type := .node, entity := .node {} }
  | .osm => { e with type := .osm, entity := .osm {} }
  | type => { e with type }

/-- The entity with the database id `d`, which a negative `d` leaves alone. -/
def LYEntity.claiming (e : LYEntity) (d : Int) : LYEntity :=
  { e with dbId := if d < 0 then e.dbId else d }

/-- The entity with the secret `s`. -/
def LYEntity.withSecret (e : LYEntity) (s : Bytes) : LYEntity :=
  { e with auth := { e.auth with secret := some s } }

/-! ### The status in the flag byte -/

theorem flag_withStatus : ∀ (x : BitVec 8) (s : Fin 8),
    ((x &&& ~~~Flag.statusMask) ||| (BitVec.ofInt 8 s &&& Flag.statusMask)) &&& Flag.statusMask
      = BitVec.ofNat 8 s := by
  decide

theorem flag_withEnabled : ∀ x : BitVec 8,
    (x ||| Flag.nodeEnabled) &&& Flag.statusMask = x &&& Flag.statusMask ∧
      (x &&& ~~~Flag.nodeEnabled) &&& Flag.statusMask = x &&& Flag.statusMask := by
  decide +kernel

theorem status_withStatus (e : LYEntity) {s : Int} (h0 : 0 ≤ s) (h7 : s < 8) :
    (e.withStatus s).status = s := by
  have h := flag_withStatus e.flag ⟨s.toNat, by omega⟩
  have hs : ((s.toNat : Nat) : Int) = s := by omega
  simp only [hs] at h
  rw [LYEntity.status, LYEntity.withStatus, h, BitVec.toNat_ofNat]
  omega

@[simp] theorem status_withEnabled (e : LYEntity) (b : Bool) :
    (e.withEnabled b).status = e.status := by
  obtain ⟨h1, h2⟩ := flag_withEnabled e.flag
  cases b with
  | true => exact congrArg (fun x : BitVec 8 => (x.toNat : Int)) h1
  | false => exact congrArg (fun x : BitVec 8 => (x.toNat : Int)) h2

@[simp] theorem status_claiming (e : LYEntity) (d : Int) : (e.claiming d).status = e.status := rfl

@[simp] theorem status_released (e : LYEntity) : e.released.status = 0 := by
  simp [LYEntity.status, LYEntity.released]

@[simp] theorem status_inited (e : LYEntity) (t : EntityType) : (e.inited t).status = e.status := by
  cases t <;> rfl

/-- What a handler writes to the packet buffer: the data of an authentication packet, wherever the
packet ends. -/
def AuthWrite (R : Rules) (e : LYEntity) (m : Mem) : Prop :=
  R.writes ∧ ∃ m₀, e.pkt.bind LYPacketRecv.pktBuf = some m₀ ∧
    ∀ k, k < authDataOff ∨ authDataOff + luoyunAuthDataLen ≤ k → m k = m₀ k

/-- One change to a slot. -/
inductive SlotAct (R : Rules) : Slot → Slot → Prop where
  | mem (e : LYEntity) (h : ConnHist) (m : Mem) (hm : AuthWrite R e m) :
      SlotAct R ⟨e, h⟩ ⟨{ e with pkt := e.pkt.map fun p => { p with pktBuf := some m } }, h⟩
  | release (e : LYEntity) (h : ConnHist) : SlotAct R ⟨e, h⟩ ⟨e.released, h⟩
  | busy (e : LYEntity) (h : ConnHist) : SlotAct R ⟨e, h⟩ ⟨{ e with entity := busyDec e.entity }, h⟩
  | init (e : LYEntity) (h : ConnHist) (type : EntityType) (ht : e.type = .unknown)
      (hl : R.live → e.id ≠ -1) (hty : R.typed) : SlotAct R ⟨e, h⟩ ⟨e.inited type, h⟩
  /-- New node data; the tag is not changed once a secret goes with it. -/
  | node (e : LYEntity) (h : ConnHist) (nd nd' : LYNodeData) (he : e.entity = .node nd)
      (ht : nd'.node.hostTag = nd.node.hostTag ∨ nd.node.hostTag ≤ 0 ∨ e.auth.secret = none)
      (ha : R.arch → nd.node.cpuArch = 0 → nd'.node.cpuArch = 0) :
      SlotAct R ⟨e, h⟩ ⟨{ e with entity := .node nd' }, h⟩
  | osm (e : LYEntity) (h : ConnHist) (oi oi' : OSMInfo) (he : e.entity = .osm oi) :
      SlotAct R ⟨e, h⟩ ⟨{ e with entity := .osm oi' }, h⟩
  /-- The secret of a node, together with its tag. -/
  | nodeSecret (e : LYEntity) (h : ConnHist) (nd nd' : LYNodeData) (s : Bytes)
      (he : e.entity = .node nd) (hs : e.auth.secret = none) (ht : 0 < nd'.node.hostTag)
      (ha : R.arch → nd.node.cpuArch = 0 → nd'.node.cpuArch = 0) :
      SlotAct R ⟨e, h⟩ ⟨{ e.withSecret s with entity := .node nd' },
        { h with secretTag := some nd'.node.hostTag }⟩
  /-- The secret of an instance, together with its tag. -/
  | osmSecret (e : LYEntity) (h : ConnHist) (oi oi' : OSMInfo) (s : Bytes)
      (he : e.entity = .osm oi) (hs : e.auth.secret = none) (ht : 0 < oi'.tag) :
      SlotAct R ⟨e, h⟩ ⟨{ e.withSecret s with entity := .osm oi' },
        { h with secretTag := some oi'.tag }⟩
  | challenge (e : LYEntity) (h : ConnHist) (u : Uuid) (he : e.entity ≠ .null) :
      SlotAct R ⟨e, h⟩ ⟨{ e with auth := { e.auth with challenge := some u } }, h⟩
  | online (e : LYEntity) (h : ConnHist) (d : Int) (he : e.entity ≠ .null) :
      SlotAct R ⟨e, h⟩ ⟨(e.withStatus Flag.online).claiming d, h⟩
  /-- `lyauth_verify` has returned 1. -/
  | verified (e : LYEntity) (h : ConnHist) (hs : R.strict → e.auth.secret ≠ none) (hq : ¬ R.quiet) :
      SlotAct R ⟨e, h⟩ ⟨if Flag.authenticated ≤ e.status then
        e
        else e.withStatus Flag.authenticated,
        { h with verified := true, verifiedTag := h.secretTag }⟩
  /-- `ly_entity_enable` for a node that registers. -/
  | enable (e : LYEntity) (h : ConnHist) (d : Int) (b : Bool) (he : e.entity ≠ .null)
      (hlo : Flag.authenticated ≤ e.status) (hhi : e.status < Flag.registered) (hq : ¬ R.quiet) :
      SlotAct R ⟨e, h⟩ ⟨(e.withEnabled b).claiming d, h⟩
  | disable (e : LYEntity) (h : ConnHist) : SlotAct R ⟨e, h⟩ ⟨e.withEnabled false, h⟩
  /-- A node has registered under the tag in its data. -/
  | registerNode (e : LYEntity) (h : ConnHist) (nd : LYNodeData) (he : e.entity = .node nd)
      (hs : e.auth.secret ≠ none) (hlo : Flag.authenticated ≤ e.status) (hq : ¬ R.quiet) :
      SlotAct R ⟨e, h⟩ ⟨(e.withStatus Flag.registered).claiming nd.node.hostTag,
        { h with registered := true }⟩
  /-- An OS manager has registered under the tag in its request. -/
  | registerOsm (e : LYEntity) (h : ConnHist) (tag : Int) (he : e.entity ≠ .null)
      (hlo : Flag.authenticated ≤ e.status) (ht : R.strict → h.secretTag = some tag)
        (hq : ¬ R.quiet) :
      SlotAct R ⟨e, h⟩ ⟨(e.withStatus Flag.registered).claiming tag, { h with registered := true }⟩
  /-- An OS manager has reported the state of its application. -/
  | report (e : LYEntity) (h : ConnHist) (status : Int)
      (hst : status = Flag.running ∨ status = Flag.serving) (hr : R.ordered → h.registered = true)
      (hs : R.strict → Flag.registered ≤ e.status) (hq : ¬ R.quiet) :
      SlotAct R ⟨e, h⟩ ⟨e.withStatus status, h⟩

/-! ## The whole state -/

/-- What the lists of the store need for a database id to be found where it is, on live and
released slots alike. -/
structure StoreWf (s : EntityStore) : Prop where
  id : ∀ k, (s.ents k).id = -1 ∨ (s.ents k).id = k
  list : ∀ type, ∀ k ∈ s.list type, (s.ents k).type = type

/-- The data of a node that names its architecture by a number. -/
def LYEntity.Stray (e : LYEntity) : Prop := ∃ nd, e.entity = .node nd ∧ nd.node.cpuArch ≠ 0

/-- Nothing but slot `j` has changed. -/
structure Touches (j : Nat) (c c' : Clc) : Prop where
  jobs : c'.jobs = c.jobs
  db : c'.db = c.db
  others : ∀ k, k ≠ j → c'.slot k = c.slot k
  wf : StoreWf c.store → StoreWf c'.store
  stray : c'.store.strayFree = true → c.store.strayFree = true ∨ (c.store.ents j).Stray

/-- No node data is misread on the way, as far as the rules know. -/
def Tidy (R : Rules) (c c' : Clc) : Prop :=
  R.tidy → StoreWf c.store → c'.store.misreads = c.store.misreads

/-- What identifies a job; it never changes while the job is queued. -/
structure JobKey where
  id : Int
  targetType : Int
  targetId : Int
  action : Int
  deriving DecidableEq

/-- The key of a job. -/
def LYJobInfo.key (j : LYJobInfo) : JobKey := ⟨j.jId, j.jTargetType, j.jTargetId, j.jAction⟩

/-- The keys of the queue. -/
def Clc.keys (c : Clc) : List JobKey := c.jobs.map LYJobInfo.key

/-- One change to the state, made on behalf of the connection in slot `i`. -/
inductive Prim (R : Rules) (i : Nat) (c c' : Clc) : Prop where
  | outside (h : Outside c c') (hq : R.quiet → QuietDb c.db c'.db) : Prim R i c c'
  /-- Jobs are written to or taken off the queue. -/
  | jobs (hkeys : c'.keys.Sublist c.keys) (hstore : c'.store = c.store) (hhist : c'.hist = c.hist)
      (hq : ¬ R.quiet) : Prim R i c c'
  /-- A job is put at the end of the queue. -/
  | insert (hstore : c'.store = c.store) (hhist : c'.hist = c.hist) (hw : R.web) (hq : ¬ R.quiet) :
      Prim R i c c'
  | slot (j : Nat) (ht : Touches j c c') (ha : SlotAct R (c.slot j) (c'.slot j))
      (hq : R.quiet → j = i) (hm : Tidy R c c') : Prim R i c c'
  /-- Another entity is released. -/
  | displace (j : Nat) (ht : Touches j c c')
      (ha : c'.slot j = ⟨(c.slot j).ent.released, (c.slot j).hist⟩)
      (hm : Tidy R c c') (hq : R.quiet → StoreWf c.store → Listed (c.store.ents j).type ∧
        0 < (c.store.ents j).dbId) :
      Prim R i c c'

/-- A sequence of changes. -/
def Does (R : Rules) (i : Nat) : Clc → Clc → Prop := Relation.ReflTransGen (Prim R i)

namespace Does

variable {R : Rules} {i : Nat} {c c' c'' : Clc}

theorem refl (c : Clc) : Does R i c c := Relation.ReflTransGen.refl

theorem trans (h : Does R i c c') (h' : Does R i c' c'') : Does R i c c'' :=
  Relation.ReflTransGen.trans h h'

theorem single (h : Prim R i c c') : Does R i c c' := Relation.ReflTransGen.single h

/-- A call that leaves the program and does not write to the database. -/
theorem call (h : Outside c c') (hdb : c'.db = c.db) : Does R i c c' :=
  single (.outside h fun _ => .of_eq hdb)

/-- A call that leaves the program, in a run that is not quiet. -/
theorem outside (h : Outside c c') (hq : ¬ R.quiet) : Does R i c c' :=
  single (.outside h fun hc => absurd hc hq)

/-- **The invariant rule.** -/
theorem inv {I : Clc → Prop} (h : Does R i c c') (hstep : ∀ a b, I a → Prim R i a b → I b)
    (hc : I c) : I c' := by
  induction h with
  | refl => exact hc
  | tail _ hs ih => exact hstep _ _ ih hs

end Does

/-! ## Writing to one entity -/

section

variable {R : Rules} {i : Nat} {c : Clc}

theorem StoreWf.congr {s s' : EntityStore} (hid : ∀ k, (s'.ents k).id = (s.ents k).id)
    (htype : ∀ k, (s'.ents k).type = (s.ents k).type) (hlist : ∀ t, s'.list t = s.list t)
    (h : StoreWf s) : StoreWf s' where
  id := fun k => by rw [hid]; exact h.id k
  list := fun t k hk => by rw [htype]; exact h.list t k (hlist t ▸ hk)

theorem EntityStore.list_modify (s : EntityStore) (i : Nat) (f : LYEntity → LYEntity)
    (t : EntityType) : (s.modify i f).list t = s.list t := by
  cases t <;> rfl

/-- A write that keeps the id and the type keeps the lists in order. -/
theorem storeWf_modify {s : EntityStore} {f : LYEntity → LYEntity}
    (hid : (f (s.ents i)).id = (s.ents i).id) (htype : (f (s.ents i)).type = (s.ents i).type)
    (h : StoreWf s) : StoreWf (s.modify i f) := by
  refine h.congr (fun k => ?_) (fun k => ?_) (s.list_modify i f)
  · by_cases hk : k = i
    · subst hk; rw [EntityStore.modify_ents_self, hid]
    · rw [EntityStore.modify_ents_ne _ _ hk]
  · by_cases hk : k = i
    · subst hk; rw [EntityStore.modify_ents_self, htype]
    · rw [EntityStore.modify_ents_ne _ _ hk]

/-- A state that differs from `c` in slot `i` only, where the entity is `f` of the old one. -/
theorem touches_modify {c' : Clc} {f : LYEntity → LYEntity} (hstore : c'.store = c.store.modify i f)
    (hjobs : c'.jobs = c.jobs) (hdb : c'.db = c.db) (hhist : ∀ k, k ≠ i → c'.hist k = c.hist k)
    (hid : (f (c.store.ents i)).id = (c.store.ents i).id)
    (htype : (f (c.store.ents i)).type = (c.store.ents i).type) : Touches i c c' where
  jobs := hjobs
  db := hdb
  others := by
    intro k hk
    rw [Clc.slot, Clc.slot, hstore, EntityStore.modify_ents_ne _ _ hk, hhist k hk]
  wf := fun h => hstore ▸ storeWf_modify hid htype h
  stray := fun h => .inl (by rw [hstore] at h; exact h)

theorem tidy_modify {c' : Clc} {f : LYEntity → LYEntity}
    (hstore : c'.store = c.store.modify i f) : Tidy R c c' :=
  fun _ _ => by rw [hstore]; rfl

theorem slot_modifyEnt (c : Clc) (i : Nat) (f : LYEntity → LYEntity) :
    (c.modifyEnt i f).slot i = ⟨f (c.store.ents i), c.hist i⟩ := by
  simp [Clc.slot, Clc.modifyEnt]

/-- Writing to the connection's own entity. -/
theorem does_modify {f : LYEntity → LYEntity}
    (hid : (f (c.store.ents i)).id = (c.store.ents i).id)
    (htype : (f (c.store.ents i)).type = (c.store.ents i).type)
    (ha : SlotAct R (c.slot i) ⟨f (c.store.ents i), c.hist i⟩) : Does R i c (c.modifyEnt i f) :=
  .single (.slot i (touches_modify rfl rfl rfl (fun _ _ => rfl) hid htype)
    (slot_modifyEnt c i f ▸ ha) (fun _ => rfl) (tidy_modify rfl))

/-- Writing to the entity in any slot, in a run that is not quiet. -/
theorem does_modify_any {j : Nat} {f : LYEntity → LYEntity} (hq : ¬ R.quiet)
    (hid : (f (c.store.ents j)).id = (c.store.ents j).id)
    (htype : (f (c.store.ents j)).type = (c.store.ents j).type)
    (ha : SlotAct R (c.slot j) ⟨f (c.store.ents j), c.hist j⟩) : Does R i c (c.modifyEnt j f) :=
  .single (.slot j (touches_modify rfl rfl rfl (fun _ _ => rfl) hid htype)
    (slot_modifyEnt c j f ▸ ha) (fun hc => absurd hc hq) (tidy_modify rfl))

theorem setMem_does (m : Mem) (hm : AuthWrite R (c.store.ents i) m) :
    Does R i c (c.setMem i m) :=
  does_modify rfl rfl (.mem _ _ m hm)

theorem setNode_does {nd : LYNodeData} (nd' : LYNodeData) (he : (c.store.ents i).entity = .node nd)
    (ht : nd'.node.hostTag = nd.node.hostTag ∨ nd.node.hostTag ≤ 0 ∨
      (c.store.ents i).auth.secret = none)
    (ha : R.arch → nd.node.cpuArch = 0 → nd'.node.cpuArch = 0 := by exact fun _ h => h) :
    Does R i c (c.setNode i nd') :=
  does_modify rfl rfl (.node _ _ nd nd' he ht ha)

theorem setOsm_does {oi oi' : OSMInfo} (he : (c.store.ents i).entity = .osm oi) :
    Does R i c (c.setOsm i oi') :=
  does_modify rfl rfl (.osm _ _ oi oi' he)

/-! ## Types and releases -/

theorem init_does (hi : i < lyEntityMax) (type : EntityType)
    (hl : R.live → (c.store.ents i).id ≠ -1) (hty : R.typed) : Does R i c (c.init i type) := by
  unfold Clc.init lyEntityInit
  rw [slot?_natCast hi]
  dsimp only
  by_cases hu : (c.store.ents i).type = .unknown
  · rw [if_neg (not_not_intro hu)]
    -- a new type comes with its list; a slot of unknown type is in neither list
    have hnot : StoreWf c.store → ∀ t, i ∈ c.store.list t → t = .unknown := by
      intro hwf t hm
      rw [← hwf.list t i hm, hu]
    have key : ∀ s' : EntityStore, s'.ents = (c.store.modify i fun e => e.inited type).ents →
        s'.strayFree = c.store.strayFree ∧ s'.misreads = c.store.misreads →
          (∀ t, s'.list t = c.store.list t ∨ t = type ∧ s'.list t = i :: c.store.list t) →
        Does R i c (c.withStore s') := by
      intro s' hents ⟨hstray, hmis⟩ hlist
      have hself : s'.ents i = (c.store.ents i).inited type := by
        rw [hents, EntityStore.modify_ents_self]
      have hne : ∀ k, k ≠ i → s'.ents k = c.store.ents k := by
        intro k hk
        rw [hents, EntityStore.modify_ents_ne _ _ hk]
      refine .single (.slot i ⟨rfl, rfl, ?_, ?_, fun h => .inl (hstray ▸ h)⟩ ?_
        (fun _ => rfl) fun _ _ => hmis)
      · intro k hk
        show Slot.mk (s'.ents k) (c.hist k) = _
        rw [hne k hk]
        rfl
      · intro hwf
        refine ⟨fun k => ?_, fun t k hk => ?_⟩
        · by_cases hki : k = i
          · subst hki
            have hid : ((c.store.ents k).inited type).id = (c.store.ents k).id := by
              cases type <;> rfl
            show (s'.ents k).id = -1 ∨ (s'.ents k).id = k
            rw [hself, hid]
            exact hwf.id k
          · show (s'.ents k).id = -1 ∨ (s'.ents k).id = k
            rw [hne k hki]
            exact hwf.id k
        · have htype : ((c.store.ents i).inited type).type = type := by
            cases type <;> rfl
          show (s'.ents k).type = t
          rcases hlist t with hl | ⟨rfl, hl⟩
          · have hk' : k ∈ c.store.list t := hl ▸ hk
            by_cases hki : k = i
            · subst hki
              have := hnot hwf t hk'
              subst this
              exact absurd hk' List.not_mem_nil
            · rw [hne k hki]
              exact hwf.list t k hk'
          · have hk' : k ∈ i :: c.store.list t := hl ▸ hk
            rcases List.mem_cons.mp hk' with rfl | hk'
            · rw [hself, htype]
            · by_cases hki : k = i
              · subst hki; rw [hself, htype]
              · rw [hne k hki]
                exact hwf.list t k hk'
      · show SlotAct R (c.slot i) ⟨s'.ents i, c.hist i⟩
        rw [hself]
        exact .init _ _ type hu hl hty
    cases type with
    | node =>
      refine key _ rfl ⟨rfl, rfl⟩ fun t => ?_
      cases t with
      | node => exact .inr ⟨rfl, rfl⟩
      | _ => exact .inl rfl
    | osm =>
      refine key _ rfl ⟨rfl, rfl⟩ fun t => ?_
      cases t with
      | osm => exact .inr ⟨rfl, rfl⟩
      | _ => exact .inl rfl
    | _ => exact key _ rfl ⟨rfl, rfl⟩ fun t => .inl (by cases t <;> rfl)
  · rw [if_pos hu]
    exact .refl c

/-- `ly_entity_release` does nothing, or clears one slot and its place in the lists. -/
theorem lyEntityRelease_cases (s : EntityStore) (id : Int) :
    (lyEntityRelease s id).1 = s ∨
      ∃ j, slot? id = some j ∧
        (lyEntityRelease s id).1 = ((s.cleanup j).listDel j).modify j LYEntity.released := by
  unfold lyEntityRelease
  split
  · exact .inl rfl
  · split
    · exact .inl rfl
    · exact .inr ⟨_, by assumption, rfl⟩

theorem EntityStore.mem_listDel {s : EntityStore} {j k : Nat} {t : EntityType}
    (h : k ∈ (s.listDel j).list t) : k ∈ s.list t ∧ k ≠ j := by
  cases t
  case node => simpa [EntityStore.listDel, EntityStore.list] using h
  case osm => simpa [EntityStore.listDel, EntityStore.list] using h
  all_goals exact absurd h List.not_mem_nil

theorem cleansNode_some {e : LYEntity} {nd : LYNodeData} (h : e.cleansNode = some nd) :
    e.type = .node ∧ e.entity = .node nd := by
  unfold LYEntity.cleansNode at h
  split at h
  · rename_i ht he
    obtain rfl := Option.some.inj h
    exact ⟨ht, he⟩
  · cases h

theorem cleansNode_none {e : LYEntity} (h : e.type ≠ .node) : e.cleansNode = none := by
  cases hc : e.cleansNode with
  | none => rfl
  | some nd => exact absurd (cleansNode_some hc).1 h

theorem cleanup_stray {s : EntityStore} {j : Nat} (h : (s.cleanup j).strayFree = true) :
    s.strayFree = true ∨ (s.ents j).Stray := by
  rcases Bool.or_eq_true_iff.mp h with h | h
  · exact .inl h
  · obtain ⟨nd, hnd, harch⟩ := (Option.any_eq_true _ _).mp h
    exact .inr ⟨nd, (cleansNode_some hnd).2, bne_iff_ne.mp harch⟩

theorem touches_release {c' : Clc} {j : Nat}
    (hstore : c'.store = ((c.store.cleanup j).listDel j).modify j LYEntity.released)
    (hjobs : c'.jobs = c.jobs)
    (hdb : c'.db = c.db) (hhist : c'.hist = c.hist) : Touches j c c' where
  jobs := hjobs
  db := hdb
  others := by
    intro k hk
    rw [Clc.slot, Clc.slot, hstore, EntityStore.modify_ents_ne _ _ hk, hhist]
    rfl
  stray := fun h => cleanup_stray (by rw [hstore] at h; exact h)
  wf := by
    intro hwf
    rw [hstore]
    refine ⟨fun k => ?_, fun t k hk => ?_⟩
    · by_cases hk : k = j
      · subst hk; rw [EntityStore.modify_ents_self]; exact .inl rfl
      · rw [EntityStore.modify_ents_ne _ _ hk]; exact hwf.id k
    · rw [EntityStore.list_modify] at hk
      obtain ⟨hm, hkj⟩ := EntityStore.mem_listDel hk
      rw [EntityStore.modify_ents_ne _ _ hkj]
      exact hwf.list t k hm

theorem slot_release {c' : Clc} {j : Nat}
    (hstore : c'.store = ((c.store.cleanup j).listDel j).modify j LYEntity.released)
    (hhist : c'.hist = c.hist) :
    c'.slot j = ⟨(c.slot j).ent.released, (c.slot j).hist⟩ := by
  rw [Clc.slot, hstore, EntityStore.modify_ents_self, hhist]
  rfl

/-- Only the release of a node misreads its data. -/
theorem tidy_release {c' : Clc} {j : Nat}
    (hstore : c'.store = ((c.store.cleanup j).listDel j).modify j LYEntity.released)
    (hm : R.tidy → StoreWf c.store → (c.store.ents j).type ≠ .node) : Tidy R c c' := by
  intro ht hwf
  rw [hstore]
  show c.store.misreads + _ = _
  rw [cleansNode_none (hm ht hwf)]
  rfl

theorem release_does (hm : ¬ R.tidy) (c : Clc) : Does R i c (c.release i) := by
  unfold Clc.release
  rcases lyEntityRelease_cases c.store i with h | ⟨j, hj, h⟩
  · rw [h]
    exact .refl c
  · obtain ⟨hji, -⟩ := slot?_eq_some.mp hj
    have hij : j = i := by omega
    subst hij
    rw [h]
    refine .single (.slot j (touches_release rfl rfl rfl rfl) ?_ (fun _ => rfl) fun ht =>
      absurd ht hm)
    have hs : (c.withStore (((c.store.cleanup j).listDel j).modify j LYEntity.released)).slot j =
        _ :=
      slot_release rfl rfl
    rw [hs]
    exact .release _ _

/-- `__node_xml_register` turns the node away. -/
theorem releaseOwn_does (hi : i < lyEntityMax) (hm : ¬ R.tidy) (c : Clc) :
    Does R i c (c.releaseOwn i) := by
  unfold Clc.releaseOwn
  split
  · exact .refl c
  · rename_i hid
    have hrel : (lyEntityRelease c.store i).1 =
        ((c.store.cleanup i).listDel i).modify i LYEntity.released := by
      rw [lyEntityRelease, slot?_natCast hi]
      dsimp only
      rw [if_neg hid]
    have ht : Touches i c (c.withStore (lyEntityRelease c.store i).1) :=
      touches_release hrel rfl rfl rfl
    have hs : (c.withStore (lyEntityRelease c.store i).1).slot i =
        ⟨(c.slot i).ent.released, (c.slot i).hist⟩ :=
      slot_release hrel rfl
    refine .single
      (.slot i ⟨rfl, rfl, ht.others, fun h => ⟨(ht.wf h).id, (ht.wf h).list⟩, ht.stray⟩ ?_
      (fun _ => rfl) fun hc => absurd hc hm)
    exact hs.symm ▸ .release _ _

/-- Releasing the entity that `ly_entity_find_by_db` has found. -/
theorem displace_does (id : Int)
    (hm : R.tidy → ∀ j : Nat, id = j → StoreWf c.store → (c.store.ents j).type ≠ .node)
    (hq : R.quiet → ∀ j : Nat, id = j → StoreWf c.store →
      Listed (c.store.ents j).type ∧ 0 < (c.store.ents j).dbId) :
    Does R i c (c.withStore (lyEntityRelease c.store id).1) := by
  rcases lyEntityRelease_cases c.store id with h | ⟨j, hj, h⟩
  · rw [h]
    exact .refl c
  · rw [h]
    exact .single (.displace j (touches_release rfl rfl rfl rfl) (slot_release rfl rfl)
      (tidy_release rfl fun ht => hm ht j (slot?_eq_some.mp hj).1) fun hc =>
        hq hc j (slot?_eq_some.mp hj).1)

/-! ## Claiming a database id -/

/-- An entity found by its database id is of the type asked for and has that id. -/
theorem findByDb_spec {s : EntityStore} (hwf : StoreWf s) {t : EntityType} {d : Int} {j : Nat}
    (h : lyEntityFindByDb s t d = j) :
    (s.ents j).type = t ∧ Listed t ∧ (s.ents j).dbId = d ∧ 0 < d ∧ j ∈ s.list t := by
  unfold lyEntityFindByDb at h
  split at h
  · omega
  · rename_i hd
    split at h
    · omega
    · rename_i k hk
      have hmem := List.mem_of_find?_eq_some hk
      have hdb := List.find?_some hk
      have hkj : k = j := by
        rcases hwf.id k with h1 | h1 <;> rw [h1] at h <;> omega
      subst hkj
      refine ⟨hwf.list t k hmem, ?_, by simpa using hdb, by omega, hmem⟩
      cases t with
      | node => exact .inl rfl
      | osm => exact .inr rfl
      | _ => exact absurd hmem List.not_mem_nil

theorem release_modify_comm {s : EntityStore} {f : LYEntity → LYEntity} {id : Int}
    (hne : id ≠ (i : Int)) :
    (lyEntityRelease (s.modify i f) id).1 = ((lyEntityRelease s id).1).modify i f := by
  unfold lyEntityRelease
  cases hs : slot? id with
  | none => rfl
  | some j =>
    have hji : j ≠ i := by
      have := (slot?_eq_some.mp hs).1
      omega
    dsimp only
    rw [EntityStore.modify_ents_ne _ _ hji]
    split
    · rfl
    · have hents : (((s.modify i f).cleanup j).listDel j).modify j LYEntity.released =
          (((s.cleanup j).listDel j).modify j LYEntity.released).modify i f := by
        have hclean : (s.modify i f).cleanup j = (s.cleanup j).modify i f := by
          unfold EntityStore.cleanup
          rw [EntityStore.modify_ents_ne _ _ hji]
          rfl
        have hlist : ((s.cleanup j).modify i f).listDel j =
            ((s.cleanup j).listDel j).modify i f := rfl
        rw [hclean, hlist]
        simp only [EntityStore.modify, EntityStore.set, EntityStore.mk.injEq, and_true]
        funext k
        by_cases hkj : k = j
        · subst hkj; simp [hji]
        · by_cases hki : k = i
          · subst hki; simp [hkj]
          · simp [hkj, hki]
      exact hents

/-- The state in which another holder of the claimed database id has been released. -/
def displaced (c : Clc) (i : Nat) (s : EntityStore) (d : Int) : Clc :=
  let old := lyEntityFindByDb s (s.ents i).type d
  if 0 ≤ old ∧ old ≠ i then c.withStore (lyEntityRelease c.store old).1 else c

theorem claimDbId_eq {f : LYEntity → LYEntity} {d : Int} (hd : ¬ d < 0) :
    claimDbId (c.store.modify i f) i d =
      ((displaced c i (c.store.modify i f) d).store.modify i f).modify i fun e =>
        { e with dbId := d } := by
  unfold claimDbId displaced
  rw [if_neg hd]
  dsimp only
  split
  · rename_i h
    rw [release_modify_comm h.2]
    rfl
  · rfl

/-- No other node on the list has the database id `d`. -/
def Unclaimed (s : EntityStore) (i : Nat) (d : Int) : Prop :=
  0 < d → ∀ k ∈ s.nodeList, k ≠ i → (s.ents k).dbId ≠ d

/-- As far as the rules know, claiming `d` for slot `i` displaces no node. -/
def ClaimTidy (R : Rules) (c : Clc) (i : Nat) (d : Int) : Prop :=
  R.tidy → (c.store.ents i).type = .node → Unclaimed c.store i d

theorem claimTidy_neg {d : Int} (hd : d ≤ 0) : ClaimTidy R c i d := fun _ _ hpos => by omega

/-- A connection that is no node displaces none. -/
theorem claimTidy_of_type {d : Int} (h : R.tidy → (c.store.ents i).type ≠ .node) :
    ClaimTidy R c i d :=
  fun ht hnode => absurd hnode (h ht)

/-- A change to slot `i` itself leaves the claim as it was. -/
theorem ClaimTidy.modify {d : Int} (h : ClaimTidy R c i d) {c' : Clc} {f : LYEntity → LYEntity}
    (hstore : c'.store = c.store.modify i f)
    (htype : (f (c.store.ents i)).type = (c.store.ents i).type) :
    ClaimTidy R c' i d := by
  intro ht hnode hpos k hk hki
  rw [hstore, EntityStore.modify_ents_self, htype] at hnode
  rw [hstore] at hk ⊢
  rw [EntityStore.modify_ents_ne _ _ hki]
  exact h ht hnode hpos k hk hki

theorem ClaimTidy.setNode {d : Int} (h : ClaimTidy R c i d) (nd : LYNodeData) :
    ClaimTidy R (c.setNode i nd) i d :=
  h.modify (f := fun e => { e with entity := .node nd }) rfl rfl

theorem ClaimTidy.setMem {d : Int} (h : ClaimTidy R c i d) (m : Mem) :
    ClaimTidy R (c.setMem i m) i d :=
  h.modify (f := fun e => { e with pkt := e.pkt.map fun p => { p with pktBuf := some m } }) rfl rfl

theorem ClaimTidy.of_store {d : Int} (h : ClaimTidy R c i d) {c' : Clc}
    (hstore : c'.store = c.store) :
    ClaimTidy R c' i d := by
  unfold ClaimTidy at h ⊢
  rw [hstore]
  exact h

theorem displaced_does {f : LYEntity → LYEntity} {d : Int}
    (hid : ∀ e, (f e).id = e.id) (htype : ∀ e, (f e).type = e.type) (hm : ClaimTidy R c i d) :
    Does R i c (displaced c i (c.store.modify i f) d) := by
  have hfound : ∀ j : Nat, lyEntityFindByDb (c.store.modify i f)
      ((c.store.modify i f).ents i).type d = j →
      j ≠ i → StoreWf c.store → (c.store.ents j).type = (c.store.ents i).type ∧
        Listed (c.store.ents j).type ∧
        (c.store.ents j).dbId = d ∧ 0 < d ∧ j ∈ c.store.list (c.store.ents i).type := by
    intro j hj hji hwf
    obtain ⟨h1, h2, h3, h4, h5⟩ := findByDb_spec (storeWf_modify (hid _) (htype _) hwf) hj
    rw [EntityStore.modify_ents_ne _ _ hji] at h1 h3
    rw [EntityStore.modify_ents_self, htype] at h1 h2 h5
    rw [EntityStore.list_modify] at h5
    exact ⟨h1, h1 ▸ h2, h3, h4, h5⟩
  unfold displaced
  dsimp only
  split
  · rename_i h
    refine displace_does _ (fun ht j hj hwf hnode => ?_) fun _ j hj hwf => ?_
    · have hji : j ≠ i := by omega
      obtain ⟨h1, -, h3, h4, h5⟩ := hfound j hj hji hwf
      rw [hnode] at h1
      rw [← h1] at h5
      exact hm ht h1.symm h4 j h5 hji h3
    · obtain ⟨-, h2, h3, h4, -⟩ := hfound j hj (by omega) hwf
      exact ⟨h2, h3.symm ▸ h4⟩
  · exact .refl c

theorem displaced_slot {s : EntityStore} {d : Int} :
    (displaced c i s d).slot i = c.slot i ∧ (displaced c i s d).jobs = c.jobs ∧
      (displaced c i s d).db = c.db ∧ (displaced c i s d).hist = c.hist := by
  unfold displaced
  dsimp only
  split
  · rename_i h
    refine ⟨?_, rfl, rfl, rfl⟩
    rcases lyEntityRelease_cases c.store (lyEntityFindByDb s (s.ents i).type d)
        with he | ⟨j, hj, he⟩
    · rw [he]; rfl
    · have hji : i ≠ j := by
        have := (slot?_eq_some.mp hj).1
        omega
      rw [he]
      show Slot.mk ((((c.store.cleanup j).listDel j).modify j LYEntity.released).ents i) _ = _
      rw [EntityStore.modify_ents_ne _ _ hji]
      rfl
  · exact ⟨rfl, rfl, rfl, rfl⟩

/-- **Claiming a database id**: another holder is released, then the entity is written. The
state `c'` may differ from that in what is remembered about the connection. -/
theorem claim_does {c' : Clc} {f : LYEntity → LYEntity} {d : Int}
    (hid : ∀ e, (f e).id = e.id) (htype : ∀ e, (f e).type = e.type)
    (hstore : c'.store = claimDbId (c.store.modify i f) i d) (hjobs : c'.jobs = c.jobs)
    (hdb : c'.db = c.db) (hhist : ∀ k, k ≠ i → c'.hist k = c.hist k)
    (ha : SlotAct R (c.slot i) ⟨(f (c.store.ents i)).claiming d, c'.hist i⟩)
    (hm : ClaimTidy R c i d) :
    Does R i c c' := by
  by_cases hd : d < 0
  · rw [claimDbId, if_pos hd] at hstore
    refine .single
      (.slot i (touches_modify hstore hjobs hdb hhist (hid _) (htype _)) ?_ (fun _ => rfl)
      (tidy_modify hstore))
    rw [show c'.slot i = ⟨c'.store.ents i, c'.hist i⟩ from rfl, hstore,
      EntityStore.modify_ents_self]
    rwa [LYEntity.claiming, if_pos hd] at ha
  · rw [claimDbId_eq hd] at hstore
    obtain ⟨hslot, hj1, hd1, hh1⟩ :=
      displaced_slot (c := c) (i := i) (s := c.store.modify i f) (d := d)
    have hdis : Does R i c _ := displaced_does (f := f) (d := d) hid htype hm
    have hent : (displaced c i (c.store.modify i f) d).store.ents i = c.store.ents i :=
      congrArg Slot.ent hslot
    have hstore' : c'.store = (displaced c i (c.store.modify i f) d).store.modify i fun e =>
        (f e).claiming d := by
      rw [hstore]
      simp only [EntityStore.modify, EntityStore.set, EntityStore.mk.injEq, and_true]
      funext k
      by_cases hki : k = i
      · subst hki; simp [LYEntity.claiming, hd]
      · simp [hki]
    refine hdis.trans (.single (.slot i (touches_modify hstore' (hjobs.trans hj1.symm)
      (hdb.trans hd1.symm) (fun k hk => (hhist k hk).trans (congrFun hh1 k).symm)
        (hid _) (htype _)) ?_
      (fun _ => rfl) (tidy_modify hstore')))
    rw [hslot, show c'.slot i = ⟨c'.store.ents i, c'.hist i⟩ from rfl, hstore',
      EntityStore.modify_ents_self, hent]
    exact ha

/-- What the claiming entity itself looks like afterwards. -/
theorem claimDbId_ents_self (s : EntityStore) (i : Nat) (d : Int) :
    (claimDbId s i d).ents i = (s.ents i).claiming d := by
  unfold claimDbId LYEntity.claiming
  by_cases hd : d < 0
  · rw [if_pos hd, if_pos hd]
  · rw [if_neg hd, if_neg hd]
    dsimp only
    rw [EntityStore.modify_ents_self]
    split
    · rename_i h
      rcases lyEntityRelease_cases s (lyEntityFindByDb s (s.ents i).type d) with he | ⟨j, hj, he⟩
      · rw [he]
      · have hij : i ≠ j := by
          have := (slot?_eq_some.mp hj).1
          omega
        rw [he, EntityStore.modify_ents_ne _ _ hij]
        rfl
    · rfl

/-- Claiming another database id leaves a claim as it was. -/
theorem ClaimTidy.claim {d e : Int} (h : ClaimTidy R c i d) {c' : Clc}
    (hstore : c'.store = claimDbId c.store i e) :
    ClaimTidy R c' i d := by
  intro ht hnode hpos k hk hki
  rw [hstore] at hnode hk ⊢
  rw [claimDbId_ents_self] at hnode
  have hold := h ht hnode hpos
  unfold claimDbId at hk ⊢
  by_cases hd : e < 0
  · rw [if_pos hd] at hk ⊢
    exact hold k hk hki
  rw [if_neg hd] at hk ⊢
  dsimp only at hk ⊢
  rw [EntityStore.modify_ents_ne _ _ hki]
  split at hk
  · rename_i hrel
    rw [if_pos hrel]
    rcases lyEntityRelease_cases c.store (lyEntityFindByDb c.store (c.store.ents i).type e)
        with he | ⟨j, -, he⟩
    · rw [he] at hk ⊢
      exact hold k hk hki
    · rw [he] at hk ⊢
      obtain ⟨hmem, hkj⟩ := EntityStore.mem_listDel (t := .node) hk
      rw [EntityStore.modify_ents_ne _ _ hkj]
      exact hold k hmem hki
  · rename_i hrel
    rw [if_neg hrel]
    exact hold k hk hki

theorem update_ents_self (hi : i < lyEntityMax) {d status : Int} (hst : 0 ≤ status) :
    (c.update i d status).store.ents i = ((c.store.ents i).withStatus status).claiming d := by
  show (lyEntityUpdate c.store i d status).1.ents i = _
  rw [lyEntityUpdate, slot?_natCast hi]
  dsimp only
  rw [if_pos hst, claimDbId_ents_self, EntityStore.modify_ents_self]

theorem enable_ents_self (hi : i < lyEntityMax) {d : Int} {b : Bool} :
    (lyEntityEnable c.store i d b).1.ents i = ((c.store.ents i).withEnabled b).claiming d := by
  rw [lyEntityEnable, slot?_natCast hi]
  dsimp only
  rw [claimDbId_ents_self, EntityStore.modify_ents_self]

theorem update_does (hi : i < lyEntityMax) {d status : Int} (hst : 0 ≤ status)
    (ha : SlotAct R (c.slot i) ⟨((c.store.ents i).withStatus status).claiming d, c.hist i⟩)
    (hm : ClaimTidy R c i d) : Does R i c (c.update i d status) := by
  refine claim_does (f := fun e => e.withStatus status) (d := d) (fun _ => rfl)
    (fun _ => rfl) ?_ rfl rfl
    (fun _ _ => rfl) ha hm
  show (lyEntityUpdate c.store i d status).1 = _
  rw [lyEntityUpdate, slot?_natCast hi]
  dsimp only
  rw [if_pos hst]

theorem update_note_does (hi : i < lyEntityMax) {d : Int} (status : Int) {g : ConnHist → ConnHist}
    (hst : 0 ≤ status)
    (ha : SlotAct R (c.slot i)
      ⟨((c.store.ents i).withStatus status).claiming d, g (c.hist i)⟩) (hm : ClaimTidy R c i d) :
    Does R i c ((c.update i d status).note i g) := by
  have hself : ((c.update i d status).note i g).hist i = g (c.hist i) := by
    simp [Clc.note, Clc.update]
  refine claim_does (f := fun e => e.withStatus status) (d := d) (fun _ => rfl)
    (fun _ => rfl) ?_ rfl rfl
    (fun k hk => ?_) (hself ▸ ha) hm
  · show (lyEntityUpdate c.store i d status).1 = _
    rw [lyEntityUpdate, slot?_natCast hi]
    dsimp only
    rw [if_pos hst]
  · simp [Clc.note, Clc.update, hk]

theorem enable_does (hi : i < lyEntityMax) {d : Int} {b : Bool}
    (ha : SlotAct R (c.slot i) ⟨((c.store.ents i).withEnabled b).claiming d, c.hist i⟩)
    (hm : ClaimTidy R c i d) :
    Does R i c (c.withStore (lyEntityEnable c.store i d b).1) := by
  refine claim_does (f := fun e => e.withEnabled b) (d := d) (fun _ => rfl)
    (fun _ => rfl) ?_ rfl rfl
    (fun _ _ => rfl) ha hm
  show (lyEntityEnable c.store i d b).1 = _
  rw [lyEntityEnable, slot?_natCast hi]

/-! ## Secrets -/

theorem EntityStore.modify_modify (s : EntityStore) (i : Nat) (f g : LYEntity → LYEntity) :
    (s.modify i f).modify i g = s.modify i fun e => g (f e) := by
  simp only [EntityStore.modify, EntityStore.set, EntityStore.mk.injEq, and_true]
  funext k
  by_cases hk : k = i
  · subst hk; simp
  · simp [hk]

/-- Two writes to the connection's own entity, and to what is remembered about it, at once. -/
theorem does_modify_note_modify (f f' : LYEntity → LYEntity) (g : ConnHist → ConnHist)
    (hid : (f' (f (c.store.ents i))).id = (c.store.ents i).id)
    (htype : (f' (f (c.store.ents i))).type = (c.store.ents i).type)
    (ha : SlotAct R (c.slot i) ⟨f' (f (c.store.ents i)), g (c.hist i)⟩) :
    Does R i c (((c.modifyEnt i f).note i g).modifyEnt i f') := by
  have hstore : (((c.modifyEnt i f).note i g).modifyEnt i f').store =
      c.store.modify i fun e => f' (f e) := EntityStore.modify_modify ..
  refine .single
    (.slot i (touches_modify hstore rfl rfl (fun k hk => ?_) hid htype) ?_ (fun _ => rfl)
    (tidy_modify hstore))
  · simp [Clc.note, Clc.modifyEnt, hk]
  · rw [slot_modifyEnt]
    show SlotAct R (c.slot i) ⟨f' ((c.store.modify i f).ents i), _⟩
    rw [EntityStore.modify_ents_self]
    simpa [Clc.note, Clc.modifyEnt] using ha

end

/-! ## Quiet connections -/

theorem SlotAct.low {R : Rules} {s s' : Slot} (h : SlotAct R s s') (hq : R.quiet)
    (hs : s.ent.status < Flag.authenticated) : s'.ent.status < Flag.authenticated := by
  cases h with
  | release => rw [status_released]; decide
  | init e h type ht hl hty => rw [status_inited]; exact hs
  | online e h d he =>
    rw [status_claiming, status_withStatus _ (by decide) (by decide)]
    decide
  | disable => rw [status_withEnabled]; exact hs
  | verified _ _ _ hn => exact absurd hq hn
  | enable _ _ _ _ _ _ _ hn => exact absurd hq hn
  | registerNode _ _ _ _ _ _ hn => exact absurd hq hn
  | registerOsm _ _ _ _ _ _ hn => exact absurd hq hn
  | report _ _ _ _ _ _ hn => exact absurd hq hn
  | _ => exact hs

/-- What a quiet connection starts from: it is not authenticated, and the database is in order. -/
def QuietPre (R : Rules) (i : Nat) (c : Clc) : Prop :=
  R.quiet → (c.store.ents i).status < Flag.authenticated ∧ DbWf c.db

theorem Does.quietPre {R : Rules} {i : Nat} {c c' : Clc} (h : Does R i c c')
    (hp : QuietPre R i c) : QuietPre R i c' := by
  refine h.inv (I := QuietPre R i) (fun a b ha hs hq => ?_) hp
  obtain ⟨hst, hdb⟩ := ha hq
  cases hs with
  | outside ho hqd =>
    rw [ho.store]
    exact ⟨hst, (hqd hq).wf hdb⟩
  | jobs _ _ _ hn => exact absurd hq hn
  | insert _ _ _ hn => exact absurd hq hn
  | slot j ht hact hj _ =>
    obtain rfl := hj hq
    exact ⟨hact.low hq hst, ht.db ▸ hdb⟩
  | displace j ht hact _ _ =>
    refine ⟨?_, ht.db ▸ hdb⟩
    by_cases hji : i = j
    · subst hji
      have : (b.store.ents i) = (a.store.ents i).released := congrArg Slot.ent hact
      rw [this, status_released]
      decide
    · have : (b.store.ents i) = a.store.ents i := congrArg Slot.ent (ht.others i hji)
      rw [this]
      exact hst

end LuoYun

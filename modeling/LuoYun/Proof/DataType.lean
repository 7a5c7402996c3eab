import LuoYun.Proof.RunInv

/-!
# The layout of private data

The private data of an entity is allocated for the type that its first packet implies, and
`ly_entity_init` keeps that type for good. The handler of a packet, however, is chosen from the type
of the packet alone, and reads the data through its own layout. In every reachable state the data of
an entity is laid out as its type says (`LaidOut`); a handler reads it through the other layout when
a packet for nodes arrives on the connection of an OS manager, or the other way round. There is a
third layout: `ly_entity_release` cleans up the data of a node as if it were a bare `NodeInfo`, and
a handler releases a node when it turns a register request away, or when another connection claims
the database id of the node. In runs without such packets private data is accessed as it was
allocated (`data_accessed_as_typed`).

A run is followed up to the first fault. The access through another type's layout is one,
`wrongType`, although it stays inside the object where the layout of an OS manager is smaller.
-/

namespace LuoYun

/-! ## The data is laid out as the type says -/

/-- The private data has the layout of the entity's type. -/
def LaidOut (e : LYEntity) : Prop :=
  match e.type with
  | .node => ∃ nd, e.entity = .node nd
  | .osm => ∃ oi, e.entity = .osm oi
  | _ => e.entity = .null

theorem LaidOut.node_iff {e : LYEntity} (h : LaidOut e) :
    e.type = .node ↔ ∃ nd, e.entity = .node nd := by
  unfold LaidOut at h
  split at h
  · rename_i ht
    exact ⟨fun _ => h, fun _ => ht⟩
  · rename_i ht
    obtain ⟨oi, ho⟩ := h
    rw [ht, ho]
    exact ⟨fun hc => (nomatch hc), fun ⟨nd, hc⟩ => (nomatch hc)⟩
  · rename_i hn _
    rw [h]
    exact ⟨fun hc => absurd hc hn, fun ⟨nd, hc⟩ => nomatch hc⟩

theorem LaidOut.osm_iff {e : LYEntity} (h : LaidOut e) :
    e.type = .osm ↔ ∃ oi, e.entity = .osm oi := by
  unfold LaidOut at h
  split at h
  · rename_i ht
    obtain ⟨nd, hn⟩ := h
    rw [ht, hn]
    exact ⟨fun hc => (nomatch hc), fun ⟨oi, hc⟩ => (nomatch hc)⟩
  · rename_i ht
    exact ⟨fun _ => h, fun _ => ht⟩
  · rename_i _ ho
    rw [h]
    exact ⟨fun hc => absurd hc ho, fun ⟨oi, hc⟩ => nomatch hc⟩

/-- Entities without data are in no list. -/
theorem LaidOut.not_listed {e : LYEntity} (h : LaidOut e) (hn : e.entity = .null) :
    ¬ Listed e.type := by
  rintro (ht | ht)
  · obtain ⟨nd, hd⟩ := h.node_iff.mp ht
    rw [hn] at hd
    cases hd
  · obtain ⟨oi, hd⟩ := h.osm_iff.mp ht
    rw [hn] at hd
    cases hd

/-- A change that keeps the type and the kind of data. -/
theorem LaidOut.congr {e e' : LYEntity} (h : LaidOut e) (ht : e'.type = e.type)
    (he : e'.entity = e.entity) : LaidOut e' := by
  unfold LaidOut at h ⊢
  rw [ht, he]
  exact h

theorem LaidOut.of_node {e : LYEntity} {nd nd' : LYNodeData} (h : LaidOut e)
    (he : e.entity = .node nd)
    {e' : LYEntity} (ht : e'.type = e.type) (he' : e'.entity = .node nd') : LaidOut e' := by
  unfold LaidOut
  rw [ht, h.node_iff.mpr ⟨nd, he⟩]
  exact ⟨nd', he'⟩

theorem LaidOut.of_osm {e : LYEntity} {oi oi' : OSMInfo} (h : LaidOut e) (he : e.entity = .osm oi)
    {e' : LYEntity} (ht : e'.type = e.type) (he' : e'.entity = .osm oi') : LaidOut e' := by
  unfold LaidOut
  rw [ht, h.osm_iff.mpr ⟨oi, he⟩]
  exact ⟨oi', he'⟩

theorem laidOut_busy {e : LYEntity} (h : LaidOut e) :
    LaidOut { e with entity := busyDec e.entity } := by
  cases he : e.entity with
  | null => exact h.congr rfl he.symm
  | node nd =>
    have : ∃ nd', busyDec (.node nd) = .node nd' := by
      rw [busyDec]
      split <;> exact ⟨_, rfl⟩
    obtain ⟨nd', hd⟩ := this
    exact h.of_node he rfl hd
  | osm oi =>
    have : ∃ oi', busyDec (.osm oi) = .osm oi' := by
      rw [busyDec]
      split <;> exact ⟨_, rfl⟩
    obtain ⟨oi', hd⟩ := this
    exact h.of_osm he rfl hd

theorem laidOut_init {e : LYEntity} (h : LaidOut e) (ht : e.type = .unknown) (type : EntityType) :
    LaidOut (e.inited type) := by
  have hn : e.entity = .null := by
    unfold LaidOut at h
    rw [ht] at h
    exact h
  cases type with
  | node => exact ⟨{}, rfl⟩
  | osm => exact ⟨{}, rfl⟩
  | _ => exact hn

theorem laidOut_act {R : Rules} {s s' : Slot} (h : LaidOut s.ent) (ha : SlotAct R s s') :
    LaidOut s'.ent := by
  cases ha with
  | release e hist => exact (rfl : EntityData.null = .null)
  | busy e hist => exact laidOut_busy h
  | init e hist type ht _ _ => exact laidOut_init h ht type
  | node e hist nd nd' he _ _ => exact h.of_node he rfl rfl
  | osm e hist oi oi' he => exact h.of_osm he rfl rfl
  | nodeSecret e hist nd nd' s he _ _ _ => exact h.of_node he rfl rfl
  | osmSecret e hist oi oi' s he _ _ => exact h.of_osm he rfl rfl
  | verified e hist _ _ =>
    split
    · exact h
    · exact h.congr rfl rfl
  | _ => exact h.congr rfl rfl

/-- The lists are in order, and the data of every entity is laid out as its type says. -/
structure Typed (c : Clc) : Prop where
  wf : StoreWf c.store
  slots : ∀ j, LaidOut (c.slot j).ent

theorem typed_kept (R : Rules) : Kept R Typed := by
  have hslots : Kept R fun c => ∀ j, LaidOut (c.slot j).ent := by
    refine kept_slots (J := fun s => LaidOut s.ent) ?_ ?_ fun s s' => laidOut_act
    · intro e fd i p n he _ _
      exact he
    · intro e hist p h
      exact h.congr rfl rfl
  refine ⟨fun c fd m h => ⟨?_, hslots.accept c fd m h.slots⟩,
    fun c i p h => ⟨?_, hslots.pkt c i p h.slots⟩, fun i a b h hp =>
      ⟨?_, hslots.prim i a b h.slots hp⟩⟩
  · rcases epollWorkRecv_cases c fd m with he | ⟨i, -, -, -, he, -, -, hstore, -⟩
    · rw [he]
      exact h.wf
    · rw [hstore]
      exact storeWf_set h.wf ((h.slots i).not_listed he) (.inr rfl)
  · have hwf : StoreWf (c.store.modify i fun e => { e with pkt := some p }) :=
      storeWf_modify rfl rfl h.wf
    exact hwf
  · cases hp with
    | outside ho _ => rw [ho.store]; exact h.wf
    | jobs _ hstore _ _ => rw [hstore]; exact h.wf
    | insert hstore _ _ _ => rw [hstore]; exact h.wf
    | slot j ht _ _ _ => exact ht.wf h.wf
    | displace j ht _ _ _ => exact ht.wf h.wf

theorem typed_boot {w : World} (h : Boot w) : Typed w.clc := by
  refine ⟨boot_storeWf h, fun j => ?_⟩
  rcases boot_slot h j with hs | ⟨fd, p, -, hs⟩ <;> rw [hs]
  · exact (rfl : EntityData.null = .null)
  · exact (rfl : EntityData.null = .null)

/-! ## No handler gives a type -/

/-- The rules of a handler once the type of the entity is settled. -/
def settledRules : Rules where
  wild := True
  web := True
  live := False
  ordered := False
  strict := False
  quiet := False
  typed := False

theorem settled_act {s s' : Slot} (ha : SlotAct settledRules s s') :
    s'.ent.type = s.ent.type ∨ s'.ent.type = .unknown := by
  cases ha with
  | release => exact .inr rfl
  | init _ _ _ _ _ hty => exact hty.elim
  | verified e hist _ _ =>
    left
    split <;> rfl
  | _ => exact .inl rfl

/-- While a packet is handled, an entity keeps its type or loses it. -/
theorem settled_type {i : Nat} {c c' : Clc} (h : Does settledRules i c c') (j : Nat) :
    (c'.slot j).ent.type = (c.slot j).ent.type ∨ (c'.slot j).ent.type = .unknown := by
  refine h.inv (I := fun a => (a.slot j).ent.type = (c.slot j).ent.type ∨
    (a.slot j).ent.type = .unknown)
    (fun a b hI hp => ?_) (.inl rfl)
  have key : ∀ k, SlotAct settledRules (a.slot k) (b.slot k) → (∀ l, l ≠ k → b.slot l = a.slot l) →
      (b.slot j).ent.type = (c.slot j).ent.type ∨ (b.slot j).ent.type = .unknown := by
    intro k ha hothers
    by_cases hj : j = k
    · subst hj
      rcases settled_act ha with hs | hs
      · rw [hs]; exact hI
      · exact .inr hs
    · rw [hothers j hj]; exact hI
  cases hp with
  | outside ho _ => rw [Clc.slot, ho.store]; exact hI
  | jobs _ hstore _ _ => rw [Clc.slot, hstore]; exact hI
  | insert hstore _ _ _ => rw [Clc.slot, hstore]; exact hI
  | slot k ht ha _ _ => exact key k ha ht.others
  | displace k ht ha _ _ => exact key k (ha ▸ .release _ _) ht.others

theorem settled_typed {i : Nat} {c c' : Clc} (h : Does settledRules i c c')
    (ht : Typed c) : Typed c' :=
  h.inv ((typed_kept settledRules).prim i) ht

theorem settled_ne {i : Nat} {c c' : Clc} (h : Does settledRules i c c') {t : EntityType}
    (hu : t ≠ .unknown) (hn : (c.store.ents i).type ≠ t) : (c'.store.ents i).type ≠ t := by
  rcases settled_type h i with hs | hs
  · show (c'.slot i).ent.type ≠ t
    rw [hs]
    exact hn
  · show (c'.slot i).ent.type ≠ t
    rw [hs]
    exact hu.symm

theorem settled_quietPre (i : Nat) (c : Clc) : QuietPre settledRules i c := fun hq => hq.elim

/-! ## Handlers that keep to the layout -/

/-- The computation does not read private data through the other type's layout. -/
def Fine {α : Type} (x : Res α) : Prop := x ≠ .error .wrongType

theorem fine_ok {α : Type} (a : α) : Fine (.ok a : Res α) := nofun

theorem fine_error {α : Type} {e : Fault} (h : e ≠ .wrongType) : Fine (.error e : Res α) :=
  fun hc => h (Except.error.inj hc)

theorem Fine.of_error {α β : Type} {x : Res α} {e : Fault} (h : Fine x) (hx : x = .error e) :
    Fine (.error e : Res β) := fine_error fun he => h (he ▸ hx)

theorem Fine.bind {α β : Type} {x : Res α} {f : α → Res β} (h : Fine x)
    (hf : ∀ a, x = .ok a → Fine (f a)) : Fine (x >>= f) := by
  cases x with
  | ok a => exact hf a rfl
  | error e => exact h.of_error rfl

/-- An entity of a type other than this holds no data of it. -/
theorem Typed.no_osm {c : Clc} (h : Typed c) {i : Nat}
    (ht : (c.store.ents i).type ≠ .osm) (oi : OSMInfo) :
    (c.store.ents i).entity ≠ .osm oi := fun hc => ht ((h.slots i).osm_iff.mpr ⟨oi, hc⟩)

theorem Typed.no_node {c : Clc} (h : Typed c) {i : Nat} (ht : (c.store.ents i).type ≠ .node)
    (nd : LYNodeData) : (c.store.ents i).entity ≠ .node nd :=
  fun hc => ht ((h.slots i).node_iff.mpr ⟨nd, hc⟩)

theorem mem_fine (c : Clc) (i : Nat) : Fine (c.mem i) := by
  unfold Clc.mem
  split
  · exact fine_error (by decide)
  · exact fine_ok _

theorem load_fine (m : Mem) (off n : Nat) : Fine (m.load off n) := by
  unfold Mem.load
  split
  · exact fine_ok _
  · exact fine_error (by decide)

theorem store_fine (m : Mem) (off : Nat) (bs : Bytes) : Fine (m.store off bs) := by
  unfold Mem.store
  split
  · exact fine_ok _
  · exact fine_error (by decide)

theorem loadStr_fine (m : Mem) (off : Nat) : Fine (m.loadStr off) := by
  unfold Mem.loadStr
  split
  · exact fine_error (by decide)
  · exact fine_ok _

/-! ### Jobs -/

theorem jobUpdateStatus_fine (env : Env) (c : Clc) (id status : Int) :
    Fine (jobUpdateStatus env c id status) := by
  unfold jobUpdateStatus
  split
  · exact fine_ok _
  · dsimp only
    split
    · exact fine_error (by decide)
    · split
      · exact fine_ok _
      · split
        · split <;> exact fine_ok _
        · split
          · split <;> exact fine_ok _
          · exact fine_ok _

theorem checkOther_fine (env : Env) (job : LYJobInfo) (c : Clc) (js : List LYJobInfo) :
    Fine (checkOther env job c js) := by
  induction js generalizing c with
  | nil => exact fine_ok _
  | cons j js ih =>
    unfold checkOther
    split
    · exact ih c
    · split
      · exact fine_ok _
      · split
        · exact (jobUpdateStatus_fine env c _ _).of_error (by assumption)
        · exact ih _

theorem checkDestroy_fine (env : Env) (job : LYJobInfo) (c : Clc) (js : List LYJobInfo) :
    Fine (checkDestroy env job c js) := by
  induction js generalizing c with
  | nil => exact fine_ok _
  | cons j js ih =>
    unfold checkDestroy
    split
    · exact ih c
    · split
      · exact fine_ok _
      · split
        · split
          · exact (jobUpdateStatus_fine env c _ _).of_error (by assumption)
          · exact ih _
        · exact ih c

theorem jobCheck_fine (env : Env) (c : Clc) (job : LYJobInfo) : Fine (jobCheck env c job) := by
  unfold jobCheck
  split
  · exact fine_ok _
  split
  · exact fine_ok _
  split
  · split <;> exact fine_ok _
  split
  · split <;> exact fine_ok _
  split
  · split <;> exact fine_ok _
  split
  · exact checkDestroy_fine env job c _
  split
  · exact checkOther_fine env job c _
  · exact fine_ok _

theorem processWebJob_fine (env : Env) (c : Clc) (size : Int) (i : Nat) :
    Fine (processWebJob env c size i) := by
  unfold processWebJob
  split
  · exact fine_ok _
  · refine (mem_fine c i).bind fun m _ => (load_fine m _ _).bind fun b _ => ?_
    unfold webJob
    split
    · exact fine_ok _
    · split
      · exact fine_ok _
      · split
        · exact (jobCheck_fine env _ _).of_error (by assumption)
        · split <;> exact fine_ok _

/-! ### Nodes -/

theorem nodeActive_fine {c : Clc} (h : Typed c) (ip : Bytes) :
    Fine (lyEntityNodeActive c.store ip) := by
  have hgo : ∀ l : List Nat, (∀ k ∈ l, (c.store.ents k).type = .node) →
      Fine (lyEntityNodeActive.go c.store ip l) := by
    intro l hl
    induction l with
    | nil => exact fine_ok _
    | cons k rest ih =>
      have ihr := ih fun j hj => hl j (List.mem_cons_of_mem _ hj)
      unfold lyEntityNodeActive.go
      split
      · obtain ⟨nd, hnd⟩ := (h.slots k).node_iff.mp (hl k List.mem_cons_self)
        have hdata : nodeData (c.store.ents k) = .ok nd := by
          unfold nodeData
          rw [show (c.store.ents k).entity = .node nd from hnd]
        rw [hdata]
        dsimp only
        split
        · exact fine_ok _
        · exact ihr
      · exact ihr
  exact hgo c.store.nodeList fun k hk => h.wf.list .node k hk

theorem nodeRegisterAuth_fine (env : Env) (c : Clc) (i : Nat) (nd : LYNodeData) :
    Fine (nodeRegisterAuth env c i nd) := by
  unfold nodeRegisterAuth
  split
  · exact fine_ok _
  · generalize dbNodeFind env c (.byId nd.node.hostTag) = q
    obtain ⟨c1, found, db⟩ := q
    dsimp only
    split
    · split
      · exact fine_ok _
      · split
        · exact fine_error (by decide)
        · exact fine_ok _
    · split <;> exact fine_ok _

theorem nodeRegisterTagged_fine (env : Env) (c : Clc) (i : Nat) (nd : LYNodeData) (tag : Int) :
    Fine (nodeRegisterTagged env c i nd tag) := by
  unfold nodeRegisterTagged
  split
  · exact fine_ok _
  · dsimp only
    split
    · exact (nodeRegisterAuth_fine env _ i _).of_error (by assumption)
    · split
      · split
        · exact fine_ok _
        · split <;> exact fine_ok _
      · exact fine_ok _

theorem dbNodeInsert_fine (env : Env) (c : Clc) (nf : NodeInfo) : Fine (dbNodeInsert env c nf) := by
  unfold dbNodeInsert
  dsimp only
  split
  · exact fine_ok _
  · split
    · exact fine_ok _
    · split
      · exact fine_ok _
      · exact fine_error (by decide)
      · exact fine_ok _

theorem nodeRegisterNew_fine (env : Env) (c : Clc) (i : Nat) (nd : LYNodeData) :
    Fine (nodeRegisterNew env c i nd) := by
  have hrow : ∀ c nf found db, Fine (nodeNewRow env c nf found db) := by
    intro c nf found db
    unfold nodeNewRow
    split
    · split
      · exact (dbNodeInsert_fine env c nf).of_error (by assumption)
      · split
        · exact fine_ok _
        · split
          · dsimp only
            split
            · exact fine_ok _
            · split <;> exact fine_ok _
          · exact fine_ok _
    · exact fine_ok _
  unfold nodeRegisterNew
  generalize dbNodeFind env c (.byIp (nd.node.hostIp.getD [])) = q
  obtain ⟨c1, found, db⟩ := q
  dsimp only
  split
  · exact fine_ok _
  · split
    · exact (hrow _ _ _ _).of_error (by assumption)
    · exact fine_ok _
    · exact fine_ok _

theorem settled_registerOk (env : Env) (c : Clc) (root : XmlNode) (i : Nat) :
    NodeRegisterOk settledRules env c root i := ⟨fun h => h.elim, fun h => h.elim⟩

theorem setNode_does_settled {i : Nat} {c : Clc} {nd nd' : LYNodeData}
    (he : (c.store.ents i).entity = .node nd) (ht : nd'.node.hostTag = nd.node.hostTag) :
    Does settledRules i c (c.setNode i nd') := setNode_does nd' he (.inl ht) fun h => h.elim

theorem nodeXmlRegister_fine (env : Env) {c : Clc} (h : Typed c) {i : Nat}
    (ht : (c.store.ents i).type ≠ .osm) (root : XmlNode) : Fine (nodeXmlRegister env c root i) := by
  unfold nodeXmlRegister
  split
  · exact fine_ok _
  · split
    · exact fine_ok _
    · rename_i oi he
      exact absurd he (h.no_osm ht oi)
    · rename_i nd he
      have htag := readFields_hostTag root (registerFields_hostTag env.cfg) nd.node
      have h1 :
          Typed
          (c.setNode i { nd with node := (readFields root (registerFields env.cfg) nd.node).1 }) :=
        settled_typed (setNode_does_settled he htag) h
      dsimp only
      split
      · exact fine_ok _
      · split
        · exact fine_ok _
        · split
          · exact (nodeActive_fine h1 _).of_error (by assumption)
          · exact fine_ok _
          · split
            · exact nodeRegisterTagged_fine env _ i _ _
            · exact nodeRegisterNew_fine env _ i _

/-- The elements of a report that have the handler read the node's data: resources, and a status. -/
def XmlNode.ReadsNode (m : XmlNode) : Prop :=
  m.named (cstr "resource") = true ∨
    m.named (cstr "status") = true ∧
      ∃ text, m.children.head?.bind XmlNode.textContent = some text ∧ atoi text ≠ -1

/-- The elements of a document that have the handler read the node's data. -/
def XmlNode.TouchesNode (n : XmlNode) : Prop :=
  n.IsRegister ∨ n.named (cstr "report") = true ∧ ∃ m ∈ n.children, m.ReadsNode

theorem processNodeXmlRequest_fine {i : Nat} (hi : i < lyEntityMax) (env : Env)
    {c : Clc} (h : Typed c) (root node : XmlNode) (hn : node.named (cstr "request") = true)
    (ht : (c.store.ents i).type = .osm → ¬ node.TouchesNode) :
    Fine (processNodeXmlRequest env c root node i) := by
  unfold processNodeXmlRequest
  split
  · exact fine_error (by decide)
  · rename_i action ha
    split
    · exact fine_ok _
    · rename_i hact
      split
      · exact fine_ok _
      · rename_i id hid
        have ht' : (c.store.ents i).type ≠ .osm := fun hc => ht hc
          (.inl ⟨hn, ⟨action, ha, Classical.not_not.mp hact⟩, by rw [hid]; simp⟩)
        have hsat := nodeXmlRegister_sat (R := settledRules) hi env c root (settled_quietPre i c)
          (fun hq => hq.elim) (fun ha => ha.elim) fun ht => ht.elim
        split
        · exact (nodeXmlRegister_fine env h ht' root).of_error (by assumption)
        · rename_i c1 ret hr
          have hd : Does settledRules i c c1 := hsat.of_ok hr
          split
          · exact fine_ok _
          · split
            · exact fine_ok _
            · rename_i oi he
              exact absurd he ((settled_typed hd h).no_osm (settled_ne hd (by decide) ht') oi)
            · dsimp only
              split
              · exact fine_error (by decide)
              · exact fine_ok _

theorem nodeReportLoop_fine {i : Nat} {c : Clc} (h : Typed c) (root : XmlNode) (ns : List XmlNode)
    (status : Int) (ht : (c.store.ents i).type = .osm → status = -1 ∧ ∀ n ∈ ns, ¬ n.ReadsNode) :
    Fine (nodeReportLoop root i ns status c) := by
  induction ns generalizing c status with
  | nil =>
    unfold nodeReportLoop nodeReportEnd
    split
    · rename_i oi he
      rw [if_neg (not_not_intro (ht ((h.slots i).osm_iff.mpr ⟨oi, he⟩)).1)]
      exact fine_ok _
    · exact fine_ok _
  | cons n ns ih =>
    have hrest : (c.store.ents i).type = .osm → status = -1 ∧ ∀ m ∈ ns, ¬ m.ReadsNode :=
      fun hc => ⟨(ht hc).1, fun m hm => (ht hc).2 m (List.mem_cons_of_mem _ hm)⟩
    unfold nodeReportLoop
    split
    · rename_i hstatus
      split
      · rename_i text htext
        refine ih h _ fun hc => ⟨?_, (hrest hc).2⟩
        exact Classical.not_not.mp fun hne =>
          (ht hc).2 n List.mem_cons_self (.inr ⟨hstatus, text, htext, hne⟩)
      · exact fine_ok _
    · split
      · rename_i hres
        have ht' : (c.store.ents i).type ≠ .osm :=
          fun hc => (ht hc).2 n List.mem_cons_self (.inl hres)
        unfold nodeResourceUpdate
        cases he : (c.store.ents i).entity with
        | null => exact ih h _ hrest
        | osm oi => exact absurd he (h.no_osm ht' oi)
        | node nd =>
          have hd : Does settledRules i c (c.setNode i
              { nd with node := (readFields root resourceFields nd.node).1 }) :=
            setNode_does_settled he (readFields_hostTag root resourceFields_hostTag nd.node)
          exact ih (settled_typed hd h) _ fun hc => absurd hc (settled_ne hd (by decide) ht')
      · exact ih h _ hrest

theorem processNodeXmlResponse_fine (env : Env) {i : Nat} {c : Clc} (h : Typed c)
    (root node : XmlNode) :
    Fine (processNodeXmlResponse env c root node i) := by
  have hjob : ∀ id status, Fine (nodeResponseJob env c id status) := by
    intro id status
    unfold nodeResponseJob
    split
    · exact fine_ok _
    · split
      · exact fine_ok _
      · split
        · exact (jobUpdateStatus_fine env c _ _).of_error (by assumption)
        · split
          · exact fine_ok _
          · dsimp only
            split <;> exact fine_ok _
  have hdata : ∀ {c1 : Clc} dataType, Typed c1 →
      Fine (nodeResponseData env c1 root i dataType) := by
    intro c1 dataType h1
    unfold nodeResponseData
    split
    · exact fine_ok _
    · split
      · rename_i hnode
        have hinfo : Fine (nodeInfoUpdate env c1 root i) := by
          unfold nodeInfoUpdate
          split
          · exact fine_ok _
          · split
            · exact fine_ok _
            · rename_i oi he
              -- the type has been looked at
              exact absurd he (h1.no_osm (by rw [hnode.1]; decide) oi)
            · dsimp only
              split <;> exact fine_ok _
        split
        · exact hinfo.of_error (by assumption)
        · exact fine_ok _
      · exact fine_ok _
  unfold processNodeXmlResponse
  split
  · rename_i id status _ _
    have hsat := nodeResponseJob_sat (R := settledRules) (i := i) env (fun hq => hq) c
      (atoi id) (atoi status)
    split
    · exact (hjob _ _).of_error (by assumption)
    · exact fine_ok _
    · rename_i c1 hr
      have hd : Does settledRules i c c1 := hsat.of_ok hr
      exact hdata _ (settled_typed hd h)
  · exact fine_ok _

theorem nodeXmlLoop_fine {i : Nat} (hi : i < lyEntityMax) (env : Env) {c : Clc} (h : Typed c)
    (root : XmlNode) (ns : List XmlNode) (ret : Int)
    (ht : (c.store.ents i).type = .osm → ∀ n ∈ ns, ¬ n.TouchesNode) :
    Fine (nodeXmlLoop env root i ns c ret) := by
  induction ns generalizing c ret with
  | nil => exact fine_ok _
  | cons n ns ih =>
    have helem : Fine (nodeXmlElement env root i c n ret) := by
      unfold nodeXmlElement
      split
      · exact processNodeXmlResponse_fine env h root n
      · split
        · rename_i hreq
          exact processNodeXmlRequest_fine hi env h root n hreq fun hc => ht hc n List.mem_cons_self
        · split
          · rename_i hrep
            exact nodeReportLoop_fine h root n.children (-1) fun hc => ⟨rfl, fun m hm hreads =>
              ht hc n List.mem_cons_self (.inr ⟨hrep, m, hm, hreads⟩)⟩
          · exact fine_ok _
    have hsat := nodeXmlElement_sat (R := settledRules) hi env c root n ret (settled_quietPre i c)
      (fun hq => hq.elim) fun _ => settled_registerOk env c root i
    unfold nodeXmlLoop
    split
    · exact helem.of_error (by assumption)
    · rename_i c1 ret1 hr
      have hd : Does settledRules i c c1 := hsat.of_ok hr
      split
      · exact fine_ok _
      · refine ih (settled_typed hd h) ret1 fun hc m hm => ht ?_ m (List.mem_cons_of_mem _ hm)
        rcases settled_type hd i with hs | hs
        · exact hs.symm.trans hc
        · exact absurd (hs.symm.trans hc) (by decide)

theorem ehProcessNodeXml_fine {i : Nat} (hi : i < lyEntityMax) (env : Env) {c : Clc} (h : Typed c)
    (ht : (c.store.ents i).type = .osm → ∀ s root, PayloadText c i s → env.readDoc s = some root →
      ∀ n ∈ root.children, ¬ n.TouchesNode) : Fine (ehProcessNodeXml env c i) := by
  unfold ehProcessNodeXml
  refine (mem_fine c i).bind fun m hm => (loadStr_fine m _).bind fun s hs => ?_
  split
  · exact fine_ok _
  · rename_i root hroot
    split
    · exact nodeXmlLoop_fine hi env h root root.children 0 fun hc => ht hc s root ⟨m, hm, hs⟩ hroot
    · exact fine_ok _

/-! ### Authentication -/

theorem authVerify_fine (env : Env) (c : Clc) (i : Nat) : Fine (authVerify env c i) := by
  unfold authVerify
  refine (mem_fine c i).bind fun m _ => (load_fine m _ _).bind fun data _ =>
    (store_fine m _ _).bind fun m' _ => ?_
  dsimp only
  split
  · exact fine_ok _
  · split
    · exact fine_ok _
    · split <;> exact fine_ok _

theorem authAnswer_fine (env : Env) (c : Clc) (i : Nat) (replyType requestType tag : Int) :
    Fine (authAnswer env c i replyType requestType tag) := by
  unfold authAnswer
  refine (mem_fine c i).bind fun m _ => (load_fine m _ _).bind fun data _ => ?_
  split
  · exact fine_ok _
  · refine (store_fine m _ _).bind fun m' _ => (load_fine m' _ _).bind fun ai _ => ?_
    dsimp only
    split
    · exact fine_ok _
    · refine (store_fine m' _ _).bind fun m'' _ => (load_fine m'' _ _).bind fun ai' _ => ?_
      split <;> exact fine_ok _

theorem authTag_fine (c : Clc) (i : Nat) : Fine (authTag c i) :=
  (mem_fine c i).bind fun m _ => (load_fine m _ _).bind fun _ _ => fine_ok _

theorem nodeAuthRequest_fine (env : Env) {c : Clc} (h : Typed c) {i : Nat}
    (ht : (c.store.ents i).type ≠ .osm) : Fine (nodeAuthRequest env c i) := by
  unfold nodeAuthRequest
  split
  · exact (authTag_fine c i).of_error (by assumption)
  · split
    · exact fine_ok _
    · rename_i oi he
      exact absurd he (h.no_osm ht oi)
    · split
      · exact fine_ok _
      · dsimp only
        split
        · exact fine_ok _
        · exact authAnswer_fine env _ i _ _ _

theorem osmAuthRequest_fine (env : Env) {c : Clc} (h : Typed c) {i : Nat}
    (ht : (c.store.ents i).type ≠ .node) : Fine (osmAuthRequest env c i) := by
  unfold osmAuthRequest
  split
  · exact (authTag_fine c i).of_error (by assumption)
  · split
    · exact fine_ok _
    · rename_i nd he
      exact absurd he (h.no_node ht nd)
    · split
      · exact fine_ok _
      · exact authAnswer_fine env _ i _ _ _

/-! ### OS managers -/

theorem scanIp_fine {s : Bytes} {e : Fault} (h : scanIp s = some (.error e)) : e ≠ .wrongType := by
  unfold scanIp at h
  obtain ⟨w, -, hw⟩ := Option.map_eq_some_iff.mp h
  split at hw
  · obtain rfl := Except.error.inj hw
    decide
  · cases hw

theorem ehProcessOsmQuery_fine (env : Env) (c : Clc) (i : Nat) :
    Fine (ehProcessOsmQuery env c i) := by
  unfold ehProcessOsmQuery
  refine (mem_fine c i).bind fun m _ => (loadStr_fine m _).bind fun s _ => ?_
  split
  · exact fine_ok _
  · split
    · exact fine_ok _
    · split
      · exact fine_ok _
      · split
        · exact fine_ok _
        · exact fine_error (scanIp_fine (by assumption))
        · split
          · exact fine_ok _
          · split
            · exact (jobUpdateStatus_fine env c _ _).of_error (by assumption)
            · exact fine_ok _

theorem ehProcessOsmReport_fine (env : Env) (c : Clc) (size : Int) (i : Nat) :
    Fine (ehProcessOsmReport env c size i) := by
  unfold ehProcessOsmReport
  split
  · exact fine_ok _
  · refine (mem_fine c i).bind fun m _ => (load_fine m _ _).bind fun b _ => ?_
    dsimp only
    split
    · split <;> exact fine_ok _
    · split
      · split <;> exact fine_ok _
      · exact fine_ok _

theorem ehProcessOsmRegister_fine {i : Nat} (hi : i < lyEntityMax) (env : Env)
    {c : Clc} (h : Typed c)
    (ht : (c.store.ents i).type = .node → Flag.registered ≤ (c.store.ents i).status) :
    Fine (ehProcessOsmRegister env c i) := by
  unfold ehProcessOsmRegister
  refine (mem_fine c i).bind fun m _ => (loadStr_fine m _).bind fun s _ => ?_
  split
  · exact fine_ok _
  · rename_i hreg
    split
    · exact fine_ok _
    · rename_i nd he
      -- a registered entity was refused before its data was read
      have hst := ht ((h.slots i).node_iff.mpr ⟨nd, he⟩)
      rw [lyEntityIsRegistered, lyEntityIs_natCast hi] at hreg
      simp only [decide_eq_true_eq] at hreg
      exact absurd hst hreg
    · rename_i oi _
      have hscan : ∀ e, (scanRegister s oi).2 = some (.error e) → e ≠ .wrongType := by
        intro e he
        unfold scanRegister at he
        split at he
        · cases he
        · split at he
          · cases he
          · exact scanIp_fine he
      generalize scanRegister s oi = q at hscan
      obtain ⟨oi1, ip⟩ := q
      cases ip with
      | none => exact fine_ok _
      | some x =>
        cases x with
        | error e => exact fine_error (hscan e rfl)
        | ok ip =>
          dsimp only
          generalize
            (if lyEntityIsAuthenticated (c.setOsm i { oi1 with ip := some ip }).store i = false ∨
            oi1.status ≠ osmStatusUnregistered then LyS.registeringDoneFail
            else LyS.registeringDoneSuccess) = result
          split
          · exact fine_ok _
          · split <;> exact fine_ok _

theorem processTestEcho_fine (env : Env) (c : Clc) (size : Int) (i : Nat) :
    Fine (processTestEcho env c size i) := by
  unfold processTestEcho
  refine (mem_fine c i).bind fun m _ => (loadStr_fine m _).bind fun _ _ => ?_
  split
  · exact fine_ok _
  · exact (load_fine m _ _).bind fun _ _ => fine_ok _

/-! ## Runs -/

/-- The packet belongs to the type of the entity it arrives at. -/
structure Matching (env : Env) (c : Clc) (i : Nat) (type _size : Int) : Prop where
  /-- An authentication request of a node does not come from an OS manager. -/
  nodeAuth : type = PktType.nodeAuthRequest → (c.store.ents i).type ≠ .osm
  /-- A document from an OS manager holds no register request and no report on resources or a
  status. -/
  nodeXml : NodeXml type → (c.store.ents i).type = .osm → ∀ s root, PayloadText c i s →
    env.readDoc s = some root → ∀ n ∈ root.children, ¬ n.TouchesNode
  /-- An authentication request of an OS manager does not come from a node. -/
  osmAuth : type = PktType.osmAuthRequest → (c.store.ents i).type ≠ .node
  /-- A register request of an OS manager does not come from a node, unless that is registered. -/
  osmRegister : type = PktType.osmRegisterRequest → (c.store.ents i).type = .node →
    Flag.registered ≤ (c.store.ents i).status

/-- The rules of a run about which nothing is known. -/
def anyRules : Rules where
  wild := True
  web := True
  live := False
  ordered := False
  strict := False
  quiet := False

/-- After `ly_entity_init` the type is the old one, or the one that was asked for. -/
theorem init_type {i : Nat} (hi : i < lyEntityMax) (c : Clc) (t : EntityType) :
    ((c.init i t).store.ents i).type = (c.store.ents i).type ∨
      ((c.init i t).store.ents i).type = t := by
  rcases init_ents hi c t with h | h <;> rw [h]
  · exact .inl rfl
  · cases t <;> exact .inr rfl

theorem init_typed {i : Nat} (hi : i < lyEntityMax) {c : Clc} (h : Typed c) (t : EntityType) :
    Typed (c.init i t) := by
  have hd : Does anyRules i c (c.init i t) := init_does hi t (fun hl => hl.elim) trivial
  exact hd.inv ((typed_kept anyRules).prim i) h

theorem handlePacket_fine {i : Nat} (hi : i < lyEntityMax) (env : Env) {c : Clc} (h : Typed c)
    (type size : Int) (hm : Matching env c i type size) :
    Fine (handlePacket env c i type size) := by
  unfold handlePacket
  split
  · exact processWebJob_fine env _ size i
  split
  · rename_i ht
    subst ht
    refine ehProcessNodeXml_fine hi env (init_typed hi h .node) fun hc s root hs hr =>
      hm.nodeXml ⟨by decide, by decide, by decide, .inr (by decide)⟩ ?_ s root
        (payloadText_init hi hs) hr
    rcases init_type hi c .node with hi' | hi'
    · exact hi'.symm.trans hc
    · exact absurd (hi'.symm.trans hc) (by decide)
  split
  · rename_i ht
    unfold ehProcessNodeAuth
    split
    · exact authVerify_fine env _ i
    · rename_i hr
      refine nodeAuthRequest_fine env (init_typed hi h .node) ?_
      have hreq := hm.nodeAuth (ht.resolve_right (by simpa using hr))
      rcases init_type hi c .node with hi' | hi'
      · rw [hi']; exact hreq
      · rw [hi']; decide
  split
  · rename_i ht
    unfold ehProcessOsmAuth
    split
    · exact authVerify_fine env _ i
    · rename_i hr
      refine osmAuthRequest_fine env (init_typed hi h .osm) ?_
      have hreq := hm.osmAuth (ht.resolve_right (by simpa using hr))
      rcases init_type hi c .osm with hi' | hi'
      · rw [hi']; exact hreq
      · rw [hi']; decide
  split
  · exact ehProcessOsmQuery_fine env c i
  split
  · rename_i hauth _ hquery hgroup
    exact ehProcessNodeXml_fine hi env h (hm.nodeXml ⟨fun hc => hauth (.inl hc),
      fun hc => hauth (.inr hc), hquery, hgroup⟩)
  split
  · rename_i ht
    refine ehProcessOsmRegister_fine hi env (init_typed hi h .osm) fun hc => ?_
    rw [(init_same hi c .osm).2.1]
    refine hm.osmRegister ht ?_
    rcases init_type hi c .osm with hi' | hi'
    · exact hi'.symm.trans hc
    · exact absurd (hi'.symm.trans hc) (by decide)
  split
  · exact ehProcessOsmReport_fine env c size i
  split
  · exact processTestEcho_fine env c size i
  · exact fine_ok _

/-! ### The packet loop -/

theorem at_fine (off : Int) : Fine (Mem.at? off) := by
  unfold Mem.at?
  split
  · exact fine_ok _
  · exact fine_error (by decide)

theorem lyPacketRecv_fine (p : LYPacketRecv) (size : Int) : Fine (lyPacketRecv p size) := by
  unfold lyPacketRecv
  split
  · exact fine_ok _
  · split
    · exact fine_ok _
    · dsimp only
      split
      · exact fine_ok _
      · refine Fine.bind ?_ fun h _ => ?_
        · rw [Mem.loadHeader_ok]
          exact fine_ok _
        · split
          · exact (at_fine _).bind fun a _ => (load_fine _ _ _).bind fun b _ =>
              (store_fine _ _ _).bind fun m _ => fine_ok _
          · exact fine_ok _

theorem lyPacketRecvDone_fine (p : LYPacketRecv) : Fine (lyPacketRecvDone p) := by
  unfold lyPacketRecvDone
  split
  · exact fine_ok _
  · dsimp only
    split
    · exact fine_ok _
    · split
      · exact fine_error (by decide)
      · exact (at_fine _).bind fun a _ => (load_fine _ _ _).bind fun t _ =>
          (store_fine _ _ _).bind fun m _ => (store_fine _ _ _).bind fun m' _ => fine_ok _

theorem printRecvBuf_fine (p : LYPacketRecv) (buf : Nat) : Fine (printRecvBuf p buf) := by
  unfold printRecvBuf
  split
  · exact fine_error (by decide)
  · exact (load_fine _ _ _).bind fun _ _ => fine_ok _

theorem roundEnd_fine (i : Nat) (c : Clc) (ret : Int) : Fine (roundEnd i c ret) := by
  unfold roundEnd
  split
  · exact fine_error (by decide)
  · refine (lyPacketRecvDone_fine _).bind fun d _ => ?_
    dsimp only
    split
    · exact fine_ok _
    · split <;> exact fine_ok _

theorem packetRound_fine (env : Env) {w : World} {b : Busy} (h : Typed w.clc) (hb : w.busy = some b)
    (hi : b.slot < lyEntityMax) (hm : OnPacket (Matching env) w .round) :
    Fine (packetRound env b.slot (w.clc, b.len, b.buf)) := by
  unfold packetRound
  dsimp only
  split
  · exact fine_error (by decide)
  · rename_i p hp
    refine (lyPacketRecv_fine p b.len).bind fun r hr => ?_
    split
    · exact (printRecvBuf_fine _ _).bind fun _ _ => fine_ok _
    · split
      · split
        · exact (printRecvBuf_fine _ _).bind fun _ _ => fine_ok _
        · exact fine_ok _
      · refine Fine.bind (handlePacket_fine hi env ((typed_kept anyRules).pkt _ _ _ h) _ _ ?_)
          fun x _ =>
          roundEnd_fine _ _ _
        unfold OnPacket at hm
        rw [hb] at hm
        exact hm p r hp hr (by omega)

/-- The next round reads no private data through the other type's layout. -/
theorem next_fine (env : Env) {w : World} (h : Typed w.clc) (hin : w.InStore)
    (hm : OnPacket (Matching env) w .round) : w.next env .round ≠ some (.error .wrongType) := by
  intro hc
  have hstep := step_of_next_error (by decide) hc
  obtain ⟨c, busy⟩ := w
  cases busy with
  | none => cases hstep
  | some b =>
    have hfine := packetRound_fine env h rfl (hin b rfl) hm
    have hround : World.rounded env c b = .error .wrongType := Option.some.inj hstep
    unfold World.rounded at hround
    split at hround
    · rename_i e he
      obtain rfl := Except.error.inj hround
      exact hfine he
    · cases hround
    · cases hround

/-! ### Releases -/

/-- The rules of a handler that releases no node. -/
def tidyRules : Rules := { anyRules with tidy := True }

/-- The handler of the packet releases no node. -/
structure ReleasesNoNode (env : Env) (c : Clc) (i : Nat) (type _size : Int) : Prop where
  /-- Every register request is let in, under a database id that no other node has. -/
  registers : NodeXml type → ∀ s root, PayloadText c i s → env.readDoc s = some root →
    NodeRegistersOk tidyRules env root i root.children (c.announced i type) 0
  /-- An authentication request names no database id that another node has. -/
  authTidy : type = PktType.nodeAuthRequest → NodeAuthTidy env (c.init i .node) i

theorem ReleasesNoNode.packetOk {env : Env} {c : Clc} {i : Nat} {type size : Int}
    (h : ReleasesNoNode env c i type size) (ht : Typed c) :
    PacketOk tidyRules env c i type size where
  text := .inl trivial
  bounded := .inl trivial
  live := fun _ hl => hl.elim
  typed := fun _ => trivial
  writes := fun _ => trivial
  web := fun _ => ⟨trivial, id⟩
  query := fun _ => id
  report := fun _ => ⟨fun _ _ _ _ _ => ⟨fun ho => ho.elim, fun hs => hs.elim⟩, id⟩
  reply := fun _ hs => hs.elim
  register := fun _ hs => hs.elim
  quiet := fun hq => hq.elim
  xml := fun hq => hq.elim
  unverified := fun hq => hq.elim
  registers := h.registers
  nodeAuth := fun hreq _ => h.authTidy hreq
  osmTyped := fun _ oi he hnode => ht.no_osm (by rw [hnode]; decide) oi he

/-- **A tidy handler misreads no node data.** -/
theorem Does.misreads {R : Rules} {i : Nat} {c c' : Clc} (h : Does R i c c') (hR : R.tidy)
    (hwf : StoreWf c.store) : c'.store.misreads = c.store.misreads := by
  refine (h.inv (I := fun a => StoreWf a.store ∧ a.store.misreads = c.store.misreads)
    (fun a b hI hp => ?_) ⟨hwf, rfl⟩).2
  obtain ⟨hw, hm⟩ := hI
  cases hp with
  | outside ho _ => rw [ho.store]; exact ⟨hw, hm⟩
  | jobs _ hstore _ _ => rw [hstore]; exact ⟨hw, hm⟩
  | insert hstore _ _ _ => rw [hstore]; exact ⟨hw, hm⟩
  | slot k ht _ _ htidy => exact ⟨ht.wf hw, (htidy hR hw).trans hm⟩
  | displace k ht _ htidy _ => exact ⟨ht.wf hw, (htidy hR hw).trans hm⟩

end LuoYun

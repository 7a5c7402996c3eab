import LuoYun.Proof.JobEffect

/-!
# What a packet from a node does to the state

The lemmas follow `ev_node.c` from the inside out. The two facts that later proofs live on are
made here: the tag in the data of a node is not changed once the connection has a secret, and a
node is registered only under that tag, with a secret, from the status AUTHENTICATED.
-/

namespace LuoYun

theorem lyEntityIs_natCast {i : Nat} (hi : i < lyEntityMax) (least : Int) (s : EntityStore) :
    lyEntityIs least s i = decide (least ≤ (s.ents i).status) := by
  rw [lyEntityIs, slot?_natCast hi]

/-! ## Reading a document -/

/-- Reading fields that do not write the tag leaves the tag alone. -/
theorem readFields_hostTag (root : XmlNode) {fs : List Field}
    (hfs : ∀ f ∈ fs, ∀ s nf, (f.set s nf).hostTag = nf.hostTag) (nf : NodeInfo) :
    (readFields root fs nf).1.hostTag = nf.hostTag := by
  induction fs generalizing nf with
  | nil => rfl
  | cons f fs ih =>
    unfold readFields
    split
    · rfl
    · rw [ih (fun g hg => hfs g (List.mem_cons_of_mem _ hg)), hfs f List.mem_cons_self]

theorem registerFields_hostTag (cfg : CLCConfig) :
    ∀ f ∈ registerFields cfg, ∀ s nf, (f.set s nf).hostTag = nf.hostTag := by
  intro f hf
  simp only [registerFields, List.mem_cons, List.not_mem_nil, or_false] at hf
  rcases hf with rfl | rfl | rfl | rfl | rfl | rfl | rfl | rfl | rfl | rfl | rfl |
      rfl | rfl | rfl | rfl <;>
    exact fun _ _ => rfl

theorem nodeInfoFields_hostTag :
    ∀ f ∈ nodeInfoFields, ∀ s nf, (f.set s nf).hostTag = nf.hostTag := by
  intro f hf
  simp only [nodeInfoFields, List.mem_cons, List.not_mem_nil, or_false] at hf
  rcases hf with rfl | rfl | rfl | rfl | rfl | rfl <;> exact fun _ _ => rfl

theorem resourceFields_hostTag :
    ∀ f ∈ resourceFields, ∀ s nf, (f.set s nf).hostTag = nf.hostTag := by
  intro f hf
  simp only [resourceFields, List.mem_cons, List.not_mem_nil, or_false] at hf
  rcases hf with rfl | rfl | rfl | rfl | rfl <;> exact fun _ _ => rfl

/-- The text of the architecture, if there is one, reads as zero. -/
def PlainArch (root : XmlNode) : Prop :=
  ∀ s, root.xpathText (inRequest ["cpu", "arch"]) = some s → atou s = 0

/-- Reading fields that do not name an architecture. -/
theorem readFields_arch (root : XmlNode) {fs : List Field}
    (hfs : ∀ f ∈ fs, ∀ s, root.xpathText f.path = some s → ∀ nf, nf.cpuArch = 0 →
      (f.set s nf).cpuArch = 0)
    (nf : NodeInfo) (h : nf.cpuArch = 0) : (readFields root fs nf).1.cpuArch = 0 := by
  induction fs generalizing nf with
  | nil => exact h
  | cons f fs ih =>
    unfold readFields
    split
    · exact h
    · rename_i s hs
      exact ih (fun g hg => hfs g (List.mem_cons_of_mem _ hg)) _
        (hfs f List.mem_cons_self s hs nf h)

theorem registerFields_arch (cfg : CLCConfig) {root : XmlNode} (hplain : PlainArch root) :
    ∀ f ∈ registerFields cfg, ∀ s, root.xpathText f.path = some s → ∀ nf, nf.cpuArch = 0 →
      (f.set s nf).cpuArch = 0 := by
  intro f hf
  simp only [registerFields, List.mem_cons, List.not_mem_nil, or_false] at hf
  rcases hf with rfl | rfl | rfl | rfl | rfl | rfl | rfl | rfl | rfl | rfl |
      rfl | rfl | rfl | rfl | rfl
  case inr.inr.inr.inr.inl => exact fun s hs nf _ => hplain s hs
  all_goals exact fun _ _ _ h => h

theorem nodeInfoFields_arch : ∀ f ∈ nodeInfoFields, ∀ s nf, (f.set s nf).cpuArch = nf.cpuArch := by
  intro f hf
  simp only [nodeInfoFields, List.mem_cons, List.not_mem_nil, or_false] at hf
  rcases hf with rfl | rfl | rfl | rfl | rfl | rfl <;> exact fun _ _ => rfl

theorem resourceFields_arch : ∀ f ∈ resourceFields, ∀ s nf, (f.set s nf).cpuArch = nf.cpuArch := by
  intro f hf
  simp only [resourceFields, List.mem_cons, List.not_mem_nil, or_false] at hf
  rcases hf with rfl | rfl | rfl | rfl | rfl <;> exact fun _ _ => rfl

/-- Reading the fields of a response or a report leaves the architecture alone. -/
theorem readFields_same_arch (root : XmlNode) {fs : List Field}
    (hfs : ∀ f ∈ fs, ∀ s nf, (f.set s nf).cpuArch = nf.cpuArch)
    (nf : NodeInfo) (h : nf.cpuArch = 0) :
    (readFields root fs nf).1.cpuArch = 0 :=
  readFields_arch root (fun f hf s _ nf h => (hfs f hf s nf).trans h) nf h

/-- The texts of a register request that go into statements have no quote in them. -/
def QuotableTexts (root : XmlNode) : Prop :=
  ∀ path ∈ [inRequest ["host", "name"], inRequest ["host", "ip"], inRequest ["cpu", "model"]],
    ∀ s, root.xpathText path = some s → (39 : UInt8) ∉ s

/-- The texts in some node data are free of quotes. -/
def QuotableInfo (nf : NodeInfo) : Prop :=
  (∃ s, nf.hostName = some s ∧ (39 : UInt8) ∉ s) ∧ (∃ s, nf.hostIp = some s ∧ (39 : UInt8) ∉ s) ∧
    ∃ s, nf.cpuModel = some s ∧ (39 : UInt8) ∉ s

theorem quotable_of_not_mem {ts : List Bytes} (h : ∀ t ∈ ts, (39 : UInt8) ∉ t) :
    quotable ts = true := by
  simpa [quotable] using h

/-- A register request that was read to its end has set all three texts. -/
theorem readFields_quotable {root : XmlNode} (cfg : CLCConfig) (nf : NodeInfo)
    (hq : QuotableTexts root) (h : (readFields root (registerFields cfg) nf).2 = true) :
    QuotableInfo (readFields root (registerFields cfg) nf).1 := by
  -- each field that is there takes the reading one step further
  have hstep : ∀ {f : Field} {fs : List Field} {nf : NodeInfo},
      (readFields root (f :: fs) nf).2 = true → ∃ s, root.xpathText f.path = some s ∧
        readFields root (f :: fs) nf = readFields root fs (f.set s nf) := by
    intro f fs nf h
    cases hx : root.xpathText f.path with
    | none => rw [readFields, hx] at h; cases h
    | some s => exact ⟨s, rfl, by rw [readFields, hx]⟩
  unfold registerFields at h ⊢
  obtain ⟨_, -, e1⟩ := hstep h; rw [e1] at h ⊢
  obtain ⟨_, -, e2⟩ := hstep h; rw [e2] at h ⊢
  obtain ⟨name, hname, e3⟩ := hstep h; rw [e3] at h ⊢
  obtain ⟨ip, hip, e4⟩ := hstep h; rw [e4] at h ⊢
  obtain ⟨_, -, e5⟩ := hstep h; rw [e5] at h ⊢
  obtain ⟨model, hmodel, e6⟩ := hstep h; rw [e6] at h ⊢
  obtain ⟨_, -, e7⟩ := hstep h; rw [e7] at h ⊢
  obtain ⟨_, -, e8⟩ := hstep h; rw [e8] at h ⊢
  obtain ⟨_, -, e9⟩ := hstep h; rw [e9] at h ⊢
  obtain ⟨_, -, e10⟩ := hstep h; rw [e10] at h ⊢
  obtain ⟨_, -, e11⟩ := hstep h; rw [e11] at h ⊢
  obtain ⟨_, -, e12⟩ := hstep h; rw [e12] at h ⊢
  obtain ⟨_, -, e13⟩ := hstep h; rw [e13] at h ⊢
  obtain ⟨_, -, e14⟩ := hstep h; rw [e14] at h ⊢
  obtain ⟨_, -, e15⟩ := hstep h; rw [e15] at h ⊢
  exact ⟨⟨name, rfl, hq _ (by simp) name hname⟩, ⟨ip, rfl, hq _ (by simp) ip hip⟩,
    ⟨model, rfl, hq _ (by simp) model hmodel⟩⟩

section

variable {R : Rules} {i : Nat} (hi : i < lyEntityMax) (env : Env)

/-! ## Registration of a node that names a tag -/

/-- A success of `__node_register_auth` leaves an authenticated entity with this tag. -/
structure RegisterAuthDone (R : Rules) (i : Nat) (c : Clc) (tag : Int) : Prop where
  status : Flag.authenticated ≤ (c.store.ents i).status
  entity : ∃ nd, (c.store.ents i).entity = .node nd ∧ nd.node.hostTag = tag
  loud : ¬ R.quiet
  claim : ClaimTidy R c i tag

include hi in
theorem nodeRegisterAuth_sat (c : Clc) (nd : LYNodeData) (he : (c.store.ents i).entity = .node nd)
    (hreg : (c.store.ents i).status < Flag.registered) (hp : QuietPre R i c)
    (hm : Flag.authenticated ≤ (c.store.ents i).status → ClaimTidy R c i nd.node.hostTag) :
    Sat R.May (fun r => Does R i c r.1 ∧
      (r.2 = LyS.registeringDoneSuccess → RegisterAuthDone R i r.1 nd.node.hostTag))
      (nodeRegisterAuth env c i nd) := by
  have hno : ∀ {c' : Clc} {ret : Int}, Does R i c c' → ret ≠ LyS.registeringDoneSuccess →
      Sat R.May (fun r : Clc × Int => Does R i c r.1 ∧
        (r.2 = LyS.registeringDoneSuccess → RegisterAuthDone R i r.1 nd.node.hostTag))
          (.ok (c', ret)) :=
    fun h hne => ⟨h, fun h => absurd h hne⟩
  unfold nodeRegisterAuth
  split
  · exact hno (.refl c) (by decide)
  · have hfind := dbNodeFind_outside env c (.byId nd.node.hostTag)
    have hcall : Does R i c (dbNodeFind env c (.byId nd.node.hostTag)).1 :=
      .call hfind (dbNodeFind_byId_db ..)
    have hid := @dbNodeFind_byId_id env c nd.node.hostTag
    generalize dbNodeFind env c (.byId nd.node.hostTag) = q at hfind hcall hid
    obtain ⟨c1, found, db⟩ := q
    dsimp only at hfind hcall hid ⊢
    split
    · rename_i hone
      split
      · exact hno hcall (by decide)
      · rename_i hauth
        have hst : Flag.authenticated ≤ (c1.store.ents i).status := by
          rw [lyEntityIsAuthenticated, lyEntityIs_natCast hi] at hauth
          simpa using hauth
        split
        · exact Rules.may_of_ne (by decide)
        · have hloud : ¬ R.quiet := by
            intro hq
            have := (hp hq).1
            rw [hfind.store] at hst
            omega
          have he1 : (c1.store.ents i).entity = .node nd := by rw [hfind.store]; exact he
          have hreg1 : (c1.store.ents i).status < Flag.registered := by rw [hfind.store]; exact hreg
          have hclaim : ClaimTidy R (c1.setNode i (nd.withVlimit db.cpuVlimit db.memVlimit)) i
              nd.node.hostTag :=
            ((hm (hfind.store ▸ hst)).of_store hfind.store).setNode _
          refine ⟨hcall.trans ((setNode_does (nd.withVlimit db.cpuVlimit db.memVlimit) he1
            (.inl rfl)).trans (enable_does hi ?_ ?_)), fun _ => ⟨?_, ?_, hloud, ?_⟩⟩
          · exact .enable _ _ _ _ (by simp) (by simpa using hst) (by simpa using hreg1) hloud
          · rw [hid (by omega)]
            exact hclaim
          · show Flag.authenticated ≤ ((lyEntityEnable _ i _ _).1.ents i).status
            rw [enable_ents_self hi, status_claiming, status_withEnabled, setNode_status]
            exact hst
          · refine ⟨nd.withVlimit db.cpuVlimit db.memVlimit, ?_, rfl⟩
            show ((lyEntityEnable _ i _ _).1.ents i).entity = _
            rw [enable_ents_self hi]
            exact setNode_entity c1 i _
          · refine ClaimTidy.claim
              (c := (c1.setNode i (nd.withVlimit db.cpuVlimit db.memVlimit)).modifyEnt i
              fun e => e.withEnabled db.enabled)
              (hclaim.modify (f := fun e => e.withEnabled db.enabled) rfl rfl) (e := db.id) ?_
            show (lyEntityEnable _ i _ _).1 = _
            rw [lyEntityEnable, slot?_natCast hi]
            rfl
    · split
      · exact hno hcall (by decide)
      · exact hno hcall (by decide)

include hi in
theorem nodeRegisterTagged_sat (c : Clc) (nd : LYNodeData) (tag : Int)
    (he : (c.store.ents i).entity = .node nd)
    (hreg : (c.store.ents i).status < Flag.registered) (hp : QuietPre R i c)
    (hm : Flag.authenticated ≤ (c.store.ents i).status → ClaimTidy R c i tag) :
    Sat R.May (fun r => Does R i c r.1) (nodeRegisterTagged env c i nd tag) := by
  unfold nodeRegisterTagged
  split
  · exact Does.refl c
  · rename_i htag
    have h1 : Does R i c (c.setNode i (nd.withTag tag)) := by
      refine setNode_does _ he ?_
      show tag = nd.node.hostTag ∨ _
      omega
    have hauth := nodeRegisterAuth_sat (R := R) hi env
      (c.setNode i (nd.withTag tag)) (nd.withTag tag)
      (setNode_entity ..) (by rw [setNode_status]; exact hreg) (h1.quietPre hp)
      fun hst => (hm (setNode_status c i _ ▸ hst)).setNode _
    dsimp only
    split
    · exact hauth.of_error (by assumption)
    · rename_i c2 ret hr
      obtain ⟨h2, hdone⟩ := hauth.of_ok hr
      split
      · rename_i hret
        obtain ⟨hst, ⟨nd2, he2, htag2⟩, hloud, hclaim⟩ := hdone hret
        have hsec := dbNodeUpdateSecret_outside env c2 tag (c2.store.ents i).auth.secret
        split
        · exact h1.trans (h2.trans (.outside hsec hloud))
        · rename_i hok
          have hsecret : (c2.store.ents i).auth.secret ≠ none := by
            intro hn
            rw [hn] at hok
            exact hok (show (-1 : Int) < 0 by decide)
          have hall := hsec.trans (dbNodeUpdateStatus_outside env _ tag NodeStatus.registered)
          split
          · exact h1.trans (h2.trans (.outside hall hloud))
          · have hent := congrFun (congrArg EntityStore.ents hall.store) i
            have hclaim' : ClaimTidy R (dbNodeUpdateStatus env
                (dbNodeUpdateSecret env c2 tag (c2.store.ents i).auth.secret).1 tag
                  NodeStatus.registered).1 i tag :=
              hclaim.of_store hall.store
            generalize dbNodeUpdateStatus env _ tag NodeStatus.registered = q at hall hent hclaim'
            have hfin : Does R i q.1
                ((q.1.update i tag Flag.registered).note i fun h =>
                  { h with registered := true }) := by
              refine update_note_does hi _ (by decide) ?_ hclaim'
              rw [← show nd2.node.hostTag = tag from htag2]
              exact .registerNode _ _ nd2 (hent ▸ he2) (hent ▸ hsecret) (hent ▸ hst) hloud
            exact h1.trans (h2.trans (.trans (.outside hall hloud) hfin))
      · exact h1.trans h2

/-! ## Registration of a new node -/

/-- The row a new node goes on with. -/
structure NewRow (R : Rules) (i : Nat) (c c' : Clc) (db : Option DBNodeRegInfo) : Prop where
  does : Does R i c c'
  store : c'.store = c.store
  pos : ∀ d, db = some d → 0 < d.id
  untagged : R.quiet → ∀ d, db = some d → Untagged c'.db d.id

theorem NewRow.failed {c c' : Clc} (h : Does R i c c') (hs : c'.store = c.store) :
    NewRow R i c c' none where
  does := h
  store := hs
  pos := fun _ h => by cases h
  untagged := fun _ _ h => by cases h

theorem nodeNewRow_sat (c : Clc) (nf : NodeInfo) (found : Int) (db : DBNodeRegInfo)
    (hp : QuietPre R i c) (hq : R.quiet → QuotableInfo nf)
    (hpos : 0 < found → 0 < db.id) (hfound : 0 ≤ found)
    (hun : R.quiet → 0 < found → db.secret = none → Untagged c.db db.id) :
    Sat R.May (fun r => NewRow R i c r.1 r.2) (nodeNewRow env c nf found db) := by
  unfold nodeNewRow
  split
  · split
    · rename_i e he
      -- `db_node_insert` fails only at a `NULL` id
      refine Rules.may_of_ne fun h => ?_
      subst h
      unfold dbNodeInsert at he
      dsimp only at he
      split at he
      · cases he
      · split at he
        · cases he
        · split at he <;> cases he
    · rename_i c1 id hins
      have hout := dbNodeInsert_outside hins
      have hid := dbNodeInsert_id hins
      have hquiet : R.quiet → QuietDb c.db c1.db ∧ (DbWf c.db → 0 < id → Untagged c1.db id) := by
        intro hc
        obtain ⟨⟨n, hn, hn'⟩, ⟨a, ha, ha'⟩, ⟨m, hm, hm'⟩⟩ := hq hc
        refine dbNodeInsert_quiet (quotable_of_not_mem ?_) hins
        simp only [orNull, hn, ha, hm, Option.getD_some]
        intro t ht
        rcases List.mem_cons.mp ht with rfl | ht
        · exact hn'
        · rcases List.mem_cons.mp ht with rfl | ht
          · exact hm'
          · rw [List.mem_singleton.mp ht]
            exact ha'
      have h1 : Does R i c c1 := .single (.outside hout fun hc => (hquiet hc).1)
      split
      · exact .failed h1 hout.store
      · rename_i hneg
        have hidpos : 0 < id := by
          rcases hid with hid | hid
          · dsimp only at hid; omega
          · exact hid
        have hun1 : R.quiet → Untagged c1.db id := fun hc => (hquiet hc).2 (hp hc).2 hidpos
        split
        · -- a node on the CLC's own host is enabled at once
          have hout2 := dbNodeEnable_outside env c1 id true
          have hq2 : R.quiet → QuietDb c1.db (dbNodeEnable env c1 id true).1.db ∧
              Untagged (dbNodeEnable env c1 id true).1.db id := by
            intro hc
            refine ⟨dbExec_quiet (quietDb_updateNode (fun _ => rfl) (hun1 hc)), ?_⟩
            unfold dbNodeEnable dbExec
            split
            · exact untagged_updateNode (fun _ => rfl) (hun1 hc)
            · exact hun1 hc
          have h2 : Does R i c (dbNodeEnable env c1 id true).1 :=
            h1.trans (.single (.outside hout2 fun hc => (hq2 hc).1))
          generalize dbNodeEnable env c1 id true = q at hout2 hq2 h2
          dsimp only
          split
          · exact .failed h2 (hout2.store.trans hout.store)
          · have hout3 := dbNodeFind_outside env q.1 (.byId id)
            have hdb3 := dbNodeFind_byId_db env q.1 id
            have hid3 := @dbNodeFind_byId_id env q.1 id
            have h3 : Does R i c (dbNodeFind env q.1 (.byId id)).1 := h2.trans (.call hout3 hdb3)
            have hstore := hout3.store.trans (hout2.store.trans hout.store)
            generalize dbNodeFind env q.1 (.byId id) = f at hout3 hdb3 hid3 h3 hstore
            obtain ⟨c3, found3, db3⟩ := f
            dsimp only at hout3 hdb3 hid3 h3 hstore ⊢
            split
            · rename_i hf
              have hid' := hid3 (by omega)
              refine ⟨h3, hstore, ?_, ?_⟩
              · rintro _ ⟨⟩
                rw [hid']
                exact hidpos
              · rintro hc _ ⟨⟩
                rw [hid', hdb3]
                exact (hq2 hc).2
            · exact .failed h3 hstore
        · refine ⟨h1, hout.store, ?_, ?_⟩
          · rintro _ ⟨⟩
            exact hidpos
          · rintro hc _ ⟨⟩
            exact hun1 hc
  · rename_i hkeep
    have hf : 0 < found := by
      have : found ≠ 0 := fun h => hkeep (.inl h)
      omega
    have hs : db.secret = none := Classical.not_not.mp fun h => hkeep (.inr h)
    refine ⟨.refl c, rfl, ?_, ?_⟩
    · rintro _ ⟨⟩
      exact hpos hf
    · rintro hc _ ⟨⟩
      exact hun hc hf hs

theorem keepSecret_setNode_does {c : Clc} {nd : LYNodeData} {tag : Int}
    {s : Bytes} (nd' : LYNodeData)
    (he : (c.store.ents i).entity = .node nd) (hs : (c.store.ents i).auth.secret = none)
    (ht : 0 < tag) (htag : nd'.node.hostTag = tag)
    (ha : R.arch → nd.node.cpuArch = 0 → nd'.node.cpuArch = 0 := by exact fun _ h => h) :
    Does R i c ((c.keepSecret i tag (some s)).setNode i nd') := by
  subst htag
  exact does_modify_note_modify (fun e => e.withSecret s) (fun e => { e with entity := .node nd' })
    (fun h => { h with secretTag := some nd'.node.hostTag }) rfl rfl
    (.nodeSecret _ _ nd nd' s he hs ht ha)

include hi in
theorem nodeNewOnline_does (c : Clc) (nd : LYNodeData) (db : DBNodeRegInfo)
    (he : (c.store.ents i).entity = .node nd) (hq : R.quiet → QuotableInfo nd.node)
    (hpos : 0 < db.id) (hun : R.quiet → Untagged c.db db.id) (hm : ClaimTidy R c i db.id) :
    Does R i c (nodeNewOnline env c i nd db).1 := by
  have h1 : Does R i c (c.update i db.id Flag.online) :=
    update_does hi (by decide) (.online _ _ _ (by rw [he]; simp)) hm
  have hent : (c.update i db.id Flag.online).store.ents i =
      ((c.store.ents i).withStatus Flag.online).claiming db.id := update_ents_self hi (by decide)
  have hdb : (c.update i db.id Flag.online).db = c.db := rfl
  unfold nodeNewOnline
  generalize c.update i db.id Flag.online = c1 at h1 hent hdb
  have he1 : (c1.store.ents i).entity = .node nd := by rw [hent]; exact he
  -- what is written to the row is free of quotes, and the row has no secret
  have hup : ∀ (c2 : Clc) (nf : NodeInfo), c2.db = c1.db →
      nf.hostName = nd.node.hostName → nf.hostIp = nd.node.hostIp → nf.cpuModel = nd.node.cpuModel →
      Does R i c2 (dbNodeUpdate env c2 db.id nf).1 := by
    intro c2 nf hc2 hname hip hmodel
    refine .single (.outside (dbNodeUpdate_outside ..) fun hc => ?_)
    obtain ⟨⟨n, hn, hn'⟩, ⟨a, ha, ha'⟩, ⟨m, hm, hm'⟩⟩ := hq hc
    refine dbNodeUpdate_quiet (quotable_of_not_mem ?_) ?_
    · simp only [orNull, hname, hip, hmodel, hn, ha, hm, Option.getD_some]
      intro t ht
      rcases List.mem_cons.mp ht with rfl | ht
      · exact hn'
      · rcases List.mem_cons.mp ht with rfl | ht
        · exact hm'
        · rw [List.mem_singleton.mp ht]
          exact ha'
    · rw [hc2, hdb]
      exact hun hc
  dsimp only
  split
  · exact h1
  · rename_i hsec
    split
    · rename_i hen
      have hs : (c1.store.ents i).auth.secret = none :=
        Classical.not_not.mp fun h => hsec ⟨hen, h⟩
      have h2 : Does R i c1 c1.called := .call (.called c1) rfl
      have h3 := keepSecret_setNode_does (R := R) (c := c1.called) (s := (env.uuid c1.io.tick).text)
        ((nd.withTag db.id).withStatus NodeStatus.online) he1 hs hpos rfl
      have h4 := hup ((c1.called.keepSecret i db.id (some (env.uuid c1.io.tick).text)).setNode i
        ((nd.withTag db.id).withStatus NodeStatus.online))
        ((nd.withTag db.id).withStatus NodeStatus.online).node rfl rfl rfl rfl
      dsimp only
      exact h1.trans (h2.trans (h3.trans h4))
    · have h2 := setNode_does (R := R) (nd.withStatus NodeStatus.online) he1 (.inl rfl)
      have h3 := hup (c1.setNode i (nd.withStatus NodeStatus.online))
        (nd.withStatus NodeStatus.online).node rfl rfl rfl rfl
      dsimp only
      exact h1.trans (h2.trans h3)

/-- The row that a register request without a tag goes on with. -/
def newRow (env : Env) (c : Clc) (i : Nat) (nd : LYNodeData) : Res (Clc × Option DBNodeRegInfo) :=
  let q := dbNodeFind env c (.byIp (nd.node.hostIp.getD []))
  let nd := if q.2.1 = 0 ∨ q.2.2.secret ≠ none then nd.withStatus NodeStatus.uninitialized else nd
  nodeNewRow env (q.1.setNode i nd) nd.node q.2.1 q.2.2

include hi in
theorem nodeRegisterNew_sat (c : Clc) (nd : LYNodeData) (he : (c.store.ents i).entity = .node nd)
    (hp : QuietPre R i c) (hq : R.quiet → QuotableInfo nd.node)
    (hm : ∀ c1 row, newRow env c i nd = .ok (c1, some row) → ClaimTidy R c i row.id) :
    Sat R.May (fun r => Does R i c r.1) (nodeRegisterNew env c i nd) := by
  have hout := dbNodeFind_outside env c (.byIp (nd.node.hostIp.getD []))
  have hpos := @dbNodeFind_id_pos env c (.byIp (nd.node.hostIp.getD []))
  have hquote : R.quiet → quotable [nd.node.hostIp.getD []] = true := by
    intro hc
    obtain ⟨-, ⟨a, ha, ha'⟩, -⟩ := hq hc
    refine quotable_of_not_mem fun t ht => ?_
    rw [List.mem_singleton.mp ht, ha]
    exact ha'
  have hdb : R.quiet → (dbNodeFind env c (.byIp (nd.node.hostIp.getD []))).1.db = c.db :=
    fun hc => dbNodeFind_byIp_db (hquote hc)
  have hun := fun hc : R.quiet => dbNodeFind_byIp_untagged env (hquote hc) (hp hc).2
  unfold newRow at hm
  unfold nodeRegisterNew
  generalize dbNodeFind env c (.byIp (nd.node.hostIp.getD [])) = q at hout hpos hdb hun hm
  obtain ⟨c1, found, db⟩ := q
  dsimp only at hout hpos hdb hun hm ⊢
  have h1 : Does R i c c1 := .single (.outside hout fun hc => .of_eq (hdb hc))
  split
  · exact h1
  · rename_i hf
    generalize hnd : (if found = 0 ∨ db.secret ≠ none then nd.withStatus NodeStatus.uninitialized
      else nd) = nd' at hm
    -- the data differs from what was read in the status only
    have hsame : nd'.node.hostTag = nd.node.hostTag ∧
        (QuotableInfo nd.node → QuotableInfo nd'.node) ∧
        (nd.node.cpuArch = 0 → nd'.node.cpuArch = 0) := by
      rw [← hnd]
      split
      · exact ⟨rfl, id, id⟩
      · exact ⟨rfl, id, id⟩
    have he1 : (c1.store.ents i).entity = .node nd := by rw [hout.store]; exact he
    have h2 : Does R i c (c1.setNode i nd') :=
      h1.trans (setNode_does _ he1 (.inl hsame.1) fun _ => hsame.2.2)
    have hrow := nodeNewRow_sat (i := i) env (c1.setNode i nd') nd'.node found db (h2.quietPre hp)
      (fun hc => hsame.2.1 (hq hc)) hpos (by omega)
      (fun hc h0 hs => by
        show Untagged c1.db db.id
        rw [hdb hc]
        exact hun hc h0 hs)
    split
    · exact hrow.of_error (by assumption)
    · exact h2.trans (hrow.of_ok (by assumption)).does
    · rename_i c3 db3 hr
      obtain ⟨hdoes, hstore, hp3, hu3⟩ := hrow.of_ok hr
      refine h2.trans
        (hdoes.trans (nodeNewOnline_does hi env c3 nd' db3 ?_ (fun hc => hsame.2.1 (hq hc))
        (hp3 db3 rfl) (fun hc => hu3 hc db3 rfl) ?_))
      · rw [hstore, setNode_entity]
      · exact (((hm c3 db3 hr).of_store hout.store).setNode _).of_store hstore

/-! ## Documents -/

theorem lyEntityNodeActive_sat (s : EntityStore) (ip : Bytes) :
    Sat R.May (fun _ => True) (lyEntityNodeActive s ip) := by
  have hgo : ∀ l, Sat R.May (fun _ => True) (lyEntityNodeActive.go s ip l) := by
    intro l
    induction l with
    | nil => exact trivial
    | cons k l ih =>
      unfold lyEntityNodeActive.go
      split
      · have hnd : Sat R.May (fun _ => True) (nodeData (s.ents k)) := by
          unfold nodeData
          split
          · exact Rules.may_of_ne (by decide)
          · exact trivial
          · exact Rules.may_of_ne (by decide)
        split
        · exact hnd.of_error (by assumption)
        · split
          · exact trivial
          · exact ih
      · exact ih
  exact hgo s.nodeList

/-- The tag in a register request. -/
def registerTag (root : XmlNode) : Int :=
  ((root.xpathText (inRequest ["host", "tag"])).map atoi).getD (-1)

/-- The node that has sent the register request is let in, under a database id that no other node on
the list has. -/
structure Admissible (env : Env) (c : Clc) (root : XmlNode) (i : Nat) (nd : LYNodeData) : Prop where
  status : nd.node.status < NodeStatus.registered
  inactive : lyEntityNodeActive c.store (nd.node.hostIp.getD []) ≠ .ok true
  tagged : 0 < registerTag root → Flag.authenticated ≤ (c.store.ents i).status →
    Unclaimed c.store i (registerTag root)
  fresh : ¬ 0 < registerTag root → ∀ c1 row, newRow env c i nd = .ok (c1, some row) →
    Unclaimed c.store i row.id

/-- A register request that is read to its end is admissible. -/
def RegisterTidy (env : Env) (c : Clc) (root : XmlNode) (i : Nat) : Prop :=
  ∀ nd, (c.store.ents i).entity = .node nd → (c.store.ents i).status < Flag.registered →
    (readFields root (registerFields env.cfg) nd.node).2 = true →
    let nd' := { nd with node := (readFields root (registerFields env.cfg) nd.node).1 }
    Admissible env (c.setNode i nd') root i nd'

include hi in
theorem nodeXmlRegister_sat (c : Clc) (root : XmlNode) (hp : QuietPre R i c)
    (hq : R.quiet → QuotableTexts root) (harch : R.arch → PlainArch root)
    (htidy : R.tidy → RegisterTidy env c root i) :
    Sat R.May (fun r => Does R i c r.1) (nodeXmlRegister env c root i) := by
  unfold nodeXmlRegister
  split
  · exact Does.refl c
  · rename_i hreg
    have hst : (c.store.ents i).status < Flag.registered := by
      rw [lyEntityIsRegistered, lyEntityIs_natCast hi] at hreg
      simpa using hreg
    split
    · exact Does.refl c
    · exact Rules.may_of_ne (by decide)
    · rename_i nd he
      have htag := readFields_hostTag root (registerFields_hostTag env.cfg) nd.node
      have hquote := fun hc => readFields_quotable env.cfg nd.node (hq hc)
      have hplain := fun ht => readFields_arch root (registerFields_arch env.cfg (harch ht)) nd.node
      have hadm := fun ht => htidy ht nd he hst
      dsimp only at hadm
      generalize readFields root (registerFields env.cfg) nd.node = r at htag hquote hplain hadm
      have h1 : Does R i c (c.setNode i { nd with node := r.1 }) :=
        setNode_does _ he (.inl htag) hplain
      have he1 := setNode_entity c i { nd with node := r.1 }
      have hst1 : ((c.setNode i { nd with node := r.1 }).store.ents i).status <
        Flag.registered := by
        rw [setNode_status]; exact hst
      have hp1 := h1.quietPre hp
      dsimp only
      generalize c.setNode i { nd with node := r.1 } = c1 at h1 he1 hst1 hp1 hadm
      split
      · exact h1
      · rename_i hread
        have hread : r.2 = true := by simpa using hread
        split
        · rename_i hfull
          -- the node is turned away
          refine h1.trans (releaseOwn_does hi (fun ht => ?_) c1)
          exact absurd hfull (Int.not_le.mpr (hadm ht hread).status)
        · have hact := lyEntityNodeActive_sat (R := R) c1.store (r.1.hostIp.getD [])
          split
          · exact hact.of_error (by assumption)
          · rename_i hactive
            exact h1.trans (releaseOwn_does hi (fun ht => (hadm ht hread).inactive hactive) c1)
          · split
            · rename_i hpos
              exact (nodeRegisterTagged_sat hi env c1 _ _ he1 hst1 hp1
                fun hst ht _ => (hadm ht hread).tagged hpos hst).mono fun _ => h1.trans
            · rename_i hneg
              exact (nodeRegisterNew_sat hi env c1 _ he1 hp1 (fun hc => hquote hc hread)
                fun c2 row hrow ht _ =>
                  (hadm ht hread).fresh hneg c2 row hrow).mono fun _ => h1.trans

/-- A register request, as `__process_node_xml_request` takes it. -/
structure XmlNode.IsRegister (n : XmlNode) : Prop where
  request : n.named (cstr "request") = true
  action : ∃ a, n.prop (cstr "action") = some a ∧ atoi a = LyA.clcRegisterNode
  id : n.prop (cstr "id") ≠ none

/-- What the rules of a run ask of a register request. -/
def NodeRegisterOk (R : Rules) (env : Env) (c : Clc) (root : XmlNode) (i : Nat) : Prop :=
  (R.arch → PlainArch root) ∧ (R.tidy → RegisterTidy env c root i)

include hi in
theorem processNodeXmlRequest_sat (c : Clc) (root node : XmlNode) (hp : QuietPre R i c)
    (hq : R.quiet → QuotableTexts root) (hnode : node.named (cstr "request") = true)
    (hok : node.IsRegister → NodeRegisterOk R env c root i) :
    Sat R.May (fun r => Does R i c r.1) (processNodeXmlRequest env c root node i) := by
  unfold processNodeXmlRequest
  split
  · exact Rules.may_of_ne (by decide)
  · rename_i action haction
    split
    · exact Does.refl c
    · rename_i hcode
      split
      · exact Does.refl c
      · rename_i id hid
        obtain ⟨harch, htidy⟩ :=
          hok ⟨hnode, ⟨action, haction, Classical.not_not.mp hcode⟩, by rw [hid]; simp⟩
        have hreg := nodeXmlRegister_sat hi env c root hp hq harch htidy
        split
        · exact hreg.of_error (by assumption)
        · rename_i c1 ret hr
          have h1 : Does R i c c1 := hreg.of_ok hr
          split
          · exact h1
          · split
            · exact h1
            · exact Rules.may_of_ne (by decide)
            · dsimp only
              split
              · exact Rules.may_of_ne (by decide)
              · exact h1.trans (.call (lyPacketSend_outside ..) (lyPacketSend_db ..))

theorem nodeInfoUpdate_sat (hloud : ¬ R.quiet) (c : Clc) (root : XmlNode) :
    Sat R.May (Does R i c) (nodeInfoUpdate env c root i) := by
  unfold nodeInfoUpdate
  split
  · exact Does.refl c
  · split
    · exact Does.refl c
    · exact Rules.may_of_ne (by decide)
    · rename_i nd he
      have htag := readFields_hostTag root nodeInfoFields_hostTag nd.node
      have hsame := readFields_same_arch root nodeInfoFields_arch nd.node
      generalize readFields root nodeInfoFields nd.node = r at htag hsame
      have h1 : Does R i c (c.setNode i { nd with node := r.1 }) :=
        setNode_does _ he (.inl htag) fun _ => hsame
      dsimp only
      split
      · exact h1.trans (.outside (dbNodeUpdate_outside ..) hloud)
      · exact h1

theorem nodeResponseData_sat (hloud : ¬ R.quiet) (c : Clc) (root : XmlNode) (dataType : Int) :
    Sat R.May (fun r => Does R i c r.1) (nodeResponseData env c root i dataType) := by
  unfold nodeResponseData
  split
  · exact Does.outside (instanceInfoUpdate_outside ..) hloud
  · split
    · have h := nodeInfoUpdate_sat (i := i) env hloud c root
      split
      · exact h.of_error (by assumption)
      · exact h.of_ok (by assumption)
    · exact Does.refl c

theorem nodeResponseJob_sat (hloud : ¬ R.quiet) (c : Clc) (id status : Int) :
    Sat R.May (fun r => Does R i c r.1) (nodeResponseJob env c id status) := by
  unfold nodeResponseJob
  split
  · exact Does.refl c
  · split
    · exact Does.refl c
    · rename_i job _
      have h := jobUpdateStatus_sat (i := i) hloud env c id status
      split
      · exact h.of_error (by assumption)
      · rename_i r hr
        have h1 : Does R i c r.1 := h.of_ok hr
        split
        · exact h1
        · have h2 : Does R i c (r.1.readAgain id) := by
            unfold Clc.readAgain
            split
            · exact h1
            · exact h1.trans (.call ⟨rfl, rfl, rfl, rfl⟩ rfl)
          dsimp only
          split
          · exact h2.trans (releaseOsm_does hloud _ job.jTargetId)
          · exact h2

theorem processNodeXmlResponse_sat (hloud : ¬ R.quiet) (c : Clc) (root node : XmlNode) :
    Sat R.May (fun r => Does R i c r.1) (processNodeXmlResponse env c root node i) := by
  unfold processNodeXmlResponse
  split
  · rename_i id status _ _
    have h := nodeResponseJob_sat (i := i) env hloud c (atoi id) (atoi status)
    split
    · exact h.of_error (by assumption)
    · exact h.of_ok (by assumption)
    · rename_i c1 hr
      have h1 : Does R i c c1 := h.of_ok hr
      exact (nodeResponseData_sat env hloud c1 root _).mono fun _ => h1.trans
  · exact Does.refl c

theorem nodeReportLoop_sat (root : XmlNode) (ns : List XmlNode) (status : Int) (c : Clc) :
    Sat R.May (fun r => Does R i c r.1) (nodeReportLoop root i ns status c) := by
  induction ns generalizing status c with
  | nil =>
    unfold nodeReportLoop nodeReportEnd
    split
    · split
      · exact Rules.may_of_ne (by decide)
      · exact Does.refl c
    · exact Does.refl c
  | cons n ns ih =>
    unfold nodeReportLoop
    split
    · split
      · exact ih _ c
      · exact Does.refl c
    · split
      · have h : Sat R.May (Does R i c) (nodeResourceUpdate c root i) := by
          unfold nodeResourceUpdate
          split
          · exact Does.refl c
          · exact Rules.may_of_ne (by decide)
          · exact setNode_does _ (by assumption)
              (.inl (readFields_hostTag root resourceFields_hostTag _))
              fun _ => readFields_same_arch root resourceFields_arch _
        split
        · exact h.of_error (by assumption)
        · exact (ih _ _).mono fun _ => (h.of_ok (by assumption)).trans
      · exact ih _ c

/-- The document has no response in it and its texts are free of quotes. -/
structure QuietXml (root : XmlNode) : Prop where
  noResponse : ∀ n ∈ root.children, n.named (cstr "response") = false
  texts : QuotableTexts root

include hi in
theorem nodeXmlElement_sat (c : Clc) (root n : XmlNode) (ret : Int) (hp : QuietPre R i c)
    (hq : R.quiet → n.named (cstr "response") = false ∧ QuotableTexts root)
    (hok : n.IsRegister → NodeRegisterOk R env c root i) :
    Sat R.May (fun r => Does R i c r.1) (nodeXmlElement env root i c n ret) := by
  unfold nodeXmlElement
  split
  · rename_i hresp
    refine processNodeXmlResponse_sat env (fun hc => ?_) c root n
    rw [(hq hc).1] at hresp
    cases hresp
  · split
    · exact processNodeXmlRequest_sat hi env c root n hp (fun hc => (hq hc).2) (by assumption) hok
    · split
      · exact nodeReportLoop_sat root n.children (-1) c
      · exact Does.refl c

/-- The register requests of a document, each in the state in which `eh_process_node_xml` comes to
it. -/
def NodeRegistersOk (R : Rules) (env : Env) (root : XmlNode) (i : Nat) :
    List XmlNode → Clc → Int → Prop
  | [], _, _ => True
  | n :: ns, c, ret => (n.IsRegister → NodeRegisterOk R env c root i) ∧
      ∀ c' ret', nodeXmlElement env root i c n ret = .ok (c', ret') → 0 ≤ ret' →
        NodeRegistersOk R env root i ns c' ret'

/-- Where handlers may release nodes, only the architecture in the document is asked for. -/
theorem nodeRegistersOk_of_plain (hm : ¬ R.tidy) (root : XmlNode) {ns : List XmlNode}
    (h : R.arch → ∀ n ∈ ns, n.IsRegister → PlainArch root) (c : Clc) (ret : Int) :
    NodeRegistersOk R env root i ns c ret := by
  induction ns generalizing c ret with
  | nil => trivial
  | cons n ns ih =>
    refine ⟨fun hn => ⟨fun ha => h ha n List.mem_cons_self hn, fun ht => absurd ht hm⟩,
      fun c' ret' _ _ => ?_⟩
    exact ih (fun ha m hmem => h ha m (List.mem_cons_of_mem _ hmem)) c' ret'

include hi in
theorem nodeXmlLoop_sat (root : XmlNode) (ns : List XmlNode) (c : Clc) (ret : Int)
    (hp : QuietPre R i c) (hns : ∀ n ∈ ns, n ∈ root.children) (hq : R.quiet → QuietXml root)
    (hok : NodeRegistersOk R env root i ns c ret) :
    Sat R.May (fun r => Does R i c r.1) (nodeXmlLoop env root i ns c ret) := by
  induction ns generalizing c ret with
  | nil => exact Does.refl c
  | cons n ns ih =>
    obtain ⟨hfirst, hrest⟩ := hok
    have helem := nodeXmlElement_sat hi env c root n ret hp
      (fun hc => ⟨(hq hc).noResponse n (hns n List.mem_cons_self), (hq hc).texts⟩) hfirst
    unfold nodeXmlLoop
    split
    · exact helem.of_error (by assumption)
    · rename_i c1 ret1 hr
      have h1 : Does R i c c1 := helem.of_ok hr
      split
      · exact h1
      · exact (ih c1 ret1 (h1.quietPre hp) (fun m hm => hns m (List.mem_cons_of_mem _ hm))
          (hrest c1 ret1 hr (by omega))).mono fun _ => h1.trans

/-- The payload of the packet ends inside the buffer, or nothing is known about the buffer. -/
def Terminated (R : Rules) (c : Clc) (i : Nat) : Prop :=
  R.wild ∨ ∀ m, c.mem i = .ok m → ∃ k, sizeofLYPacketHeader + k < luoyunPacketSizeMax ∧
    m (sizeofLYPacketHeader + k) = 0

theorem mem_sat (c : Clc) :
    Sat R.May (fun m => (c.store.ents i).pkt.bind LYPacketRecv.pktBuf = some m)
    (c.mem i) := by
  unfold Clc.mem
  split
  · exact Rules.may_of_ne (by decide)
  · assumption

theorem loadStr_sat {c : Clc} (ht : Terminated R c i) {m : Mem}
    (hm : (c.store.ents i).pkt.bind LYPacketRecv.pktBuf = some m) :
    Sat R.May (fun s => c.mem i = .ok m ∧ m.loadStr sizeofLYPacketHeader = .ok s)
      (m.loadStr sizeofLYPacketHeader) := by
  have hmem : c.mem i = .ok m := by rw [Clc.mem, hm]
  cases h : m.loadStr sizeofLYPacketHeader with
  | ok s => exact ⟨hmem, rfl⟩
  | error e =>
    rcases ht with hw | ht
    · exact fun _ => hw
    · obtain ⟨k, hk, hz⟩ := ht m hmem
      obtain ⟨j, -, hj⟩ := Mem.loadStr_ok hk hz
      rw [hj] at h
      cases h

/-- The text of the packet that is being handled. -/
def PayloadText (c : Clc) (i : Nat) (s : Bytes) : Prop :=
  ∃ m, c.mem i = .ok m ∧ m.loadStr sizeofLYPacketHeader = .ok s

include hi in
theorem ehProcessNodeXml_sat (c : Clc) (ht : Terminated R c i) (hp : QuietPre R i c)
    (hq : R.quiet → ∀ s root, PayloadText c i s → env.readDoc s = some root → QuietXml root)
    (hok : ∀ s root, PayloadText c i s → env.readDoc s = some root →
      NodeRegistersOk R env root i root.children c 0) :
    Sat R.May (fun r => Does R i c r.1) (ehProcessNodeXml env c i) := by
  unfold ehProcessNodeXml
  refine (mem_sat c).bind fun m hm => (loadStr_sat ht hm).bind fun s hs => ?_
  split
  · exact Does.refl c
  · rename_i root hroot
    split
    · exact nodeXmlLoop_sat hi env root root.children c 0 hp (fun _ h => h)
        (fun hc => hq hc s root ⟨m, hs⟩ hroot) (hok s root ⟨m, hs⟩ hroot)
    · exact Does.refl c

/-! ## Authentication -/

theorem load_sat {m : Mem} {off n : Nat} (h : off + n ≤ luoyunPacketSizeMax) :
    Sat R.May (fun b => b = m.slice off n) (m.load off n) := by
  rw [Mem.load_ok h]
  rfl

theorem store_sat {m : Mem} {off : Nat} {bs : Bytes} (h : off + bs.length ≤ luoyunPacketSizeMax) :
    Sat R.May (fun m' => m' = m.write off bs) (m.store off bs) := by
  rw [Mem.store_ok h]
  rfl

theorem authData_fits {n : Nat} (h : n = luoyunAuthDataLen) :
    authDataOff + n ≤ luoyunPacketSizeMax := by
  subst h
  decide

theorem authWrite_write (hw : R.writes) {e : LYEntity} {m : Mem} {data : Bytes}
    (hm : e.pkt.bind LYPacketRecv.pktBuf = some m) (hlen : data.length = luoyunAuthDataLen) :
    AuthWrite R e (m.write authDataOff data) := by
  refine ⟨hw, m, hm, fun k hk => ?_⟩
  rcases hk with hk | hk
  · exact Mem.write_of_lt hk
  · exact Mem.write_of_ge (by omega)

theorem length_lyauthVerify (cipher : Cipher) (ac : AuthConfig) (data : Bytes) :
    (lyauthVerify cipher ac data).2.length = data.length := by
  unfold lyauthVerify
  split
  · rfl
  · split
    · rfl
    · exact length_lyauthAnswer (by assumption)

@[simp] theorem setMem_auth (c : Clc) (i : Nat) (m : Mem) :
    ((c.setMem i m).store.ents i).auth = (c.store.ents i).auth := by
  simp [Clc.setMem, Clc.modifyEnt]

@[simp] theorem setMem_status (c : Clc) (i : Nat) (m : Mem) :
    ((c.setMem i m).store.ents i).status = (c.store.ents i).status := by
  simp [Clc.setMem, Clc.modifyEnt, LYEntity.status]

@[simp] theorem setMem_entity (c : Clc) (i : Nat) (m : Mem) :
    ((c.setMem i m).store.ents i).entity = (c.store.ents i).entity := by
  simp [Clc.setMem, Clc.modifyEnt]

include hi in
/-- Verifying an answer. A quiet connection is one that this does not verify. -/
theorem authVerify_sat (hw : R.writes) (c : Clc)
    (hs : R.strict → (c.store.ents i).auth.secret ≠ none)
    (hq : R.quiet → ∀ r, authVerify env c i = .ok r → (r.1.hist i).verified = false) :
    Sat R.May (fun r => Does R i c r.1) (authVerify env c i) := by
  -- the last step, with the verified data written back
  have hlast : ∀ c1 : Clc, Does R i c c1 → (c1.store.ents i).auth = (c.store.ents i).auth →
      let c2 := c1.note i fun h => { h with verified := true, verifiedTag := h.secretTag }
      ¬ R.quiet → Sat R.May (fun r : Clc × Int => Does R i c r.1)
        (if lyEntityIsAuthenticated c2.store i then .ok (c2, 0)
          else .ok (c2.update i (-1) Flag.authenticated, 0)) := by
    intro c1 h1 hauth c2 hloud
    have hstrict : R.strict → (c1.store.ents i).auth.secret ≠ none := by
      rw [hauth]; exact hs
    have hact := SlotAct.verified (R := R) (c1.store.ents i) (c1.hist i) hstrict hloud
    have hdec : lyEntityIsAuthenticated c2.store i
        = decide (Flag.authenticated ≤ (c1.store.ents i).status) := lyEntityIs_natCast hi _ _
    rw [hdec]
    by_cases hst : Flag.authenticated ≤ (c1.store.ents i).status
    · rw [if_pos (by simpa using hst)]
      rw [if_pos hst] at hact
      refine h1.trans
        (.single (.slot i ⟨rfl, rfl, fun k hk => ?_, id, .inl⟩ ?_ (fun _ => rfl) fun _ _ => rfl))
      · simp [Clc.slot, c2, Clc.note, hk]
      · have : c2.slot i = ⟨c1.store.ents i,
            { c1.hist i with verified := true, verifiedTag := (c1.hist i).secretTag }⟩ := by
          simp [Clc.slot, c2, Clc.note]
        rw [show ((c2, (0 : Int)).1).slot i = c2.slot i from rfl, this]
        exact hact
    · rw [if_neg (by simpa using hst)]
      rw [if_neg hst] at hact
      refine h1.trans ?_
      show Does R i c1 ((c1.update i (-1) Flag.authenticated).note i fun h =>
        { h with verified := true, verifiedTag := h.secretTag })
      exact update_note_does hi _ (by decide) hact (claimTidy_neg (by decide))
  unfold authVerify at hq ⊢
  refine (mem_sat c).bind fun m hm => ?_
  have hmem : c.mem i = .ok m := by rw [Clc.mem, hm]
  have hload : m.load authDataOff luoyunAuthDataLen = .ok (m.slice authDataOff luoyunAuthDataLen) :=
    Mem.load_ok (authData_fits rfl)
  simp only [hmem, hload, bind, Except.bind] at hq ⊢
  generalize hv : lyauthVerify env.cipher (c.store.ents i).auth
    (m.slice authDataOff luoyunAuthDataLen) = v
    at hq ⊢
  have hlen : v.2.length = luoyunAuthDataLen := by
    rw [← hv, length_lyauthVerify, Mem.length_slice]
  have hstore : m.store authDataOff v.2 = .ok (m.write authDataOff v.2) :=
    Mem.store_ok (authData_fits hlen)
  simp only [hstore] at hq ⊢
  have h1 : Does R i c (c.setMem i (m.write authDataOff v.2)) :=
    setMem_does _ (authWrite_write hw hm hlen)
  have hauth1 := setMem_auth c i (m.write authDataOff v.2)
  generalize c.setMem i (m.write authDataOff v.2) = c1 at hq h1 hauth1 ⊢
  split
  · exact h1
  · split
    · exact h1
    · rename_i h2 h3
      refine hlast c1 h1 hauth1 fun hc => ?_
      -- the connection has been verified
      rw [if_neg h2, if_neg h3] at hq
      have hver := hq hc
      split at hver
      · have := hver _ rfl
        simp [Clc.note] at this
      · have := hver _ rfl
        simp [Clc.note, Clc.update, Clc.withStore] at this

include hi in
theorem authAnswer_sat (hw : R.writes) (c : Clc) (replyType requestType tag : Int)
    (he : (c.store.ents i).entity ≠ .null) (hclaim : ClaimTidy R c i tag) :
    Sat R.May (fun r => Does R i c r.1) (authAnswer env c i replyType requestType tag) := by
  unfold authAnswer
  refine (mem_sat c).bind fun m hm => (load_sat (authData_fits rfl)).bind fun data hdata => ?_
  split
  · exact Does.refl c
  · rename_i answer hans
    have hlen : answer.length = luoyunAuthDataLen := by
      rw [length_lyauthAnswer hans, hdata, Mem.length_slice]
    refine (store_sat (authData_fits hlen)).bind fun m1 hm1 => ?_
    have h1 : Does R i c (c.setMem i m1) := by
      rw [hm1]
      exact setMem_does _ (authWrite_write hw hm hlen)
    have hbuf : (c.setMem i m1).store.ents i = { c.store.ents i with
        pkt := (c.store.ents i).pkt.map fun p => { p with pktBuf := some m1 } } := by
      simp [Clc.setMem, Clc.modifyEnt]
    have he1 : ((c.setMem i m1).store.ents i).entity ≠ .null := by rw [setMem_entity]; exact he
    have hclaim1 := hclaim.setMem m1
    have hbuf1 : ((c.setMem i m1).store.ents i).pkt.bind LYPacketRecv.pktBuf = some m1 := by
      rw [hbuf]
      cases hpkt : (c.store.ents i).pkt with
      | none => rw [hpkt] at hm; cases hm
      | some p => rfl
    generalize c.setMem i m1 = c1 at h1 hbuf1 he1 hclaim1
    refine (load_sat (by decide)).bind fun ai _ => ?_
    have hsend := lyPacketSend_outside env c1 (c1.store.ents i).fd replyType ai
    have h2 := h1.trans (.call hsend (lyPacketSend_db env c1 (c1.store.ents i).fd replyType ai))
    generalize lyPacketSend env c1 (c1.store.ents i).fd replyType ai = r at hsend h2
    have her : (r.1.store.ents i).entity ≠ .null := by rw [hsend.store]; exact he1
    have hclaim2 : ClaimTidy R r.1.called i tag := hclaim1.of_store hsend.store
    dsimp only
    split
    · exact h2
    · have h3 : Does R i c (r.1.called.modifyEnt i fun e =>
          { e with auth := { e.auth with challenge := some (env.uuid r.1.io.tick) } }) :=
        h2.trans (.trans (.call (.called r.1) rfl)
          (does_modify (c := r.1.called) rfl rfl (.challenge _ _ _ her)))
      have hbuf3 : ((r.1.called.modifyEnt i fun e =>
          { e with auth := { e.auth with challenge := some (env.uuid r.1.io.tick) } }).store.ents
            i).pkt.bind LYPacketRecv.pktBuf = some m1 := by
        have : ((r.1.called.modifyEnt i fun e =>
            { e with auth := { e.auth with challenge := some (env.uuid r.1.io.tick) } }).store.ents
              i).pkt = (c1.store.ents i).pkt := by
          rw [← hsend.store]
          simp [Clc.modifyEnt]
        rw [this]
        exact hbuf1
      have he3 : ((r.1.called.modifyEnt i fun e =>
          { e with auth := { e.auth with challenge := some (env.uuid r.1.io.tick) } }).store.ents
            i).entity ≠ .null := by
        simpa [Clc.modifyEnt] using her
      have hclaim3 : ClaimTidy R (r.1.called.modifyEnt i fun e =>
          { e with auth := { e.auth with challenge := some (env.uuid r.1.io.tick) } }) i tag :=
        hclaim2.modify (f := fun e =>
          { e with auth := { e.auth with challenge := some (env.uuid r.1.io.tick) } }) rfl rfl
      generalize (r.1.called.modifyEnt i fun e =>
          { e with auth := { e.auth with challenge := some (env.uuid r.1.io.tick) } }) = c3
        at h3 hbuf3 he3 hclaim3 ⊢
      refine (store_sat (authData_fits (by simp))).bind fun m2 hm2 => ?_
      have h4 : Does R i c (c3.setMem i m2) := by
        rw [hm2]
        exact h3.trans (setMem_does _ (authWrite_write hw hbuf3 (by simp)))
      refine (load_sat (by decide)).bind fun ai2 _ => ?_
      have hsend2 := lyPacketSend_outside env (c3.setMem i m2) (c1.store.ents i).fd requestType ai2
      have h5 := h4.trans (.call hsend2
        (lyPacketSend_db env (c3.setMem i m2) (c1.store.ents i).fd requestType ai2))
      split
      · exact h5
      · refine h5.trans (update_does hi (by decide) (.online _ _ tag ?_) ?_)
        · rw [hsend2.store, setMem_entity]
          exact he3
        · exact (hclaim3.setMem m2).of_store hsend2.store

theorem authTag_sat (c : Clc) : Sat R.May (fun _ => True) (authTag c i) := by
  unfold authTag
  exact (mem_sat c).bind fun m _ => (load_sat (by decide)).bind fun b _ => trivial

theorem nodeAuthSecret_entity (c : Clc) (nd : LYNodeData) (tag : Int)
    (he : (c.store.ents i).entity = .node nd) {nd' : LYNodeData}
    (h : (nodeAuthSecret env c i nd tag).2 = some nd') :
    ((nodeAuthSecret env c i nd tag).1.store.ents i).entity = .node nd' := by
  unfold nodeAuthSecret at h ⊢
  split at h
  · rename_i hs
    rw [if_pos hs]
    obtain rfl := Option.some.inj h
    exact he
  · rename_i hs
    rw [if_neg hs]
    generalize dbNodeFindSecret env c tag = q at h
    obtain ⟨c1, ret, secret⟩ := q
    dsimp only at h ⊢
    split at h
    · cases h
    · rename_i hret
      rw [if_neg hret]
      obtain rfl := Option.some.inj h
      exact setNode_entity ..

theorem nodeAuthSecret_spec (c : Clc) (nd : LYNodeData) (tag : Int)
    (he : (c.store.ents i).entity = .node nd) : Does R i c (nodeAuthSecret env c i nd tag).1 := by
  obtain ⟨hcalled, hpos, htag⟩ := dbNodeFindSecret_spec env c tag
  unfold nodeAuthSecret
  split
  · exact .refl c
  · rename_i hs
    have hs' : (c.store.ents i).auth.secret = none := Classical.not_not.mp hs
    generalize dbNodeFindSecret env c tag = q at hcalled hpos htag
    obtain ⟨c1, ret, secret⟩ := q
    dsimp only at hcalled hpos htag ⊢
    subst hcalled
    have h1 : Does R i c c.called := .call (.called c) rfl
    cases secret with
    | none =>
      split
      · exact h1
      · exact h1.trans (setNode_does (c := c.called) _ he (.inr (.inr hs')))
    | some s =>
      have hret := hpos (by simp)
      rw [if_neg (by omega)]
      exact h1.trans (keepSecret_setNode_does (c := c.called) _ he hs' (htag hret) rfl)

/-- Reading the secret changes the connection's own entity only. -/
theorem nodeAuthSecret_claim {c : Clc} {d : Int} (h : ClaimTidy R c i d)
    (nd : LYNodeData) (tag : Int) :
    ClaimTidy R (nodeAuthSecret env c i nd tag).1 i d := by
  obtain ⟨hcalled, -, -⟩ := dbNodeFindSecret_spec env c tag
  unfold nodeAuthSecret
  split
  · exact h
  · generalize dbNodeFindSecret env c tag = q at hcalled
    obtain ⟨c1, ret, secret⟩ := q
    dsimp only at hcalled ⊢
    subst hcalled
    have hcalled : ClaimTidy R c.called i d := h.of_store rfl
    have hkept : ClaimTidy R (c.called.keepSecret i tag secret) i d := by
      cases secret with
      | none => exact hcalled
      | some s => exact hcalled.modify (f := fun e => e.withSecret s) rfl rfl
    split
    · exact hkept
    · exact hkept.setNode _

/-- An authentication request whose secret is there names no database id that another node on the
list has. -/
def NodeAuthTidy (env : Env) (c : Clc) (i : Nat) : Prop :=
  ∀ tag nd c1 nd1, authTag c i = .ok tag → (c.store.ents i).entity = .node nd →
    nodeAuthSecret env c i nd tag = (c1, some nd1) → Unclaimed c.store i nd1.node.hostTag

include hi in
theorem nodeAuthRequest_sat (hw : R.writes) (c : Clc) (htidy : R.tidy → NodeAuthTidy env c i) :
    Sat R.May (fun r => Does R i c r.1) (nodeAuthRequest env c i) := by
  have htag := authTag_sat (R := R) (i := i) c
  unfold nodeAuthRequest
  split
  · exact htag.of_error (by assumption)
  · rename_i tag htagged
    split
    · exact Does.refl c
    · exact Rules.may_of_ne (by decide)
    · rename_i nd he
      have hsec := nodeAuthSecret_spec (R := R) env c nd tag he
      have hent := fun nd' => @nodeAuthSecret_entity i env c nd tag he nd'
      have hunclaimed := fun ht c1 nd1 => htidy ht tag nd c1 nd1 htagged he
      have hclaim := fun d h => @nodeAuthSecret_claim R i env c d h nd tag
      generalize nodeAuthSecret env c i nd tag = q at hsec hent hunclaimed hclaim
      obtain ⟨c1, found⟩ := q
      cases found with
      | none => exact hsec
      | some nd1 =>
        have hfree : ClaimTidy R c i nd1.node.hostTag := fun ht _ => hunclaimed ht c1 nd1 rfl
        have h2 : Does R i c (dbNodeUpdateStatus env c1 tag NodeStatus.authenticating).1 :=
          hsec.trans (.single (.outside (dbNodeUpdateStatus_outside ..) fun _ =>
            dbExec_quiet (quietDb_authenticating ..)))
        dsimp only
        split
        · exact h2
        · have hout := dbNodeUpdateStatus_outside env c1 tag NodeStatus.authenticating
          refine (authAnswer_sat hi env hw _ _ _ _ ?_ ((hclaim _ hfree).of_store hout.store)).mono
            fun _ => h2.trans
          rw [hout.store, hent nd1 rfl]
          simp

end

end LuoYun

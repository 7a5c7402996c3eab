import LuoYun.Proof.Schedule
import LuoYun.Proof.Throttle
import LuoYun.Proof.JobCheck

/-!
# Where an instance is started

`node_schedule` has two paths. For the node the instance ran on last it asks for the status that the
node has reported and not for its storage; for the best of all nodes it asks for the storage and not
for the status. Neither path knows how large the instance is: `__job_start_instance` adds the size
to what is committed on the node after the request is out.
-/

namespace LuoYun

/-! ## The rules of admission -/

/-- The node has reported that it is busy or in error. -/
def isDistressed (nf : NodeInfo) : Bool :=
  nf.status == NodeStatus.busy || nf.status == NodeStatus.error

/-- The entity is a node that everything speaks for: registered, enabled, with room for another
instance, fewer starts under way than the limit, and neither busy nor in error. -/
def Admitted (env : Env) (s : EntityStore) (ent : Int) : Prop :=
  ∃ i : Nat, ent = i ∧ (∃ nd, (s.ents i).entity = .node nd) ∧ isCandidate env s i = true ∧
    isDistressed (nodeAt s i).node = false

/-- The tests that `node_schedule` makes of the node the instance ran on last. -/
def passesLast (env : Env) (s : EntityStore) (i : Nat) : Bool :=
  isUsable s i && isIdle env (nodeAt s i) && !isDistressed (nodeAt s i).node &&
    !noResource (nodeAt s i).node

/-- The test that each path leaves out makes no difference: the last node is above the low mark if
it passes the other tests, or the best node of all is neither busy nor in error. -/
def MissedTestHolds (env : Env) (s : EntityStore) (nodeId : Int) : Prop :=
  if env.cfg.nodeSelect = nodeSelectLastOnly ∧ 0 < nodeId then
    ∀ i ∈ s.nodeList, lyEntityFindByDb s .node nodeId = i → passesLast env s i = true →
      storageLow env < (nodeAt s i).node.storageFree
  else ∀ i, bestOf env s s.nodeList = some i → isDistressed (nodeAt s i).node = false

variable {env : Env} {s : EntityStore} {nodeId : Int}

/-- `ly_entity_find_by_db` returns -1 or the number of a slot on the list. -/
theorem find_node_cases (h : NodesLinked s) (nodeId : Int) :
    lyEntityFindByDb s .node nodeId = -1 ∨ ∃ i ∈ s.nodeList,
      lyEntityFindByDb s .node nodeId = i := by
  unfold lyEntityFindByDb
  split
  · exact .inl rfl
  · split
    · exact .inl rfl
    · rename_i i hi
      have hmem : i ∈ s.nodeList := List.mem_of_find?_eq_some hi
      exact .inr ⟨i, hmem, h.id i hmem⟩

/-- The path for the node the instance ran on last. -/
theorem nodeScheduleLast_eq (h : NodesLinked s) {i : Nat} (hi : i ∈ s.nodeList)
    (hfind : lyEntityFindByDb s .node nodeId = i) :
    (passesLast env s i = true ∧ nodeScheduleLast env s nodeId = .ok (i : Int)) ∨
      (passesLast env s i = false ∧ ∃ code < 0, nodeScheduleLast env s nodeId = .ok code) := by
  have hslot := slot?_natCast (h.range i hi).2
  have hdata : lyEntityData s i = .node (nodeAt s i) := by
    simp only [lyEntityData, hslot, h.entity hi]
  unfold nodeScheduleLast
  rw [hfind]
  dsimp only
  split
  · rename_i hor
    refine .inr ⟨?_, _, by decide, rfl⟩
    have : isUsable s i = false := Bool.and_eq_false_iff.mpr hor
    simp [passesLast, this]
  rename_i hor
  have husable : isUsable s i = true := by simpa [isUsable, not_or] using hor
  rw [hdata]
  dsimp only
  split
  · rename_i hlimit
    exact .inr ⟨by simp [passesLast, isIdle, hlimit], _, by decide, rfl⟩
  rename_i hlimit
  split
  · rename_i hstatus
    refine .inr ⟨?_, _, by decide, rfl⟩
    have : isDistressed (nodeAt s i).node = true := by simpa [isDistressed] using hstatus
    simp [passesLast, this]
  rename_i hstatus
  have hcalm : isDistressed (nodeAt s i).node = false := by
    simpa [isDistressed, not_or] using hstatus
  split
  · rename_i hres
    exact .inr ⟨by simp [passesLast, hres], _, by decide, rfl⟩
  · rename_i hres
    refine .inl ⟨?_, rfl⟩
    have hidle : isIdle env (nodeAt s i) = true := by simpa [isIdle] using hlimit
    simp [passesLast, husable, hidle, hcalm, hres]

/-- A node that passes the tests of that path is admitted if it is above the low mark. -/
theorem admitted_last (h : NodesLinked s) {i : Nat} (hi : i ∈ s.nodeList)
    (hpass : passesLast env s i = true) :
    Admitted env s i ↔ storageLow env < (nodeAt s i).node.storageFree := by
  simp only [passesLast, Bool.and_eq_true, Bool.not_eq_true'] at hpass
  obtain ⟨⟨⟨husable, hidle⟩, hcalm⟩, hres⟩ := hpass
  rw [noResource_eq] at hres
  have hroom : (nodeAt s i).node.cpuCommit < (nodeAt s i).node.cpuVlimit ∧
      (nodeAt s i).node.memCommit < (nodeAt s i).node.memVlimit := by simpa using hres
  constructor
  · rintro ⟨j, hj, -, hcand, -⟩
    obtain rfl : i = j := by omega
    exact (hasRoom_iff.mp (isCandidate_iff.mp hcand).2.1).1
  · intro hlow
    exact ⟨i, rfl, h.data i hi, isCandidate_iff.mpr ⟨husable, hasRoom_iff.mpr ⟨hlow, hroom⟩, hidle⟩,
      hcalm⟩

/-- The best node of all is admitted if it is neither busy nor in error. -/
theorem admitted_best (h : NodesLinked s) {i : Nat} (hbest : bestOf env s s.nodeList = some i) :
    Admitted env s i ↔ isDistressed (nodeAt s i).node = false := by
  obtain ⟨hi, htake⟩ := List.mem_filter.mp (firstMax_mem hbest)
  constructor
  · rintro ⟨j, hj, -, -, hcalm⟩
    obtain rfl : i = j := by omega
    exact hcalm
  · intro hcalm
    exact ⟨i, rfl, h.data i hi, (Bool.and_eq_true_iff.mp htake).1, hcalm⟩

/-- Without a best node the answer is one of the three codes. -/
theorem answer_none (l : List Nat) : answer env s l none < 0 := by
  unfold answer
  dsimp only
  split
  · decide
  · split <;> decide

/-- **The two paths admit the same nodes exactly when the test that each leaves out is met.** -/
theorem nodeSchedule_admits_iff (h : NodesLinked s) :
    (∀ ent, nodeSchedule env s nodeId = .ok ent → 0 ≤ ent → Admitted env s ent) ↔
      MissedTestHolds env s nodeId := by
  unfold MissedTestHolds nodeSchedule
  split
  · -- the node the instance ran on last
    constructor
    · intro hall i hi hfind hpass
      rcases nodeScheduleLast_eq h hi hfind with ⟨-, hok⟩ | ⟨hfail, -⟩
      · exact (admitted_last h hi hpass).mp (hall i hok (Int.natCast_nonneg i))
      · rw [hpass] at hfail
        cases hfail
    · intro hlow ent hok hent
      rcases find_node_cases h nodeId with hnone | ⟨i, hi, hfind⟩
      · -- no such node: the id -1 is not registered
        have hunavail : nodeScheduleLast env s nodeId = .ok nodeScheduleNodeUnavail := by
          rw [nodeScheduleLast, hnone]
          rfl
        rw [hunavail] at hok
        obtain rfl := Except.ok.inj hok
        exact absurd hent (by decide)
      · rcases nodeScheduleLast_eq h hi hfind with ⟨hpass, hlast⟩ | ⟨-, code, hcode, hlast⟩
        · rw [hlast] at hok
          obtain rfl := Except.ok.inj hok
          exact (admitted_last h hi hpass).mpr (hlow i hi hfind hpass)
        · rw [hlast] at hok
          obtain rfl := Except.ok.inj hok
          omega
  · -- the best node of all
    have hany : nodeScheduleAny env s s.nodeList nodeScheduleNodeUnavail 0 =
        .ok (answer env s s.nodeList (bestOf env s s.nodeList)) :=
      nodeScheduleAny_scanned h (l := []) rfl
    rw [hany]
    constructor
    · intro hall i hbest
      rw [hbest] at hall
      exact (admitted_best h hbest).mp (hall i rfl (Int.natCast_nonneg i))
    · intro hcalm ent hok hent
      obtain rfl := Except.ok.inj hok
      cases hbest : bestOf env s s.nodeList with
      | none =>
        rw [hbest] at hent
        have := @answer_none env s s.nodeList
        omega
      | some i => exact (admitted_best h hbest).mpr (hcalm i hbest)

/-- A node that has reported that it is busy. -/
def LYNodeData.reportedBusy : LYNodeData :=
  { LYNodeData.roomy 0 2048 with
    node := { (LYNodeData.roomy 0 2048).node with status := NodeStatus.busy } }

/-- With `node_select` ANY an instance is sent to a node that has reported that it is busy. -/
theorem nodeSchedule_admits_busy : ¬ ∀ (env : Env) (s : EntityStore) (nodeId ent : Int),
    NodesLinked s →
    nodeSchedule env s nodeId = .ok ent → 0 ≤ ent → Admitted env s ent := by
  intro hall
  have hlinked : NodesLinked (.ofNodes [(1, 5, .reportedBusy)]) :=
    EntityStore.ofNodes_linked (by decide) (by decide)
  obtain ⟨i, hi, -, -, hcalm⟩ :=
    hall Env.plain (.ofNodes [(1, 5, .reportedBusy)]) 0 1 hlinked (by decide) (by decide)
  obtain rfl : i = 1 := by omega
  exact absurd hcalm (by decide)

/-- A node that is ready is admitted on both paths. -/
theorem nodeSchedule_admits_ready :
    let s := EntityStore.ofNodes [(1, 5, .roomy 0 2048)]
    MissedTestHolds Env.plain s 0 ∧ nodeSchedule Env.plain s 0 = .ok 1 ∧
      Admitted Env.plain s 1 := by
  intro s
  have hlinked : NodesLinked s := EntityStore.ofNodes_linked (by decide) (by decide)
  have hsched : nodeSchedule Env.plain s 0 = .ok 1 := by decide
  have hcalm : MissedTestHolds Env.plain s 0 := by
    rw [MissedTestHolds, if_neg (by decide)]
    intro i hi
    have hbest : bestOf Env.plain s s.nodeList = some 1 := by decide
    obtain rfl : 1 = i := Option.some.inj (hbest.symm.trans hi)
    decide
  exact ⟨hcalm, hsched, (nodeSchedule_admits_iff hlinked).mpr hcalm 1 hsched (by decide)⟩

/-! ## What is held back for the instance -/

/-- The size of the instance was added to what is committed on the node: nothing wrapped around, and
the limits are kept. -/
structure HeldWithin (ci : NodeCtrlInstance) (nf nf' : NodeInfo) : Prop where
  cpu : nf'.cpuCommit = nf.cpuCommit + ci.insVcpu
  mem : nf'.memCommit = nf.memCommit + ci.insMem
  cpuLimit : nf'.cpuCommit ≤ nf'.cpuVlimit
  memLimit : nf'.memCommit ≤ nf'.memVlimit

/-- What the node has left is as large as the instance. -/
def FitsOn (ci : NodeCtrlInstance) (nf : NodeInfo) : Prop :=
  ci.insVcpu ≤ nf.cpuVlimit - nf.cpuCommit ∧ ci.insMem ≤ nf.memVlimit - nf.memCommit ∧
    -nf.cpuCommit ≤ ci.insVcpu ∧ -nf.memCommit ≤ ci.insMem

instance (ci : NodeCtrlInstance) (nf : NodeInfo) : Decidable (FitsOn ci nf) := by
  unfold FitsOn
  infer_instance

theorem toUInt32_eq_iff {x : Int} : (toUInt32 x : Int) = x ↔ 0 ≤ x ∧ x < 2 ^ 32 := by
  unfold toUInt32
  omega

theorem holdResource_within {ci : NodeCtrlInstance} {nd : LYNodeData}
    (hcpu : nd.node.cpuVlimit < 2 ^ 32) (hmem : nd.node.memVlimit < 2 ^ 32) :
    HeldWithin ci nd.node (holdResource nd ci).node ↔ FitsOn ci nd.node := by
  constructor
  · rintro ⟨h1, h2, h3, h4⟩
    obtain ⟨h1', -⟩ := toUInt32_eq_iff.mp h1
    obtain ⟨h2', -⟩ := toUInt32_eq_iff.mp h2
    rw [h1] at h3
    rw [h2] at h4
    change nd.node.cpuCommit + ci.insVcpu ≤ nd.node.cpuVlimit at h3
    change nd.node.memCommit + ci.insMem ≤ nd.node.memVlimit at h4
    refine ⟨?_, ?_, ?_, ?_⟩ <;> omega
  · rintro ⟨h1, h2, h3, h4⟩
    have hc : (toUInt32 (nd.node.cpuCommit + ci.insVcpu) : Int) = nd.node.cpuCommit + ci.insVcpu :=
      toUInt32_eq_iff.mpr ⟨by omega, by omega⟩
    have hm : (toUInt32 (nd.node.memCommit + ci.insMem) : Int) = nd.node.memCommit + ci.insMem :=
      toUInt32_eq_iff.mpr ⟨by omega, by omega⟩
    refine ⟨hc, hm, ?_, ?_⟩
    · change (toUInt32 (nd.node.cpuCommit + ci.insVcpu) : Int) ≤ nd.node.cpuVlimit
      omega
    · change (toUInt32 (nd.node.memCommit + ci.insMem) : Int) ≤ nd.node.memVlimit
      omega

/-- A job is put into status RUNNING: no entity changes. -/
theorem jobUpdateStatus_running {env : Env} {c : Clc} {id : Int} {r : Clc × Int}
    (h : jobUpdateStatus env c id LyS.running = .ok r) : r.1.store = c.store := by
  rw [jobUpdateStatus, if_neg (by decide)] at h
  dsimp only at h
  split at h
  · cases h
  · rename_i job hjob
    have hstore := (dbJobUpdateStatus_outside env (jobStamp env c id LyS.running) job).store
    split at h
    · obtain rfl := Except.ok.inj h
      exact hstore
    · rw [if_neg (by decide), if_neg (by decide)] at h
      obtain rfl := Except.ok.inj h
      exact hstore

/-- What an attempt to start has read when it gets to a node: the store is as it was. -/
theorem startAim_store {env : Env} {c c2 : Clc} {job : LYJobInfo} {ci : NodeCtrlInstance} {i : Nat}
    (h : startAim env c job = some (c2, ci, i)) : c2.store = c.store := by
  unfold startAim at h
  split at h
  · cases h
  rename_i r hr
  split at h
  · cases h
  have hget := dbNodeInstanceControlGet_outside env
    (setJob r.1 job.jId fun j => { j with jPendingNr := 0 })
    { reqId := job.jId, insId := job.jTargetId }
  split at h
  · cases h
  rename_i c3 ci3 nodeId heq
  rw [heq] at hget
  split at h
  · cases h
  rename_i ent hent
  obtain ⟨j, hj, hval⟩ := Option.map_eq_some_iff.mp h
  obtain ⟨rfl, -⟩ := Prod.mk.inj hval
  exact hget.store.trans (jobUpdateStatus_running hr)

/-- An attempt to start that gets to a node ends in `jobSendRun`. -/
theorem jobStartInstance_aimed {env : Env} {c c2 : Clc} {job : LYJobInfo}
    {ci : NodeCtrlInstance} {i : Nat}
    (hwait : jobIsWaitingOsm job.jStatus = false) (h : startAim env c job = some (c2, ci, i)) :
    jobStartInstance env c job = jobSendRun env c2 job.jId ci i := by
  unfold startAim at h
  rw [jobStartInstance, if_neg (by rw [hwait]; decide)]
  cases hr : jobUpdateStatus env c job.jId LyS.running with
  | error e =>
    simp only [hr] at h
    cases h
  | ok r =>
    simp only [hr] at h
    by_cases hneg : r.2 < 0
    · rw [if_pos hneg] at h
      cases h
    rw [if_neg hneg] at h
    dsimp only
    rw [if_neg hneg]
    cases heq : dbNodeInstanceControlGet env
      (setJob r.1 job.jId fun j => { j with jPendingNr := 0 })
        { reqId := job.jId, insId := job.jTargetId } with
    | mk c3 found =>
      cases found with
      | none =>
        simp only [heq] at h
        cases h
      | some target =>
        obtain ⟨ci3, nodeId⟩ := target
        simp only [heq] at h
        dsimp only
        cases hent : nodeSchedule env c3.store nodeId with
        | error e =>
          simp only [hent] at h
          cases h
        | ok ent =>
          simp only [hent] at h
          obtain ⟨j, hj, hval⟩ := Option.map_eq_some_iff.mp h
          obtain ⟨rfl, hrest⟩ := Prod.mk.inj hval
          obtain ⟨rfl, rfl⟩ := Prod.mk.inj hrest
          obtain ⟨rfl, -⟩ := slot?_eq_some.mp hj
          have hbusy : ¬ ((j : Int) = nodeScheduleNodeBusy) := by unfold nodeScheduleNodeBusy; omega
          have hstroke : ¬ ((j : Int) = nodeScheduleNodeStroke) := by
            unfold nodeScheduleNodeStroke; omega
          dsimp only
          rw [if_neg hbusy, if_neg hstroke, hj]

/-- A request that gets out ends the attempt. -/
theorem jobSendRun_of_goesOut {env : Env} {c : Clc} {id : Int} {ci : NodeCtrlInstance} {i : Nat}
    (h : goesOut env c id ci i = true) : ∃ c', jobSendRun env c id ci i = .ok c' := by
  have hall : requestSend env c id ci i = some .all := eq_of_beq h
  unfold requestSend at hall
  unfold jobSendRun
  dsimp only at hall ⊢
  split at hall
  · rename_i nd hnd
    rw [hnd]
    dsimp only
    rcases hr : renewSecret env (setJobEnt c id i) ci with ⟨c1, _ | ci1⟩
    · rw [hr] at hall
      cases hall
    · rw [hr] at hall
      dsimp only at hall ⊢
      split at hall
      · cases hall
      · rename_i hneg
        rw [if_neg hneg]
        cases hx : lyxmlDataInstanceRun ci1 with
        | none =>
          rw [hx] at hall
          cases hall
        | some xml =>
          rw [hx] at hall
          dsimp only at hall ⊢
          split at hall
          · cases hall
          · rename_i bs hframe
            have hsent := Option.some.inj hall
            rw [lyPacketSend, hframe]
            dsimp only
            rw [hsent, if_neg (by decide)]
            exact ⟨_, rfl⟩
  · cases hall

/-- What is held back on the node when the request is out. -/
theorem start_holds {env : Env} {c c' c2 : Clc} {job : LYJobInfo} {ci : NodeCtrlInstance} {i : Nat}
    (hwait : jobIsWaitingOsm job.jStatus = false) (h : jobStartInstance env c job = .ok c')
    (haim : startAim env c job = some (c2, ci, i)) (hout : goesOut env c2 job.jId ci i = true) :
    nodeAt c'.store i = holdResource (nodeAt c.store i) ci := by
  have hstore := startAim_store haim
  rw [jobStartInstance_aimed hwait haim] at h
  rcases jobSendRun_cases h with ⟨c3, nd, ci', res, -, hnd, ⟨hv, hm⟩, -, -, rfl⟩ | ⟨hno, -⟩
  · have hbefore : nodeAt c.store i = nd := by
      rw [← hstore, nodeAt, hnd]
    have hsize : holdResource nd ci' = holdResource nd ci := by
      unfold holdResource
      rw [hv, hm]
    rw [hbefore, ← hsize]
    simp only [nodeAt, setJob, Clc.modifyEnt, EntityStore.modify_ents_self]
  · cases hno .all (eq_of_beq hout)

/-- **A start keeps the limits of the node exactly when the instance fits what the node has left.**
-/
theorem start_held_within_iff {env : Env} {c c' c2 : Clc} {job : LYJobInfo}
    {ci : NodeCtrlInstance} {i : Nat}
    (hwait : jobIsWaitingOsm job.jStatus = false) (h : jobStartInstance env c job = .ok c')
    (haim : startAim env c job = some (c2, ci, i)) (hout : goesOut env c2 job.jId ci i = true)
    (hcpu : (nodeAt c.store i).node.cpuVlimit < 2 ^ 32)
    (hmem : (nodeAt c.store i).node.memVlimit < 2 ^ 32) :
    HeldWithin ci (nodeAt c.store i).node (nodeAt c'.store i).node ↔
      FitsOn ci (nodeAt c.store i).node := by
  rw [start_holds hwait h haim hout]
  exact holdResource_within hcpu hmem

/-! ## Which instances are safe to start -/

/-- The limits and the commitments of a node, as values of C type `unsigned int`. -/
structure NodeInfo.Unsigned (nf : NodeInfo) : Prop where
  cpuCommit : 0 ≤ nf.cpuCommit
  memCommit : 0 ≤ nf.memCommit
  cpuVlimit : nf.cpuVlimit < 2 ^ 32
  memVlimit : nf.memVlimit < 2 ^ 32

/-- The request to start the instance of the job, of which `row` is the row, goes out to the node in
slot `i`. -/
structure SendsStart (env : Env) (c c' : Clc) (job : LYJobInfo) (row : InstanceRow)
    (ci : NodeCtrlInstance) (i : Nat) : Prop where
  linked : NodesLinked c.store
  unsigned : (nodeAt c.store i).node.Unsigned
  row : c.db.instancesById job.jTargetId = [row]
  active : jobIsWaitingOsm job.jStatus = false
  start : jobStartInstance env c job = .ok c'
  out : ∃ c2, startAim env c job = some (c2, ci, i) ∧ goesOut env c2 job.jId ci i = true

/-- Instances with these many processors and this memory (in MB) are safe: wherever one of them is
started, the limits of the node are kept. -/
def StartsHeld (cpus memory : Int) : Prop :=
  ∀ (env : Env) (c c' : Clc) (job : LYJobInfo) (row : InstanceRow) (ci : NodeCtrlInstance)
      (i : Nat),
    row.cpus = cpus → row.memory = memory → SendsStart env c c' job row ci i →
    HeldWithin ci (nodeAt c.store i).node (nodeAt c'.store i).node

/-- A node that is chosen has something left of everything. -/
theorem nodeSchedule_hasRoom (h : NodesLinked s) {i : Nat}
    (hs : nodeSchedule env s nodeId = .ok (i : Int)) :
    (nodeAt s i).node.cpuCommit < (nodeAt s i).node.cpuVlimit ∧
      (nodeAt s i).node.memCommit < (nodeAt s i).node.memVlimit := by
  unfold nodeSchedule at hs
  split at hs
  · rcases find_node_cases h nodeId with hnone | ⟨k, hk, hfind⟩
    · have hunavail : nodeScheduleLast env s nodeId = .ok nodeScheduleNodeUnavail := by
        rw [nodeScheduleLast, hnone]
        rfl
      have := Except.ok.inj (hunavail.symm.trans hs)
      unfold nodeScheduleNodeUnavail at this
      omega
    · rcases nodeScheduleLast_eq h hk hfind with ⟨hpass, hlast⟩ | ⟨-, code, hcode, hlast⟩
      · obtain rfl : k = i := by exact_mod_cast Except.ok.inj (hlast.symm.trans hs)
        have hres := (Bool.and_eq_true_iff.mp hpass).2
        rw [noResource_eq] at hres
        simpa using hres
      · have := Except.ok.inj (hlast.symm.trans hs)
        omega
  · have hany : nodeScheduleAny env s s.nodeList nodeScheduleNodeUnavail 0 =
        .ok (answer env s s.nodeList (bestOf env s s.nodeList)) :=
      nodeScheduleAny_scanned h (l := []) rfl
    have hans : answer env s s.nodeList (bestOf env s s.nodeList) = i :=
      Except.ok.inj (hany.symm.trans hs)
    cases hbest : bestOf env s s.nodeList with
    | none =>
      rw [hbest] at hans
      have := @answer_none env s s.nodeList
      omega
    | some k =>
      rw [hbest] at hans
      obtain rfl : k = i := Int.natCast_inj.mp hans
      have htake := (List.mem_filter.mp (firstMax_mem hbest)).2
      exact (hasRoom_iff.mp (isCandidate_iff.mp (Bool.and_eq_true_iff.mp htake).1).2.1).2

/-- The size in the request is the one in the row, with the memory in kB and cut off at 128 GB; the
node is one that was chosen. -/
theorem startAim_read {c c2 : Clc} {job : LYJobInfo} {row : InstanceRow}
    {ci : NodeCtrlInstance} {i : Nat}
    (hrow : c.db.instancesById job.jTargetId = [row]) (h : startAim env c job = some (c2, ci, i)) :
    (∃ nodeId, nodeSchedule env c.store nodeId = .ok (i : Int)) ∧ ci.insVcpu = row.cpus ∧
      ci.insMem = toInt32 ((if 131072 < row.memory then 131072 else row.memory) * 1024) := by
  have hstore := startAim_store h
  unfold startAim at h
  split at h
  · cases h
  rename_i r hr
  obtain ⟨-, hdb, -⟩ := jobUpdateStatus_plain (by decide) (by decide) hr
  split at h
  · cases h
  split at h
  · cases h
  rename_i c3 ci3 nodeId hget
  obtain ⟨r', hr', -, hcpu, hmem⟩ := controlGet_read hget
  split at h
  · cases h
  rename_i ent hent
  obtain ⟨j, hj, hval⟩ := Option.map_eq_some_iff.mp h
  obtain ⟨rfl, hrest⟩ := Prod.mk.inj hval
  obtain ⟨rfl, rfl⟩ := Prod.mk.inj hrest
  obtain ⟨rfl, -⟩ := slot?_eq_some.mp hj
  change r' ∈ r.1.db.instances.filter (·.id == job.jTargetId) at hr'
  rw [hdb] at hr'
  change r' ∈ c.db.instancesById job.jTargetId at hr'
  rw [hrow] at hr'
  obtain rfl := List.mem_singleton.mp hr'
  exact ⟨⟨nodeId, hstore ▸ hent⟩, hcpu, hmem⟩

/-- An attempt that reads the instance and finds a node gets to it. -/
theorem startAim_of {c c2 : Clc} (job : LYJobInfo) {r : Clc × Int} {ci : NodeCtrlInstance} {i : Nat}
    (hr : jobUpdateStatus env c job.jId LyS.running = .ok r) (hret : 0 ≤ r.2)
    (hget : dbNodeInstanceControlGet env (setJob r.1 job.jId fun j => { j with jPendingNr := 0 })
      { reqId := job.jId, insId := job.jTargetId } = (c2, some (ci, nodeId)))
    (hsched : nodeSchedule env c2.store nodeId = .ok (i : Int)) (hi : i < lyEntityMax) :
    startAim env c job = some (c2, { ci with reqAction := job.jAction }, i) := by
  rw [startAim, hr]
  dsimp only
  rw [if_neg (by omega), hget]
  dsimp only
  rw [hsched]
  dsimp only
  rw [slot?_natCast hi, Option.map_some]

/-- The request goes out if the secret and the node are stored and it fits its buffer. -/
theorem goesOut_of {c c1 c2 : Clc} {id : Int} {ci ci1 : NodeCtrlInstance} {i : Nat}
    {nd : LYNodeData} {xml : Bytes}
    (hnd : (c.store.ents i).entity = .node nd)
    (hrenew : renewSecret env (setJobEnt c id i) ci = (c1, some ci1))
    (hstatus : dbInstanceUpdateStatus env c1 ci1.insId none (lyEntityDbId c1.store i) = (c2, 0))
    (hxml : lyxmlDataInstanceRun ci1 = some xml) (hlen : xml.length < luoyunXmlDataMax)
    (hfd : 0 ≤ lyEntityFd c2.store i) (hsend : ∀ n, env.sendmsg n = .all) :
    goesOut env c id ci i = true := by
  have hent : ((setJobEnt c id i).store.ents i).entity = .node nd := hnd
  rw [goesOut, requestSend]
  dsimp only
  rw [hent]
  dsimp only
  rw [hrenew]
  dsimp only
  rw [hstatus]
  dsimp only
  rw [if_neg (lt_irrefl 0), hxml]
  dsimp only
  rw [lyPacketFrame, if_neg, if_neg]
  · dsimp only
    rw [hsend]
    rfl
  · unfold luoyunXmlDataMax at hlen
    unfold luoyunPacketSizeMax sizeofLYPacketHeader
    omega
  · rintro (hneg | hneg | hnil)
    · omega
    · exact absurd hneg (by decide)
    · exact (xmlFits_some hxml).1 hnil

/-- The row of instance 7, which has this size and has run on node 1. -/
def rowSized (cpus memory : Int) : InstanceRow where
  id := 7
  id_pos := seven_pos
  key := some (cstr "key")
  nodeId := some 1
  status := some DomainS.stop
  cpus := cpus
  memory := memory

/-- A node with this data, and a job to run that instance. -/
def Clc.sized (nd : LYNodeData) (cpus memory : Int) : Clc where
  store := .ofNodes [(1, 1, nd)]
  db := { instances := [rowSized cpus memory] }
  jobs := [.onSeven 1 LyA.nodeRunInstance]

/-- The state in which the job has read the instance. -/
def Clc.sizedRead (nd : LYNodeData) (cpus memory : Int) : Clc :=
  { Clc.sized nd cpus memory with
    jobs :=
      [{ LYJobInfo.onSeven 1 LyA.nodeRunInstance with
          jStatus := LyS.running
          jStarted := 1400000000 }]
    io := { tick := 3 } }

/-- The request for instance 7, but for its size. -/
def requestSeven : NodeCtrlInstance where
  reqId := 1
  reqAction := LyA.nodeRunInstance
  insId := 7
  insStatus := DomainS.stop
  insDomain := some (insDomain Env.stocked 7)
  appName := some (cstr "debian")
  appChecksum := some (cstr "0")
  osmTag := 7
  osmSecret := some (cstr "key")

/-- The request for instance 7 of this size. -/
def requestSized (cpus memory : Int) : NodeCtrlInstance :=
  { requestSeven with
    insVcpu := cpus
    insMem := toInt32 ((if 131072 < memory then 131072 else memory) * 1024) }

theorem sized_aim {nd : LYNodeData} {cpus memory : Int}
    (hsched : nodeSchedule Env.stocked (.ofNodes [(1, 1, nd)]) 1 = .ok ((1 : Nat) : Int)) :
    startAim Env.stocked (.sized nd cpus memory) (.onSeven 1 LyA.nodeRunInstance) =
      some (.sizedRead nd cpus memory, requestSized cpus memory, 1) := by
  have hr : jobUpdateStatus Env.stocked (.sized nd cpus memory) 1 LyS.running =
    .ok ({ Clc.sizedRead nd cpus memory with io := { tick := 2 } }, 0) := rfl
  have hget : dbNodeInstanceControlGet Env.stocked
      (setJob { Clc.sizedRead nd cpus memory with io := { tick := 2 } } 1
      fun j => { j with jPendingNr := 0 }) { reqId := 1, insId := 7 } =
      (.sizedRead nd cpus memory, some ({ requestSized cpus memory with reqAction := 0 }, 1)) := rfl
  have hat : nodeSchedule Env.stocked (Clc.sizedRead nd cpus memory).store 1 =
      .ok ((1 : Nat) : Int) := hsched
  exact startAim_of (.onSeven 1 LyA.nodeRunInstance) hr (le_refl 0) hget hat (by decide)

theorem sized_out {nd : LYNodeData} {cpus memory : Int} (hcpus : IsInt32 cpus) :
    goesOut Env.stocked (.sizedRead nd cpus memory) 1 (requestSized cpus memory) 1 = true := by
  have hbase : (lyxmlDataInstanceRun { requestSeven with insVcpu := 0, insMem := 0 }).any
      (fun xml => decide (xml.length + 20 < luoyunXmlDataMax)) = true := by
    decide +kernel
  obtain ⟨xml0, hxml0, hshort⟩ := (Option.any_eq_true _ _).mp hbase
  have hshort0 := of_decide_eq_true hshort
  obtain ⟨xml, hxml, hlen⟩ := lyxmlDataInstanceRun_resize requestSeven hxml0 hcpus
    (toInt32_isInt32 _) hshort0
  have hrenew : renewSecret Env.stocked (setJobEnt (.sizedRead nd cpus memory) 1 1)
      (requestSized cpus memory) =
    (setJobEnt (.sizedRead nd cpus memory) 1 1, some (requestSized cpus memory)) := rfl
  obtain ⟨c3, hstatus, hfd⟩ : ∃ c3,
      dbInstanceUpdateStatus Env.stocked (setJobEnt (.sizedRead nd cpus memory) 1 1)
      (requestSized cpus memory).insId none
        (lyEntityDbId (setJobEnt (.sizedRead nd cpus memory) 1 1).store (1 : Nat)) = (c3, 0) ∧
      lyEntityFd c3.store (1 : Nat) = 11 := ⟨_, rfl, rfl⟩
  have hnd : ((Clc.sizedRead nd cpus memory).store.ents 1).entity = .node nd := rfl
  exact goesOut_of hnd hrenew hstatus hxml (by omega) (by rw [hfd]; decide) fun _ => rfl

/-- An instance of any size is started on a node that is chosen. -/
theorem sized_starts {nd : LYNodeData} {cpus memory : Int} (hcpus : IsInt32 cpus)
    (hnd : nd.node.Unsigned)
    (hsched : nodeSchedule Env.stocked (.ofNodes [(1, 1, nd)]) 1 = .ok ((1 : Nat) : Int)) :
    ∃ c', SendsStart Env.stocked (.sized nd cpus memory) c' (.onSeven 1 LyA.nodeRunInstance)
      (rowSized cpus memory) (requestSized cpus memory) 1 := by
  have haim := @sized_aim nd cpus memory hsched
  have hout := @sized_out nd cpus memory hcpus
  obtain ⟨c', hc'⟩ := jobSendRun_of_goesOut hout
  have hlinked : NodesLinked (.ofNodes [(1, 1, nd)]) :=
    EntityStore.ofNodes_linked (by simp) (by simp [lyEntityMax])
  exact ⟨c', hlinked, hnd, rfl, rfl, (jobStartInstance_aimed (by decide) haim).trans hc',
    _, haim, hout⟩

/-- A node with one processor and 1 kB, of which nothing is in use. -/
def LYNodeData.tight : LYNodeData :=
  { node := { status := NodeStatus.ready, storageFree := 100, cpuVlimit := 1, memVlimit := 1 } }

theorem tight_unsigned : LYNodeData.tight.node.Unsigned :=
  ⟨by decide, by decide, by decide, by decide⟩

/-- **An instance is safe to start exactly when it asks for no memory and for at most one
processor**: any node that has something left is chosen, and what is left may be one processor and 1
kB. -/
theorem starts_held_iff {cpus memory : Int} (hcpus : IsInt32 cpus) :
    StartsHeld cpus memory ↔ (cpus = 0 ∨ cpus = 1) ∧ memory ≤ 0 ∧ 4194304 ∣ memory := by
  constructor
  · intro hheld
    have hsched : nodeSchedule Env.stocked (.ofNodes [(1, 1, .tight)]) 1 =
        .ok ((1 : Nat) : Int) := by
      decide +kernel
    obtain ⟨c', hstart⟩ := @sized_starts .tight cpus memory hcpus tight_unsigned hsched
    have hwithin := hheld _ _ _ _ _ _ _ rfl rfl hstart
    obtain ⟨c2, haim, hout⟩ := hstart.out
    obtain ⟨hc1, hm1, hc0, hm0⟩ := (start_held_within_iff hstart.active hstart.start haim hout
      hstart.unsigned.cpuVlimit hstart.unsigned.memVlimit).mp hwithin
    change cpus ≤ 1 - 0 at hc1
    change -0 ≤ cpus at hc0
    change toInt32 ((if 131072 < memory then 131072 else memory) * 1024) ≤ 1 - 0 at hm1
    change -0 ≤ toInt32 ((if 131072 < memory then 131072 else memory) * 1024) at hm0
    refine ⟨by omega, ?_⟩
    unfold toInt32 at hm1 hm0
    split at hm1 <;> omega
  · rintro ⟨hc, hneg, hmul⟩ env c c' job row ci i rfl rfl hstart
    obtain ⟨c2, haim, hout⟩ := hstart.out
    obtain ⟨⟨nodeId, hsched⟩, hv, hm⟩ := startAim_read hstart.row haim
    obtain ⟨hroomCpu, hroomMem⟩ := nodeSchedule_hasRoom hstart.linked hsched
    have hkb : ci.insMem = 0 := by
      rw [hm, if_neg (by omega), toInt32]
      omega
    obtain ⟨hcpu0, hmem0, -, -⟩ := hstart.unsigned
    refine (start_held_within_iff hstart.active hstart.start haim hout hstart.unsigned.cpuVlimit
      hstart.unsigned.memVlimit).mpr ⟨?_, ?_, ?_, ?_⟩ <;> omega

/-- An instance with 8 processors is started on a node with 4. -/
theorem start_overcommits : ¬ ∀ (env : Env) (c c' : Clc) (job : LYJobInfo) (row : InstanceRow)
    (ci : NodeCtrlInstance) (i : Nat), SendsStart env c c' job row ci i →
    HeldWithin ci (nodeAt c.store i).node (nodeAt c'.store i).node := by
  intro hall
  obtain ⟨c', hstart⟩ := @sized_starts (.roomy 0 4096) 8 2 (by decide)
    ⟨by decide, by decide, by decide, by decide⟩ (by decide +kernel)
  obtain ⟨c2, haim, hout⟩ := hstart.out
  have hfits :=
    (start_held_within_iff hstart.active hstart.start haim hout (by decide) (by decide)).mp
    (hall _ _ _ _ _ _ _ hstart)
  exact absurd hfits (by decide)

/-- An instance with one processor and no memory is started on a node with one processor. -/
theorem starts_held_one : StartsHeld 1 0 ∧ ∃ c',
    SendsStart Env.stocked (.sized .tight 1 0) c' (.onSeven 1 LyA.nodeRunInstance) (rowSized 1 0)
      (requestSized 1 0) 1 ∧
      HeldWithin (requestSized 1 0) LYNodeData.tight.node (nodeAt c'.store 1).node := by
  have hheld : StartsHeld 1 0 := (starts_held_iff (by decide)).mpr ⟨.inr rfl, le_refl 0, 0, rfl⟩
  obtain ⟨c', hstart⟩ := @sized_starts .tight 1 0 (by decide) tight_unsigned
    (by decide +kernel)
  exact ⟨hheld, c', hstart, hheld _ _ _ _ _ _ _ rfl rfl hstart⟩

end LuoYun

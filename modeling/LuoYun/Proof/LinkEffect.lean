import LuoYun.Clc.Links
import LuoYun.Proof.Traversal

/-!
# What the job functions do to the links

`Act` lists the changes that the functions of `lyjob.c` make to a job and to the entity it points
at, and `Acts` is a sequence of them. The end of a job may also release the OS manager of its
instance; `endReleases` says when, and the functions are described for the statuses that do not.
-/

namespace LuoYun

/-- Any fault. -/
def Any (_ : Fault) : Prop := True

/-! ## Links -/

/-- What the links need of a job. -/
def LYJobInfo.link (j : LYJobInfo) : JobKey × Int × Nat × Int × Bool :=
  (j.key, j.jEntId, j.jConn, j.jPendingNr, j.jStarting)

/-- The count of a node. -/
def LYEntity.busy (e : LYEntity) : Option Int :=
  match e.entity with
  | .node nd => some nd.insJobBusyNr
  | _ => none

/-- What the links need of an entity. -/
def LYEntity.link (e : LYEntity) : Int × EntityType × Option Int := (e.id, e.type, e.busy)

/-- The actions that start an instance. -/
def isStart (action : Int) : Bool :=
  action == LyA.nodeRunInstance || action == LyA.nodeFullrebootInstance

/-- One change; `start` allows those of a job that starts an instance, and `osm` that the OS manager
of an instance is released. -/
inductive Act (start osm : Prop) (c : Clc) : Clc → Prop where
  | outside {c' : Clc} (h : Outside c c') : Act start osm c c'
  | write (id : Int) (f : LYJobInfo → LYJobInfo) (hf : ∀ j, (f j).link = j.link) :
      Act start osm c (setJob c id f)
  | aim (id : Int) (k : Nat) (hk : Live c.store k)
      (hs : ¬ start → ∀ j ∈ c.jobs, j.jId = id → isStart j.jAction = false) :
      Act start osm c (setJobEnt c id k)
  | remove (job : LYJobInfo) (hjob : jobFind c job.jId = some job) :
      Act start osm c (jobRemove c job)
  | entity (k : Nat) (f : LYEntity → LYEntity)
      (hf : (f (c.store.ents k)).link = (c.store.ents k).link) :
      Act start osm c (c.modifyEnt k f)
  | release (ho : osm) (insId : Int) : Act start osm c (releaseOsm c insId)
  | pending (hs : start) (nr : Int) : Act start osm c { c with jobInsPendingNr := nr }
  | hold (hs : start) (id nr : Int) :
      Act start osm c (setJob c id fun j => { j with jPendingNr := nr })
  | send (hs : start) (id : Int) (k : Nat) (nd nd' : LYNodeData) (out : Bool)
      (hnd : (c.store.ents k).entity = .node nd) :
      Act start osm c (setJob (c.modifyEnt k fun e => { e with entity := .node nd' }) id
        fun j => { j with jSent := true, jStarting := j.jStarting || out })

/-- A sequence of changes. -/
def Acts (start osm : Prop) : Clc → Clc → Prop := Relation.ReflTransGen (Act start osm)

/-- An id in the store is the number of its slot. -/
def IdWf (s : EntityStore) : Prop := ∀ k, (s.ents k).id = -1 ∨ (s.ents k).id = k

section

variable {start osm : Prop} {c c' c'' : Clc}

namespace Acts

theorem refl (c : Clc) : Acts start osm c c := Relation.ReflTransGen.refl

theorem trans (h : Acts start osm c c') (h' : Acts start osm c' c'') : Acts start osm c c'' :=
  Relation.ReflTransGen.trans h h'

theorem single (h : Act start osm c c') : Acts start osm c c' := Relation.ReflTransGen.single h

theorem outside (h : Outside c c') : Acts start osm c c' := single (.outside h)

end Acts

theorem jobBusyRemove_hist (c : Clc) (job : LYJobInfo) : (jobBusyRemove c job).hist = c.hist := by
  unfold jobBusyRemove
  split
  · dsimp only
    split <;> rfl
  · rfl

/-- Of the entities, `job_busy_remove` changes the data of one. -/
theorem jobBusyRemove_ents (c : Clc) (job : LYJobInfo) (k : Nat) :
    (jobBusyRemove c job).store.ents k =
      if job.jPendingNr = 0 ∧ slot? job.jEntId = some k then
        { c.store.ents k with entity := busyDec (c.store.ents k).entity }
      else c.store.ents k := by
  unfold jobBusyRemove
  split
  · rename_i hp
    dsimp only
    split
    · rename_i hs
      rw [if_neg (by rw [hs]; exact fun h => nomatch h.2)]
      rfl
    · rename_i i hs
      by_cases hk : k = i
      · subst hk
        rw [if_pos ⟨hp, hs⟩]
        rw [Clc.modifyEnt, EntityStore.modify_ents_self]
        rfl
      · rw [if_neg (by rw [hs]; exact fun h => hk (Option.some.inj h.2).symm)]
        rw [Clc.modifyEnt, EntityStore.modify_ents_ne _ _ hk]
        rfl
  · rename_i hp
    rw [if_neg fun h => hp h.1]

theorem jobRemove_store (c : Clc) (job : LYJobInfo) :
    (jobRemove c job).store = (jobBusyRemove c job).store :=
  rfl

theorem jobBusyRemove_id (c : Clc) (job : LYJobInfo) (k : Nat) :
    ((jobBusyRemove c job).store.ents k).id = (c.store.ents k).id ∧
      ((jobBusyRemove c job).store.ents k).type = (c.store.ents k).type := by
  rw [jobBusyRemove_ents]
  split <;> exact ⟨rfl, rfl⟩

/-- Ids, types and serial numbers stay. -/
structure SameSlots (c c' : Clc) : Prop where
  id : ∀ k, (c'.store.ents k).id = (c.store.ents k).id
  type : ∀ k, (c'.store.ents k).type = (c.store.ents k).type
  hist : c'.hist = c.hist

theorem modifyEnt_same {k : Nat} {f : LYEntity → LYEntity}
    (hid : (f (c.store.ents k)).id = (c.store.ents k).id)
    (htype : (f (c.store.ents k)).type = (c.store.ents k).type) :
    SameSlots c (c.modifyEnt k f) := by
  refine ⟨fun j => ?_, fun j => ?_, rfl⟩
  · by_cases hj : j = k
    · subst hj
      rw [Clc.modifyEnt, EntityStore.modify_ents_self, hid]
    · rw [Clc.modifyEnt, EntityStore.modify_ents_ne _ _ hj]
  · by_cases hj : j = k
    · subst hj
      rw [Clc.modifyEnt, EntityStore.modify_ents_self, htype]
    · rw [Clc.modifyEnt, EntityStore.modify_ents_ne _ _ hj]

/-- Ids, types and serial numbers stay, unless an OS manager is released. -/
theorem Act.same_or (h : Act start osm c c') :
    SameSlots c c' ∨ osm ∧ ∃ insId, c' = releaseOsm c insId := by
  by_cases hrel : osm ∧ ∃ insId, c' = releaseOsm c insId
  · exact .inr hrel
  left
  cases h with
  | outside h => exact ⟨fun k => by rw [h.store], fun k => by rw [h.store], h.hist⟩
  | write id f hf => exact ⟨fun _ => rfl, fun _ => rfl, rfl⟩
  | aim id k hk hs => exact ⟨fun _ => rfl, fun _ => rfl, rfl⟩
  | remove job hjob =>
    exact ⟨fun k => (jobBusyRemove_id c job k).1, fun k => (jobBusyRemove_id c job k).2,
      jobBusyRemove_hist c job⟩
  | entity k f hf =>
    exact modifyEnt_same (congrArg Prod.fst hf) (congrArg (fun x => x.2.1) hf)
  | release ho insId => exact absurd ⟨ho, insId, rfl⟩ hrel
  | pending hs nr => exact ⟨fun _ => rfl, fun _ => rfl, rfl⟩
  | hold hs id nr => exact ⟨fun _ => rfl, fun _ => rfl, rfl⟩
  | send hs id k nd nd' out hnd =>
    have h := modifyEnt_same (c := c) (k := k)
      (f := fun e => { e with entity := .node nd' }) rfl rfl
    exact ⟨h.id, h.type, h.hist⟩

theorem Act.same (ho : ¬ osm) (h : Act start osm c c') : SameSlots c c' := by
  rcases h.same_or with h | ⟨ho', -⟩
  · exact h
  · exact absurd ho' ho

theorem Acts.same (ho : ¬ osm) (h : Acts start osm c c') : SameSlots c c' := by
  induction h with
  | refl => exact ⟨fun _ => rfl, fun _ => rfl, rfl⟩
  | tail _ ha ih =>
    have h := ha.same ho
    exact ⟨fun k => (h.id k).trans (ih.id k), fun k => (h.type k).trans (ih.type k),
      h.hist.trans ih.hist⟩

/-- A released slot has no id; the others keep theirs. -/
theorem release_id (s : EntityStore) (e : Int) (k : Nat) :
    ((lyEntityRelease s e).1.ents k).id = (s.ents k).id ∨
      ((lyEntityRelease s e).1.ents k).id = -1 := by
  unfold lyEntityRelease
  split
  · exact .inl rfl
  · rename_i i hi
    split
    · exact .inl rfl
    · by_cases hk : k = i
      · subst hk
        right
        rw [EntityStore.modify_ents_self]
        rfl
      · left
        rw [EntityStore.modify_ents_ne _ _ hk]
        rfl

theorem releaseOsm_id (c : Clc) (insId : Int) (k : Nat) :
    ((releaseOsm c insId).store.ents k).id = (c.store.ents k).id ∨
      ((releaseOsm c insId).store.ents k).id = -1 := by
  unfold releaseOsm
  dsimp only
  split
  · exact release_id c.store _ k
  · exact .inl rfl

theorem Act.idWf (h : Act start osm c c') (hwf : IdWf c.store) : IdWf c'.store := by
  intro k
  rcases h.same_or with h | ⟨-, insId, rfl⟩
  · rw [h.id k]
    exact hwf k
  · rcases releaseOsm_id c insId k with hid | hid
    · rw [hid]
      exact hwf k
    · exact .inl hid

theorem Acts.idWf (h : Acts start osm c c') (hwf : IdWf c.store) : IdWf c'.store := by
  induction h with
  | refl => exact hwf
  | tail _ ha ih => exact ha.idWf ih

/-! ## Where a job may be sent -/

/-- An id of the store that is the number of a slot. -/
theorem live_of_id {s : EntityStore} (hwf : IdWf s) {k i : Nat} (h : slot? (s.ents k).id = some i) :
    Live s i := by
  obtain ⟨hid, hi⟩ := slot?_eq_some.mp h
  have hk := hwf k
  obtain rfl : i = k := by omega
  exact ⟨hi, by omega⟩

theorem find_live {s : EntityStore} (hwf : IdWf s) {type : EntityType} {d : Int} {i : Nat}
    (h : slot? (lyEntityFindByDb s type d) = some i) : Live s i := by
  unfold lyEntityFindByDb at h
  split at h
  · cases h
  · split at h
    · cases h
    · exact live_of_id hwf h

theorem scheduleAny_live {env : Env} {s : EntityStore} (hwf : IdWf s)
    {l : List Nat} {ent mem e : Int}
    (h : nodeScheduleAny env s l ent mem = .ok e) {i : Nat} (hi : slot? e = some i)
    (h0 : ∀ i, slot? ent = some i → Live s i) : Live s i := by
  induction l generalizing ent mem with
  | nil =>
    cases h
    exact h0 i hi
  | cons k l ih =>
    unfold nodeScheduleAny at h
    split at h
    · cases h
      exact h0 i hi
    · cases h
    · dsimp only at h
      split at h
      · cases h
      · refine ih h fun j hj => ?_
        -- the candidate is the old one, a negative code, or the node at hand
        split at hj
        · split at hj
          · cases hj
          · exact h0 j hj
        · split at hj
          · dsimp only at hj
            split at hj
            · cases hj
            · split at hj
              · cases hj
              · exact h0 j hj
          · split at hj
            · exact live_of_id hwf hj
            · split at hj
              · cases hj
              · exact h0 j hj

theorem schedule_live {env : Env} {s : EntityStore} (hwf : IdWf s) {nodeId e : Int}
    (h : nodeSchedule env s nodeId = .ok e) {i : Nat} (hi : slot? e = some i) : Live s i := by
  unfold nodeSchedule at h
  split at h
  · unfold nodeScheduleLast at h
    dsimp only at h
    split at h
    · cases h
      cases hi
    · split at h
      · cases h
        cases hi
      · cases h
      · split at h
        · cases h
          cases hi
        · split at h
          · cases h
            cases hi
          · split at h
            · cases h
              cases hi
            · cases h
              exact find_live hwf hi
  · exact scheduleAny_live hwf h hi fun i hi => nomatch hi

/-- An entity that is online has a slot. -/
theorem slot_of_online {s : EntityStore} {ent : Int} (h : lyEntityIsOnline s ent ≠ false) :
    ∃ k, slot? ent = some k ∧ ent = (k : Int) := by
  unfold lyEntityIsOnline lyEntityIs at h
  split at h
  · exact absurd rfl h
  · rename_i k hk
    exact ⟨k, hk, (slot?_eq_some.mp hk).1⟩

/-! ## `job_update_status` -/

/-- Giving the job this status releases the OS manager of its instance. -/
def endReleases (j : LYJobInfo) (status : Int) : Bool :=
  j.jTargetType == jobTargetInstance && (jobIsTimeout status || j.jAction == LyA.nodeStopInstance &&
    (status == LyS.finishedSuccess || status == LyS.finishedInstanceNotRunning))

theorem jobEnd_outside (env : Env) (c : Clc) {job : LYJobInfo} {status : Int}
    (ht : job.jTargetType = jobTargetInstance) (h : endReleases job status = false) :
    Outside c (jobEnd env c job status).1 := by
  have hnot : jobIsTimeout status = false ∧ ¬ (job.jAction = LyA.nodeStopInstance ∧
      (status = LyS.finishedSuccess ∨ status = LyS.finishedInstanceNotRunning)) := by
    simpa [endReleases, ht] using h
  unfold jobEnd
  rw [if_neg (by rw [hnot.1]; decide), if_neg hnot.2]
  split
  · exact .refl c
  · split
    · exact dbInstanceDelete_outside ..
    · exact .refl c

theorem jobFind_congr {a b : Clc} (h : b.jobs = a.jobs) (id : Int) :
    jobFind b id = jobFind a id := by
  rw [jobFind, h, jobFind]

theorem mem_of_find {id : Int} {job : LYJobInfo} (h : jobFind c id = some job) : job ∈ c.jobs :=
  List.mem_of_find?_eq_some h

theorem remove_act {id : Int} {job : LYJobInfo} (h : jobFind c id = some job) :
    Acts start osm c (jobRemove c job) := by
  refine .single (.remove job ?_)
  rw [jobFind_id h]
  exact h

theorem jobStamp_acts (env : Env) (c : Clc) (id : Int) {status : Int}
    (h : status ≠ LyS.waitingStartingOsm) : Acts start osm c (jobStamp env c id status) := by
  refine (Acts.single (.write id _ fun j => ?_)).trans (.outside (.called _))
  have hs : (j.jStarting && status != LyS.waitingStartingOsm) = j.jStarting := by
    rw [bne_iff_ne.mpr h, Bool.and_true]
  simp only [LYJobInfo.link, LYJobInfo.key, hs]

/-- A job that was stamped. -/
theorem mem_jobStamp {env : Env} {id status : Int} {j : LYJobInfo}
    (hj : j ∈ (jobStamp env c id status).jobs) : ∃ i ∈ c.jobs, i.key = j.key := by
  obtain ⟨i, hi, rfl⟩ := mem_setJob.mp hj
  refine ⟨i, hi, ?_⟩
  split <;> rfl

theorem endReleases_congr {i j : LYJobInfo} (h : i.key = j.key) (status : Int) :
    endReleases i status = endReleases j status := by
  have ht : i.jTargetType = j.jTargetType := congrArg JobKey.targetType h
  have ha : i.jAction = j.jAction := congrArg JobKey.action h
  rw [endReleases, endReleases, ht, ha]

/-- `jobEnd`, where OS managers may be released. -/
theorem jobEnd_acts (env : Env) (c : Clc) (job : LYJobInfo) (status : Int) (ho : osm) :
    Acts start osm c (jobEnd env c job status).1 := by
  have hrel : Acts start osm c (releaseOsm c job.jTargetId) := .single (.release ho _)
  unfold jobEnd
  split
  · exact hrel.trans (.outside ((dbInstanceUpdateStatus_outside ..).trans
      (jobInternalQueryInstance_outside ..)))
  · split
    · exact .refl c
    · split
      · exact hrel.trans (.outside (dbInstanceUpdateStatus_outside ..))
      · split
        · exact .outside (dbInstanceDelete_outside ..)
        · exact .refl c

/-- **`job_update_status`** with a status that may be written. -/
theorem jobUpdateStatus_acts (env : Env) {id status : Int} (hst : status ≠ LyS.waitingStartingOsm)
    (hq : osm ∨ ∀ j ∈ c.jobs, j.jId = id → endReleases j status = false) :
    Sat Any (fun r => Acts start osm c r.1) (jobUpdateStatus env c id status) := by
  unfold jobUpdateStatus
  split
  · exact Acts.refl c
  · have hstamp : Acts start osm c (jobStamp env c id status) := jobStamp_acts env c id hst
    have hmem : ∀ j ∈ (jobStamp env c id status).jobs, ∃ i ∈ c.jobs, i.key = j.key :=
      fun j hj => mem_jobStamp hj
    dsimp only
    generalize jobStamp env c id status = c1 at hstamp hmem
    split
    · exact trivial
    · rename_i job hjob
      have hout := dbJobUpdateStatus_outside env c1 job
      have hdb := hstamp.trans (.outside hout)
      have hfind := (jobFind_congr hout.jobs id).trans hjob
      have hnot : osm ∨ endReleases job status = false := by
        refine hq.imp (fun ho => ho) fun hq => ?_
        obtain ⟨i, hi, hkey⟩ := hmem job (mem_of_find hjob)
        rw [← endReleases_congr hkey]
        refine hq i hi ?_
        rw [← key_id, hkey, key_id, jobFind_id hjob]
      generalize dbJobUpdateStatus env c1 job = d at hdb hfind ⊢
      split
      · exact hdb
      · split
        · split
          · exact hdb.trans (remove_act hfind)
          · rename_i hend
            push Not at hend
            have hjobs := jobEnd_jobs env d.1 job status
            have hrest : Acts start osm d.1 (jobEnd env d.1 job status).1 := by
              rcases hnot with ho | hnot
              · exact jobEnd_acts env d.1 job status ho
              · exact .outside (jobEnd_outside env d.1 hend.2 hnot)
            exact hdb.trans (hrest.trans (remove_act ((jobFind_congr hjobs id).trans hfind)))
        · exact hdb

/-- The statuses that release nothing, whatever the job. -/
def Calm (status : Int) : Prop :=
  jobIsTimeout status = false ∧ status ≠ LyS.finishedSuccess ∧
    status ≠ LyS.finishedInstanceNotRunning ∧ status ≠ LyS.waitingStartingOsm

instance (status : Int) : Decidable (Calm status) := inferInstanceAs (Decidable (_ ∧ _))

theorem Calm.releases {status : Int} (h : Calm status) (j : LYJobInfo) :
    endReleases j status = false := by
  rw [endReleases, h.1, beq_false_of_ne h.2.1, beq_false_of_ne h.2.2.1]
  simp

theorem jobFail_acts (env : Env) {id status : Int} (hst : status ≠ LyS.waitingStartingOsm)
    (hq : osm ∨ ∀ j ∈ c.jobs, j.jId = id → endReleases j status = false) :
    Sat Any (Acts start osm c) (jobFail env c id status) := by
  have h : Sat Any (fun r => Acts start osm c r.1) (jobUpdateStatus env c id status) :=
    jobUpdateStatus_acts env hst hq
  unfold jobFail
  split
  · exact trivial
  · exact h.of_ok (by assumption)

/-- `goto failed` after what was done so far. -/
theorem Acts.fail {env : Env} {id status : Int} (h : Acts start osm c c') (hst : Calm status) :
    Sat Any (Acts start osm c) (jobFail env c' id status) :=
  (jobFail_acts env hst.2.2.2 (.inr fun j _ _ => hst.releases j)).mono fun _ => h.trans

/-- The job with this id does not stop an instance. -/
def NoStop (c : Clc) (id : Int) : Prop :=
  ∀ j ∈ c.jobs, j.jId = id → j.jAction ≠ LyA.nodeStopInstance ∨ j.jTargetType ≠ jobTargetInstance

theorem NoStop.releases {id status : Int} (h : NoStop c id) (ht : jobIsTimeout status = false) :
    ∀ j ∈ c.jobs, j.jId = id → endReleases j status = false := by
  intro j hj hid
  rcases h j hj hid with hne | hne
  · rw [endReleases, ht, beq_false_of_ne hne]
    simp
  · rw [endReleases, beq_false_of_ne hne, Bool.false_and]

theorem Act.keys (h : Act start osm c c') : ∀ j ∈ c'.jobs, ∃ i ∈ c.jobs, i.key = j.key := by
  have hset : ∀ {a : Clc} {id : Int} {f : LYJobInfo → LYJobInfo}, a.jobs = c.jobs →
      (∀ j, (f j).key = j.key) → ∀ j ∈ (setJob a id f).jobs, ∃ i ∈ c.jobs, i.key = j.key := by
    intro a id f ha hf j hj
    obtain ⟨i, hi, rfl⟩ := mem_setJob.mp hj
    refine ⟨i, ha ▸ hi, ?_⟩
    split
    · exact (hf i).symm
    · rfl
  cases h with
  | outside h => exact fun j hj => ⟨j, h.jobs ▸ hj, rfl⟩
  | write id f hf => exact hset rfl fun j => congrArg Prod.fst (hf j)
  | aim id k hk hs => exact hset rfl fun _ => rfl
  | remove job hjob =>
    intro j hj
    have hj' := (List.mem_filter.mp hj).1
    rw [jobBusyRemove_jobs] at hj'
    exact hset rfl (by exact fun _ => rfl) j hj'
  | entity k f hf => exact fun j hj => ⟨j, hj, rfl⟩
  | release ho insId =>
    rw [releaseOsm_jobs]
    exact fun j hj => ⟨j, hj, rfl⟩
  | pending hs nr => exact fun j hj => ⟨j, hj, rfl⟩
  | hold hs id nr => exact hset rfl fun _ => rfl
  | send hs id k nd nd' out hnd => exact hset rfl fun _ => rfl

theorem Acts.keys (h : Acts start osm c c') : ∀ j ∈ c'.jobs, ∃ i ∈ c.jobs, i.key = j.key := by
  induction h with
  | refl => exact fun j hj => ⟨j, hj, rfl⟩
  | tail _ ha ih =>
    intro j hj
    obtain ⟨i, hi, hij⟩ := ha.keys j hj
    obtain ⟨i', hi', hii⟩ := ih i hi
    exact ⟨i', hi', hii.trans hij⟩

theorem Acts.noStop {id : Int} (h : Acts start osm c c') (hn : NoStop c id) : NoStop c' id := by
  intro j hj hid
  obtain ⟨i, hi, hij⟩ := h.keys j hj
  have ha : i.jAction = j.jAction := congrArg JobKey.action hij
  have ht : i.jTargetType = j.jTargetType := congrArg JobKey.targetType hij
  have hi' : i.jId = j.jId := congrArg JobKey.id hij
  rw [← ha, ← ht]
  exact hn i hi (hi'.trans hid)

/-- Success of a job that does not stop an instance. -/
theorem Acts.succeed {env : Env} {id : Int} (h : Acts start osm c c') (hn : osm ∨ NoStop c id) :
    Sat Any (Acts start osm c) (jobFail env c' id LyS.finishedSuccess) :=
  (jobFail_acts env (by decide) (hn.imp (fun ho => ho) fun hn =>
    (h.noStop hn).releases (by decide))).mono
    fun _ => h.trans

/-- The job with this id does not start an instance. -/
def NotStart (c : Clc) (id : Int) : Prop := ∀ j ∈ c.jobs, j.jId = id → isStart j.jAction = false

theorem Acts.notStart {id : Int} (h : Acts start osm c c') (hn : NotStart c id) :
    NotStart c' id := by
  intro j hj hid
  obtain ⟨i, hi, hij⟩ := h.keys j hj
  have ha : i.jAction = j.jAction := congrArg JobKey.action hij
  have hi' : i.jId = j.jId := congrArg JobKey.id hij
  rw [← ha]
  exact hn i hi (hi'.trans hid)

theorem running_acts (env : Env) (c : Clc) (id : Int) :
    Sat Any (fun r => Acts start osm c r.1) (jobUpdateStatus env c id LyS.running) :=
  jobUpdateStatus_acts env (by decide) (.inr fun j _ _ => Calm.releases (by decide) j)

/-! ## Running a job -/

theorem jobSendRun_acts (env : Env) (hstart : start) {i : Nat} (hl : Live c.store i) (id : Int)
    (ci : NodeCtrlInstance) : Sat Any (Acts start osm c) (jobSendRun env c id ci i) := by
  have h1 : Acts start osm c (setJobEnt c id i) := .single (.aim id i hl fun hn => absurd hstart hn)
  unfold jobSendRun
  dsimp only
  generalize setJobEnt c id i = c1 at h1
  split
  · exact h1.fail (by decide)
  · exact trivial
  · rename_i nd hnd
    have hrenew := renewSecret_outside env c1 ci
    split
    · rename_i c2 heq
      rw [heq] at hrenew
      exact (h1.trans (.outside hrenew)).fail (by decide)
    · rename_i c2 ci2 heq
      rw [heq] at hrenew
      have hst := hrenew.trans (dbInstanceUpdateStatus_outside env c2 ci2.insId none
        (lyEntityDbId c2.store i))
      split
      · exact (h1.trans (.outside hst)).fail (by decide)
      · split
        · exact (h1.trans (.outside hst)).fail (by decide)
        · rename_i xml _
          have hsend := hst.trans (lyPacketSend_outside env _
            (lyEntityFd
              (dbInstanceUpdateStatus env c2 ci2.insId none (lyEntityDbId c2.store i)).1.store i)
            PktType.clcInstanceControlRequest xml)
          split
          · exact (h1.trans (.outside hsend)).fail (by decide)
          · refine (h1.trans (.outside hsend)).trans (.single (.send hstart id i nd _ _ ?_))
            rw [hsend.store]
            exact hnd

theorem jobWait_acts (env : Env) {job : LYJobInfo} (hn : osm ∨ NoStop c job.jId) :
    Sat Any (Acts start osm c) (jobWait env c job) := by
  have h0 : Acts start osm c c := .refl c
  unfold jobWait
  dsimp only
  split
  · split
    · exact h0.fail (by decide)
    · exact h0
  · split
    · split
      · exact h0.fail (by decide)
      · split
        · exact h0.fail (by decide)
        · exact h0
    · split
      · exact h0.succeed hn
      · split
        · exact h0.fail (by decide)
        · exact h0

theorem calm_unavail (s : EntityStore) (nodeId : Int) : Calm (unavailStatus s nodeId) := by
  unfold unavailStatus
  dsimp only
  repeat' split
  all_goals decide

theorem jobStartInstance_acts (env : Env) (hstart : start) (hwf : IdWf c.store) {job : LYJobInfo}
    (hn : osm ∨ NoStop c job.jId) : Sat Any (Acts start osm c) (jobStartInstance env c job) := by
  unfold jobStartInstance
  split
  · exact jobWait_acts env hn
  · have hrun : Sat Any (fun r => Acts start osm c r.1)
        (jobUpdateStatus env c job.jId LyS.running) :=
    running_acts env c job.jId
    split
    · exact trivial
    · rename_i r hr
      have h1 : Acts start osm c r.1 := hrun.of_ok hr
      split
      · exact h1
      · have h2 := h1.trans (.single (.hold hstart job.jId 0))
        have hget := dbNodeInstanceControlGet_outside env
          (setJob r.1 job.jId fun j => { j with jPendingNr := 0 })
          { reqId := job.jId, insId := job.jTargetId }
        dsimp only
        split
        · rename_i c2 heq
          rw [heq] at hget
          exact (h2.trans (.outside hget)).fail (by decide)
        · rename_i c2 ci nodeId heq
          rw [heq] at hget
          have h3 : Acts start osm c c2 := h2.trans (.outside hget)
          split
          · exact trivial
          · rename_i ent hsched
            split
            · exact h3.fail (by decide)
            · split
              · have h4 := h3.trans (.single (.pending hstart (c2.jobInsPendingNr + 1)))
                exact (h4.trans (.single (.hold hstart job.jId _))).fail (by decide)
              · split
                · exact h3.fail (calm_unavail _ _)
                · rename_i i hi
                  exact (jobSendRun_acts env hstart
                    (schedule_live (h3.idWf hwf) hsched hi) _ _).mono
                    fun _ => h3.trans

theorem jobSendSimple_acts (env : Env) (hwf : IdWf c.store) {id : Int}
    (hs : ¬ start → NotStart c id)
    (ci : NodeCtrlInstance) (nodeId : Int) :
    Sat Any (Acts start osm c) (jobSendSimple env c id ci nodeId) := by
  have h0 : Acts start osm c c := .refl c
  unfold jobSendSimple
  dsimp only
  split
  · exact h0.fail (by decide)
  · rename_i hon
    split
    · exact h0.fail (by decide)
    · obtain ⟨k, hk, hent⟩ := slot_of_online hon
      have hl := find_live hwf hk
      generalize lyEntityFindByDb c.store .node nodeId = ent at hent
      subst hent
      have h1 : Acts start osm c (setJobEnt c id k) := .single (.aim id k hl hs)
      generalize setJobEnt c id k = c2 at h1
      split
      · exact h1.fail (by decide)
      · rename_i xml _
        have h2 := h1.trans (.outside (lyPacketSend_outside env c2 (lyEntityFd c2.store k)
          PktType.clcInstanceControlRequest xml))
        split
        · exact h2.fail (by decide)
        · exact h2.trans (.single (.write id _ fun _ => rfl))

/-- No node goes with the instance in the table. -/
def Nodeless (c : Clc) (insId : Int) : Prop :=
  ∃ r ∈ c.db.instancesById insId, r.nodeId.getD 0 ≤ 0

/-- A status that neither ends the job nor says that its instance is up is written to table `job`
alone. -/
theorem jobUpdateStatus_plain {env : Env} {id status : Int} {r : Clc × Int}
    (hfin : isFinal status = false) (hst : status ≠ LyS.waitingStartingOsm)
    (h : jobUpdateStatus env c id status = .ok r) :
    r.1.store = c.store ∧ r.1.db.instances = c.db.instances ∧
      ∀ j ∈ r.1.jobs, ∃ i ∈ c.jobs, i.jEntId = j.jEntId := by
  have hstamp : ∀ j ∈ (jobStamp env c id status).jobs, ∃ i ∈ c.jobs, i.jEntId = j.jEntId := by
    intro j hj
    obtain ⟨i, hi, rfl⟩ := mem_setJob.mp hj
    refine ⟨i, hi, ?_⟩
    split <;> rfl
  have hjob : ∀ (a : Clc) (job : LYJobInfo),
      (dbJobUpdateStatus env a job).1.db.instances = a.db.instances := by
    intro a job
    unfold dbJobUpdateStatus dbExec
    split <;> rfl
  rw [jobUpdateStatus] at h
  split at h
  · cases h
    exact ⟨rfl, rfl, fun j hj => ⟨j, hj, rfl⟩⟩
  · dsimp only at h
    split at h
    · cases h
    · rename_i job _
      have hdb := hjob (jobStamp env c id status) job
      have hout := dbJobUpdateStatus_outside env (jobStamp env c id status) job
      have hjobs : ∀ j ∈ (dbJobUpdateStatus env (jobStamp env c id status) job).1.jobs,
          ∃ i ∈ c.jobs, i.jEntId = j.jEntId := by
        rw [hout.jobs]
        exact hstamp
      split at h
      · cases h
        exact ⟨hout.store, hdb, hjobs⟩
      · split at h
        · rename_i hf
          have hf' : isFinal status = true := hf
          rw [hfin] at hf'
          cases hf'
        · cases h
          exact ⟨hout.store, hdb, hjobs⟩

/-- What is read of the instance: the node it ran on last and its size. -/
theorem controlGet_read {env : Env} {ci ci' : NodeCtrlInstance} {nodeId : Int}
    (h : dbNodeInstanceControlGet env c ci = (c', some (ci', nodeId))) :
    ∃ r ∈ c.db.instancesById ci.insId, nodeId = r.nodeId.getD 0 ∧ ci'.insVcpu = r.cpus ∧
      ci'.insMem = toInt32 ((if 131072 < r.memory then 131072 else r.memory) * 1024) := by
  unfold dbNodeInstanceControlGet at h
  split at h
  · rename_i r hsel
    refine ⟨r, ?_, ?_⟩
    · rw [dbSelect] at hsel
      split at hsel
      · have hr : r ∈ (c.db.instancesById ci.insId).filter fun r =>
            (env.appliance r.applianceId).isSome := by
          rw [Option.some.inj hsel]
          exact List.mem_singleton.mpr rfl
        exact (List.mem_filter.mp hr).1
      · cases hsel
    · obtain ⟨rfl, rfl⟩ := Prod.mk.inj (Option.some.inj (congrArg Prod.snd h))
      exact ⟨rfl, rfl, rfl⟩
  · cases h

/-- **`__job_control_instance_simple`** on a job that does not stop an instance, or whose instance
has a node. -/
theorem jobControlInstanceSimple_acts (env : Env) (hwf : IdWf c.store) {job : LYJobInfo}
    (hs : ¬ start → NotStart c job.jId)
    (hn : (osm ∨ NoStop c job.jId) ∨ job.jAction = LyA.nodeStopInstance ∧
      ¬ Nodeless c job.jTargetId) :
    Sat Any (Acts start osm c) (jobControlInstanceSimple env c job) := by
  have hrun : Sat Any (fun r => Acts start osm c r.1) (jobUpdateStatus env c job.jId LyS.running) :=
    running_acts env c job.jId
  unfold jobControlInstanceSimple
  split
  · exact trivial
  · rename_i r hr
    have h1 : Acts start osm c r.1 := hrun.of_ok hr
    split
    · exact h1
    · have hget := dbNodeInstanceControlGet_outside env r.1
        { reqId := job.jId, insId := job.jTargetId }
      split
      · rename_i c2 heq
        rw [heq] at hget
        exact (h1.trans (.outside hget)).fail (by decide)
      · rename_i c2 ci nodeId heq
        rw [heq] at hget
        have h2 : Acts start osm c c2 := h1.trans (.outside hget)
        dsimp only
        split
        · rename_i hnode
          rcases hn with hn | ⟨hstop, hless⟩
          · have h3 : Acts start osm c2 (if job.jAction = LyA.nodeQueryInstance then
                (dbInstanceUpdateStatus env c2 job.jTargetId
                  (some { ip := some (cstr "0.0.0.0"), status := DomainS.notExist })
                  (pickNode env c2.store job.jAction nodeId)).1 else c2) := by
              split
              · exact .outside (dbInstanceUpdateStatus_outside ..)
              · exact .refl c2
            exact (h2.trans h3).succeed hn
          · obtain ⟨row, hrow, rfl, -⟩ := controlGet_read heq
            have hpick : pickNode env c2.store job.jAction (row.nodeId.getD 0) =
                row.nodeId.getD 0 := by
              rw [pickNode, hstop, if_neg fun h => absurd h.2 (by decide)]
            rw [hpick] at hnode
            refine absurd ⟨row, ?_, hnode⟩ hless
            rw [Db.instancesById, ← (jobUpdateStatus_plain (by decide) (by decide) hr).2.1]
            exact hrow
        · exact (jobSendSimple_acts env (h2.idWf hwf) (fun h => h2.notStart (hs h)) _ _).mono
            fun _ => h2.trans

theorem jobQuery_acts (env : Env) (hwf : IdWf c.store) {job : LYJobInfo}
    (hs : ¬ start → NotStart c job.jId) (hn : osm ∨ NoStop c job.jId)
    {type : EntityType} {pktType : Int} {request : Option Bytes} :
    Sat Any (Acts start osm c) (jobQuery env c job type pktType request) := by
  have hrun : Sat Any (fun r => Acts start osm c r.1) (jobUpdateStatus env c job.jId LyS.running) :=
    running_acts env c job.jId
  unfold jobQuery
  split
  · exact trivial
  · rename_i r hr
    have h1 : Acts start osm c r.1 := hrun.of_ok hr
    split
    · exact h1
    · dsimp only
      split
      · exact h1.succeed hn
      · rename_i hon
        split
        · exact h1.succeed hn
        · obtain ⟨k, hk, hent⟩ := slot_of_online hon
          have hl := find_live (h1.idWf hwf) hk
          generalize lyEntityFindByDb r.1.store type job.jTargetId = ent at hent
          subst hent
          have h2 : Acts start osm c (setJobEnt r.1 job.jId k) :=
            h1.trans (.single (.aim _ k hl fun h => h1.notStart (hs h)))
          generalize setJobEnt r.1 job.jId k = c2 at h2
          split
          · exact h2.fail (by decide)
          · rename_i data
            have h3 :=
              h2.trans (.outside (lyPacketSend_outside env c2 (lyEntityFd c2.store k) pktType data))
            split
            · exact h3.fail (by decide)
            · exact h3

theorem jobNodeEnable_acts (env : Env) {job : LYJobInfo} (hn : osm ∨ NoStop c job.jId) :
    Sat Any (Acts start osm c) (jobNodeEnable env c job) := by
  unfold jobNodeEnable
  dsimp only
  split
  · exact (Acts.refl c).fail (by decide)
  · have h1 : Acts start osm c (dbNodeEnable env c job.jTargetId true).1 :=
      .outside (dbNodeEnable_outside env c job.jTargetId true)
    split
    · exact h1.fail (by decide)
    · have h2 :=
        h1.trans (.outside (lyPacketSend_outside env (dbNodeEnable env c job.jTargetId true).1
        (lyEntityFd (dbNodeEnable env c job.jTargetId true).1.store
          (lyEntityFindByDb c.store .node job.jTargetId)) PktType.joinRequest (cstr "join")))
      split
      · exact h2.fail (by decide)
      · exact h2.succeed hn

theorem jobCleanOnEntity_go_acts (env : Env) (ent : Int) {status : Int} (hst : Calm status)
    (ids : List Int) (c : Clc) :
    Sat Any (Acts start osm c) (jobCleanOnEntity.go env ent status ids c) := by
  induction ids generalizing c with
  | nil => exact Acts.refl c
  | cons id ids ih =>
    unfold jobCleanOnEntity.go
    split
    · exact ih c
    · have h : Sat Any (fun r => Acts start osm c r.1) (jobUpdateStatus env c id status) :=
        jobUpdateStatus_acts env hst.2.2.2 (.inr fun j _ _ => hst.releases j)
      split
      · dsimp only
        split
        · exact trivial
        · split
          · exact (ih _).mono fun _ => (h.of_ok (by assumption)).trans
          · exact trivial
      · exact ih c

/-- `ly_entity_enable` without a database id. -/
theorem disable_acts (c : Clc) (ent : Int) :
    Acts start osm c (c.withStore (lyEntityEnable c.store ent (-1) false).1) := by
  unfold lyEntityEnable
  split
  · exact .refl c
  · rename_i i _
    exact .single (.entity i (fun e => e.withEnabled false) rfl)

theorem jobNodeDisable_acts (env : Env) {job : LYJobInfo} (hn : osm ∨ NoStop c job.jId) :
    Sat Any (Acts start osm c) (jobNodeDisable env c job) := by
  unfold jobNodeDisable
  have h1 : Acts start osm c (dbNodeEnable env c job.jTargetId false).1 :=
    .outside (dbNodeEnable_outside env c job.jTargetId false)
  dsimp only
  generalize dbNodeEnable env c job.jTargetId false = r at h1
  split
  · exact h1.fail (by decide)
  · split
    · have hclean : Sat Any (Acts start osm r.1) (jobCleanOnEntity env
          (lyEntityFindByDb r.1.store .node job.jTargetId) LyS.finishedFailureNodeNotEnabled r.1) :=
        jobCleanOnEntity_go_acts env _ (by decide) _ r.1
      split
      · exact trivial
      · rename_i c2 heq
        have h2 := h1.trans (hclean.of_ok heq)
        exact (h2.trans (disable_acts c2 _)).succeed hn
    · split
      · exact (h1.trans (disable_acts r.1 _)).succeed hn
      · exact h1.succeed hn

theorem jobNodeConfig_acts (env : Env) {job : LYJobInfo} (hn : osm ∨ NoStop c job.jId) :
    Sat Any (Acts start osm c) (jobNodeConfig env c job) := by
  unfold jobNodeConfig
  dsimp only
  split
  · exact (Acts.refl c).succeed hn
  · split
    · exact (Acts.refl c).fail (by decide)
    · rename_i k _
      split
      · exact (Acts.refl c).fail (by decide)
      · exact trivial
      · rename_i nd hnd
        have hfind := dbNodeFind_outside env c (.byId (c.store.ents k).dbId)
        generalize dbNodeFind env c (.byId (c.store.ents k).dbId) = found at hfind
        have h1 : Acts start osm c found.1 := .outside hfind
        split
        · refine (h1.trans (.single (.entity k _ ?_))).succeed hn
          have he : (found.1.store.ents k).entity = .node nd := by rw [hfind.store]; exact hnd
          simp only [LYEntity.link, LYEntity.busy, he]
          rfl
        · exact h1.fail (by decide)

/-- The jobs with the id of `job` have its key. -/
def Unique (c : Clc) (job : LYJobInfo) : Prop := ∀ j ∈ c.jobs, j.jId = job.jId → j.key = job.key

theorem Unique.noStop {job : LYJobInfo} (h : Unique c job)
    (hn : job.jAction ≠ LyA.nodeStopInstance ∨ job.jTargetType ≠ jobTargetInstance) :
    NoStop c job.jId := by
  intro j hj hid
  have ha : j.jAction = job.jAction := congrArg JobKey.action (h j hj hid)
  have ht : j.jTargetType = job.jTargetType := congrArg JobKey.targetType (h j hj hid)
  rw [ha, ht]
  exact hn

theorem Unique.notStart {job : LYJobInfo} (h : Unique c job)
    (hs : isStart job.jAction = true → start) :
    ¬ start → NotStart c job.jId := by
  intro hno j hj hid
  have ha : j.jAction = job.jAction := congrArg JobKey.action (h j hj hid)
  rw [ha]
  cases hst : isStart job.jAction with
  | false => rfl
  | true => exact absurd (hs hst) hno

/-- **`__job_run`.** -/
theorem jobRun_acts (env : Env) (hwf : IdWf c.store) {job : LYJobInfo} (hu : Unique c job)
    (hs : isStart job.jAction = true → start)
    (hn : osm ∨ (job.jAction = LyA.nodeStopInstance → job.jTargetType = jobTargetInstance →
      ¬ Nodeless c job.jTargetId)) : Sat Any (Acts start osm c) (jobRun env c job) := by
  unfold jobRun
  split
  · rename_i ha
    exact jobNodeEnable_acts env (.inr (hu.noStop (.inl (by rw [ha]; decide))))
  split
  · rename_i ha
    exact jobNodeDisable_acts env (.inr (hu.noStop (.inl (by rw [ha]; decide))))
  split
  · rename_i ha
    exact jobNodeConfig_acts env (.inr (hu.noStop (.inl (by rw [ha]; decide))))
  split
  · rename_i ha
    exact jobStartInstance_acts env (hs (by rw [ha]; decide)) hwf
      (.inr (hu.noStop (.inl (by rw [ha]; decide))))
  split
  · rename_i ha
    exact jobStartInstance_acts env (hs (by rw [ha]; decide)) hwf
      (.inr (hu.noStop (.inl (by rw [ha]; decide))))
  split
  · refine jobControlInstanceSimple_acts env hwf (hu.notStart hs) ?_
    rcases hn with ho | hn
    · exact .inl (.inl ho)
    · by_cases hstop : job.jAction = LyA.nodeStopInstance
      · by_cases ht : job.jTargetType = jobTargetInstance
        · exact .inr ⟨hstop, hn hstop ht⟩
        · exact .inl (.inr (hu.noStop (.inr ht)))
      · exact .inl (.inr (hu.noStop (.inl hstop)))
  split
  · rename_i ha
    exact jobQuery_acts env hwf (hu.notStart hs) (.inr (hu.noStop (.inl (by rw [ha]; decide))))
  split
  · exact Acts.refl c
  split
  · rename_i ha
    exact jobQuery_acts env hwf (hu.notStart hs) (.inr (hu.noStop (.inl (by rw [ha]; decide))))
  · exact (Acts.refl c).fail (by decide)

theorem jobRunNow_acts (env : Env) (hwf : IdWf c.store) {job : LYJobInfo} (hu : Unique c job)
    (hs : isStart job.jAction = true → start)
    (hn : osm ∨ (job.jAction = LyA.nodeStopInstance → job.jTargetType = jobTargetInstance →
      ¬ Nodeless c job.jTargetId)) : Sat Any (Acts start osm c) (jobRunNow env c job) := by
  unfold jobRunNow
  dsimp only
  have h1 : Acts start osm c (setJob c.called job.jId fun j =>
      { j with jLastRun := env.time c.io.tick }) :=
    (Acts.outside (.called c)).trans (.single (.write job.jId _ fun _ => rfl))
  refine (jobRun_acts env (h1.idWf hwf) ?_ hs hn).mono fun _ => h1.trans
  intro j hj hid
  obtain ⟨i, hi, hij⟩ := h1.keys j hj
  rw [← hij]
  exact hu i hi ((congrArg JobKey.id hij).trans hid)

/-- The job has been running or waiting for too long. -/
def TimesOut (env : Env) (now : Int) (job : LYJobInfo) : Prop :=
  jobIsInitiated job.jStatus = false ∧ jobIsPending job.jStatus = false ∧
    (jobIsRunning job.jStatus || jobIsWaiting job.jStatus) = true ∧
      jobTimeout env job < now - job.jStarted

instance (env : Env) (now : Int) (job : LYJobInfo) : Decidable (TimesOut env now job) :=
  inferInstanceAs (Decidable (_ ∧ _))

/-- The visit runs the job. -/
def Runs (env : Env) (now : Int) (job : LYJobInfo) : Prop :=
  jobIsInitiated job.jStatus = true ∨
    jobIsPending job.jStatus = true ∧ 4 < now - job.jLastRun ∨
    jobIsWaiting job.jStatus = true ∧ ¬ TimesOut env now job

instance (env : Env) (now : Int) (job : LYJobInfo) : Decidable (Runs env now job) :=
  inferInstanceAs (Decidable (_ ∨ _))

/-- The visit ends the job and releases the OS manager of its instance. -/
def VisitEnds (env : Env) (now : Int) (c : Clc) (job : LYJobInfo) : Prop :=
  job.jTargetType = jobTargetInstance ∧ (TimesOut env now job ∨
    Runs env now job ∧ job.jAction = LyA.nodeStopInstance ∧ Nodeless c job.jTargetId)

/-- **One visit** of the dispatch. -/
theorem jobDispatchOne_acts (env : Env) (now : Int) (hwf : IdWf c.store) {job : LYJobInfo}
    (hu : Unique c job) (hs : isStart job.jAction = true → start)
    (hv : osm ∨ ¬ VisitEnds env now c job) :
    Sat Any (Acts start osm c) (jobDispatchOne env now c job) := by
  have hnode : Runs env now job → osm ∨ (job.jAction = LyA.nodeStopInstance →
      job.jTargetType = jobTargetInstance → ¬ Nodeless c job.jTargetId) :=
    fun hr => hv.imp (fun ho => ho) fun hv hstop ht hless => hv ⟨ht, .inr ⟨hr, hstop, hless⟩⟩
  unfold jobDispatchOne
  split
  · rename_i hinit
    exact jobRunNow_acts env hwf hu hs (hnode (.inl hinit))
  · rename_i hinit
    split
    · rename_i hlive
      split
      · rename_i hpend
        split
        · rename_i hdue
          exact jobRunNow_acts env hwf hu hs (hnode (.inr (.inl ⟨hpend, hdue⟩)))
        · exact Acts.refl c
      · rename_i hpend
        rw [Bool.not_eq_true] at hinit hpend
        rw [hpend, Bool.or_false] at hlive
        split
        · rename_i hlate
          have hout : TimesOut env now job := ⟨hinit, hpend, hlive, hlate⟩
          refine jobFail_acts env (by decide) (hv.imp (fun ho => ho) fun hv j hj hid => ?_)
          have ht : j.jTargetType = job.jTargetType := congrArg JobKey.targetType (hu j hj hid)
          rw [endReleases, ht, beq_false_of_ne fun ht => hv ⟨ht, .inl hout⟩, Bool.false_and]
        · rename_i hlate
          split
          · rename_i hwait
            exact jobRun_acts env hwf hu hs (hnode (.inr (.inr ⟨hwait, fun h => hlate h.2.2.2⟩)))
          · exact Acts.refl c
    · exact (Acts.refl c).fail (by decide)

/-! ## The ids of the queue -/

theorem setJob_ids (c : Clc) (id : Int) {f : LYJobInfo → LYJobInfo} (hf : ∀ j, (f j).jId = j.jId) :
    (setJob c id f).jobs.map LYJobInfo.jId = c.jobs.map LYJobInfo.jId := by
  simp only [setJob, List.map_map]
  refine List.map_congr_left fun j _ => ?_
  simp only [Function.comp_apply]
  split
  · exact hf j
  · rfl

theorem Act.ids (h : Act start osm c c') :
    (c'.jobs.map LYJobInfo.jId).Sublist (c.jobs.map LYJobInfo.jId) := by
  have hset : ∀ {a : Clc} {id : Int} {f : LYJobInfo → LYJobInfo}, a.jobs = c.jobs →
      (∀ j, (f j).jId = j.jId) → ((setJob a id f).jobs.map LYJobInfo.jId).Sublist
        (c.jobs.map LYJobInfo.jId) := by
    intro a id f ha hf
    rw [setJob_ids a id hf, ha]
  cases h with
  | outside h => rw [h.jobs]
  | write id f hf => exact hset rfl fun j => congrArg (fun x => x.1.id) (hf j)
  | aim id k hk hs => exact hset rfl fun _ => rfl
  | remove job hjob =>
    refine (List.Sublist.map _ List.filter_sublist).trans ?_
    rw [jobBusyRemove_jobs]
    exact hset rfl (by exact fun _ => rfl)
  | entity k f hf => exact List.Sublist.refl _
  | release ho insId => rw [releaseOsm_jobs]
  | pending hs nr => exact List.Sublist.refl _
  | hold hs id nr => exact hset rfl fun _ => rfl
  | send hs id k nd nd' out hnd => exact hset rfl fun _ => rfl

theorem Acts.ids (h : Acts start osm c c') :
    (c'.jobs.map LYJobInfo.jId).Sublist (c.jobs.map LYJobInfo.jId) := by
  induction h with
  | refl => exact List.Sublist.refl _
  | tail _ ha ih => exact ha.ids.trans ih

theorem Acts.distinct (h : Acts start osm c c') (hd : Distinct c) : Distinct c' :=
  List.Nodup.sublist h.ids hd

/-! ## Jobs from the web -/

theorem checkOther_acts (env : Env) (job : LYJobInfo) (js : List LYJobInfo) (c : Clc) :
    Sat Any (fun r => Acts start osm c r.1) (checkOther env job c js) := by
  induction js generalizing c with
  | nil => exact Acts.refl c
  | cons j js ih =>
    unfold checkOther
    split
    · exact ih c
    · split
      · exact Acts.refl c
      · have h : Sat Any (fun r => Acts start osm c r.1)
            (jobUpdateStatus env c j.jId LyS.cancelActionReplaced) :=
          jobUpdateStatus_acts env (by decide) (.inr fun j _ _ => Calm.releases (by decide) j)
        split
        · exact trivial
        · exact (ih _).mono fun _ => (h.of_ok (by assumption)).trans

theorem checkDestroy_acts (env : Env) (job : LYJobInfo) (js : List LYJobInfo) (c : Clc) :
    Sat Any (fun r => Acts start osm c r.1) (checkDestroy env job c js) := by
  induction js generalizing c with
  | nil => exact Acts.refl c
  | cons j js ih =>
    unfold checkDestroy
    split
    · exact ih c
    · split
      · exact Acts.refl c
      · split
        · have h : Sat Any (fun r => Acts start osm c r.1)
              (jobUpdateStatus env c j.jId LyS.cancelActionReplaced) :=
            jobUpdateStatus_acts env (by decide) (.inr fun j _ _ => Calm.releases (by decide) j)
          split
          · exact trivial
          · exact (ih _).mono fun _ => (h.of_ok (by assumption)).trans
        · exact ih c

theorem jobCheck_acts (env : Env) (c : Clc) (job : LYJobInfo) :
    Sat Any (fun r => Acts start osm c r.1) (jobCheck env c job) := by
  unfold jobCheck
  split
  · exact Acts.refl c
  · split
    · exact Acts.refl c
    · split
      · split <;> exact Acts.refl c
      · split
        · split <;> exact Acts.refl c
        · split
          · split <;> exact Acts.refl c
          · split
            · exact checkDestroy_acts env job c.jobs c
            · split
              · exact checkOther_acts env job c.jobs c
              · exact Acts.refl c

/-- A job that was put at the end of the queue. -/
structure Inserted (c c' : Clc) : Prop where
  job : ∃ job : LYJobInfo, c' = jobInsert c job ∧ job.jEntId = 0 ∧ job.jStarting = false ∧
    ∀ j ∈ c.jobs, j.jId ≠ job.jId

/-- **`__process_web_job`**: other jobs are cancelled, and the job is refused or put behind them. -/
theorem webJob_acts {env : Env} {jobId : Int} {r : Clc × Int} (h : webJob env c jobId = .ok r) :
    ∃ c1, Acts start osm c c1 ∧ (r.1 = c1 ∨ Inserted c1 r.1) := by
  unfold webJob at h
  have hget := dbJobGet_outside env c jobId
  split at h
  · rename_i c1 heq
    cases h
    rw [heq] at hget
    exact ⟨c1, .outside hget, .inl rfl⟩
  · rename_i c1 job heq
    rw [heq] at hget
    have h1 : Acts start osm c c1 := .outside hget
    have hjob : job.jId = jobId ∧ job.jEntId = 0 ∧ job.jStarting = false := by
      unfold dbJobGet at heq
      split at heq
      · obtain rfl := Option.some.inj (Prod.mk.inj heq).2
        exact ⟨rfl, rfl, rfl⟩
      · cases (Prod.mk.inj heq).2
    split at h
    · cases h
      exact ⟨c1, h1, .inl rfl⟩
    · rename_i hex
      split at h
      · cases h
      · rename_i c2 ret hc
        have h2 : Acts start osm c1 c2 := (jobCheck_acts env c1 job).of_ok hc
        split at h
        · cases h
          exact ⟨_, h1.trans (h2.trans (.outside (jobRefuse_outside ..))), .inl rfl⟩
        · cases h
          refine ⟨c2, h1.trans h2, .inr ⟨job, rfl, hjob.2.1, hjob.2.2, fun j hj hid => hex ?_⟩⟩
          obtain ⟨i, hi, hij⟩ := h2.keys j hj
          refine jobExist_iff.mpr ⟨i, hi, ?_⟩
          rw [← hjob.1, ← hid]
          exact congrArg JobKey.id hij

end

end LuoYun

import LuoYun.Clc.JobInit
import LuoYun.Proof.JobFrame

/-!
# Table `job` and the queue

After a restart the queue holds the jobs of the table that were pending, and no others. While the
CLC runs, the status it writes into the table and its decision to take the job off the queue come
from one call; the web decides by the status alone whether a job is completed. The two agree except
on the integers that `JOB_IS_FINISHED`, `JOB_IS_TIMEOUT` and `JOB_IS_CANCELLED` leave out of the
ranges the web tests.
-/

namespace LuoYun

/-! ## The restart -/

theorem foldl_jobInsert (rows : List JobRow) (c : Clc) :
    (rows.foldl (fun c r => jobInsert c r.job) c).jobs =
        c.jobs ++ rows.map (fun r => { r.job with jPendingNr := -1 }) ∧
      (rows.foldl (fun c r => jobInsert c r.job) c).db = c.db := by
  induction rows generalizing c with
  | nil => simp
  | cons r rows ih =>
    obtain ⟨h1, h2⟩ := ih (jobInsert c r.job)
    rw [List.foldl_cons, h1, h2]
    simp [jobInsert]

theorem jobCompleted_iff {status : Int} :
    jobCompleted status = true ↔ (300 ≤ status ∧ status < 400) ∨ 600 ≤ status := by
  simp [jobCompleted]

theorem jobIsPending_iff {status : Int} : jobIsPending status = true ↔
    500 ≤ status ∧ status < 599 := by
  simp only [jobIsPending, Bool.and_eq_true, decide_eq_true_iff]
  rfl

theorem jobCompleted_pending {status : Int} (h : jobIsPending status = true) :
    jobCompleted status = false := by
  rw [jobIsPending_iff] at h
  rw [← Bool.not_eq_true, jobCompleted_iff]
  omega

/-- The rows that `db_job_get_all` asks for. -/
theorem dbJobGetAll_eq {env : Env} {c : Clc} (h : env.ok .dbSelect c.io.tick = true) :
    dbJobGetAll env c = ((c.db.jobs.filter fun r => jobIsPending r.status).foldl
      (fun c r => jobInsert c r.job) c.called,
      ((c.db.jobs.filter fun r => jobIsPending r.status).length : Int)) := by
  rw [dbJobGetAll, dbSelect, if_pos h]
  rfl

theorem dbJobGetAll_none {env : Env} {c : Clc} (h : env.ok .dbSelect c.io.tick = false) :
    dbJobGetAll env c = (c.called, -1) := by
  rw [dbJobGetAll, dbSelect, if_neg (by rw [h]; decide)]

/-- A command that does not touch table `job`. -/
theorem dbExec_table {env : Env} (c : Clc) {f : Db → Db} (hf : ∀ db, (f db).jobs = db.jobs) :
    (dbExec env c f).1.db.jobs = c.db.jobs := by
  unfold dbExec
  split
  · exact hf _
  · rfl

theorem dbInstanceInitStatus_table (env : Env) (c : Clc) :
    (dbInstanceInitStatus env c).1.db.jobs = c.db.jobs :=
  dbExec_table c fun _ => rfl

theorem dbNodeInitStatus_table (env : Env) (c : Clc) :
    (dbNodeInitStatus env c).1.db.jobs = c.db.jobs :=
  dbExec_table c fun _ => rfl

theorem jobInit_ret (env : Env) (c : Clc) :
    (jobInit env c).2 = 0 ↔ env.ok .dbSelect c.io.tick = true := by
  unfold jobInit
  cases hok : env.ok .dbSelect c.io.tick with
  | false =>
    have hok' : env.ok .dbSelect ({ c with jobs := [] } : Clc).io.tick = false := hok
    rw [dbJobGetAll_none hok']
    simp
  | true =>
    have hok' : env.ok .dbSelect ({ c with jobs := [] } : Clc).io.tick = true := hok
    rw [dbJobGetAll_eq hok']
    dsimp only
    rw [if_neg (by omega)]
    simp

/-- **After a restart** the queue holds exactly the pending jobs of the table, each as its row says,
and none that the web takes for completed; the table itself is left alone. If the table cannot be
read, `job_init` fails and the CLC does not start. -/
theorem restart_resumes_pending (env : Env) (c : Clc) :
    ((jobInit env c).2 = 0 ↔ env.ok .dbSelect c.io.tick = true) ∧
    (env.ok .dbSelect c.io.tick = true →
      (jobInit env c).1.jobs = (c.db.jobs.filter fun r => jobIsPending r.status).map
        (fun r => { r.job with jPendingNr := -1 }) ∧
      (∀ r ∈ c.db.jobs, jobIsPending r.status = true → jobCompleted r.status = false) ∧
      (jobInit env c).1.db.jobs = c.db.jobs) := by
  refine ⟨jobInit_ret env c, fun hok => ?_⟩
  obtain ⟨h1, h2⟩ := foldl_jobInsert (c.db.jobs.filter fun r => jobIsPending r.status)
    ({ c with jobs := [] } : Clc).called
  have hok' : env.ok .dbSelect ({ c with jobs := [] } : Clc).io.tick = true := hok
  unfold jobInit
  rw [dbJobGetAll_eq hok']
  dsimp only
  rw [if_neg (by omega)]
  refine ⟨?_, fun r _ => jobCompleted_pending, ?_⟩
  · exact (dbExec_outside ..).jobs.trans ((dbExec_outside ..).jobs.trans h1)
  · dsimp only
    rw [dbNodeInitStatus_table, dbInstanceInitStatus_table, h2]
    rfl

/-- A restart while two jobs are in the table: the pending one is queued again. -/
theorem restart_resumes_pending_two :
    (jobInit Env.plain (.oneNode [.onSeven 1 LyA.nodeStopInstance,
      { JobRow.onSeven 2 LyA.nodeRunInstance with status := LyS.pendingNodeStroke }])).1.jobs.map
        LYJobInfo.jId = [2] := by
  rw [((restart_resumes_pending Env.plain _).2 rfl).1]
  decide

/-- A job that the web has created while the CLC was down is not queued after the restart. -/
theorem restart_loses_initiated : ¬ ∀ (env : Env) (c : Clc), (jobInit env c).2 = 0 →
    ∀ r ∈ c.db.jobs, jobExist (jobInit env c).1 r.id = true ↔ jobCompleted r.status = false := by
  intro hall
  have h := hall Env.plain (.oneNode [.onSeven 1 LyA.nodeStopInstance]) (rfl)
    (.onSeven 1 LyA.nodeStopInstance) (by decide)
  exact absurd (h.mpr (by decide)) (by decide)

/-! ## Completion -/

/-- Statements that a text has broken leave table `job` alone. -/
def Env.KeepsJobs (env : Env) : Prop := ∀ sql db, (env.injectExec sql db).1.jobs = db.jobs

section

variable {env : Env} (hkeep : env.KeepsJobs)
include hkeep

theorem dbExecText_table (c : Clc) (sql : Bytes) (texts : List Bytes) {f : Db → Db}
    (hf : ∀ db, (f db).jobs = db.jobs) : (dbExecText env c sql texts f).1.db.jobs = c.db.jobs := by
  unfold dbExecText
  split
  · rfl
  · split
    · exact dbExec_table c hf
    · exact hkeep _ _

theorem dbInstanceUpdateStatus_table (c : Clc) (id : Int)
    (ii : Option InstanceInfo) (nodeId : Int) :
    (dbInstanceUpdateStatus env c id ii nodeId).1.db.jobs = c.db.jobs := by
  unfold dbInstanceUpdateStatus
  split
  · rfl
  · rfl
  · rfl
  · dsimp only
    split
    · rfl
    · split
      · exact dbExecText_table hkeep _ _ _ fun _ => rfl
      · exact hkeep _ _

omit hkeep in
theorem lyPacketSend_table (c : Clc) (fd type : Int) (data : Bytes) :
    (lyPacketSend env c fd type data).1.db = c.db := by
  unfold lyPacketSend
  split <;> rfl

omit hkeep in
theorem jobInternalQueryInstance_table (c : Clc) (id : Int) :
    (jobInternalQueryInstance env c id).1.db = c.db := by
  have hget : (dbInstanceGetNode env c id).1.db = c.db := by
    unfold dbInstanceGetNode
    split <;> rfl
  unfold jobInternalQueryInstance
  split
  · rfl
  · dsimp only
    split
    · exact hget
    · split
      · exact hget
      · split
        · exact hget
        · split
          · exact hget
          · exact (lyPacketSend_table _ _ _ _).trans hget

theorem jobEnd_table (c : Clc) (job : LYJobInfo) (status : Int) :
    (jobEnd env c job status).1.db.jobs = c.db.jobs := by
  have hrel : (releaseOsm c job.jTargetId).db = c.db := by
    unfold releaseOsm
    dsimp only
    split <;> rfl
  unfold jobEnd
  split
  · dsimp only
    rw [jobInternalQueryInstance_table, dbInstanceUpdateStatus_table hkeep, hrel]
  · split
    · rfl
    · split
      · rw [dbInstanceUpdateStatus_table hkeep, hrel]
      · split
        · exact dbExec_table c fun _ => rfl
        · rfl

omit hkeep in
theorem jobBusyRemove_db (c : Clc) (job : LYJobInfo) : (jobBusyRemove c job).db = c.db := by
  unfold jobBusyRemove
  split
  · dsimp only
    split <;> rfl
  · rfl

/-- The rows of table `job` have the status that was written. -/
theorem jobUpdateStatus_stored (hdb : env.DbWrites) {c : Clc} {id status : Int} {r : Clc × Int}
    (hs : jobIsInitiated status = false) (h : jobUpdateStatus env c id status = .ok r) :
    r.1.db.jobs.map JobRow.id = c.db.jobs.map JobRow.id ∧
      ∀ row ∈ r.1.db.jobs, row.id = id → row.status = status := by
  have hdb0 : (jobStamp env c id status).db = c.db := rfl
  have hstamp : ∀ j ∈ (jobStamp env c id status).jobs, j.jId = id → j.jStatus = status :=
    fun j hj => jobStamp_jobs env c id status hj
  rw [jobUpdateStatus, if_neg (by rw [hs]; decide)] at h
  dsimp only at h
  generalize jobStamp env c id status = c1 at h hdb0 hstamp
  split at h
  · cases h
  · rename_i job hjob
    have hid := jobFind_id hjob
    have hst := hstamp job (List.mem_of_find?_eq_some hjob) hid
    have hfail : ¬ (dbJobUpdateStatus env c1 job).2 < 0 := by
      rw [dbJobUpdateStatus, dbExec_ok hdb]
      decide
    -- after the first command the row is written
    have hrow : (dbJobUpdateStatus env c1 job).1.db.jobs.map JobRow.id = c.db.jobs.map JobRow.id ∧
        ∀ row ∈ (dbJobUpdateStatus env c1 job).1.db.jobs, row.id = id → row.status = status := by
      rw [dbJobUpdateStatus, dbExec, if_pos (hdb _)]
      dsimp only
      rw [hdb0]
      constructor
      · rw [List.map_map]
        refine List.map_congr_left fun row _ => ?_
        simp only [Function.comp_apply]
        split <;> rfl
      · intro row hmem hrid
        obtain ⟨row', -, rfl⟩ := List.mem_map.mp hmem
        split at hrid
        · rename_i hcond
          rw [if_pos hcond]
          exact hst
        · rename_i hcond
          rw [if_neg hcond]
          rw [hid, hst] at hcond
          simpa [hrid] using hcond
    rw [if_neg hfail] at h
    -- nothing that follows writes to the table
    have hlater : r.1.db.jobs = (dbJobUpdateStatus env c1 job).1.db.jobs := by
      split at h
      · split at h
        · obtain rfl := Except.ok.inj h
          exact dbInstanceUpdateStatus_table hkeep _ _ _ _
        · obtain rfl := Except.ok.inj h
          dsimp only
          rw [jobBusyRemove_db]
          exact dbInstanceUpdateStatus_table hkeep _ _ _ _
      · split at h
        · split at h
          · obtain rfl := Except.ok.inj h
            exact congrArg Db.jobs (jobBusyRemove_db _ job)
          · obtain rfl := Except.ok.inj h
            exact (congrArg Db.jobs (jobBusyRemove_db _ job)).trans (jobEnd_table hkeep _ _ _)
        · obtain rfl := Except.ok.inj h
          rfl
    rw [hlater]
    exact hrow

end

/-! ### The updates of one job -/

/-- What may happen to a job and its row: the CLC updates its status, or something else happens that
touches neither the queue nor table `job`. -/
inductive UpdateEvent where
  | update (status : Int)
  | around (store : EntityStore) (nodes : List NodeRow) (instances : List InstanceRow) (io : Io)
      (hist : Nat → ConnHist)

/-- What an event does; only a queued job is updated. -/
def Clc.updateNext (env : Env) (id : Int) (c : Clc) : UpdateEvent → Option (Res Clc)
  | .update status =>
    if jobExist c id then some ((jobUpdateStatus env c id status).map Prod.fst) else none
  | .around store nodes instances io hist =>
    some (.ok { c with store, db := { c.db with nodes, instances }, io, hist })

/-- The web takes the job for completed if and only if the CLC has taken it off the queue. -/
def Agrees (c : Clc) (id : Int) : Prop :=
  ∀ row ∈ c.db.jobs, row.id = id → (jobCompleted row.status = true ↔ jobExist c id = false)

/-- The statuses on which the two sides agree. -/
def agreedStatus (status : Int) : Bool :=
  !(status == 399 || (decide (600 < status) && decide (status < 700)) || decide (799 ≤ status))

theorem agreedStatus_iff {status : Int} :
    agreedStatus status = true ↔ (jobCompleted status = true ↔ isFinal status = true) := by
  rw [jobCompleted_iff, isFinal_iff]
  simp only [agreedStatus, Bool.not_eq_true', Bool.or_eq_false_iff, Bool.and_eq_false_iff,
    decide_eq_false_iff_not, beq_eq_false_iff_ne]
  omega

/-- **After an update** the two sides agree exactly on these statuses. -/
theorem agrees_of_update {env : Env} (hkeep : env.KeepsJobs) (hdb : env.DbWrites) {c : Clc}
    {id status : Int} {r : Clc × Int} (hex : jobExist c id = true)
    (hs : jobIsInitiated status = false)
    (hrow : id ∈ c.db.jobs.map JobRow.id) (h : jobUpdateStatus env c id status = .ok r) :
    Agrees r.1 id ↔ agreedStatus status = true := by
  have hu := (jobUpdateStatus_updated env hex hs).of_ok h
  obtain ⟨hids, hstored⟩ := jobUpdateStatus_stored hkeep hdb hs h
  have hqueued : jobExist r.1 id = false ↔ isFinal status = true := by
    cases hf : isFinal status with
    | true =>
      simp only [iff_true]
      cases hq : jobExist r.1 id with
      | false => rfl
      | true =>
        obtain ⟨j, hj, hid⟩ := jobExist_iff.mp hq
        exact absurd hid (hu.gone hdb hf j hj)
    | false =>
      rw [hu.stays hf]
      simp
  rw [agreedStatus_iff, ← hqueued]
  constructor
  · intro hag
    rw [← hids] at hrow
    obtain ⟨row, hmem, hid⟩ := List.mem_map.mp hrow
    rw [← hstored row hmem hid]
    exact hag row hmem hid
  · intro hiff row hmem hid
    rw [hstored row hmem hid]
    exact hiff

theorem updateNext_update {env : Env} {id status : Int} {c c' : Clc}
    (h : c.updateNext env id (.update status) = some (.ok c')) :
    jobExist c id = true ∧ ∃ r, jobUpdateStatus env c id status = .ok r ∧ c' = r.1 := by
  rw [Clc.updateNext] at h
  split at h
  · rename_i hex
    cases hu : jobUpdateStatus env c id status with
    | error e =>
      rw [hu] at h
      cases h
    | ok r =>
      rw [hu] at h
      exact ⟨hex, r, rfl, (Except.ok.inj (Option.some.inj h)).symm⟩
  · cases h

theorem updateNext_row {env : Env} (hkeep : env.KeepsJobs) (hdb : env.DbWrites)
    {id : Int} {c c' : Clc} {ev : UpdateEvent} (h : c.updateNext env id ev = some (.ok c'))
    (hrow : id ∈ c.db.jobs.map JobRow.id) : id ∈ c'.db.jobs.map JobRow.id := by
  cases ev with
  | update status =>
    obtain ⟨-, r, hu, rfl⟩ := updateNext_update h
    cases hs : jobIsInitiated status with
    | true =>
      rw [jobUpdateStatus, if_pos hs] at hu
      obtain rfl := Except.ok.inj hu
      exact hrow
    | false =>
      rw [(jobUpdateStatus_stored hkeep hdb hs hu).1]
      exact hrow
  | around store nodes instances io hist =>
    cases h
    exact hrow

/-- **One event**: the two sides agree after it if they did before, unless it is an update with a
status on which they do not. -/
theorem updateNext_agrees {env : Env} (hkeep : env.KeepsJobs) (hdb : env.DbWrites) {id : Int}
    {c c' : Clc} {ev : UpdateEvent} (h : c.updateNext env id ev = some (.ok c'))
    (hrow : id ∈ c.db.jobs.map JobRow.id) (hag : Agrees c id) :
    Agrees c' id ↔ ∀ status, ev = .update status → agreedStatus status = true := by
  cases ev with
  | update status =>
    obtain ⟨hex, r, hu, rfl⟩ := updateNext_update h
    cases hs : jobIsInitiated status with
    | true =>
      rw [jobUpdateStatus, if_pos hs] at hu
      obtain rfl := Except.ok.inj hu
      refine ⟨fun _ s he => ?_, fun _ => hag⟩
      obtain rfl := UpdateEvent.update.inj he
      rw [show status = LyS.initiated by simpa [jobIsInitiated] using hs]
      decide
    | false =>
      rw [agrees_of_update hkeep hdb hex hs hrow hu]
      exact ⟨fun ha s he => UpdateEvent.update.inj he ▸ ha, fun ha => ha status rfl⟩
  | around store nodes instances io hist =>
    cases h
    exact ⟨fun _ s he => (by cases he), fun _ => hag⟩

/-- **CLC and web agree on completion** all along a run of updates exactly when every status that
is written is one on which they agree. -/
theorem completion_agrees_iff {env : Env} (hkeep : env.KeepsJobs) (hdb : env.DbWrites) {id : Int}
    {evs : List UpdateEvent} {c c' : Clc} (hrow : id ∈ c.db.jobs.map JobRow.id) (hag : Agrees c id)
    (h : Machine.exec (Clc.updateNext env id) evs c = some c') :
    (∀ n u, Machine.exec (Clc.updateNext env id) (evs.take n) c = some u → Agrees u id) ↔
      ∀ status, UpdateEvent.update status ∈ evs → agreedStatus status = true := by
  induction evs generalizing c with
  | nil =>
    refine ⟨fun _ s hm => absurd hm List.not_mem_nil, fun _ n u hu => ?_⟩
    rw [List.take_nil] at hu
    obtain rfl := Option.some.inj hu
    exact hag
  | cons ev evs ih =>
    rw [Machine.exec] at h
    split at h
    · rename_i c1 hc1
      have hone := updateNext_agrees hkeep hdb hc1 hrow hag
      have hrow1 := updateNext_row hkeep hdb hc1 hrow
      constructor
      · intro hall s hm
        have hag1 : Agrees c1 id := hall 1 c1 (by simp [Machine.exec, hc1])
        rcases List.mem_cons.mp hm with he | hm
        · exact hone.mp hag1 s he.symm
        · refine (ih hrow1 hag1 h).mp (fun n u hu => hall (n + 1) u ?_) s hm
          rw [List.take_succ_cons, Machine.exec_cons hc1]
          exact hu
      · intro hall n u hu
        have hag1 : Agrees c1 id := hone.mpr fun s he => hall s (he ▸ List.mem_cons_self)
        cases n with
        | zero =>
          obtain rfl := Option.some.inj hu
          exact hag
        | succ n =>
          rw [List.take_succ_cons, Machine.exec_cons hc1] at hu
          exact (ih hrow1 hag1 h).mpr (fun s hs => hall s (List.mem_cons_of_mem _ hs)) n u hu
    · cases h

/-- A stop job that has just been queued. -/
def Clc.stopQueued : Clc :=
  jobInsert (.oneNode [.onSeven 1 LyA.nodeStopInstance]) (JobRow.onSeven 1 LyA.nodeStopInstance).job

theorem stopQueued_agrees : Agrees Clc.stopQueued 1 := by
  unfold Agrees
  decide

/-- The job is started and finished. -/
theorem completion_agrees_iff_stop : ∃ c', Machine.exec (Clc.updateNext Env.stocked 1)
      [.update LyS.running, .update LyS.finishedSuccess] Clc.stopQueued = some c' ∧
    ∀ n u, Machine.exec (Clc.updateNext Env.stocked 1)
      (List.take n [.update LyS.running, .update LyS.finishedSuccess]) Clc.stopQueued = some u →
      Agrees u 1 := by
  have hrun : (Machine.exec (Clc.updateNext Env.stocked 1)
      [.update LyS.running, .update LyS.finishedSuccess] Clc.stopQueued).isSome = true := by
    rfl
  obtain ⟨c', hc'⟩ := Option.isSome_iff_exists.mp hrun
  refine ⟨c', hc', (completion_agrees_iff (fun _ _ => rfl) (fun _ => rfl) (by decide)
    stopQueued_agrees hc').mpr fun s hs => ?_⟩
  rcases List.mem_cons.mp hs with he | hs
  · rw [UpdateEvent.update.inj he]
    decide
  · rw [UpdateEvent.update.inj (List.mem_singleton.mp hs)]
    decide

/-- A node reports the last of the finished statuses: the web shows the job as completed and the CLC
keeps it. -/
theorem completion_disagrees : ¬ ∀ (env : Env) (id : Int) (c c' : Clc) (evs : List UpdateEvent),
    env.KeepsJobs → env.DbWrites → id ∈ c.db.jobs.map JobRow.id → Agrees c id →
    Machine.exec (Clc.updateNext env id) evs c = some c' → Agrees c' id := by
  intro hall
  have hrun : (Machine.exec (Clc.updateNext Env.stocked 1) [.update LyS.finishedLastStatus]
      Clc.stopQueued).map (fun c => (c.db.jobs.map fun r => (r.id, r.status), jobExist c 1)) =
      some ([(1, LyS.finishedLastStatus)], true) := by
    rfl
  obtain ⟨c', hc', heq⟩ := Option.map_eq_some_iff.mp hrun
  obtain ⟨hrows, hex⟩ := Prod.mk.inj heq
  have hag := hall Env.stocked 1 _ c' _ (fun _ _ => rfl) (fun _ => rfl) (by decide)
    stopQueued_agrees hc'
  have hmem : ((1, LyS.finishedLastStatus) : Int × Int) ∈ c'.db.jobs.map fun r =>
      (r.id, r.status) := by
    rw [hrows]
    exact List.mem_cons_self
  obtain ⟨row, hrow, hpair⟩ := List.mem_map.mp hmem
  have hgone := (hag row hrow (Prod.mk.inj hpair).1).mp (by rw [(Prod.mk.inj hpair).2]; decide)
  rw [hex] at hgone
  cases hgone

end LuoYun

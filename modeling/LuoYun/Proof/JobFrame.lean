import LuoYun.Proof.Exclusive

/-!
# What running one job does to the queue

The functions that run a job write to that job and take it off the queue; the other jobs stay as
they are. Only `__job_node_disable` is different: it ends every job that waits for the node
(`job_clean_on_entity`).

A function that has put its job into a status of class RUNNING has it `InHand`: the job is still
queued, so it may be written to. What it has done when it returns is `Ran`.
-/

namespace LuoYun

/-- The classes of a job that a later dispatch pass retries or times out. -/
def isLive (status : Int) : Bool :=
  jobIsRunning status || jobIsWaiting status || jobIsPending status

/-- The classes of a job that has come to its end. -/
def isFinal (status : Int) : Bool :=
  jobIsFinished status || jobIsTimeout status || jobIsCancelled status

theorem isFinal_iff {status : Int} : isFinal status = true ↔
    (300 ≤ status ∧ status < 399) ∨ status = 600 ∨ (700 ≤ status ∧ status < 799) := by
  simp only [isFinal, jobIsFinished, jobIsTimeout, jobIsCancelled, Bool.or_eq_true,
    Bool.and_eq_true, decide_eq_true_iff, beq_iff_eq, or_assoc]
  rfl

/-- Not a use of a job that was freed. -/
def Sound (e : Fault) : Prop := e ≠ .useAfterFree

/-- The jobs with another id. -/
def Clc.others (c : Clc) (id : Int) : List LYJobInfo := c.jobs.filter fun j => j.jId ≠ id

theorem mem_others {c : Clc} {id : Int} {j : LYJobInfo} :
    j ∈ c.others id ↔ j ∈ c.jobs ∧ j.jId ≠ id := by
  simp [Clc.others]

theorem others_congr {c c' : Clc} (h : c'.jobs = c.jobs) (id : Int) :
    c'.others id = c.others id := by
  rw [Clc.others, h, Clc.others]

theorem jobExist_iff {c : Clc} {id : Int} : jobExist c id = true ↔ ∃ j ∈ c.jobs, j.jId = id := by
  simp only [jobExist, List.any_eq_true, beq_iff_eq, eq_comm (a := id)]

theorem jobExist_congr {c c' : Clc} (h : c'.jobs = c.jobs) (id : Int) :
    jobExist c' id = jobExist c id := by
  rw [jobExist, h, jobExist]

theorem jobExist_of_find {c : Clc} {id : Int} {job : LYJobInfo} (h : jobFind c id = some job) :
    jobExist c id = true :=
  jobExist_iff.mpr ⟨job, List.mem_of_find?_eq_some h, jobFind_id h⟩

theorem find_of_jobExist {c : Clc} {id : Int} (h : jobExist c id = true) :
    ∃ job, jobFind c id = some job := by
  obtain ⟨j, hj, hid⟩ := jobExist_iff.mp h
  have : (jobFind c id).isSome = true := List.find?_isSome.mpr ⟨j, hj, by simpa using hid⟩
  exact Option.isSome_iff_exists.mp this

/-- Whether another job is queued. -/
theorem jobExist_of_others {c c' : Clc} {id k : Int}
    (h : c'.others id = c.others id) (hk : k ≠ id) :
    jobExist c' k = jobExist c k := by
  have key : ∀ d : Clc, jobExist d k = true ↔ ∃ j ∈ d.others id, j.jId = k := by
    intro d
    rw [jobExist_iff]
    constructor
    · rintro ⟨j, hj, rfl⟩
      exact ⟨j, mem_others.mpr ⟨hj, hk⟩, rfl⟩
    · rintro ⟨j, hj, rfl⟩
      exact ⟨j, (mem_others.mp hj).1, rfl⟩
  rw [Bool.eq_iff_iff, key, key, h]

/-! ## Writing to a job -/

theorem mem_setJob {c : Clc} {id : Int} {f : LYJobInfo → LYJobInfo} {j : LYJobInfo} :
    j ∈ (setJob c id f).jobs ↔ ∃ i ∈ c.jobs, j = if i.jId = id then f i else i := by
  simp only [setJob, List.mem_map, eq_comm]

theorem setJob_others (c : Clc) (id : Int) {f : LYJobInfo → LYJobInfo}
    (hf : ∀ j, (f j).jId = j.jId) :
    (setJob c id f).others id = c.others id := by
  simp only [Clc.others, setJob]
  induction c.jobs with
  | nil => rfl
  | cons j js ih =>
    by_cases hj : j.jId = id
    · simp only [List.map_cons, hj, if_true, List.filter_cons, hf, not_true, decide_false,
        Bool.false_eq_true, if_false, ne_eq] at ih ⊢
      exact ih
    · simp only [List.map_cons, hj, if_false, List.filter_cons, not_false_eq_true, decide_true,
        if_true, ne_eq] at ih ⊢
      rw [ih]

theorem setJob_exist {c : Clc} {id : Int} {f : LYJobInfo → LYJobInfo} (hf : ∀ j, (f j).jId = j.jId)
    (h : jobExist c id = true) : jobExist (setJob c id f) id = true := by
  obtain ⟨j, hj, hid⟩ := jobExist_iff.mp h
  exact jobExist_iff.mpr ⟨f j, mem_setJob.mpr ⟨j, hj, by rw [if_pos hid]⟩, (hf j).trans hid⟩

/-- What `setJob` leaves of the job itself. -/
theorem of_mem_setJob {c : Clc} {id : Int} {f : LYJobInfo → LYJobInfo} {j : LYJobInfo}
    (hj : j ∈ (setJob c id f).jobs) (hid : j.jId = id) :
    ∃ i ∈ c.jobs, i.jId = id ∧ j = f i := by
  obtain ⟨i, hi, rfl⟩ := mem_setJob.mp hj
  split at hid
  · rename_i h
    exact ⟨i, hi, h, by rw [if_pos h]⟩
  · rename_i h
    exact absurd hid h

theorem jobBusyRemove_jobs (c : Clc) (job : LYJobInfo) :
    (jobBusyRemove c job).jobs = (setJob c job.jId fun j =>
      { j with jPendingNr := if job.jPendingNr = 0 then -1 else j.jPendingNr }).jobs := by
  unfold jobBusyRemove
  split
  · dsimp only
    split <;> rfl
  · simp only [setJob, ite_self, List.map_id']

theorem jobBusyRemove_others (c : Clc) (job : LYJobInfo) :
    (jobBusyRemove c job).others job.jId = c.others job.jId :=
  (others_congr (jobBusyRemove_jobs c job) _).trans (setJob_others c job.jId fun _ => rfl)

theorem jobRemove_others (c : Clc) (job : LYJobInfo) :
    (jobRemove c job).others job.jId = c.others job.jId := by
  rw [← jobBusyRemove_others c job]
  simp only [jobRemove, Clc.others, List.filter_filter, Bool.and_self]

theorem jobRemove_gone {c : Clc} {job j : LYJobInfo} (h : j ∈ (jobRemove c job).jobs) :
    j.jId ≠ job.jId := by
  simpa using (List.mem_filter.mp h).2

theorem releaseOsm_jobs (c : Clc) (insId : Int) : (releaseOsm c insId).jobs = c.jobs := by
  unfold releaseOsm
  dsimp only
  split <;> rfl

theorem jobEnd_jobs (env : Env) (c : Clc) (job : LYJobInfo) (status : Int) :
    (jobEnd env c job status).1.jobs = c.jobs := by
  have hrel : (releaseOsm c job.jTargetId).jobs = c.jobs := releaseOsm_jobs c job.jTargetId
  unfold jobEnd
  split
  · exact ((dbInstanceUpdateStatus_outside ..).trans
      (jobInternalQueryInstance_outside ..)).jobs.trans hrel
  · split
    · rfl
    · split
      · exact (dbInstanceUpdateStatus_outside ..).jobs.trans hrel
      · split
        · exact (dbInstanceDelete_outside ..).jobs
        · rfl

/-! ## `job_update_status` -/

theorem jobStamp_jobs (env : Env) (c : Clc) (id status : Int) {j : LYJobInfo}
    (hj : j ∈ (jobStamp env c id status).jobs) (hid : j.jId = id) : j.jStatus = status := by
  obtain ⟨i, -, -, rfl⟩ := of_mem_setJob hj hid
  rfl

theorem jobStamp_others (env : Env) (c : Clc) (id status : Int) :
    (jobStamp env c id status).others id = c.others id :=
  setJob_others c id fun _ => rfl

theorem jobStamp_exist {env : Env} {c : Clc} {id : Int} (status : Int) (h : jobExist c id = true) :
    jobExist (jobStamp env c id status) id = true :=
  setJob_exist (fun _ => rfl) h

/-- What `job_update_status` with a status other than INITIATED does to the queue. -/
structure Updated (env : Env) (c : Clc) (id status : Int) (r : Clc × Int) : Prop where
  others : r.1.others id = c.others id
  written : ∀ j ∈ r.1.jobs, j.jId = id → j.jStatus = status
  gone : env.DbWrites → isFinal status = true → ∀ j ∈ r.1.jobs, j.jId ≠ id
  stays : isFinal status = false → jobExist r.1 id = true

/-- **`job_update_status` on a queued job.** -/
theorem jobUpdateStatus_updated (env : Env) {c : Clc} {id status : Int} (hex : jobExist c id = true)
    (hs : jobIsInitiated status = false) :
    Sat Sound (Updated env c id status) (jobUpdateStatus env c id status) := by
  have hstamp := jobStamp_others env c id status
  have hstatus : ∀ j ∈ (jobStamp env c id status).jobs, j.jId = id → j.jStatus = status :=
    fun j hj => jobStamp_jobs env c id status hj
  have hexist : jobExist (jobStamp env c id status) id = true := jobStamp_exist status hex
  unfold jobUpdateStatus
  rw [if_neg (by rw [hs]; decide)]
  dsimp only
  generalize jobStamp env c id status = c1 at hstamp hstatus hexist ⊢
  split
  · rename_i hnone
    obtain ⟨job, hjob⟩ := find_of_jobExist hexist
    rw [hnone] at hjob
    cases hjob
  · rename_i job hjob
    have hid := jobFind_id hjob
    have hout := (dbJobUpdateStatus_outside env c1 job).jobs
    have hwrite : env.DbWrites → ¬ (dbJobUpdateStatus env c1 job).2 < 0 := by
      intro hdb
      rw [dbJobUpdateStatus, dbExec_ok hdb]
      decide
    generalize dbJobUpdateStatus env c1 job = d at hout hwrite ⊢
    -- a state with the jobs of `c1`
    have same : ∀ {c2 : Clc} {ret : Int}, c2.jobs = c1.jobs →
        (env.DbWrites → isFinal status = false) →
        Updated env c id status (c2, ret) := by
      intro c2 ret hjobs hfin
      refine ⟨(others_congr hjobs id).trans hstamp, fun j hj => hstatus j (hjobs ▸ hj), ?_, ?_⟩
      · intro hdb hf
        rw [hfin hdb] at hf
        cases hf
      · exact fun _ => (jobExist_congr hjobs id).trans hexist
    -- a state from which the job was taken
    have removed : ∀ {c2 : Clc} {ret : Int}, c2.jobs = c1.jobs → isFinal status = true →
        Updated env c id status (jobRemove c2 job, ret) := by
      intro c2 ret hjobs hfin
      have hgone : ∀ j ∈ (jobRemove c2 job).jobs, j.jId ≠ id := fun j hj => hid ▸ jobRemove_gone hj
      refine ⟨?_, fun j hj hj' => absurd hj' (hgone j hj), fun _ _ => hgone, fun hf => ?_⟩
      · have := jobRemove_others c2 job
        rw [hid] at this
        exact this.trans ((others_congr hjobs id).trans hstamp)
      · rw [hfin] at hf
        cases hf
    split
    · rename_i hfail
      exact same hout fun hdb => absurd hfail (hwrite hdb)
    · split
      · rename_i hosm
        have hnot : isFinal status = false := by rw [hosm]; decide
        have hst := (dbInstanceUpdateStatus_outside env d.1 job.jTargetId
          (some { ip := some (cstr "0.0.0.0"), status := DomainS.start })
          (lyEntityDbId d.1.store job.jEntId)).jobs.trans hout
        split
        · exact same hst fun _ => hnot
        · refine ⟨?_, fun j hj hj' => ?_, fun _ hf => ?_, fun _ => ?_⟩
          · have := jobBusyRemove_others (dbInstanceUpdateStatus env d.1 job.jTargetId
              (some { ip := some (cstr "0.0.0.0"), status := DomainS.start })
              (lyEntityDbId d.1.store job.jEntId)).1 job
            rw [hid] at this
            exact this.trans ((others_congr hst id).trans hstamp)
          · dsimp only at hj
            rw [jobBusyRemove_jobs, hid] at hj
            obtain ⟨i, hi, hii, rfl⟩ := of_mem_setJob hj hj'
            exact hstatus i (hst ▸ hi) hii
          · rw [hnot] at hf
            cases hf
          · have hex2 := (jobExist_congr hst id).trans hexist
            dsimp only
            rw [jobExist_congr (jobBusyRemove_jobs _ job) id, hid]
            exact setJob_exist (by exact fun _ => rfl) hex2
      · split
        · rename_i hfin
          have hfin' : isFinal status = true := hfin
          split
          · exact removed hout hfin'
          · exact removed ((jobEnd_jobs env d.1 job status).trans hout) hfin'
        · rename_i hfin
          have hfin' : isFinal status = false := by simpa [isFinal] using hfin
          exact same hout fun _ => hfin'

/-! ## Running a job -/

/-- The job `id` is queued with a live status; the other jobs are those of `c`. -/
structure InHand (id : Int) (c c1 : Clc) : Prop where
  others : c1.others id = c.others id
  queued : jobExist c1 id = true
  live : ∀ j ∈ c1.jobs, j.jId = id → isLive j.jStatus = true

/-- The job `id` was run: the other jobs are those of `c`, and if the database has taken every
status the job is gone or has a live one. -/
structure Ran (env : Env) (id : Int) (c c' : Clc) : Prop where
  others : c'.others id = c.others id
  live : env.DbWrites → ∀ j ∈ c'.jobs, j.jId = id → isLive j.jStatus = true

namespace InHand

variable {id : Int} {c c1 c2 : Clc}

theorem ran (env : Env) (h : InHand id c c1) : Ran env id c c1 := ⟨h.others, fun _ => h.live⟩

theorem of_jobs (h : InHand id c c1) (hj : c2.jobs = c1.jobs) : InHand id c c2 where
  others := (others_congr hj id).trans h.others
  queued := (jobExist_congr hj id).trans h.queued
  live := fun j hmem => h.live j (hj ▸ hmem)

theorem outside (h : InHand id c c1) (ho : Outside c1 c2) : InHand id c c2 := h.of_jobs ho.jobs

/-- A write to a field of the job other than its id and its status. -/
theorem setJob (h : InHand id c c1) {f : LYJobInfo → LYJobInfo} (hf : ∀ j, (f j).jId = j.jId)
    (hs : ∀ j, (f j).jStatus = j.jStatus) : InHand id c (setJob c1 id f) where
  others := (setJob_others c1 id hf).trans h.others
  queued := setJob_exist hf h.queued
  live := by
    intro j hj hid
    obtain ⟨i, hi, hii, rfl⟩ := of_mem_setJob hj hid
    rw [hs]
    exact h.live i hi hii

end InHand

theorem not_initiated {status : Int} (h : isFinal status = true ∨ isLive status = true) :
    jobIsInitiated status = false := by
  cases hi : jobIsInitiated status with
  | false => rfl
  | true =>
    have : status = LyS.initiated := by simpa [jobIsInitiated] using hi
    rw [this] at h
    exact absurd h (by decide)

variable {env : Env} {id : Int} {c c1 : Clc}

/-- Giving the job a final or a live status. -/
theorem jobFail_ran (status : Int) (ho : c1.others id = c.others id) (hq : jobExist c1 id = true)
    (hs : isFinal status = true ∨ isLive status = true) :
    Sat Sound (Ran env id c) (jobFail env c1 id status) := by
  have hup := jobUpdateStatus_updated env hq (not_initiated hs)
  unfold jobFail
  split
  · exact hup.of_error (by assumption)
  · rename_i r hr
    have hu := hup.of_ok hr
    refine ⟨hu.others.trans ho, fun hdb j hj hid => ?_⟩
    rcases hs with hs | hs
    · exact absurd hid (hu.gone hdb hs j hj)
    · rw [hu.written j hj hid]
      exact hs

theorem InHand.fail (h : InHand id c c1) (status : Int)
    (hs : isFinal status = true ∨ isLive status = true) :
    Sat Sound (Ran env id c) (jobFail env c1 id status) :=
  jobFail_ran status h.others h.queued hs

/-- The job is put into status RUNNING. -/
theorem started_inHand (hq : jobExist c id = true) :
    Sat Sound (fun r => InHand id c r.1) (jobUpdateStatus env c id LyS.running) := by
  refine (jobUpdateStatus_updated env hq (by decide)).mono fun r hu => ?_
  refine ⟨hu.others, hu.stays (by decide), fun j hj hid => ?_⟩
  rw [hu.written j hj hid]
  decide

theorem jobSendRun_ran (h : InHand id c c1) (ci : NodeCtrlInstance) (i : Nat) :
    Sat Sound (Ran env id c) (jobSendRun env c1 id ci i) := by
  have h1 : InHand id c (setJobEnt c1 id i) := h.setJob (fun _ => rfl) fun _ => rfl
  unfold jobSendRun
  dsimp only
  generalize setJobEnt c1 id i = c2 at h1
  split
  · exact h1.fail _ (.inl (by decide))
  · exact (by decide : Fault.wrongType ≠ .useAfterFree)
  · have hrenew := renewSecret_outside env c2 ci
    split
    · rename_i c3 heq
      rw [heq] at hrenew
      exact (h1.outside hrenew).fail _ (.inl (by decide))
    · rename_i c3 ci2 heq
      rw [heq] at hrenew
      have h2 := h1.outside (hrenew.trans (dbInstanceUpdateStatus_outside env c3 ci2.insId none
        (lyEntityDbId c3.store i)))
      split
      · exact h2.fail _ (.inl (by decide))
      · split
        · exact h2.fail _ (.inl (by decide))
        · rename_i xml _
          have h3 := h2.outside (lyPacketSend_outside env _
            (lyEntityFd
              (dbInstanceUpdateStatus env c3 ci2.insId none (lyEntityDbId c3.store i)).1.store i)
            PktType.clcInstanceControlRequest xml)
          split
          · exact h3.fail _ (.inl (by decide))
          · refine InHand.ran env (InHand.setJob (h3.of_jobs ?_) ?_ ?_)
            · rfl
            · exact fun _ => rfl
            · exact fun _ => rfl

theorem isFinal_unavail (s : EntityStore) (nodeId : Int) :
    isFinal (unavailStatus s nodeId) = true := by
  unfold unavailStatus
  dsimp only
  repeat' split
  all_goals decide

theorem nodeSchedule_sound (env : Env) (s : EntityStore) (nodeId : Int) :
    Sat Sound (fun _ => True) (nodeSchedule env s nodeId) := by
  have hany : ∀ l ent mem, Sat Sound (fun _ => True) (nodeScheduleAny env s l ent mem) := by
    intro l
    induction l with
    | nil => exact fun _ _ => trivial
    | cons k l ih =>
      intro ent mem
      unfold nodeScheduleAny
      split
      · exact trivial
      · exact (by decide : Fault.wrongType ≠ .useAfterFree)
      · dsimp only
        split
        · exact (by decide : Fault.diverge ≠ .useAfterFree)
        · exact ih _ _
  unfold nodeSchedule
  split
  · unfold nodeScheduleLast
    dsimp only
    split
    · exact trivial
    · split
      · exact trivial
      · exact (by decide : Fault.wrongType ≠ .useAfterFree)
      · split
        · exact trivial
        · split
          · exact trivial
          · split <;> exact trivial
  · exact hany _ _ _

/-- Waiting for the OS manager: the job goes on to another status or stays as it is. -/
theorem jobWait_ran {job : LYJobInfo} (hid : job.jId = id) (h : InHand id c c) :
    Sat Sound (Ran env id c) (jobWait env c job) := by
  subst hid
  unfold jobWait
  dsimp only
  split
  · split
    · exact h.fail _ (.inr (by decide))
    · exact h.ran env
  · split
    · split
      · exact h.fail _ (.inr (by decide))
      · split
        · exact h.fail _ (.inl (by decide))
        · exact h.ran env
    · split
      · exact h.fail _ (.inl (by decide))
      · split
        · exact h.fail _ (.inl (by decide))
        · exact h.ran env

theorem isLive_waitingOsm {status : Int} (h : jobIsWaitingOsm status = true) :
    isLive status = true := by
  have : status = 411 ∨ status = 412 ∨ status = 421 := by
    simpa [jobIsWaitingOsm, LyS.waitingStartingOsm, LyS.waitingSycingOsm,
      LyS.waitingStartingService, or_assoc] using h
  rcases this with rfl | rfl | rfl <;> decide

theorem jobStartInstance_ran {job : LYJobInfo} (hid : job.jId = id) (hq : jobExist c id = true)
    (hall : ∀ j ∈ c.jobs, j.jId = id → j.jStatus = job.jStatus) :
    Sat Sound (Ran env id c) (jobStartInstance env c job) := by
  unfold jobStartInstance
  split
  · rename_i hwait
    refine jobWait_ran hid ⟨rfl, hq, fun j hj hj' => ?_⟩
    rw [hall j hj hj']
    exact isLive_waitingOsm hwait
  · subst hid
    have hrun : Sat Sound (fun r => InHand job.jId c r.1)
        (jobUpdateStatus env c job.jId LyS.running) :=
    started_inHand hq
    split
    · exact hrun.of_error (by assumption)
    · rename_i r hr
      have h1 := hrun.of_ok hr
      split
      · exact h1.ran env
      · have h2 : InHand job.jId c (setJob r.1 job.jId fun j => { j with jPendingNr := 0 }) :=
          h1.setJob (fun _ => rfl) fun _ => rfl
        have hget := dbNodeInstanceControlGet_outside env
          (setJob r.1 job.jId fun j => { j with jPendingNr := 0 })
          { reqId := job.jId, insId := job.jTargetId }
        dsimp only
        split
        · rename_i c2 heq
          rw [heq] at hget
          exact (h2.outside hget).fail _ (.inl (by decide))
        · rename_i c2 ci nodeId heq
          rw [heq] at hget
          have h3 := h2.outside hget
          have hsched := nodeSchedule_sound env c2.store nodeId
          split
          · exact hsched.of_error (by assumption)
          · split
            · exact h3.fail _ (.inl (by decide))
            · split
              · have h4 : InHand job.jId c { c2 with jobInsPendingNr := c2.jobInsPendingNr + 1 } :=
                  h3.of_jobs rfl
                exact (h4.setJob (by exact fun _ => rfl) (by exact fun _ => rfl)).fail _
                  (.inr (by decide))
              · split
                · exact h3.fail _ (.inl (isFinal_unavail _ _))
                · exact jobSendRun_ran h3 _ _

theorem jobSendSimple_ran (h : InHand id c c1) (ci : NodeCtrlInstance) (nodeId : Int) :
    Sat Sound (Ran env id c) (jobSendSimple env c1 id ci nodeId) := by
  unfold jobSendSimple
  dsimp only
  split
  · exact h.fail _ (.inl (by decide))
  · split
    · exact h.fail _ (.inl (by decide))
    · generalize lyEntityFindByDb c1.store .node nodeId = ent
      have h1 : InHand id c (setJobEnt c1 id ent) := h.setJob (fun _ => rfl) fun _ => rfl
      generalize setJobEnt c1 id ent = c2 at h1
      split
      · exact h1.fail _ (.inl (by decide))
      · rename_i xml _
        have h2 := h1.outside (lyPacketSend_outside env c2 (lyEntityFd c2.store ent)
          PktType.clcInstanceControlRequest xml)
        split
        · exact h2.fail _ (.inl (by decide))
        · refine InHand.ran env (h2.setJob ?_ ?_)
          · exact fun _ => rfl
          · exact fun _ => rfl

theorem jobControlInstanceSimple_ran {job : LYJobInfo} (hid : job.jId = id)
    (hq : jobExist c id = true) :
    Sat Sound (Ran env id c) (jobControlInstanceSimple env c job) := by
  subst hid
  have hrun : Sat Sound (fun r => InHand job.jId c r.1)
      (jobUpdateStatus env c job.jId LyS.running) :=
    started_inHand hq
  unfold jobControlInstanceSimple
  split
  · exact hrun.of_error (by assumption)
  · rename_i r hr
    have h1 := hrun.of_ok hr
    split
    · exact h1.ran env
    · have hget := dbNodeInstanceControlGet_outside env r.1
        { reqId := job.jId, insId := job.jTargetId }
      split
      · rename_i c2 heq
        rw [heq] at hget
        exact (h1.outside hget).fail _ (.inl (by decide))
      · rename_i c2 ci nodeId heq
        rw [heq] at hget
        have h2 := h1.outside hget
        dsimp only
        split
        · refine InHand.fail ?_ _ (.inl (by decide))
          split
          · exact h2.outside (dbInstanceUpdateStatus_outside ..)
          · exact h2
        · exact jobSendSimple_ran h2 _ _

theorem jobQuery_ran {job : LYJobInfo} (hid : job.jId = id) (hq : jobExist c id = true)
    (type : EntityType) (pktType : Int) (request : Option Bytes) :
    Sat Sound (Ran env id c) (jobQuery env c job type pktType request) := by
  subst hid
  have hrun : Sat Sound (fun r => InHand job.jId c r.1)
      (jobUpdateStatus env c job.jId LyS.running) :=
    started_inHand hq
  unfold jobQuery
  split
  · exact hrun.of_error (by assumption)
  · rename_i r hr
    have h1 := hrun.of_ok hr
    split
    · exact h1.ran env
    · dsimp only
      generalize lyEntityFindByDb r.1.store type job.jTargetId = ent
      split
      · exact h1.fail _ (.inl (by decide))
      · split
        · exact h1.fail _ (.inl (by decide))
        · have h2 : InHand job.jId c (setJobEnt r.1 job.jId ent) :=
            h1.setJob (fun _ => rfl) fun _ => rfl
          generalize setJobEnt r.1 job.jId ent = c2 at h2
          split
          · exact h2.fail _ (.inl (by decide))
          · rename_i data
            have h3 :=
              h2.outside (lyPacketSend_outside env c2 (lyEntityFd c2.store ent) pktType data)
            split
            · exact h3.fail _ (.inl (by decide))
            · exact h3.ran env

theorem jobNodeEnable_ran {job : LYJobInfo} (hid : job.jId = id) (hq : jobExist c id = true) :
    Sat Sound (Ran env id c) (jobNodeEnable env c job) := by
  subst hid
  unfold jobNodeEnable
  dsimp only
  split
  · exact jobFail_ran _ rfl hq (.inl (by decide))
  · have h1 := (dbNodeEnable_outside env c job.jTargetId true).jobs
    split
    · exact jobFail_ran _ (others_congr h1 _) ((jobExist_congr h1 _).trans hq) (.inl (by decide))
    · have h2 := (lyPacketSend_outside env (dbNodeEnable env c job.jTargetId true).1
        (lyEntityFd (dbNodeEnable env c job.jTargetId true).1.store
          (lyEntityFindByDb c.store .node job.jTargetId)) PktType.joinRequest
            (cstr "join")).jobs.trans h1
      refine jobFail_ran _ (others_congr h2 _) ((jobExist_congr h2 _).trans hq) (.inl ?_)
      split <;> decide

theorem jobNodeConfig_ran {job : LYJobInfo} (hid : job.jId = id) (hq : jobExist c id = true) :
    Sat Sound (Ran env id c) (jobNodeConfig env c job) := by
  subst hid
  unfold jobNodeConfig
  dsimp only
  split
  · exact jobFail_ran _ rfl hq (.inl (by decide))
  · split
    · exact jobFail_ran _ rfl hq (.inl (by decide))
    · rename_i k _
      split
      · exact jobFail_ran _ rfl hq (.inl (by decide))
      · exact (by decide : Fault.wrongType ≠ .useAfterFree)
      · have hfind := (dbNodeFind_outside env c (.byId (c.store.ents k).dbId)).jobs
        split
        · exact jobFail_ran _ (others_congr hfind _)
            ((jobExist_congr hfind _).trans hq) (.inl (by decide))
        · exact jobFail_ran _ (others_congr hfind _)
            ((jobExist_congr hfind _).trans hq) (.inl (by decide))

/-- **`__job_run`** on a job other than those of the two special actions. -/
theorem jobRun_ran {job : LYJobInfo} (hid : job.jId = id) (hq : jobExist c id = true)
    (hall : ∀ j ∈ c.jobs, j.jId = id → j.jStatus = job.jStatus)
    (hdis : job.jAction ≠ LyA.clcDisableNode) (hsave : job.jAction ≠ LyA.nodeSaveInstance) :
    Sat Sound (Ran env id c) (jobRun env c job) := by
  unfold jobRun
  rw [if_neg hdis, if_neg hsave]
  split
  · exact jobNodeEnable_ran hid hq
  split
  · exact jobNodeConfig_ran hid hq
  split
  · exact jobStartInstance_ran hid hq hall
  split
  · exact jobStartInstance_ran hid hq hall
  split
  · exact jobControlInstanceSimple_ran hid hq
  split
  · exact jobQuery_ran hid hq _ _ _
  split
  · exact jobQuery_ran hid hq _ _ _
  · rw [hid]
    exact jobFail_ran _ rfl hq (.inl (by decide))

end LuoYun

import LuoYun.Proof.Traversal

/-!
# The status of a job after a visit and after a reply

A dispatch pass knows what to do with a job that is INITIATED and with one whose status is of class
RUNNING, WAITING or PENDING. Any other status it finds is unexpected: the job is put into status
UNKNOWN and left to the user. A node may report any integer, so that such a status comes from a
reply.
-/

namespace LuoYun

/-- The statuses that a dispatch pass expects. -/
def isRunnable (status : Int) : Bool := jobIsInitiated status || isLive status

/-- How the status of a job, `before` the visit, may be afterwards. -/
def Settled (before after : Int) : Prop :=
  isLive after = true ∨ isRunnable before = false ∧ after = LyS.unknown

/-- Every job but those of `ids` is as it was. -/
def Keeps (ids : List Int) (c c' : Clc) : Prop := ∀ j ∈ c'.jobs, j.jId ∉ ids → j ∈ c.jobs

theorem keeps_of_others {c c' : Clc} {id : Int} (h : c'.others id = c.others id) :
    Keeps [id] c c' := by
  intro j hj hne
  have hmem : j ∈ c'.others id := mem_others.mpr ⟨hj, fun he => hne (by simp [he])⟩
  rw [h] at hmem
  exact (mem_others.mp hmem).1

/-! ## One visit -/

section

variable {env : Env} (hdb : env.DbWrites)
include hdb

/-- With a final status the database has taken, a job is gone and the others are as they were. -/
theorem jobUpdateStatus_ended {c : Clc} {id status : Int} {r : Clc × Int}
    (hex : jobExist c id = true)
    (hf : isFinal status = true) (h : jobUpdateStatus env c id status = .ok r) :
    ∀ j ∈ r.1.jobs, j.jId ≠ id ∧ j ∈ c.jobs := by
  have hu := (jobUpdateStatus_updated env hex (not_initiated (.inl hf))).of_ok h
  intro j hj
  have hne := hu.gone hdb hf j hj
  exact ⟨hne, keeps_of_others hu.others j hj (by simpa using hne)⟩

theorem jobCleanOnEntity_go_keeps {ent : Int} {ids : List Int} {c c' : Clc}
    (h : jobCleanOnEntity.go env ent LyS.finishedFailureNodeNotEnabled ids c = .ok c') :
    ∀ j ∈ c'.jobs, j ∈ c.jobs := by
  induction ids generalizing c with
  | nil =>
    obtain rfl := Except.ok.inj h
    exact fun j hj => hj
  | cons id ids ih =>
    rw [jobCleanOnEntity.go] at h
    split at h
    · exact ih h
    · rename_i job hjob
      split at h
      · dsimp only at h
        split at h
        · cases h
        · rename_i r hr
          split at h
          · have hend := jobUpdateStatus_ended hdb (jobExist_of_find hjob) (by decide) hr
            exact fun j hj => (hend j (ih h j hj)).2
          · cases h
      · exact ih h

theorem jobFail_ended {c c' : Clc} {id status : Int} (hf : isFinal status = true)
    (h : jobFail env c id status = .ok c') : ∀ j ∈ c'.jobs, j.jId ≠ id ∧ j ∈ c.jobs := by
  unfold jobFail at h
  split at h
  · cases h
  · rename_i r hr
    obtain rfl := Except.ok.inj h
    by_cases hex : jobExist c id = true
    · exact jobUpdateStatus_ended hdb hex hf hr
    · -- a job that is not queued cannot be given a status
      rw [jobUpdateStatus, if_neg (by rw [not_initiated (.inl hf)]; decide)] at hr
      dsimp only at hr
      split at hr
      · cases hr
      · rename_i job hjob
        obtain ⟨i, hi, hid⟩ := jobExist_iff.mp (jobExist_of_find hjob)
        obtain ⟨i', hi', hii, -⟩ := of_mem_setJob hi hid
        exact absurd (jobExist_iff.mpr ⟨i', hi', hii⟩) hex

theorem jobNodeDisable_ended {c c' : Clc} {job : LYJobInfo}
    (h : jobNodeDisable env c job = .ok c') :
    ∀ j ∈ c'.jobs, j.jId ≠ job.jId ∧ j ∈ c.jobs := by
  have hout := (dbNodeEnable_outside env c job.jTargetId false).jobs
  unfold jobNodeDisable at h
  dsimp only at h
  split at h
  · intro j hj
    obtain ⟨h1, h2⟩ := jobFail_ended hdb (by decide) h j hj
    exact ⟨h1, hout ▸ h2⟩
  · split at h
    · split at h
      · cases h
      · rename_i c2 hc2
        intro j hj
        obtain ⟨h1, h2⟩ := jobFail_ended hdb (by decide) h j hj
        exact ⟨h1, hout ▸ jobCleanOnEntity_go_keeps hdb hc2 j h2⟩
    · split at h
      · intro j hj
        obtain ⟨h1, h2⟩ := jobFail_ended hdb (by decide) h j hj
        exact ⟨h1, hout ▸ h2⟩
      · intro j hj
        obtain ⟨h1, h2⟩ := jobFail_ended hdb (by decide) h j hj
        exact ⟨h1, hout ▸ h2⟩

/-- What a visit leaves: the job has been settled, the other jobs are as they were. -/
structure VisitSettled (c : Clc) (job : LYJobInfo) (c' : Clc) : Prop where
  keeps : Keeps [job.jId] c c'
  settled : job.jAction ≠ LyA.nodeSaveInstance →
    ∀ j ∈ c'.jobs, j.jId = job.jId → Settled job.jStatus j.jStatus

theorem jobRun_settled {c c' : Clc} {job : LYJobInfo} (hq : jobExist c job.jId = true)
    (hall : ∀ j ∈ c.jobs, j.jId = job.jId → j.jStatus = job.jStatus)
    (h : jobRun env c job = .ok c') : VisitSettled c job c' := by
  by_cases hdis : job.jAction = LyA.clcDisableNode
  · have hrun : jobRun env c job = jobNodeDisable env c job := by
      unfold jobRun
      rw [hdis, if_neg (by decide), if_pos rfl]
    rw [hrun] at h
    have hend := jobNodeDisable_ended hdb h
    exact ⟨fun j hj _ => (hend j hj).2, fun _ j hj hid => absurd hid (hend j hj).1⟩
  · by_cases hsave : job.jAction = LyA.nodeSaveInstance
    · have hrun : jobRun env c job = .ok c := by
        unfold jobRun
        simp only [hsave]
        rfl
      obtain rfl := Except.ok.inj (hrun.symm.trans h)
      exact ⟨fun j hj _ => hj, fun hne => absurd hsave hne⟩
    · have hran : Ran env job.jId c c' := (jobRun_ran rfl hq hall hdis hsave).of_ok h
      exact ⟨keeps_of_others hran.others, fun _ j hj hid => .inl (hran.live hdb j hj hid)⟩

theorem jobRunNow_settled {c c' : Clc} {job : LYJobInfo} (hd : Distinct c)
    (hjob : jobFind c job.jId = some job) (h : jobRunNow env c job = .ok c') :
    VisitSettled c job c' := by
  have hq : jobExist (setJob c.called job.jId fun j => { j with jLastRun := env.time c.io.tick })
      job.jId = true := setJob_exist (fun _ => rfl) (jobExist_of_find hjob)
  have hv :
      VisitSettled (setJob c.called job.jId fun j => { j with jLastRun := env.time c.io.tick })
      { job with jLastRun := env.time c.io.tick } c' := by
    refine jobRun_settled hdb hq ?_ h
    intro j hj hid
    obtain ⟨i, hi, hii, rfl⟩ := of_mem_setJob hj hid
    rw [eq_of_id hd hjob hi hii]
  exact ⟨fun j hj hne => keeps_of_others (setLastRun_others c job.jId _) j (hv.keeps j hj hne) hne,
    hv.settled⟩

/-- **One visit settles the job.** -/
theorem jobDispatchOne_settled {now : Int} {c c' : Clc} {job : LYJobInfo} (hd : Distinct c)
    (hjob : jobFind c job.jId = some job) (h : jobDispatchOne env now c job = .ok c') :
    VisitSettled c job c' := by
  have hq := jobExist_of_find hjob
  have hall : ∀ j ∈ c.jobs, j.jId = job.jId → j.jStatus = job.jStatus :=
    fun j hj hid => by rw [eq_of_id hd hjob hj hid]
  have hstay : isLive job.jStatus = true → VisitSettled c job c :=
    fun hl => ⟨fun j hj _ => hj, fun _ j hj hid => .inl (by rw [hall j hj hid]; exact hl)⟩
  unfold jobDispatchOne at h
  split at h
  · exact jobRunNow_settled hdb hd hjob h
  · rename_i hi
    split at h
    · rename_i hlive
      split at h
      · split at h
        · exact jobRunNow_settled hdb hd hjob h
        · obtain rfl := Except.ok.inj h
          exact hstay hlive
      · split at h
        · have hend := jobFail_ended hdb (by decide) h
          exact ⟨fun j hj _ => (hend j hj).2, fun _ j hj hid => absurd hid (hend j hj).1⟩
        · split at h
          · exact jobRun_settled hdb hq hall h
          · obtain rfl := Except.ok.inj h
            exact hstay hlive
    · rename_i hlive
      have hnot : isRunnable job.jStatus = false := by
        rw [isRunnable, Bool.or_eq_false_iff]
        exact ⟨by simpa using hi, by simpa [isLive] using hlive⟩
      unfold jobFail at h
      split at h
      · cases h
      · rename_i r hr
        obtain rfl := Except.ok.inj h
        have hu := (jobUpdateStatus_updated env hq (by decide)).of_ok hr
        exact ⟨keeps_of_others hu.others, fun _ j hj hid => .inr ⟨hnot, hu.written j hj hid⟩⟩

/-! ## A pass -/

/-- **A pass settles every job it began with.** -/
theorem jobDispatchLoop_settled {now : Int} {ids : List Int} (hnd : ids.Nodup) {c c' : Clc}
    (hd : Distinct c) (h : jobDispatchLoop env now ids c = .ok c') :
    Keeps ids c c' ∧ ∀ job, job.jId ∈ ids → job ∈ c.jobs → job.jAction ≠ LyA.nodeSaveInstance →
      ∀ j ∈ c'.jobs, j.jId = job.jId → Settled job.jStatus j.jStatus := by
  induction ids generalizing c with
  | nil =>
    obtain rfl := Except.ok.inj h
    exact ⟨fun j hj _ => hj, fun job hm => absurd hm List.not_mem_nil⟩
  | cons id ids ih =>
    rw [List.nodup_cons] at hnd
    rw [jobDispatchLoop] at h
    cases hjob : jobFind c id with
    | none =>
      rw [hjob] at h
      obtain ⟨hkeep, hset⟩ := ih hnd.2 hd h
      refine ⟨fun j hj hne => hkeep j hj fun hm => hne (List.mem_cons_of_mem _ hm), ?_⟩
      intro job hm hmem
      rcases List.mem_cons.mp hm with rfl | hm
      · rw [jobFind_of_mem hd hmem] at hjob
        cases hjob
      · exact hset job hm hmem
    | some job =>
      obtain rfl := jobFind_id hjob
      rw [hjob] at h
      dsimp only at h
      split at h
      · cases h
      · rename_i c1 hone
        split at h
        · have hv := jobDispatchOne_settled hdb hd hjob hone
          have hd1 : Distinct c1 :=
            Does.distinct (i := 0) ((jobDispatchOne_sat (fun hq => hq) env now c job).of_ok hone) hd
          obtain ⟨hkeep, hset⟩ := ih hnd.2 hd1 h
          constructor
          · intro j hj hne
            have hne' : j.jId ∉ ids := fun hm => hne (List.mem_cons_of_mem _ hm)
            refine hv.keeps j (hkeep j hj hne') fun hm => hne ?_
            rw [List.mem_singleton.mp hm]
            exact List.mem_cons_self
          · intro k hm hmem hsave j hj hid
            rcases List.mem_cons.mp hm with heq | hm
            · -- the job of this visit: the rest of the pass leaves it as it is
              have hkj : k = job := eq_of_id hd hjob hmem heq
              subst hkj
              exact hv.settled hsave j (hkeep j hj (by rw [hid]; exact hnd.1)) hid
            · -- a later job: it is still the same when its visit comes
              have hex : jobExist c1 k.jId = true := by
                have hdoes : Does queueRules 0 c1 c' :=
                  (jobDispatchLoop_sat (fun hq => hq) env now ids c1).of_ok h
                exact hdoes.jobExist (jobExist_iff.mpr ⟨j, hj, hid⟩)
              obtain ⟨k1, hk1, hk1id⟩ := jobExist_iff.mp hex
              have hne : k1.jId ∉ [job.jId] := by
                rw [List.mem_singleton, hk1id]
                exact fun he => hnd.1 (he ▸ hm)
              have hkk : k1 = k := List.inj_on_of_nodup_map hd (hv.keeps k1 hk1 hne) hmem hk1id
              exact hset k hm (hkk ▸ hk1) hsave j hj hid
        · cases h

/-! ## Passes and replies -/

theorem nodeResponseJob_settled {c : Clc} {id status : Int} {r : Clc × Option Int} (h0 : id ≠ 0)
    (h : nodeResponseJob env c id status = .ok r) :
    ∀ j ∈ r.1.jobs, j.jId = id → isLive j.jStatus = true ∨
      (jobIsInitiated status = true ∧ j ∈ c.jobs) ∨
      (isRunnable status = false ∧ isFinal status = false ∧ j.jStatus = status) := by
  rw [nodeResponseJob, if_neg h0] at h
  cases hjob : jobFind c id with
  | none =>
    rw [hjob] at h
    obtain rfl := Except.ok.inj h
    intro j hj hid
    obtain ⟨job, hsome⟩ := find_of_jobExist (jobExist_iff.mpr ⟨j, hj, hid⟩)
    rw [hjob] at hsome
    cases hsome
  | some job =>
    rw [hjob] at h
    dsimp only at h
    split at h
    · cases h
    · rename_i u hu
      -- nothing after the update touches the queue
      have hjobs : r.1.jobs = u.1.jobs := by
        have hread : (u.1.readAgain id).jobs = u.1.jobs := by
          unfold Clc.readAgain
          split <;> rfl
        split at h
        · obtain rfl := Except.ok.inj h
          rfl
        · split at h
          · obtain rfl := Except.ok.inj h
            exact (releaseOsm_jobs _ _).trans hread
          · obtain rfl := Except.ok.inj h
            exact hread
      rw [hjobs]
      intro j hj hid
      cases hi : jobIsInitiated status with
      | true =>
        rw [jobUpdateStatus, if_pos hi] at hu
        obtain rfl := Except.ok.inj hu
        exact .inr (.inl ⟨rfl, hj⟩)
      | false =>
        have hup := (jobUpdateStatus_updated env (jobExist_of_find hjob) hi).of_ok hu
        have hst := hup.written j hj hid
        cases hf : isFinal status with
        | true => exact absurd hid (hup.gone hdb hf j hj)
        | false =>
          cases hl : isLive status with
          | true => exact .inl (hst ▸ hl)
          | false => exact .inr (.inr ⟨by rw [isRunnable, hi, hl]; rfl, rfl, hst⟩)

end

/-- **Only unexpected statuses are left standing.** After a pass every job is gone or has a status
of class RUNNING, WAITING or PENDING, unless the pass found it with an unexpected status, and then
it has been marked UNKNOWN for the user. After a reply likewise, unless the reply itself carried an
unexpected status, which is then kept as it is, or INITIATED, which changes nothing. -/
theorem no_job_stuck {env : Env} (hdb : env.DbWrites) {c : Clc}
    (h : QueueReachable env Machine.Always c) :
    (∀ c', jobDispatch env c = .ok c' → ∀ job ∈ c.jobs, job.jAction ≠ LyA.nodeSaveInstance →
      ∀ j ∈ c'.jobs, j.jId = job.jId → isLive j.jStatus = true ∨
        isRunnable job.jStatus = false ∧ j.jStatus = LyS.unknown) ∧
    ∀ id status r, id ≠ 0 → nodeResponseJob env c id status = .ok r →
      ∀ j ∈ r.1.jobs, j.jId = id → isLive j.jStatus = true ∨
        (jobIsInitiated status = true ∧ j ∈ c.jobs) ∨
        (isRunnable status = false ∧ isFinal status = false ∧ j.jStatus = status) := by
  have hd : Distinct c := (queue_ordered hdb h).nodup
  refine ⟨fun c' hc' job hmem => ?_, fun id status r h0 hr => nodeResponseJob_settled hdb h0 hr⟩
  have hd0 : Distinct { c.called with jobInsPendingNr := 0 } := hd
  exact (jobDispatchLoop_settled hdb hd hd0 hc').2 job (List.mem_map_of_mem hmem) hmem

/-- A stop job that was sent to its node, and a reply that the instance has stopped. -/
theorem no_job_stuck_stop : ∃ c, QueueReachable Env.stocked Machine.Always c ∧
    (nodeResponseJob Env.stocked c 1 LyS.runningStopped).toOption.map
      (fun r => r.1.jobs.map LYJobInfo.jId) = some [1] ∧
    ∀ r, nodeResponseJob Env.stocked c 1 LyS.runningStopped = .ok r →
      ∀ j ∈ r.1.jobs, j.jId = 1 → isLive j.jStatus = true := by
  have hrun : (Machine.exec (Clc.queueNext Env.stocked) [.web 1, .dispatch]
      (.oneNode [.onSeven 1 LyA.nodeStopInstance])).map (fun c =>
        (nodeResponseJob Env.stocked c 1 LyS.runningStopped).toOption.map
          fun r => r.1.jobs.map LYJobInfo.jId) = some (some [1]) := by
    decide +kernel
  obtain ⟨c, hc, heq⟩ := Option.map_eq_some_iff.mp hrun
  have hreach := queueReachable_of_exec rfl _ hc
  refine ⟨c, hreach, heq, fun r hr j hj hid => ?_⟩
  rcases (no_job_stuck (fun _ => rfl) hreach).2 1 _ r (by decide) hr j hj hid with h | h | h
  · exact h
  · exact absurd h.1 (by decide)
  · exact absurd h.1 (by decide)

/-- A node replies with a status of no class: the job keeps it, and the next pass makes it UNKNOWN.
-/
theorem job_stuck : ¬ ∀ (env : Env) (c c' : Clc) (ev : QueueEvent),
    QueueReachable env Machine.Always c → (ev = .dispatch ∨ ∃ status, ev = .reply 1 status) →
    c.queueNext env ev = some (.ok c') → ∀ j ∈ c'.jobs, j.jId = 1 → isLive j.jStatus = true := by
  intro hall
  have hrun : (Machine.exec (Clc.queueNext Env.stocked) [.web 1, .dispatch]
      (.oneNode [.onSeven 1 LyA.nodeStopInstance])).map (fun c =>
        (Machine.exec (Clc.queueNext Env.stocked) [.reply 1 LyS.finishedLastStatus] c).map
          fun c' => c'.jobs.map fun j => (j.jId, j.jStatus)) =
      some (some [(1, LyS.finishedLastStatus)]) := by
    decide +kernel
  obtain ⟨c, hc, heq⟩ := Option.map_eq_some_iff.mp hrun
  obtain ⟨c', hc', hjobs⟩ := Option.map_eq_some_iff.mp heq
  have hnext := hall Env.stocked c c' (.reply 1 LyS.finishedLastStatus)
    (queueReachable_of_exec rfl _ hc)
    (.inr ⟨_, rfl⟩) (Machine.next_of_exec hc')
  have hmem : ((1, LyS.finishedLastStatus) : Int × Int) ∈ c'.jobs.map fun j =>
      (j.jId, j.jStatus) := by
    rw [hjobs]
    exact List.mem_cons_self
  obtain ⟨j, hj, hpair⟩ := List.mem_map.mp hmem
  have hlive := hnext j hj (Prod.mk.inj hpair).1
  rw [(Prod.mk.inj hpair).2] at hlive
  exact absurd hlive (by decide)

end LuoYun

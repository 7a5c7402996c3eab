import LuoYun.Proof.Effect

/-!
# What the job queue does to the state

The functions of `lyjob.c` write to the database, send requests, take jobs off the queue, count
down the busy jobs of a node and release the OS manager of an instance that has ended. None of
them changes the status, the secret or the tag of a connection. Only `__process_web_job` adds a
job.
-/

namespace LuoYun

section

variable {R : Rules} {i : Nat} (hq : ¬ R.quiet)
include hq

/-! ## The queue -/

theorem setJob_does {c : Clc} (id : Int) {f : LYJobInfo → LYJobInfo} (hf : ∀ j, (f j).key = j.key) :
    Does R i c (setJob c id f) := by
  refine .single (.jobs ?_ rfl rfl hq)
  have hkeys : (setJob c id f).keys = c.keys := by
    simp only [Clc.keys, setJob, List.map_map]
    apply List.map_congr_left
    intro j _
    simp only [Function.comp_apply]
    split
    · exact hf j
    · rfl
  rw [hkeys]

theorem setJobEnt_does (c : Clc) (id ent : Int) : Does R i c (setJobEnt c id ent) :=
  setJob_does hq _ fun _ => rfl

theorem jobBusyRemove_does (c : Clc) (job : LYJobInfo) : Does R i c (jobBusyRemove c job) := by
  unfold jobBusyRemove
  split
  · have h1 : Does R i c (setJob c job.jId fun j => { j with jPendingNr := -1 }) :=
      setJob_does hq _ (by exact fun _ => rfl)
    dsimp only
    split
    · exact h1
    · exact h1.trans (does_modify_any hq rfl rfl (.busy _ _))
  · exact .refl c

theorem jobRemove_does (c : Clc) (job : LYJobInfo) : Does R i c (jobRemove c job) := by
  refine (jobBusyRemove_does hq c job).trans (.single (.jobs ?_ rfl rfl hq))
  exact (List.filter_sublist).map _

theorem releaseOsm_does (c : Clc) (insId : Int) : Does R i c (releaseOsm c insId) := by
  unfold releaseOsm
  dsimp only
  split
  · refine displace_does _ (fun _ j hj hwf => ?_) fun hc => absurd hc hq
    rw [(findByDb_spec hwf hj).1]
    exact nofun
  · exact .refl c

/-! ## `job_update_status` -/

theorem jobStamp_does (env : Env) (c : Clc) (id status : Int) :
    Does R i c (jobStamp env c id status) := by
  refine Does.trans (setJob_does hq _ ?_) (.call (.called _) rfl)
  exact fun _ => rfl

theorem jobEnd_does (env : Env) (c : Clc) (job : LYJobInfo) (status : Int) :
    Does R i c (jobEnd env c job status).1 := by
  have hrel : Does R i c (releaseOsm c job.jTargetId) := releaseOsm_does hq c job.jTargetId
  unfold jobEnd
  split
  · exact hrel.trans (.outside ((dbInstanceUpdateStatus_outside ..).trans
      (jobInternalQueryInstance_outside ..)) hq)
  · split
    · exact .refl c
    · split
      · exact hrel.trans (.outside (dbInstanceUpdateStatus_outside ..) hq)
      · split
        · exact .outside (dbInstanceDelete_outside ..) hq
        · exact .refl c

theorem jobUpdateStatus_sat (env : Env) (c : Clc) (id status : Int) :
    Sat R.May (fun r => Does R i c r.1) (jobUpdateStatus env c id status) := by
  unfold jobUpdateStatus
  split
  · exact Does.refl c
  · have hstamp : Does R i c (jobStamp env c id status) := jobStamp_does hq env c id status
    dsimp only
    split
    · exact Rules.may_of_ne (by decide)
    · rename_i job _
      have hdb := hstamp.trans (.outside (dbJobUpdateStatus_outside env _ job) hq)
      split
      · exact hdb
      · split
        · have hst : ∀ ii d, Does R i c (dbInstanceUpdateStatus env _ job.jTargetId ii d).1 :=
            fun _ _ => hdb.trans (.outside (dbInstanceUpdateStatus_outside ..) hq)
          split
          · exact hst _ _
          · exact (hst _ _).trans (jobBusyRemove_does hq _ job)
        · split
          · split
            · exact hdb.trans (jobRemove_does hq _ job)
            · exact hdb.trans ((jobEnd_does hq env _ job status).trans (jobRemove_does hq _ job))
          · exact hdb

theorem jobFail_sat (env : Env) (c : Clc) (id status : Int) :
    Sat R.May (Does R i c) (jobFail env c id status) := by
  have h := jobUpdateStatus_sat (i := i) hq env c id status
  unfold jobFail
  split
  · exact h.of_error (by assumption)
  · exact h.of_ok (by assumption)

/-- `goto failed` after what was done so far. -/
theorem jobFail_after {c c' : Clc} (env : Env) (id status : Int) (h : Does R i c c') :
    Sat R.May (Does R i c) (jobFail env c' id status) :=
  (jobFail_sat hq env c' id status).mono fun _ => h.trans

theorem jobCleanOnEntity_go_sat (env : Env) (ent status : Int) (ids : List Int) (c : Clc) :
    Sat R.May (Does R i c) (jobCleanOnEntity.go env ent status ids c) := by
  induction ids generalizing c with
  | nil => exact Does.refl c
  | cons id ids ih =>
    unfold jobCleanOnEntity.go
    split
    · exact ih c
    · have h := jobUpdateStatus_sat (i := i) hq env c id status
      split
      · dsimp only
        split
        · exact h.of_error (by assumption)
        · split
          · exact (ih _).mono fun _ => (h.of_ok (by assumption)).trans
          · exact Rules.may_of_ne (by decide)
      · exact ih c

theorem jobCleanOnEntity_sat (env : Env) (ent status : Int) (c : Clc) :
    Sat R.May (Does R i c) (jobCleanOnEntity env ent status c) :=
  jobCleanOnEntity_go_sat hq env ent status _ c

/-! ## `job_check` and the web -/

theorem checkOther_sat (env : Env) (job : LYJobInfo) (js : List LYJobInfo) (c : Clc) :
    Sat R.May (fun r => Does R i c r.1) (checkOther env job c js) := by
  induction js generalizing c with
  | nil => exact Does.refl c
  | cons j js ih =>
    unfold checkOther
    split
    · exact ih c
    · split
      · exact Does.refl c
      · have h := jobUpdateStatus_sat (i := i) hq env c j.jId LyS.cancelActionReplaced
        split
        · exact h.of_error (by assumption)
        · exact (ih _).mono fun _ => (h.of_ok (by assumption)).trans

theorem checkDestroy_sat (env : Env) (job : LYJobInfo) (js : List LYJobInfo) (c : Clc) :
    Sat R.May (fun r => Does R i c r.1) (checkDestroy env job c js) := by
  induction js generalizing c with
  | nil => exact Does.refl c
  | cons j js ih =>
    unfold checkDestroy
    split
    · exact ih c
    · split
      · exact Does.refl c
      · split
        · have h := jobUpdateStatus_sat (i := i) hq env c j.jId LyS.cancelActionReplaced
          split
          · exact h.of_error (by assumption)
          · exact (ih _).mono fun _ => (h.of_ok (by assumption)).trans
        · exact ih c

theorem jobCheck_sat (env : Env) (c : Clc) (job : LYJobInfo) :
    Sat R.May (fun r => Does R i c r.1) (jobCheck env c job) := by
  unfold jobCheck
  -- the first six branches leave the state alone
  split
  · exact Does.refl c
  · split
    · exact Does.refl c
    · split
      · split <;> exact Does.refl c
      · split
        · split <;> exact Does.refl c
        · split
          · split <;> exact Does.refl c
          · split
            · exact checkDestroy_sat hq env job c.jobs c
            · split
              · exact checkOther_sat hq env job c.jobs c
              · exact Does.refl c

theorem webJob_sat (hw : R.web) (env : Env) (c : Clc) (jobId : Int) :
    Sat R.May (fun r => Does R i c r.1) (webJob env c jobId) := by
  have hget := dbJobGet_outside env c jobId
  unfold webJob
  split
  · rename_i c1 heq
    rw [heq] at hget
    exact Does.outside hget hq
  · rename_i c1 job heq
    rw [heq] at hget
    have hget' : Does R i c c1 := .outside hget hq
    split
    · exact hget'
    · have hcheck := jobCheck_sat (i := i) hq env c1 job
      split
      · exact hcheck.of_error (by assumption)
      · rename_i c2 ret hc
        have h2 : Does R i c1 c2 := hcheck.of_ok hc
        split
        · exact hget'.trans (h2.trans (.outside (jobRefuse_outside ..) hq))
        · exact hget'.trans (h2.trans (.single (.insert rfl rfl hw hq)))

/-! ## `job_dispatch` -/

theorem jobSendRun_sat (env : Env) (c : Clc) (id : Int) (ci : NodeCtrlInstance) (j : Nat) :
    Sat R.May (Does R i c) (jobSendRun env c id ci j) := by
  have h1 : Does R i c (setJobEnt c id j) := setJobEnt_does hq c id j
  have hstore : (setJobEnt c id j).store = c.store := rfl
  unfold jobSendRun
  dsimp only
  generalize setJobEnt c id j = c1 at h1 hstore
  split
  · exact jobFail_after hq env _ _ h1
  · exact Rules.may_of_ne (by decide)
  · rename_i nd hnd
    have hrenew := renewSecret_outside env c1 ci
    split
    · rename_i c2 heq
      rw [heq] at hrenew
      exact jobFail_after hq env _ _ (h1.trans (.outside hrenew hq))
    · rename_i c2 ci2 heq
      rw [heq] at hrenew
      have hst := hrenew.trans (dbInstanceUpdateStatus_outside env c2 ci2.insId none
        (lyEntityDbId c2.store j))
      split
      · exact jobFail_after hq env _ _ (h1.trans (.outside hst hq))
      · split
        · exact jobFail_after hq env _ _ (h1.trans (.outside hst hq))
        · rename_i xml _
          have hsend := hst.trans (lyPacketSend_outside env _
            (lyEntityFd
              (dbInstanceUpdateStatus env c2 ci2.insId none (lyEntityDbId c2.store j)).1.store j)
            PktType.clcInstanceControlRequest xml)
          split
          · exact jobFail_after hq env _ _ (h1.trans (.outside hsend hq))
          · refine (h1.trans (.outside hsend hq)).trans
              (.trans (does_modify_any hq rfl rfl ?_) (setJob_does hq _ (by exact fun _ => rfl)))
            refine .node _ _ nd _ ?_ (.inl rfl) fun _ h => h
            rw [hsend.store]
            exact hnd

theorem jobWait_sat (env : Env) (c : Clc) (job : LYJobInfo) :
    Sat R.May (Does R i c) (jobWait env c job) := by
  have hfail : ∀ s, Sat R.May (Does R i c) (jobFail env c job.jId s) :=
    fun s => jobFail_sat hq env c job.jId s
  unfold jobWait
  dsimp only
  split
  · split
    · exact hfail _
    · exact Does.refl c
  · split
    · split
      · exact hfail _
      · split
        · exact hfail _
        · exact Does.refl c
    · split
      · exact hfail _
      · split
        · exact hfail _
        · exact Does.refl c

omit hq in
theorem nodeSchedule_sat (env : Env) (s : EntityStore) (nodeId : Int) :
    Sat R.May (fun _ => True) (nodeSchedule env s nodeId) := by
  have hany : ∀ l ent mem, Sat R.May (fun _ => True) (nodeScheduleAny env s l ent mem) := by
    intro l
    induction l with
    | nil => exact fun _ _ => trivial
    | cons k l ih =>
      intro ent mem
      unfold nodeScheduleAny
      split
      · exact trivial
      · exact Rules.may_of_ne (by decide)
      · dsimp only
        split
        · exact Rules.may_of_ne (by decide)
        · exact ih _ _
  unfold nodeSchedule
  split
  · unfold nodeScheduleLast
    dsimp only
    split
    · exact trivial
    · split
      · exact trivial
      · exact Rules.may_of_ne (by decide)
      · split
        · exact trivial
        · split
          · exact trivial
          · split <;> exact trivial
  · exact hany _ _ _

theorem jobStartInstance_sat (env : Env) (c : Clc) (job : LYJobInfo) :
    Sat R.May (Does R i c) (jobStartInstance env c job) := by
  unfold jobStartInstance
  split
  · exact jobWait_sat hq env c job
  · have hrun := jobUpdateStatus_sat (i := i) hq env c job.jId LyS.running
    split
    · exact hrun.of_error (by assumption)
    · rename_i r hr
      have h1 : Does R i c r.1 := hrun.of_ok hr
      split
      · exact h1
      · have h2 := h1.trans (setJob_does hq job.jId (f := fun j => { j with jPendingNr := 0 })
          fun _ => rfl)
        have hget := dbNodeInstanceControlGet_outside env
          (setJob r.1 job.jId fun j => { j with jPendingNr := 0 })
          { reqId := job.jId, insId := job.jTargetId }
        dsimp only
        split
        · rename_i c2 heq
          rw [heq] at hget
          exact jobFail_after hq env _ _ (h2.trans (.outside hget hq))
        · rename_i c2 ci nodeId heq
          rw [heq] at hget
          have h3 : Does R i c c2 := h2.trans (.outside hget hq)
          have hsched := nodeSchedule_sat (R := R) env c2.store nodeId
          split
          · exact hsched.of_error (by assumption)
          · split
            · exact jobFail_after hq env _ _ h3
            · split
              · have h4 : Does R i c { c2 with jobInsPendingNr := c2.jobInsPendingNr + 1 } :=
                  h3.trans (.single (.jobs (List.Sublist.refl _) rfl rfl hq))
                exact jobFail_after hq env _ _ (h4.trans (setJob_does hq _ (by exact fun _ => rfl)))
              · split
                · exact jobFail_after hq env _ _ h3
                · exact (jobSendRun_sat hq env c2 _ _ _).mono fun _ => h3.trans

theorem jobSendSimple_sat (env : Env) (c : Clc) (id : Int) (ci : NodeCtrlInstance) (nodeId : Int) :
    Sat R.May (Does R i c) (jobSendSimple env c id ci nodeId) := by
  unfold jobSendSimple
  dsimp only
  split
  · exact jobFail_sat hq env c id _
  · split
    · exact jobFail_sat hq env c id _
    · generalize lyEntityFindByDb c.store .node nodeId = ent
      have h1 : Does R i c (setJobEnt c id ent) := setJobEnt_does hq c id ent
      generalize setJobEnt c id ent = c1 at h1
      split
      · exact jobFail_after hq env _ _ h1
      · rename_i xml _
        have h2 := h1.trans (.outside (lyPacketSend_outside env c1 (lyEntityFd c1.store ent)
          PktType.clcInstanceControlRequest xml) hq)
        split
        · exact jobFail_after hq env _ _ h2
        · exact h2.trans (setJob_does hq _ (by exact fun _ => rfl))

theorem jobControlInstanceSimple_sat (env : Env) (c : Clc) (job : LYJobInfo) :
    Sat R.May (Does R i c) (jobControlInstanceSimple env c job) := by
  have hrun := jobUpdateStatus_sat (i := i) hq env c job.jId LyS.running
  unfold jobControlInstanceSimple
  split
  · exact hrun.of_error (by assumption)
  · rename_i r hr
    have h1 : Does R i c r.1 := hrun.of_ok hr
    split
    · exact h1
    · have hget := dbNodeInstanceControlGet_outside env r.1
        { reqId := job.jId, insId := job.jTargetId }
      split
      · rename_i c2 heq
        rw [heq] at hget
        exact jobFail_after hq env _ _ (h1.trans (.outside hget hq))
      · rename_i c2 ci nodeId heq
        rw [heq] at hget
        have h2 : Does R i c c2 := h1.trans (.outside hget hq)
        dsimp only
        split
        · refine jobFail_after hq env _ _ (h2.trans ?_)
          split
          · exact .outside (dbInstanceUpdateStatus_outside ..) hq
          · exact .refl c2
        · exact (jobSendSimple_sat hq env c2 _ _ _).mono fun _ => h2.trans

theorem jobQuery_sat (env : Env) (c : Clc) (job : LYJobInfo) (type : EntityType) (pktType : Int)
    (request : Option Bytes) :
    Sat R.May (Does R i c) (jobQuery env c job type pktType request) := by
  have hrun := jobUpdateStatus_sat (i := i) hq env c job.jId LyS.running
  unfold jobQuery
  split
  · exact hrun.of_error (by assumption)
  · rename_i r hr
    have h1 : Does R i c r.1 := hrun.of_ok hr
    split
    · exact h1
    · dsimp only
      generalize lyEntityFindByDb r.1.store type job.jTargetId = ent
      split
      · exact jobFail_after hq env _ _ h1
      · split
        · exact jobFail_after hq env _ _ h1
        · have h2 : Does R i c (setJobEnt r.1 job.jId ent) :=
            h1.trans (setJobEnt_does hq r.1 job.jId ent)
          generalize setJobEnt r.1 job.jId ent = c1 at h2
          split
          · exact jobFail_after hq env _ _ h2
          · rename_i data
            have h3 := h2.trans (.outside (lyPacketSend_outside env c1 (lyEntityFd c1.store ent)
              pktType data) hq)
            split
            · exact jobFail_after hq env _ _ h3
            · exact h3

theorem jobNodeEnable_sat (env : Env) (c : Clc) (job : LYJobInfo) :
    Sat R.May (Does R i c) (jobNodeEnable env c job) := by
  unfold jobNodeEnable
  dsimp only
  split
  · exact jobFail_sat hq env c _ _
  · have h1 := dbNodeEnable_outside env c job.jTargetId true
    split
    · exact jobFail_after hq env _ _ (.outside h1 hq)
    · exact jobFail_after hq env _ _ (.outside (h1.trans (lyPacketSend_outside ..)) hq)

theorem disable_does (c : Clc) (ent : Int) :
    Does R i c (c.withStore (lyEntityEnable c.store ent (-1) false).1) := by
  unfold lyEntityEnable
  split
  · exact .refl c
  · rename_i j _
    exact does_modify_any (f := fun e => e.withEnabled false) hq rfl rfl (.disable _ _)

theorem jobNodeDisable_sat (env : Env) (c : Clc) (job : LYJobInfo) :
    Sat R.May (Does R i c) (jobNodeDisable env c job) := by
  have h1 : Does R i c (dbNodeEnable env c job.jTargetId false).1 :=
    .outside (dbNodeEnable_outside ..) hq
  unfold jobNodeDisable
  dsimp only
  split
  · exact jobFail_after hq env _ _ h1
  · split
    · have hclean := jobCleanOnEntity_sat (i := i) hq env
        (lyEntityFindByDb (dbNodeEnable env c job.jTargetId false).1.store .node job.jTargetId)
        LyS.finishedFailureNodeNotEnabled (dbNodeEnable env c job.jTargetId false).1
      split
      · exact hclean.of_error (by assumption)
      · rename_i c2 hc
        exact jobFail_after hq env _ _ (h1.trans ((hclean.of_ok hc).trans (disable_does hq c2 _)))
    · split
      · exact jobFail_after hq env _ _ (h1.trans (disable_does hq _ _))
      · exact jobFail_after hq env _ _ h1

theorem jobNodeConfig_sat (env : Env) (c : Clc) (job : LYJobInfo) :
    Sat R.May (Does R i c) (jobNodeConfig env c job) := by
  unfold jobNodeConfig
  dsimp only
  split
  · exact jobFail_sat hq env c _ _
  · split
    · exact jobFail_sat hq env c _ _
    · rename_i k _
      split
      · exact jobFail_sat hq env c _ _
      · exact Rules.may_of_ne (by decide)
      · rename_i nd hnd
        have hfind := dbNodeFind_outside env c (.byId (c.store.ents k).dbId)
        split
        · refine jobFail_after hq env _ _
            (.trans (.outside hfind hq) (does_modify_any hq rfl rfl ?_))
          refine .node _ _ nd _ ?_ (.inl rfl) fun _ h => h
          rw [hfind.store]
          exact hnd
        · exact jobFail_after hq env _ _ (.outside hfind hq)

theorem jobRun_sat (env : Env) (c : Clc) (job : LYJobInfo) :
    Sat R.May (Does R i c) (jobRun env c job) := by
  unfold jobRun
  split
  · exact jobNodeEnable_sat hq env c job
  split
  · exact jobNodeDisable_sat hq env c job
  split
  · exact jobNodeConfig_sat hq env c job
  split
  · exact jobStartInstance_sat hq env c job
  split
  · exact jobStartInstance_sat hq env c job
  split
  · exact jobControlInstanceSimple_sat hq env c job
  split
  · exact jobQuery_sat hq env c job _ _ _
  split
  · exact Does.refl c
  split
  · exact jobQuery_sat hq env c job _ _ _
  · exact jobFail_sat hq env c _ _

theorem jobRunNow_sat (env : Env) (c : Clc) (job : LYJobInfo) :
    Sat R.May (Does R i c) (jobRunNow env c job) := by
  refine (jobRun_sat (i := i) hq env _ _).mono fun c' h => ?_
  refine Does.trans (.call (.called c) rfl) (.trans (setJob_does hq _ ?_) h)
  exact fun _ => rfl

theorem jobDispatchOne_sat (env : Env) (now : Int) (c : Clc) (job : LYJobInfo) :
    Sat R.May (Does R i c) (jobDispatchOne env now c job) := by
  unfold jobDispatchOne
  split
  · exact jobRunNow_sat hq env c job
  · split
    · split
      · split
        · exact jobRunNow_sat hq env c job
        · exact Does.refl c
      · split
        · exact jobFail_sat hq env c _ _
        · split
          · exact jobRun_sat hq env c job
          · exact Does.refl c
    · exact jobFail_sat hq env c _ _

theorem jobDispatchLoop_sat (env : Env) (now : Int) (ids : List Int) (c : Clc) :
    Sat R.May (Does R i c) (jobDispatchLoop env now ids c) := by
  induction ids generalizing c with
  | nil => exact Does.refl c
  | cons id ids ih =>
    unfold jobDispatchLoop
    split
    · exact ih c
    · rename_i job _
      have h := jobDispatchOne_sat (i := i) hq env now c job
      dsimp only
      split
      · exact h.of_error (by assumption)
      · split
        · exact (ih _).mono fun _ => (h.of_ok (by assumption)).trans
        · exact Rules.may_of_ne (by decide)

theorem jobDispatch_sat (env : Env) (c : Clc) : Sat R.May (Does R i c) (jobDispatch env c) :=
  (jobDispatchLoop_sat hq env _ _ _).mono fun _ =>
    Does.trans (.single (.jobs (List.Sublist.refl _) rfl rfl hq) :
      Does R i c { c.called with jobInsPendingNr := 0 })

end

end LuoYun

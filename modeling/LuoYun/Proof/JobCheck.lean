import LuoYun.Proof.JobFrame

/-!
# What `job_check` has done when it refuses

A job is refused with `LY_S_CANCEL_TARGET_BUSY`. The branches for a run job, a full reboot and the
enabling of a node look through the queue and write nothing, and the branch for a destroy job can
only pass. The last branch, for every other control action, cancels the jobs it goes past while it
is still looking for one that is busy (`checkOther`): a job that stands in front of a busy one is
lost to an action that is then refused.
-/

namespace LuoYun

/-- The actions of the last branch of `job_check`. -/
def replacesOthers (job : LYJobInfo) : Bool :=
  !isQuery job.jAction && job.jAction != LyA.clcEnableNode && job.jAction != LyA.clcDisableNode &&
    job.jAction != LyA.nodeRunInstance && job.jAction != LyA.nodeFullrebootInstance &&
    job.jAction != LyA.nodeDestroyInstance && job.jTargetType == jobTargetInstance

/-- A destroy job is queued for the target: every job but a query is refused at once. -/
def beingDestroyed (c : Clc) (job : LYJobInfo) : Bool :=
  c.jobs.any fun j => sameTarget job j && j.jAction == LyA.nodeDestroyInstance

/-- A job that the last branch stops at, rather than cancel it. -/
def blocks (job j : LYJobInfo) : Bool := j.jAction == job.jAction || jobIsRunning j.jStatus

/-- The jobs that the last branch looks at: those of the target that are no queries. -/
def rivals (c : Clc) (job : LYJobInfo) : List LYJobInfo :=
  c.jobs.filter fun j => sameTarget job j && j.jAction != LyA.nodeQueryInstance

/-- Nothing that the last branch would cancel stands in front of the job it stops at. -/
def RefusesFirst (c : Clc) (job : LYJobInfo) : Prop :=
  replacesOthers job = true → beingDestroyed c job = false →
    ∀ j, (rivals c job).head? = some j → blocks job j = true

/-! ## The loop of the last branch -/

theorem checkOther_filter (env : Env) (job : LYJobInfo) (c : Clc) (js : List LYJobInfo) :
    checkOther env job c (js.filter fun j =>
      sameTarget job j && j.jAction != LyA.nodeQueryInstance) =
      checkOther env job c js := by
  induction js generalizing c with
  | nil => rfl
  | cons j js ih =>
    rw [List.filter_cons, checkOther.eq_2]
    by_cases hskip : (sameTarget job j && j.jAction != LyA.nodeQueryInstance) = true
    · have hlook : ¬ (!sameTarget job j || j.jAction == LyA.nodeQueryInstance) = true := by
        simpa [bne] using hskip
      rw [if_pos hskip, if_neg hlook, checkOther.eq_2, if_neg hlook]
      simp only [ih]
    · have hpass : (!sameTarget job j || j.jAction == LyA.nodeQueryInstance) = true := by
        cases hsame : sameTarget job j <;> simp_all
      rw [if_neg hskip, if_pos hpass, ih]

theorem jobUpdateStatus_queued {env : Env} {c : Clc} {id status : Int} {r : Clc × Int}
    (hs : jobIsInitiated status = false) (h : jobUpdateStatus env c id status = .ok r) :
    jobExist c id = true := by
  rw [jobUpdateStatus, if_neg (by rw [hs]; decide)] at h
  dsimp only at h
  split at h
  · cases h
  · rename_i job hjob
    obtain ⟨i, hi, hii⟩ := mem_setJob.mp (List.mem_of_find?_eq_some hjob)
    have hid := jobFind_id hjob
    refine jobExist_iff.mpr ⟨i, hi, ?_⟩
    by_contra hne
    rw [if_neg hne] at hii
    exact hne (hii ▸ hid)

/-- Every job with this id carries the status of a job that was replaced. -/
def Replaced (id : Int) (c : Clc) : Prop := ∀ j ∈ c.jobs, j.jId = id →
    j.jStatus = LyS.cancelActionReplaced

/-- A job that is replaced by `job_update_status`, and what that does to those replaced before. -/
theorem jobUpdateStatus_replaced {env : Env} {c : Clc} {k : Int} {r : Clc × Int}
    (h : jobUpdateStatus env c k LyS.cancelActionReplaced = .ok r) :
    Replaced k r.1 ∧ ∀ id, Replaced id c → Replaced id r.1 := by
  have hq := jobUpdateStatus_queued (by decide) h
  have hup := (jobUpdateStatus_updated env hq (by decide)).of_ok h
  refine ⟨hup.written, fun id hid j hj hji => ?_⟩
  by_cases hk : j.jId = k
  · exact hup.written j hj hk
  · have hmem : j ∈ c.others k := hup.others ▸ mem_others.mpr ⟨hj, hk⟩
    exact hid j (mem_others.mp hmem).1 hji

theorem checkOther_replaced {env : Env} {job : LYJobInfo} {id : Int} {js : List LYJobInfo} {c : Clc}
    {r : Clc × Int} (h : checkOther env job c js = .ok r) (hid : Replaced id c) :
    Replaced id r.1 := by
  induction js generalizing c with
  | nil =>
    obtain rfl := Except.ok.inj h
    exact hid
  | cons j js ih =>
    rw [checkOther] at h
    split at h
    · exact ih h hid
    · split at h
      · obtain rfl := Except.ok.inj h
        exact hid
      · split at h
        · cases h
        · rename_i r' hr
          exact ih h ((jobUpdateStatus_replaced hr).2 id hid)

/-! ## The loop of a destroy job -/

theorem checkDestroy_passes {env : Env} {job : LYJobInfo} {js : List LYJobInfo}
    {c : Clc} {r : Clc × Int} (hno : ∀ j ∈ js, sameTarget job j = true → j.jAction ≠ job.jAction)
    (h : checkDestroy env job c js = .ok r) : r.2 = 0 := by
  induction js generalizing c with
  | nil =>
    obtain rfl := Except.ok.inj h
    rfl
  | cons j js ih =>
    have hrest : ∀ k ∈ js, sameTarget job k = true → k.jAction ≠ job.jAction :=
      fun k hk => hno k (List.mem_cons_of_mem j hk)
    rw [checkDestroy] at h
    split at h
    · exact ih hrest h
    · rename_i hsame
      rw [if_neg (hno j List.mem_cons_self (by simpa using hsame))] at h
      split at h
      · split at h
        · cases h
        · exact ih hrest h
      · exact ih hrest h

/-! ## `job_check` -/

/-- A refusal: it comes before anything is written, or from the loop of the last branch. -/
theorem jobCheck_refused {env : Env} {c c' : Clc} {job : LYJobInfo} {ret : Int}
    (h : jobCheck env c job = .ok (c', ret)) (hret : ret ≠ 0) :
    (c' = c ∧ (replacesOthers job = false ∨ beingDestroyed c job = true)) ∨
      (replacesOthers job = true ∧ beingDestroyed c job = false ∧
        checkOther env job c (rivals c job) = .ok (c', ret)) := by
  have passed : ∀ {P : Prop}, Except.ok (ε := Fault) (c, (0 : Int)) = .ok (c', ret) → P :=
    fun he => absurd (Prod.mk.inj (Except.ok.inj he)).2.symm hret
  have busy : ∀ {P : Prop}, P → Except.ok (ε := Fault) (c, LyS.cancelTargetBusy) = .ok (c', ret) →
      c' = c ∧ P := fun hp he => ⟨(Prod.mk.inj (Except.ok.inj he)).1.symm, hp⟩
  unfold jobCheck at h
  split at h
  · exact passed h
  rename_i hquery
  split at h
  · rename_i hdestroyed
    exact .inl (busy (.inr hdestroyed) h)
  rename_i hdestroyed
  split at h
  · rename_i hnode
    have hnot : replacesOthers job = false := by
      rcases hnode with hnode | hnode <;> simp [replacesOthers, hnode]
    split at h
    · exact .inl (busy (.inl hnot) h)
    · exact passed h
  split at h
  · rename_i hrun
    split at h
    · exact .inl (busy (.inl (by simp [replacesOthers, hrun])) h)
    · exact passed h
  split at h
  · rename_i hreboot
    split at h
    · exact .inl (busy (.inl (by simp [replacesOthers, hreboot])) h)
    · exact passed h
  split at h
  · -- the loop of a destroy job finds no other: the first check has looked for them
    rename_i hdestroy
    refine absurd (checkDestroy_passes (fun j hj hsame hact => ?_) h) hret
    have := not_of_any hdestroyed j hj
    simp [hsame, hact, hdestroy] at this
  rename_i hnode hrun hreboot hdestroy
  split at h
  · rename_i hins
    refine .inr ⟨?_, Bool.eq_false_iff.mpr hdestroyed, ?_⟩
    · simp only [not_or] at hquery hnode
      simp [replacesOthers, isQuery, hquery, hnode, hrun, hreboot, hdestroy, hins]
    · exact (checkOther_filter env job c c.jobs).trans h
  · exact passed h

/-- **A refused job has cancelled others exactly when one of them stands in front.** A job that
already carries the status of a replaced one is still queued only if the database has not taken
that status. -/
theorem refused_keeps_queue {env : Env} {c c' : Clc} {job : LYJobInfo} {ret : Int}
    (h : jobCheck env c job = .ok (c', ret)) (hret : ret ≠ 0) :
    (RefusesFirst c job → c'.jobs = c.jobs) ∧
      ((∀ j ∈ c.jobs, j.jStatus ≠ LyS.cancelActionReplaced) →
        (c'.jobs = c.jobs ↔ RefusesFirst c job)) := by
  rcases jobCheck_refused h hret with ⟨rfl, hearly⟩ | ⟨hlast, hfree, hloop⟩
  · have hfirst : RefusesFirst c' job := by
      intro hl hf
      rw [hl, hf] at hearly
      exact absurd hearly (by decide)
    exact ⟨fun _ => rfl, fun _ => ⟨fun _ => hfirst, fun _ => rfl⟩⟩
  · cases hriv : rivals c job with
    | nil =>
      rw [hriv] at hloop
      exact absurd (Prod.mk.inj (Except.ok.inj hloop)).2.symm hret
    | cons j js =>
      have hj : j ∈ c.jobs ∧ _ := List.mem_filter.mp (hriv ▸ List.mem_cons_self)
      have hlook : ¬ (!sameTarget job j || j.jAction == LyA.nodeQueryInstance) = true := by
        simpa [bne] using hj.2
      have hfirst : RefusesFirst c job ↔ blocks job j = true := by
        rw [RefusesFirst, hriv]
        simp [hlast, hfree]
      rw [hriv, checkOther, if_neg hlook] at hloop
      rw [hfirst]
      by_cases hblock : blocks job j = true
      · rw [if_pos (by simpa [blocks] using hblock)] at hloop
        obtain rfl := (Prod.mk.inj (Except.ok.inj hloop)).1
        exact ⟨fun _ => rfl, fun _ => ⟨fun _ => hblock, fun _ => rfl⟩⟩
      · rw [if_neg (by simpa [blocks] using hblock)] at hloop
        refine ⟨fun hb => absurd hb hblock,
          fun hlive => ⟨fun hsame => ?_, fun hb => absurd hb hblock⟩⟩
        -- the first rival is gone or marked, and the loop goes on from there
        split at hloop
        · cases hloop
        · rename_i r hr
          have hmark := checkOther_replaced hloop (jobUpdateStatus_replaced hr).1
          exact absurd (hmark j (hsame ▸ hj.1) rfl) (hlive j hj.1)

/-- Instance 7 is being started and its OS manager has not come up yet; a full reboot of it has just
gone out. -/
def Clc.rebooting : Clc :=
  { Clc.oneNode [] with
    jobs := [
      { jId := 1, jAction := LyA.nodeRunInstance, jStatus := LyS.waitingStartingOsm,
        jTargetType := jobTargetInstance, jTargetId := 7, jEntId := 1 },
      { jId := 2, jAction := LyA.nodeFullrebootInstance, jStatus := LyS.running,
        jTargetType := jobTargetInstance, jTargetId := 7, jEntId := 1 }] }

/-- A job on instance 7. -/
def LYJobInfo.onSeven (jId jAction : Int) : LYJobInfo :=
  { jId, jAction, jStatus := LyS.initiated, jTargetType := jobTargetInstance, jTargetId := 7 }

/-- The job to stop the instance is refused because of the full reboot, and the run job is gone. -/
theorem refused_replaces : ¬ ∀ (env : Env) (c c' : Clc) (job : LYJobInfo) (ret : Int),
    jobCheck env c job = .ok (c', ret) → ret ≠ 0 → c'.jobs = c.jobs := by
  intro hall
  have hrun : (jobCheck Env.stocked .rebooting (.onSeven 3 LyA.nodeStopInstance)).toOption.map
      (fun r => (r.1.jobs.map LYJobInfo.jId, r.2)) = some ([2], LyS.cancelTargetBusy) := by
    rfl
  obtain ⟨⟨c', ret⟩, hok, hval⟩ := Option.map_eq_some_iff.mp hrun
  obtain ⟨hids, rfl⟩ := Prod.mk.inj hval
  cases hcheck : jobCheck Env.stocked .rebooting (.onSeven 3 LyA.nodeStopInstance) with
  | error e =>
    rw [hcheck] at hok
    cases hok
  | ok r =>
    rw [hcheck] at hok
    obtain rfl := Option.some.inj hok
    have hjobs := hall _ _ _ _ _ hcheck (by decide)
    rw [hjobs] at hids
    exact absurd hids (by decide)

/-- With the full reboot alone in the queue the stop job is refused and nothing is lost. -/
theorem refused_keeps_queue_reboot :
    let c : Clc := { Clc.rebooting with jobs := Clc.rebooting.jobs.tail }
    jobCheck Env.stocked c (.onSeven 3 LyA.nodeStopInstance) = .ok (c, LyS.cancelTargetBusy) ∧
      RefusesFirst c (.onSeven 3 LyA.nodeStopInstance) := by
  intro c
  have hcheck : jobCheck Env.stocked c (.onSeven 3 LyA.nodeStopInstance) =
      .ok (c, LyS.cancelTargetBusy) := rfl
  exact ⟨hcheck, ((refused_keeps_queue hcheck (by decide)).2 (by decide)).mp rfl⟩

end LuoYun

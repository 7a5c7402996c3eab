import LuoYun.Proof.JobFrame

/-!
# Walking over the queue

`job_dispatch` and `job_clean_on_entity` keep a pointer to the next job while they handle the
current one. That is enough as long as handling a job frees no job but itself. A disable job is
the exception: it ends every job that waits for its node, and the next job of the walk, or the
disable job itself, may be one of them. `visitFrees` computes which jobs a visit frees in this way,
and a pass is safe exactly when these pointers are never among them (`PassOk`).

A reply is processed without a walk, but the job is read once more after `job_update_status`.
-/

namespace LuoYun

/-! ## Finding a job -/

/-- The ids of the queue are distinct. -/
def Distinct (c : Clc) : Prop := (c.jobs.map LYJobInfo.jId).Nodup

theorem Distinct.congr {c c' : Clc} (h : Distinct c) (hj : c'.jobs = c.jobs) : Distinct c' := by
  rwa [Distinct, hj]

theorem keys_ids (c : Clc) : c.keys.map JobKey.id = c.jobs.map LYJobInfo.jId := by
  simp [Clc.keys]

theorem Does.distinct {i : Nat} {c c' : Clc} (h : Does queueRules i c c')
    (hd : Distinct c) : Distinct c' := by
  have := (h.keys_sublist fun hw => hw).map JobKey.id
  rw [keys_ids, keys_ids] at this
  exact this.nodup hd

theorem jobFind_of_mem {c : Clc} (hd : Distinct c) {j : LYJobInfo} (hj : j ∈ c.jobs) :
    jobFind c j.jId = some j := by
  obtain ⟨k, hk⟩ := find_of_jobExist (jobExist_iff.mpr ⟨j, hj, rfl⟩)
  rw [hk]
  have hkm : k ∈ c.jobs := List.mem_of_find?_eq_some hk
  exact congrArg some (List.inj_on_of_nodup_map hd hkm hj (jobFind_id hk))

theorem eq_of_id {c : Clc} (hd : Distinct c) {job j : LYJobInfo} (h : jobFind c job.jId = some job)
    (hj : j ∈ c.jobs) (hid : j.jId = job.jId) : j = job := by
  have := jobFind_of_mem hd hj
  rw [hid, h] at this
  exact (Option.some.inj this).symm

theorem jobFind_of_others {c c' : Clc} {id k : Int} (h : c'.others id = c.others id) (hk : k ≠ id) :
    jobFind c' k = jobFind c k := by
  have key : ∀ d : Clc, jobFind d k = (d.others id).find? fun j => j.jId == k := by
    intro d
    rw [Clc.others, List.find?_filter, jobFind]
    congr 1
    funext j
    by_cases hj : j.jId = k
    · simp [hj, hk]
    · simp [hj]
  rw [key, key, h]

/-! ## `job_clean_on_entity` -/

/-- The jobs among `js` that `job_clean_on_entity` frees: those on the entity, as far as the
database takes their status. Each of them makes two calls. -/
def cleanFrees (env : Env) (ent : Int) : Nat → List LYJobInfo → List Int
  | _, [] => []
  | tick, j :: js =>
    if j.jEntId = ent then
      if env.ok .dbExec (tick + 1) then j.jId :: cleanFrees env ent (tick + 2) js
      else cleanFrees env ent (tick + 2) js
    else cleanFrees env ent tick js

theorem cleanFrees_subset {env : Env} {ent : Int} {k : Int} {js : List LYJobInfo} {tick : Nat}
    (h : k ∈ cleanFrees env ent tick js) : ∃ j ∈ js, j.jId = k := by
  induction js generalizing tick with
  | nil => exact absurd h List.not_mem_nil
  | cons j js ih =>
    have later : ∀ {t}, k ∈ cleanFrees env ent t js → ∃ i ∈ j :: js, i.jId = k := by
      intro t ht
      obtain ⟨i, hi, hid⟩ := ih ht
      exact ⟨i, List.mem_cons_of_mem _ hi, hid⟩
    rw [cleanFrees] at h
    split at h
    · split at h
      · rcases List.mem_cons.mp h with rfl | h
        · exact ⟨j, List.mem_cons_self, rfl⟩
        · exact later h
      · exact later h
    · exact later h

theorem dbExec_spec (env : Env) (c : Clc) (f : Db → Db) :
    (dbExec env c f).1.io.tick = c.io.tick + 1 ∧
      (dbExec env c f).2 = if env.ok .dbExec c.io.tick then 0 else -1 := by
  unfold dbExec
  split <;> exact ⟨rfl, rfl⟩

/-- The status a disabled node leaves its jobs in: nothing follows from it for the instance. -/
theorem jobUpdateStatus_disabled (env : Env) {c : Clc} {id : Int} (hex : jobExist c id = true) :
    ∃ r, jobUpdateStatus env c id LyS.finishedFailureNodeNotEnabled = .ok r ∧
      r.1.io.tick = c.io.tick + 2 ∧ jobExist r.1 id = !env.ok .dbExec (c.io.tick + 1) := by
  have hexist : jobExist (jobStamp env c id LyS.finishedFailureNodeNotEnabled) id = true :=
    jobStamp_exist _ hex
  have htick : (jobStamp env c id LyS.finishedFailureNodeNotEnabled).io.tick = c.io.tick + 1 := rfl
  unfold jobUpdateStatus
  rw [if_neg (by decide)]
  dsimp only
  generalize jobStamp env c id LyS.finishedFailureNodeNotEnabled = c1 at hexist htick
  obtain ⟨job, hjob⟩ := find_of_jobExist hexist
  rw [hjob]
  dsimp only
  have hout := (dbJobUpdateStatus_outside env c1 job).jobs
  obtain ⟨hdt, hdr⟩ : (dbJobUpdateStatus env c1 job).1.io.tick = c1.io.tick + 1 ∧
      (dbJobUpdateStatus env c1 job).2 = if env.ok .dbExec c1.io.tick then 0 else -1 :=
        dbExec_spec ..
  rw [htick] at hdt hdr
  generalize dbJobUpdateStatus env c1 job = d at hout hdt hdr
  have hgone : ∀ c2 : Clc, jobExist (jobRemove c2 job) id = false := by
    intro c2
    cases h : jobExist (jobRemove c2 job) id with
    | false => rfl
    | true =>
      obtain ⟨j, hj, hid⟩ := jobExist_iff.mp h
      exact absurd (hid.trans (jobFind_id hjob).symm) (jobRemove_gone hj)
  have hio : ∀ c2 : Clc, (jobRemove c2 job).io = c2.io := by
    intro c2
    unfold jobRemove jobBusyRemove
    dsimp only
    split
    · split <;> rfl
    · rfl
  cases hok : env.ok .dbExec (c.io.tick + 1) with
  | true =>
    rw [hok, if_pos rfl] at hdr
    rw [if_neg (by rw [hdr]; decide), if_neg (by decide), if_pos (by decide)]
    split
    · exact ⟨_, rfl, by rw [hio, hdt], hgone _⟩
    · have hend : jobEnd env d.1 job LyS.finishedFailureNodeNotEnabled = (d.1, 0) := by
        unfold jobEnd
        rw [if_neg (by decide), if_neg fun h => absurd h.2 (by decide),
          if_neg fun h => absurd h.2 (by decide), if_neg fun h => absurd h.2 (by decide)]
      rw [hend]
      exact ⟨_, rfl, by rw [hio, hdt], hgone _⟩
  | false =>
    rw [hok, if_neg (by decide)] at hdr
    rw [if_pos (by rw [hdr]; decide)]
    exact ⟨_, rfl, hdt, (jobExist_congr hout id).trans hexist⟩

/-- **`job_clean_on_entity` is safe**, and frees exactly `cleanFrees`. -/
theorem jobCleanOnEntity_go_spec (env : Env) (ent : Int) {js : List LYJobInfo} {c : Clc}
    (hfind : ∀ j ∈ js, jobFind c j.jId = some j) (hnd : (js.map LYJobInfo.jId).Nodup) :
    ∃ c', jobCleanOnEntity.go env ent LyS.finishedFailureNodeNotEnabled (js.map LYJobInfo.jId) c =
      .ok c' ∧
      ∀ k, jobExist c' k = true ↔ jobExist c k = true ∧ k ∉ cleanFrees env ent c.io.tick js := by
  induction js generalizing c with
  | nil => exact ⟨c, rfl, fun k => by simp [cleanFrees]⟩
  | cons j js ih =>
    rw [List.map_cons, List.nodup_cons] at hnd
    have hj := hfind j List.mem_cons_self
    have hne : ∀ i ∈ js, i.jId ≠ j.jId := fun i hi h => hnd.1 (h ▸ List.mem_map_of_mem hi)
    rw [List.map_cons, jobCleanOnEntity.go, hj]
    dsimp only
    by_cases hent : j.jEntId = ent
    · obtain ⟨r, hr, htick, hexist⟩ := jobUpdateStatus_disabled env (jobExist_of_find hj)
      have hothers : r.1.others j.jId = c.others j.jId :=
        ((jobUpdateStatus_updated env (jobExist_of_find hj) (by decide)).of_ok hr).others
      have htmp : (List.find? (jobExist c) (js.map LYJobInfo.jId)).all (jobExist r.1) = true := by
        rw [Option.all_eq_true]
        intro k hk
        obtain ⟨i, hi, rfl⟩ := List.mem_map.mp (List.mem_of_find?_eq_some hk)
        rw [jobExist_of_others hothers (hne i hi)]
        exact List.find?_some hk
      rw [if_pos hent, hr]
      dsimp only
      rw [if_pos htmp]
      obtain ⟨c', hc', hspec⟩ := ih (c := r.1)
        (fun i hi => (jobFind_of_others hothers (hne i hi)).trans
          (hfind i (List.mem_cons_of_mem _ hi)))
        hnd.2
      refine ⟨c', hc', fun k => ?_⟩
      rw [hspec, htick, cleanFrees, if_pos hent]
      by_cases hk : k = j.jId
      · subst hk
        have hnot : j.jId ∉ cleanFrees env ent (c.io.tick + 2) js := by
          intro hmem
          obtain ⟨i, hi, hid⟩ := cleanFrees_subset hmem
          exact hne i hi hid
        rw [hexist]
        cases env.ok .dbExec (c.io.tick + 1) with
        | true => simp
        | false => simp [hnot, jobExist_of_find hj]
      · rw [jobExist_of_others hothers hk]
        split <;> simp [hk]
    · rw [if_neg hent]
      obtain ⟨c', hc', hspec⟩ := ih (c := c) (fun i hi => hfind i (List.mem_cons_of_mem _ hi)) hnd.2
      refine ⟨c', hc', fun k => ?_⟩
      rw [hspec, cleanFrees, if_neg hent]

/-! ## A visit -/

/-- The jobs that a disable job frees on behalf of its node. -/
def disableFrees (env : Env) (c : Clc) (target : Int) : List Int :=
  let ent := lyEntityFindByDb c.store .node target
  if env.ok .dbExec c.io.tick && lyEntityIsRegistered c.store ent then
    cleanFrees env ent (c.io.tick + 1) c.jobs
  else []

theorem jobNodeDisable_spec (env : Env) {c : Clc} {job : LYJobInfo} (hd : Distinct c)
    (hq : jobExist c job.jId = true) :
    (jobNodeDisable env c job = .error .useAfterFree ↔ job.jId ∈ disableFrees env c job.jTargetId) ∧
      ∀ c', jobNodeDisable env c job = .ok c' → ∀ k, k ≠ job.jId →
        (jobExist c' k = true ↔ jobExist c k = true ∧ k ∉ disableFrees env c job.jTargetId) := by
  have hout := dbNodeEnable_outside env c job.jTargetId false
  obtain ⟨htick, hret⟩ : (dbNodeEnable env c job.jTargetId false).1.io.tick = c.io.tick + 1 ∧
      (dbNodeEnable env c job.jTargetId false).2 = if env.ok .dbExec c.io.tick then 0 else -1 :=
    dbExec_spec ..
  -- a way out that frees nothing but the job itself
  have alone : ∀ {c2 : Clc} (status : Int), c2.jobs = c.jobs → isFinal status = true →
      disableFrees env c job.jTargetId = [] →
      (jobFail env c2 job.jId status = .error .useAfterFree ↔
        job.jId ∈ disableFrees env c job.jTargetId) ∧
      ∀ c', jobFail env c2 job.jId status = .ok c' → ∀ k, k ≠ job.jId →
        (jobExist c' k = true ↔ jobExist c k = true ∧ k ∉ disableFrees env c job.jTargetId) := by
    intro c2 status hj hs hnil
    have hran : Sat Sound (Ran env job.jId c) (jobFail env c2 job.jId status) :=
      jobFail_ran status (others_congr hj job.jId) ((jobExist_congr hj _).trans hq) (.inl hs)
    rw [hnil]
    refine ⟨⟨fun he => absurd rfl (hran.of_error he), fun h => absurd h List.not_mem_nil⟩, ?_⟩
    intro c' hc' k hk
    rw [jobExist_of_others (hran.of_ok hc').others hk]
    simp
  unfold jobNodeDisable
  dsimp only
  generalize dbNodeEnable env c job.jTargetId false = d at hout htick hret ⊢
  have hent : lyEntityFindByDb d.1.store .node job.jTargetId
      = lyEntityFindByDb c.store .node job.jTargetId := by rw [hout.store]
  rw [hent, hout.store]
  cases hok : env.ok .dbExec c.io.tick with
  | false =>
    rw [hok, if_neg (by decide)] at hret
    rw [if_pos (by rw [hret]; decide)]
    exact alone _ hout.jobs (by decide) (by rw [disableFrees, hok]; rfl)
  | true =>
    rw [hok, if_pos rfl] at hret
    rw [if_neg (by rw [hret]; decide)]
    cases hreg : lyEntityIsRegistered c.store (lyEntityFindByDb c.store .node job.jTargetId) with
    | false =>
      have hnil : disableFrees env c job.jTargetId = [] := by
        rw [disableFrees, hok, hreg]
        rfl
      rw [if_neg (by decide)]
      split
      · exact alone _ hout.jobs (by decide) hnil
      · exact alone _ hout.jobs (by decide) hnil
    | true =>
      have hfrees : disableFrees env c job.jTargetId =
          cleanFrees env (lyEntityFindByDb c.store .node job.jTargetId) (c.io.tick + 1) c.jobs := by
        rw [disableFrees, hok, hreg]
        rfl
      rw [if_pos rfl, hfrees]
      generalize lyEntityFindByDb c.store .node job.jTargetId = ent
      obtain ⟨c2, hc2, hspec⟩ := jobCleanOnEntity_go_spec env ent
        (fun j hj => jobFind_of_mem (hd.congr hout.jobs) hj) (hd.congr hout.jobs)
      have hclean : jobCleanOnEntity env ent LyS.finishedFailureNodeNotEnabled d.1 = .ok c2 := hc2
      rw [hclean]
      dsimp only
      rw [htick, hout.jobs] at hspec
      -- the job itself is still there, or the last write meets a job that was freed
      have hexist : ∀ k, jobExist (c2.withStore (lyEntityEnable c2.store ent (-1) false).1) k =
          true ↔
          jobExist c k = true ∧ k ∉ cleanFrees env ent (c.io.tick + 1) c.jobs := by
        intro k
        have := hspec k
        rw [jobExist_congr hout.jobs] at this
        exact this
      generalize c2.withStore (lyEntityEnable c2.store ent (-1) false).1 = c3 at hexist
      by_cases hself : job.jId ∈ cleanFrees env ent (c.io.tick + 1) c.jobs
      · have hnone : jobFind (jobStamp env c3 job.jId LyS.finishedSuccess) job.jId = none := by
          cases hf : jobFind (jobStamp env c3 job.jId LyS.finishedSuccess) job.jId with
          | none => rfl
          | some j =>
            obtain ⟨i, hi, hid⟩ := jobExist_iff.mp (jobExist_of_find hf)
            obtain ⟨i', hi', hii, -⟩ := of_mem_setJob hi hid
            exact absurd hself ((hexist _).mp (jobExist_iff.mpr ⟨i', hi', hii⟩)).2
        have huaf : jobFail env c3 job.jId LyS.finishedSuccess = .error .useAfterFree := by
          unfold jobFail jobUpdateStatus
          rw [if_neg (by decide)]
          dsimp only
          rw [hnone]
        rw [huaf]
        exact ⟨⟨fun _ => hself, fun _ => rfl⟩, fun c' h => nomatch h⟩
      · have hran : Sat Sound (Ran env job.jId c3) (jobFail env c3 job.jId LyS.finishedSuccess) :=
          jobFail_ran _ rfl ((hexist _).mpr ⟨hq, hself⟩) (.inl (by decide))
        refine ⟨⟨fun he => absurd rfl (hran.of_error he), fun h => absurd h hself⟩, ?_⟩
        intro c' hc' k hk
        rw [jobExist_of_others (hran.of_ok hc').others hk, hexist]

/-- The state in which a visit calls `__job_run`, if it does. -/
def runState (env : Env) (now : Int) (c : Clc) (job : LYJobInfo) : Option Clc :=
  if jobIsInitiated job.jStatus then
    some (setJob c.called job.jId fun j => { j with jLastRun := env.time c.io.tick })
  else if jobIsPending job.jStatus then
    if 4 < now - job.jLastRun then
      some (setJob c.called job.jId fun j => { j with jLastRun := env.time c.io.tick })
    else none
  else if jobIsWaiting job.jStatus then
    if jobTimeout env job < now - job.jStarted then none else some c
  else none

/-- The jobs that a visit frees on behalf of a node. -/
def visitFrees (env : Env) (now : Int) (c : Clc) (job : LYJobInfo) : List Int :=
  match runState env now c job with
  | none => []
  | some c1 => if job.jAction = LyA.clcDisableNode then disableFrees env c1 job.jTargetId else []

/-- What a visit of `job` may come to, when `frees` are the jobs it frees beside `job`. -/
structure Visit (c : Clc) (job : LYJobInfo) (frees : List Int) (x : Res Clc) : Prop where
  fault : x = .error .useAfterFree ↔ job.jId ∈ frees
  exist : ∀ c', x = .ok c' → ∀ k, k ≠ job.jId →
    (jobExist c' k = true ↔ jobExist c k = true ∧ k ∉ frees)

/-- A visit that frees no job but its own. -/
theorem Visit.of_sound {c : Clc} {job : LYJobInfo} {x : Res Clc}
    (h : Sat Sound (fun c' => c'.others job.jId = c.others job.jId) x) : Visit c job [] x where
  fault := ⟨fun he => absurd rfl (h.of_error he), fun hm => absurd hm List.not_mem_nil⟩
  exist := by
    intro c' hc' k hk
    rw [jobExist_of_others (h.of_ok hc') hk]
    simp

theorem jobRun_visit (env : Env) {c : Clc} {job : LYJobInfo} (hd : Distinct c)
    (hq : jobExist c job.jId = true)
    (hall : ∀ j ∈ c.jobs, j.jId = job.jId → j.jStatus = job.jStatus) :
    Visit c job (if job.jAction = LyA.clcDisableNode then disableFrees env c job.jTargetId else [])
      (jobRun env c job) := by
  by_cases hdis : job.jAction = LyA.clcDisableNode
  · obtain ⟨h1, h2⟩ := jobNodeDisable_spec env hd hq
    have hrun : jobRun env c job = jobNodeDisable env c job := by
      unfold jobRun
      rw [hdis, if_neg (by decide), if_pos rfl]
    rw [if_pos hdis, hrun]
    exact ⟨h1, h2⟩
  · rw [if_neg hdis]
    by_cases hsave : job.jAction = LyA.nodeSaveInstance
    · have hrun : jobRun env c job = .ok c := by
        unfold jobRun
        simp only [hsave]
        rfl
      rw [hrun]
      exact .of_sound (show c.others _ = c.others _ from rfl)
    · exact .of_sound ((jobRun_ran rfl hq hall hdis hsave).mono fun _ h => h.others)

theorem setLastRun_others (c : Clc) (id now : Int) :
    (setJob c.called id fun j => { j with jLastRun := now }).others id = c.others id :=
  setJob_others c.called id fun _ => rfl

theorem jobRunNow_visit (env : Env) {c : Clc} {job : LYJobInfo} (hd : Distinct c)
    (hjob : jobFind c job.jId = some job) :
    Visit c job (if job.jAction = LyA.clcDisableNode then
        disableFrees env (setJob c.called job.jId fun j =>
          { j with jLastRun := env.time c.io.tick })
          job.jTargetId else []) (jobRunNow env c job) := by
  have hd1 :
      Distinct (setJob c.called job.jId fun j => { j with jLastRun := env.time c.io.tick }) :=
    Does.distinct (i := 0)
      (.trans (.call (.called c) rfl) (setJob_does (fun hq => hq) _ fun _ => rfl)) hd
  have hq : jobExist (setJob c.called job.jId fun j => { j with jLastRun := env.time c.io.tick })
      job.jId = true := setJob_exist (fun _ => rfl) (jobExist_of_find hjob)
  have hall :
      ∀ j ∈ (setJob c.called job.jId fun j => { j with jLastRun := env.time c.io.tick }).jobs,
      j.jId = { job with jLastRun := env.time c.io.tick }.jId →
      j.jStatus = { job with jLastRun := env.time c.io.tick }.jStatus := by
    intro j hj hid
    obtain ⟨i, hi, hii, rfl⟩ := of_mem_setJob hj hid
    rw [eq_of_id hd hjob hi hii]
  have hv := jobRun_visit env hd1 hq hall
  refine ⟨hv.fault, fun c' hc' k hk => ?_⟩
  rw [hv.exist c' hc' k hk, jobExist_of_others (setLastRun_others c job.jId _) hk]

/-- **A visit of the dispatch pass.** -/
theorem jobDispatchOne_visit (env : Env) (now : Int) {c : Clc} {job : LYJobInfo} (hd : Distinct c)
    (hjob : jobFind c job.jId = some job) :
    Visit c job (visitFrees env now c job) (jobDispatchOne env now c job) := by
  have hq := jobExist_of_find hjob
  have hstay : Sat Sound (fun c' => c'.others job.jId = c.others job.jId)
      (Except.ok (ε := Fault) c) :=
    show c.others _ = c.others _ from rfl
  have hfail : ∀ status, jobIsInitiated status = false →
      Sat Sound (fun c' => c'.others job.jId = c.others job.jId)
        (jobFail env c job.jId status) := by
    intro status hs
    have hup := jobUpdateStatus_updated env hq hs
    unfold jobFail
    split
    · exact hup.of_error (by assumption)
    · exact (hup.of_ok (by assumption)).others
  by_cases hi : jobIsInitiated job.jStatus = true
  · have hone : jobDispatchOne env now c job = jobRunNow env c job := by
      simp only [jobDispatchOne, hi, if_true]
    simp only [hone, visitFrees, runState, hi, if_true]
    exact jobRunNow_visit env hd hjob
  by_cases hp : jobIsPending job.jStatus = true
  · by_cases hdue : 4 < now - job.jLastRun
    · have hone : jobDispatchOne env now c job = jobRunNow env c job := by
        simp only [jobDispatchOne, hi, hp, hdue, Bool.or_true, if_true, if_false,
          Bool.false_eq_true]
      simp only [hone, visitFrees, runState, hi, hp, hdue, if_true, if_false, Bool.false_eq_true]
      exact jobRunNow_visit env hd hjob
    · have hone : jobDispatchOne env now c job = .ok c := by
        simp only [jobDispatchOne, hi, hp, hdue, Bool.or_true, if_true, if_false,
          Bool.false_eq_true]
      simp only [hone, visitFrees, runState, hi, hp, hdue, if_true, if_false, Bool.false_eq_true]
      exact .of_sound hstay
  by_cases hw : jobIsWaiting job.jStatus = true
  · by_cases hto : jobTimeout env job < now - job.jStarted
    · have hone : jobDispatchOne env now c job = jobFail env c job.jId LyS.timeout := by
        simp only [jobDispatchOne, hi, hp, hw, hto, Bool.or_true, Bool.true_or, if_true, if_false,
          Bool.false_eq_true]
      simp only [hone, visitFrees, runState, hi, hp, hw, hto, if_true, if_false, Bool.false_eq_true]
      exact .of_sound (hfail _ (by decide))
    · have hone : jobDispatchOne env now c job = jobRun env c job := by
        simp only [jobDispatchOne, hi, hp, hw, hto, Bool.or_true, Bool.true_or, if_true, if_false,
          Bool.false_eq_true]
      simp only [hone, visitFrees, runState, hi, hp, hw, hto, if_true, if_false, Bool.false_eq_true]
      exact jobRun_visit env hd hq fun j hj hid => by rw [eq_of_id hd hjob hj hid]
  simp only [visitFrees, runState, hi, hp, hw, if_false, Bool.false_eq_true]
  refine .of_sound ?_
  unfold jobDispatchOne
  rw [if_neg hi, if_neg hp, if_neg hw]
  split
  · split
    · exact hfail _ (by decide)
    · exact hstay
  · exact hfail _ (by decide)

/-! ## A pass -/

/-- No visit of the pass frees the job it visits or the next one on behalf of a node. -/
def PassOk (env : Env) (now : Int) : List Int → Clc → Prop
  | [], _ => True
  | id :: ids, c =>
    match jobFind c id with
    | none => PassOk env now ids c
    | some job =>
      job.jId ∉ visitFrees env now c job ∧
        match jobDispatchOne env now c job with
        | .error _ => True
        | .ok c' =>
          (∀ next, ids.find? (jobExist c) = some next → next ∉ visitFrees env now c job) ∧
            PassOk env now ids c'

/-- **A pass is safe exactly when each of its visits is.** -/
theorem jobDispatchLoop_safe (env : Env) (now : Int) {ids : List Int} (hnd : ids.Nodup) {c : Clc}
    (hd : Distinct c) :
    jobDispatchLoop env now ids c ≠ .error .useAfterFree ↔ PassOk env now ids c := by
  induction ids generalizing c with
  | nil => exact ⟨fun _ => trivial, fun _ h => nomatch h⟩
  | cons id ids ih =>
    rw [List.nodup_cons] at hnd
    rw [jobDispatchLoop, PassOk]
    cases hjob : jobFind c id with
    | none => exact ih hnd.2 hd
    | some job =>
      obtain rfl := jobFind_id hjob
      have hv := jobDispatchOne_visit env now hd hjob
      dsimp only
      cases hone : jobDispatchOne env now c job with
      | error e =>
        rw [hone] at hv
        dsimp only
        rw [and_true, ← hv.fault]
      | ok c1 =>
        rw [hone] at hv
        have hd1 : Distinct c1 :=
          Does.distinct (i := 0) ((jobDispatchOne_sat (fun hq => hq) env now c job).of_ok hone) hd
        have hself : job.jId ∉ visitFrees env now c job := fun hm => nomatch hv.fault.mpr hm
        have hsafe : (ids.find? (jobExist c)).all (jobExist c1) = true ↔
            ∀ next, ids.find? (jobExist c) = some next → next ∉ visitFrees env now c job := by
          rw [Option.all_eq_true]
          refine forall_congr' fun next => forall_congr' fun hnext => ?_
          have hmem := List.mem_of_find?_eq_some hnext
          have hex := List.find?_some hnext
          rw [hv.exist c1 rfl next fun h => hnd.1 (h ▸ hmem)]
          exact ⟨fun h => h.2, fun h => ⟨hex, h⟩⟩
        dsimp only
        by_cases hall : (ids.find? (jobExist c)).all (jobExist c1) = true
        · rw [if_pos hall, ih hnd.2 hd1]
          exact ⟨fun h => ⟨hself, hsafe.mp hall, h⟩, fun h => h.2.2⟩
        · rw [if_neg hall]
          exact ⟨fun h => absurd rfl h, fun h => absurd (hsafe.mpr h.2.1) hall⟩

/-- The jobs a pass visits, in this order. -/
def visits (env : Env) (now : Int) : List Int → Clc → List Int
  | [], _ => []
  | id :: ids, c =>
    match jobFind c id with
    | none => visits env now ids c
    | some job =>
      id :: match jobDispatchOne env now c job with
        | .error _ => []
        | .ok c' => visits env now ids c'

theorem mem_of_mem_visits {env : Env} {now k : Int} {ids : List Int} {c : Clc}
    (h : k ∈ visits env now ids c) : k ∈ ids := by
  induction ids generalizing c with
  | nil => exact h
  | cons id ids ih =>
    rw [visits] at h
    split at h
    · exact List.mem_cons_of_mem _ (ih h)
    · rcases List.mem_cons.mp h with rfl | h
      · exact List.mem_cons_self
      · split at h
        · exact absurd h List.not_mem_nil
        · exact List.mem_cons_of_mem _ (ih h)

/-- What is done without the web adds no job. -/
theorem Does.jobExist {c c' : Clc} (h : Does queueRules 0 c c') {id : Int}
    (hex : LuoYun.jobExist c' id = true) : LuoYun.jobExist c id = true := by
  obtain ⟨j, hj, rfl⟩ := jobExist_iff.mp hex
  have hmem : j.key ∈ c.keys := (h.keys_sublist fun hw => hw).subset (List.mem_map_of_mem hj)
  obtain ⟨i, hi, hkey⟩ := List.mem_map.mp hmem
  exact jobExist_iff.mpr ⟨i, hi, congrArg JobKey.id hkey⟩

/-- **Every job that is still queued after a pass was visited once.** -/
theorem visits_once {env : Env} {now : Int} {ids : List Int} (hnd : ids.Nodup) {c c' : Clc}
    (h : jobDispatchLoop env now ids c = .ok c') {id : Int} (hid : id ∈ ids)
    (hex : jobExist c' id = true) : (visits env now ids c).count id = 1 := by
  induction ids generalizing c with
  | nil => exact absurd hid List.not_mem_nil
  | cons k ids ih =>
    rw [List.nodup_cons] at hnd
    have hdoes : Does queueRules 0 c c' := (jobDispatchLoop_sat (fun hq => hq) env now _ c).of_ok h
    rw [jobDispatchLoop] at h
    rw [visits]
    cases hjob : jobFind c k with
    | none =>
      rw [hjob] at h
      have hne : id ≠ k := by
        rintro rfl
        obtain ⟨job, hsome⟩ := find_of_jobExist (hdoes.jobExist hex)
        rw [hjob] at hsome
        cases hsome
      exact ih hnd.2 h ((List.mem_cons.mp hid).resolve_left hne)
    | some job =>
      rw [hjob] at h
      dsimp only at h ⊢
      cases hone : jobDispatchOne env now c job with
      | error e =>
        rw [hone] at h
        cases h
      | ok c1 =>
        rw [hone] at h
        dsimp only at h ⊢
        split at h
        · by_cases hne : id = k
          · subst hne
            have hnot : id ∉ visits env now ids c1 := fun hm => hnd.1 (mem_of_mem_visits hm)
            rw [List.count_cons_self, List.count_eq_zero.mpr hnot]
          · rw [List.count_cons_of_ne (Ne.symm hne)]
            exact ih hnd.2 h ((List.mem_cons.mp hid).resolve_left hne)
        · cases h

/-! ## A reply -/

section

variable {env : Env} {c : Clc}

theorem dbExecText_stale (sql : Bytes) (texts : List Bytes) (f : Db → Db) :
    (dbExecText env c sql texts f).1.staleReads = c.staleReads := by
  unfold dbExecText dbExec
  repeat' split
  all_goals rfl

theorem dbInstanceUpdateStatus_stale (id : Int) (ii : Option InstanceInfo) (nodeId : Int) :
    (dbInstanceUpdateStatus env c id ii nodeId).1.staleReads = c.staleReads := by
  unfold dbInstanceUpdateStatus
  split
  · rfl
  · rfl
  · rfl
  · dsimp only
    split
    · rfl
    · split
      · exact dbExecText_stale _ _ _
      · rfl

theorem lyPacketSend_stale (fd type : Int) (data : Bytes) :
    (lyPacketSend env c fd type data).1.staleReads = c.staleReads := by
  unfold lyPacketSend
  split <;> rfl

theorem jobInternalQueryInstance_stale (id : Int) :
    (jobInternalQueryInstance env c id).1.staleReads = c.staleReads := by
  have hget : (dbInstanceGetNode env c id).1.staleReads = c.staleReads := by
    unfold dbInstanceGetNode
    split <;> rfl
  unfold jobInternalQueryInstance
  split
  · rfl
  · dsimp only
    split
    · exact hget
    · split
      · exact hget
      · split
        · exact hget
        · split
          · exact hget
          · exact (lyPacketSend_stale _ _ _).trans hget

theorem releaseOsm_stale (insId : Int) : (releaseOsm c insId).staleReads = c.staleReads := by
  unfold releaseOsm
  dsimp only
  split <;> rfl

theorem jobEnd_stale (job : LYJobInfo) (status : Int) :
    (jobEnd env c job status).1.staleReads = c.staleReads := by
  have hrel := releaseOsm_stale (c := c) job.jTargetId
  unfold jobEnd
  split
  · exact (jobInternalQueryInstance_stale _).trans ((dbInstanceUpdateStatus_stale _ _ _).trans hrel)
  · split
    · rfl
    · split
      · exact (dbInstanceUpdateStatus_stale _ _ _).trans hrel
      · split
        · unfold dbInstanceDelete dbExec
          split <;> rfl
        · rfl

theorem jobBusyRemove_stale (job : LYJobInfo) :
    (jobBusyRemove c job).staleReads = c.staleReads := by
  unfold jobBusyRemove
  split
  · dsimp only
    split <;> rfl
  · rfl

theorem jobRemove_stale (job : LYJobInfo) : (jobRemove c job).staleReads = c.staleReads :=
  jobBusyRemove_stale job

end

/-- The database takes the status of the job, and what follows from it for the instance. -/
def EndWritten (env : Env) (c : Clc) (id status : Int) : Prop :=
  ∃ job, jobFind (jobStamp env c id status) id = some job ∧
    env.ok .dbExec (c.io.tick + 1) = true ∧
    (jobIsCancelled status = true ∨ job.jTargetType ≠ jobTargetInstance ∨
      0 ≤ (jobEnd env (dbJobUpdateStatus env (jobStamp env c id status) job).1 job status).2)

theorem jobUpdateStatus_stale {env : Env} {c : Clc} {id status : Int} {r : Clc × Int}
    (h : jobUpdateStatus env c id status = .ok r) : r.1.staleReads = c.staleReads := by
  have hstamp : (jobStamp env c id status).staleReads = c.staleReads := rfl
  unfold jobUpdateStatus at h
  split at h
  · obtain rfl := Except.ok.inj h
    rfl
  · dsimp only at h
    split at h
    · cases h
    · rename_i job _
      have hdb : (dbJobUpdateStatus env (jobStamp env c id status) job).1.staleReads =
          c.staleReads := by
        unfold dbJobUpdateStatus dbExec
        split <;> exact hstamp
      split at h
      · obtain rfl := Except.ok.inj h
        exact hdb
      · split at h
        · split at h
          · obtain rfl := Except.ok.inj h
            exact (dbInstanceUpdateStatus_stale _ _ _).trans hdb
          · obtain rfl := Except.ok.inj h
            exact (jobBusyRemove_stale _).trans ((dbInstanceUpdateStatus_stale _ _ _).trans hdb)
        · split at h
          · split at h
            · obtain rfl := Except.ok.inj h
              exact (jobRemove_stale _).trans hdb
            · obtain rfl := Except.ok.inj h
              exact (jobRemove_stale _).trans ((jobEnd_stale _ _).trans hdb)
          · obtain rfl := Except.ok.inj h
            exact hdb

theorem jobRemove_exist (c : Clc) {job : LYJobInfo} {id : Int} (h : job.jId = id) :
    jobExist (jobRemove c job) id = false := by
  cases hex : jobExist (jobRemove c job) id with
  | false => rfl
  | true =>
    obtain ⟨j, hj, hid⟩ := jobExist_iff.mp hex
    exact absurd (hid.trans h.symm) (jobRemove_gone hj)

/-- A final status that is written frees the job. -/
theorem jobUpdateStatus_final {env : Env} {c : Clc} {id status : Int} {r : Clc × Int}
    (h : jobUpdateStatus env c id status = .ok r) (hf : isFinal status = true) :
    (r.2 = 0 ↔ EndWritten env c id status) ∧ (r.2 = 0 → jobExist r.1 id = false) := by
  have hini : ¬ jobIsInitiated status = true := by
    rw [not_initiated (.inl hf)]
    decide
  have hosm : status ≠ LyS.waitingStartingOsm := by
    rintro rfl
    exact absurd hf (by decide)
  rw [jobUpdateStatus, if_neg hini] at h
  unfold EndWritten
  have htick : (jobStamp env c id status).io.tick = c.io.tick + 1 := rfl
  generalize jobStamp env c id status = c1 at h htick ⊢
  dsimp only at h
  cases hjob : jobFind c1 id with
  | none =>
    rw [hjob] at h
    cases h
  | some job =>
    have hid := jobFind_id hjob
    have hret : (dbJobUpdateStatus env c1 job).2 = if env.ok .dbExec c1.io.tick then 0 else -1 :=
      (dbExec_spec ..).2
    rw [htick] at hret
    rw [hjob] at h
    dsimp only at h
    rw [if_neg hosm,
      show (jobIsFinished status || jobIsTimeout status || jobIsCancelled status) = true from hf,
      if_pos rfl] at h
    cases hok : env.ok .dbExec (c.io.tick + 1) with
    | false =>
      rw [hok, if_neg (by decide)] at hret
      rw [if_pos (by rw [hret]; decide)] at h
      obtain rfl := Except.ok.inj h
      simp
    | true =>
      rw [hok, if_pos rfl] at hret
      rw [if_neg (by rw [hret]; decide)] at h
      split at h
      · rename_i hcase
        obtain rfl := Except.ok.inj h
        refine ⟨⟨fun _ => ⟨job, rfl, rfl, ?_⟩, fun _ => rfl⟩, fun _ => jobRemove_exist _ hid⟩
        exact hcase.imp_right .inl
      · rename_i hcase
        obtain rfl := Except.ok.inj h
        refine ⟨⟨fun h0 => ⟨job, rfl, rfl, .inr (.inr ?_)⟩, ?_⟩, fun _ => jobRemove_exist _ hid⟩
        · dsimp only at h0
          split at h0 <;> omega
        · rintro ⟨job', hj', -, hor⟩
          obtain rfl := Option.some.inj hj'
          have hpos : 0 ≤ (jobEnd env (dbJobUpdateStatus env c1 job).1 job status).2 := by
            rcases hor with h1 | h1 | h1
            · exact absurd (.inl h1) hcase
            · exact absurd (.inr h1) hcase
            · exact h1
          dsimp only
          rw [if_neg (by omega)]

/-- No job that was freed is used while a reply is processed. -/
def ReplySafe (env : Env) (c : Clc) (id status : Int) : Prop :=
  nodeResponseJob env c id status ≠ .error .useAfterFree ∧
    ∀ r, nodeResponseJob env c id status = .ok r → r.1.staleReads = c.staleReads

/-- **A reply is safe exactly when it frees no job.** -/
theorem replySafe_iff (env : Env) (c : Clc) (id status : Int) :
    ReplySafe env c id status ↔
      ¬ (id ≠ 0 ∧ jobExist c id = true ∧ isFinal status = true ∧ EndWritten env c id status) := by
  unfold ReplySafe nodeResponseJob
  by_cases h0 : id = 0
  · rw [if_pos h0]
    refine ⟨fun _ h => h.1 h0, fun _ => ⟨fun h => (by cases h), fun r hr => ?_⟩⟩
    obtain rfl := Except.ok.inj hr
    rfl
  · rw [if_neg h0]
    cases hjob : jobFind c id with
    | none =>
      refine ⟨fun _ h => ?_, fun _ => ⟨fun h => (by cases h), fun r hr => ?_⟩⟩
      · obtain ⟨job, hsome⟩ := find_of_jobExist h.2.1
        rw [hjob] at hsome
        cases hsome
      · obtain rfl := Except.ok.inj hr
        rfl
    | some job =>
      have hex := jobExist_of_find hjob
      dsimp only
      cases hup : jobUpdateStatus env c id status with
      | error e =>
        -- a queued job is never found to be freed here
        have hini : jobIsInitiated status = false := by
          cases hi : jobIsInitiated status with
          | false => rfl
          | true =>
            rw [jobUpdateStatus, if_pos hi] at hup
            cases hup
        have hs := (jobUpdateStatus_updated env hex hini).of_error hup
        refine ⟨fun _ h => ?_, fun _ => ⟨fun h => hs (Except.error.inj h), fun r hr => by cases hr⟩⟩
        obtain ⟨job', hj', -⟩ := h.2.2.2
        rw [jobUpdateStatus, if_neg (by rw [hini]; decide)] at hup
        dsimp only at hup
        rw [hj'] at hup
        dsimp only at hup
        repeat' split at hup
        all_goals cases hup
      | ok u =>
        have hstale := jobUpdateStatus_stale hup
        dsimp only
        by_cases hret : u.2 = 0
        · rw [if_neg (not_not_intro hret)]
          -- the read after the update
          have hread : (u.1.readAgain id).staleReads = c.staleReads ↔ jobExist u.1 id = true := by
            unfold Clc.readAgain
            split
            · rename_i h
              exact ⟨fun _ => h, fun _ => hstale⟩
            · rename_i h
              refine ⟨fun he => ?_, fun he => absurd he h⟩
              dsimp only at he
              omega
          have hlive : jobExist u.1 id = true ↔ ¬ isFinal status = true := by
            cases hf : isFinal status with
            | true =>
              rw [(jobUpdateStatus_final hup hf).2 hret]
              simp
            | false =>
              cases hi : jobIsInitiated status with
              | true =>
                rw [jobUpdateStatus, if_pos hi] at hup
                obtain rfl := Except.ok.inj hup
                simp [hex]
              | false =>
                simp [((jobUpdateStatus_updated env hex hi).of_ok hup).stays hf]
          have hcond : ¬ (id ≠ 0 ∧ jobExist c id = true ∧ isFinal status = true ∧
              EndWritten env c id status) ↔ ¬ isFinal status = true := by
            refine not_congr ⟨fun h => h.2.2.1, fun hf => ⟨h0, hex, hf, ?_⟩⟩
            exact (jobUpdateStatus_final hup hf).1.mp hret
          rw [hcond, ← hlive, ← hread]
          split
          · refine ⟨fun h => ?_, fun h => ⟨fun he => (by cases he), fun r hr => ?_⟩⟩
            · have := h.2 _ rfl
              rwa [releaseOsm_stale] at this
            · obtain rfl := Except.ok.inj hr
              exact (releaseOsm_stale _).trans h
          · refine ⟨fun h => h.2 _ rfl, fun h => ⟨fun he => (by cases he), fun r hr => ?_⟩⟩
            obtain rfl := Except.ok.inj hr
            exact h
        · rw [if_pos hret]
          refine ⟨fun _ h => hret ((jobUpdateStatus_final hup h.2.2.1).1.mpr h.2.2.2), fun _ => ?_⟩
          refine ⟨fun he => (by cases he), fun r hr => ?_⟩
          obtain rfl := Except.ok.inj hr
          exact hstale

/-! ## Passes and replies -/

/-- The pass uses no job that was freed, and visits every job that stays queued once. -/
def DispatchSafe (env : Env) (c : Clc) : Prop :=
  jobDispatch env c ≠ .error .useAfterFree ∧
    ∀ c', jobDispatch env c = .ok c' → ∀ id, jobExist c id = true → jobExist c' id = true →
      (visits env (env.time c.io.tick) (c.jobs.map LYJobInfo.jId)
        { c.called with jobInsPendingNr := 0 }).count id = 1

/-- **Job traversal.** A dispatch pass is safe exactly when none of its visits frees, on behalf of
a node that is disabled, the job it visits or the next one. A reply is safe exactly when it does not
bring a queued job to an end. -/
theorem traversal_safe_iff (env : Env) (c : Clc) (hd : Distinct c) :
    (DispatchSafe env c ↔ PassOk env (env.time c.io.tick) (c.jobs.map LYJobInfo.jId)
      { c.called with jobInsPendingNr := 0 }) ∧
    ∀ id status, ReplySafe env c id status ↔
      ¬ (id ≠ 0 ∧ jobExist c id = true ∧ isFinal status = true ∧ EndWritten env c id status) := by
  refine ⟨?_, replySafe_iff env c⟩
  have hd0 : Distinct { c.called with jobInsPendingNr := 0 } := hd
  rw [← jobDispatchLoop_safe env _ hd hd0]
  refine ⟨fun h => h.1, fun h => ⟨h, fun c' hc' id hid hex => visits_once hd hc' ?_ hex⟩⟩
  obtain ⟨j, hj, rfl⟩ := jobExist_iff.mp hid
  exact List.mem_map_of_mem hj

/-- The fault of an outcome. -/
def fault? {α : Type} : Res α → Option Fault
  | .ok _ => none
  | .error e => some e

theorem fault?_eq {α : Type} {x : Res α} {e : Fault} (h : fault? x = some e) : x = .error e := by
  cases x with
  | ok a => cases h
  | error e' => exact congrArg _ (Option.some.inj h)

/-- A stop job that was sent to its node: the next pass leaves it alone, and so does a reply that
the instance has stopped. -/
theorem traversal_safe_iff_stop : ∃ c, QueueReachable Env.stocked Machine.Always c ∧
    c.jobs.map LYJobInfo.jSent = [true] ∧ DispatchSafe Env.stocked c ∧
      ReplySafe Env.stocked c 1 LyS.runningStopped := by
  have hrun : (Machine.exec (Clc.queueNext Env.stocked) [.web 1, .dispatch]
      (.oneNode [.onSeven 1 LyA.nodeStopInstance])).map
        (fun c => (c.jobs.map LYJobInfo.jSent, fault? (jobDispatch Env.stocked c))) =
      some ([true], none) := by
    decide +kernel
  obtain ⟨c, hc, heq⟩ := Option.map_eq_some_iff.mp hrun
  obtain ⟨hsent, hfault⟩ := Prod.mk.inj heq
  have hreach := queueReachable_of_exec rfl _ hc
  have hd : Distinct c := (queue_ordered (fun _ => rfl) hreach).nodup
  obtain ⟨hpass, hreply⟩ := traversal_safe_iff Env.stocked c hd
  refine ⟨c, hreach, hsent, hpass.mpr ?_, (hreply 1 _).mpr fun h => absurd h.2.2.1 (by decide)⟩
  have hd0 : Distinct { c.called with jobInsPendingNr := 0 } := hd
  refine (jobDispatchLoop_safe Env.stocked _ hd hd0).mp fun hbad => ?_
  have : jobDispatch Env.stocked c = .error .useAfterFree := hbad
  rw [this] at hfault
  cases hfault

/-- A disable job ahead of a job that waits for its node, and a reply that ends a job. -/
theorem traversal_unsafe :
    (∃ c, QueueReachable Env.stocked Machine.Always c ∧ ¬ DispatchSafe Env.stocked c) ∧
    ∃ c, QueueReachable Env.stocked Machine.Always c ∧
      ¬ ReplySafe Env.stocked c 1 LyS.finishedSuccess := by
  constructor
  · have hrun : (Machine.exec (Clc.queueNext Env.stocked)
        [.web 1, .reply 1 LyS.running, .web 2, .dispatch, .reply 1 LyS.waiting]
        (.oneNode [⟨1, LyS.initiated, 0, 0, 0, jobTargetNode, 1, LyA.clcDisableNode⟩,
          .onSeven 2 LyA.nodeStopInstance])).map (fun c => fault? (jobDispatch Env.stocked c)) =
        some (some .useAfterFree) := by
      decide +kernel
    obtain ⟨c, hc, heq⟩ := Option.map_eq_some_iff.mp hrun
    exact ⟨c, queueReachable_of_exec rfl _ hc, fun h => h.1 (fault?_eq heq)⟩
  · have hrun : (Machine.exec (Clc.queueNext Env.stocked) [.web 1, .dispatch]
        (.oneNode [.onSeven 1 LyA.nodeStopInstance])).map (fun c => (c.staleReads,
          (nodeResponseJob Env.stocked c 1 LyS.finishedSuccess).toOption.map fun r =>
            r.1.staleReads)) =
        some (0, some 1) := by
      decide +kernel
    obtain ⟨c, hc, heq⟩ := Option.map_eq_some_iff.mp hrun
    obtain ⟨h0, h1⟩ := Prod.mk.inj heq
    refine ⟨c, queueReachable_of_exec rfl _ hc, fun h => ?_⟩
    obtain ⟨r, hr, hr1⟩ := Option.map_eq_some_iff.mp h1
    cases hn : nodeResponseJob Env.stocked c 1 LyS.finishedSuccess with
    | error e =>
      rw [hn] at hr
      cases hr
    | ok r' =>
      rw [hn] at hr
      obtain rfl := Option.some.inj hr
      have := h.2 _ hn
      omega

end LuoYun

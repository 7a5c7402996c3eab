import LuoYun.Clc.Queue
import LuoYun.Proof.NodeEffect

/-!
# Which jobs wait side by side

`job_check` looks at a new job and at every job already queued for the same target, and either
refuses the new one or cancels the old ones that it replaces. What it leaves is a relation between
a job and those inserted after it (`Precedes`); it holds pairwise of every queue, because nothing
but an insertion adds a job and a job keeps its key.
-/

namespace LuoYun

@[simp] theorem key_id (j : LYJobInfo) : j.key.id = j.jId := rfl
@[simp] theorem key_action (j : LYJobInfo) : j.key.action = j.jAction := rfl

/-! ## The relation -/

/-- The actions that control an instance and look at every other job of it. A full reboot looks
for another full reboot only. -/
def isExclusive (action : Int) : Bool := isControl action && action != LyA.nodeFullrebootInstance

/-- Two keys with the same target. -/
def JobKey.SameTarget (a b : JobKey) : Prop := a.targetType = b.targetType ∧ a.targetId = b.targetId

/-- A job with key `a` is queued when one with key `b` is inserted. -/
structure Precedes (a b : JobKey) : Prop where
  ids : a.id ≠ b.id
  destroyed : a.SameTarget b → b.action = LyA.nodeDestroyInstance → a.action = LyA.nodeStopInstance
  final : a.SameTarget b → a.action = LyA.nodeDestroyInstance → isQuery b.action = true
  control : a.SameTarget b → a.targetType = jobTargetInstance → isExclusive a.action = true →
    isExclusive b.action = true → a.action = LyA.nodeStopInstance ∧
      b.action = LyA.nodeDestroyInstance

/-- Every job precedes those behind it. -/
def Ordered (c : Clc) : Prop := c.keys.Pairwise Precedes

/-! ## What keeps the keys -/

/-- Nothing is known but that no job comes from the web. -/
def queueRules : Rules where
  wild := False
  web := False
  live := False
  ordered := False
  strict := False
  quiet := False

theorem Does.keys_sublist {R : Rules} {i : Nat} {c c' : Clc} (hw : ¬ R.web) (h : Does R i c c') :
    c'.keys.Sublist c.keys := by
  refine h.inv (I := fun c' => c'.keys.Sublist c.keys) (fun a b ha hs => ?_) (.refl _)
  cases hs with
  | outside ho _ =>
    rw [Clc.keys, ho.jobs]
    exact ha
  | jobs hkeys _ _ _ => exact hkeys.trans ha
  | insert _ _ hweb _ => exact absurd hweb hw
  | slot j ht _ _ =>
    rw [Clc.keys, ht.jobs]
    exact ha
  | displace j ht _ _ =>
    rw [Clc.keys, ht.jobs]
    exact ha

/-- What is done without the web leaves the order as it is. -/
theorem Does.ordered {i : Nat} {c c' : Clc} (h : Does queueRules i c c')
    (ho : Ordered c) : Ordered c' :=
  List.Pairwise.sublist (h.keys_sublist id) ho

theorem jobUpdateStatus_keys {env : Env} {c : Clc} {id status : Int} {r : Clc × Int}
    (h : jobUpdateStatus env c id status = .ok r) : r.1.keys.Sublist c.keys :=
  Does.keys_sublist (R := queueRules) (i := 0) (fun hw => hw)
    ((jobUpdateStatus_sat (fun hq => hq) env c id status).of_ok h)

/-! ## Cancelling -/

theorem jobFind_id {c : Clc} {id : Int} {job : LYJobInfo} (h : jobFind c id = some job) :
    job.jId = id := by
  simpa using List.find?_some h

theorem dbExec_ok {env : Env} (hdb : env.DbWrites) (c : Clc) (f : Db → Db) :
    (dbExec env c f).2 = 0 := by
  rw [dbExec, if_pos (hdb _)]

theorem mem_keys_jobRemove {c : Clc} {job : LYJobInfo} {k : JobKey}
    (h : k ∈ (jobRemove c job).keys) :
    k.id ≠ job.jId := by
  obtain ⟨j, hj, rfl⟩ := List.mem_map.mp h
  simpa using (List.mem_filter.mp hj).2

/-- A job that is cancelled is off the queue. -/
theorem jobUpdateStatus_cancelled {env : Env} (hdb : env.DbWrites) {c : Clc}
    {id : Int} {r : Clc × Int}
    (h : jobUpdateStatus env c id LyS.cancelActionReplaced = .ok r) :
    ∀ k ∈ r.1.keys, k.id ≠ id := by
  intro k hk
  rw [jobUpdateStatus, if_neg (by decide)] at h
  dsimp only at h
  split at h
  · cases h
  · rename_i job hjob
    have hexec : ¬ (dbJobUpdateStatus env (jobStamp env c id LyS.cancelActionReplaced) job).2 <
        0 := by
      rw [dbJobUpdateStatus, dbExec_ok hdb]
      decide
    rw [if_neg hexec, if_neg (by decide), if_pos (by decide), if_pos (.inl (by decide))] at h
    obtain rfl := Except.ok.inj h
    rw [← jobFind_id hjob]
    exact mem_keys_jobRemove hk

theorem sameTarget_iff {job j : LYJobInfo} :
    sameTarget job j = true ↔ j.key.SameTarget job.key := by
  simp only [sameTarget, Bool.and_eq_true, beq_iff_eq]
  rfl

/-- The loop for a destroy job: what is left of its target are stop jobs. -/
theorem checkDestroy_spec {env : Env} (hdb : env.DbWrites) {job : LYJobInfo} {js : List LYJobInfo}
    {c c' : Clc} (h : checkDestroy env job c js = .ok (c', 0)) :
    c'.keys.Sublist c.keys ∧ ∀ j ∈ js, j.key ∈ c'.keys → sameTarget job j = true →
      j.jAction = LyA.nodeStopInstance := by
  induction js generalizing c with
  | nil =>
    obtain rfl := (Prod.mk.inj (Except.ok.inj h)).1
    exact ⟨.refl _, fun j hj => absurd hj List.not_mem_nil⟩
  | cons j js ih =>
    rw [checkDestroy] at h
    split at h
    · rename_i hst
      obtain ⟨hsub, hall⟩ := ih h
      refine ⟨hsub, fun k hk hmem hsame => ?_⟩
      rcases List.mem_cons.mp hk with rfl | hk
      · rw [hsame] at hst
        cases hst
      · exact hall k hk hmem hsame
    · split at h
      · exact absurd (Prod.mk.inj (Except.ok.inj h)).2 (by decide)
      · split at h
        · split at h
          · cases h
          · rename_i r hr
            obtain ⟨hsub, hall⟩ := ih h
            refine ⟨hsub.trans (jobUpdateStatus_keys hr), fun k hk hmem hsame => ?_⟩
            rcases List.mem_cons.mp hk with rfl | hk
            · exact absurd rfl (jobUpdateStatus_cancelled hdb hr _ (hsub.subset hmem))
            · exact hall k hk hmem hsame
        · rename_i hstop
          obtain ⟨hsub, hall⟩ := ih h
          refine ⟨hsub, fun k hk hmem hsame => ?_⟩
          rcases List.mem_cons.mp hk with rfl | hk
          · exact not_not.mp hstop
          · exact hall k hk hmem hsame

/-- The loop for the other control actions: what is left of its target are queries. -/
theorem checkOther_spec {env : Env} (hdb : env.DbWrites) {job : LYJobInfo} {js : List LYJobInfo}
    {c c' : Clc} (h : checkOther env job c js = .ok (c', 0)) :
    c'.keys.Sublist c.keys ∧ ∀ j ∈ js, j.key ∈ c'.keys → sameTarget job j = true →
      j.jAction = LyA.nodeQueryInstance := by
  induction js generalizing c with
  | nil =>
    obtain rfl := (Prod.mk.inj (Except.ok.inj h)).1
    exact ⟨.refl _, fun j hj => absurd hj List.not_mem_nil⟩
  | cons j js ih =>
    rw [checkOther] at h
    split at h
    · rename_i hst
      obtain ⟨hsub, hall⟩ := ih h
      refine ⟨hsub, fun k hk hmem hsame => ?_⟩
      rcases List.mem_cons.mp hk with rfl | hk
      · simpa [hsame] using hst
      · exact hall k hk hmem hsame
    · split at h
      · exact absurd (Prod.mk.inj (Except.ok.inj h)).2 (by decide)
      · split at h
        · cases h
        · rename_i r hr
          obtain ⟨hsub, hall⟩ := ih h
          refine ⟨hsub.trans (jobUpdateStatus_keys hr), fun k hk hmem hsame => ?_⟩
          rcases List.mem_cons.mp hk with rfl | hk
          · exact absurd rfl (jobUpdateStatus_cancelled hdb hr _ (hsub.subset hmem))
          · exact hall k hk hmem hsame

/-! ## `job_check` -/

/-- `Precedes` without the ids, which `job_exist` has looked at. -/
structure Admits (a b : JobKey) : Prop where
  destroyed : b.action = LyA.nodeDestroyInstance → a.action = LyA.nodeStopInstance
  final : a.action = LyA.nodeDestroyInstance → isQuery b.action = true
  control : a.targetType = jobTargetInstance → isExclusive a.action = true →
    isExclusive b.action = true → a.action = LyA.nodeStopInstance ∧
      b.action = LyA.nodeDestroyInstance

/-- A query may join anything. -/
theorem Admits.of_query {a b : JobKey} (h : isQuery b.action = true) : Admits a b := by
  have hact : b.action = 207 ∨ b.action = 251 ∨ b.action = 301 := by
    simpa [isQuery, LyA.nodeQueryInstance, LyA.nodeQuery, LyA.osmQuery, or_assoc] using h
  refine ⟨fun hb => ?_, fun _ => h, fun _ _ hb => ?_⟩
  · rw [hb] at hact
    exact absurd hact (by decide)
  · rcases hact with hact | hact | hact <;> rw [hact] at hb <;> exact absurd hb (by decide)

/-- Anything but a destroy job may join a query. -/
theorem Admits.after_query {a b : JobKey} (ha : a.action = LyA.nodeQueryInstance)
    (hb : b.action ≠ LyA.nodeDestroyInstance) : Admits a b := by
  refine ⟨fun h => absurd h hb, fun h => ?_, fun _ h => ?_⟩ <;> rw [ha] at h <;>
    exact absurd h (by decide)

/-- A job that neither destroys nor is exclusive may join anything but a destroy job. -/
theorem Admits.of_neither {a b : JobKey} (ha : a.action ≠ LyA.nodeDestroyInstance)
    (hb : b.action ≠ LyA.nodeDestroyInstance)
    (hc : a.targetType = jobTargetInstance → isExclusive b.action = false) : Admits a b := by
  refine ⟨fun h => absurd h hb, fun h => absurd h ha, fun ht _ h => ?_⟩
  rw [hc ht] at h
  cases h

/-- A destroy job may join a stop job. -/
theorem Admits.destroy_after_stop {a b : JobKey} (ha : a.action = LyA.nodeStopInstance)
    (hb : b.action = LyA.nodeDestroyInstance) : Admits a b := by
  refine ⟨fun _ => ha, fun h => ?_, fun _ _ _ => ⟨ha, hb⟩⟩
  rw [ha] at h
  exact absurd h (by decide)

/-- Nothing in the queue makes `p` true. -/
theorem not_of_any {c : Clc} {p : LYJobInfo → Bool} (h : ¬ (c.jobs.any p) = true) :
    ∀ j ∈ c.jobs, p j = false := by
  intro j hj
  cases hp : p j with
  | false => rfl
  | true => exact absurd (List.any_eq_true.mpr ⟨j, hj, hp⟩) h

/-- **What `job_check` lets pass.** The jobs it leaves on the target admit the new one. -/
theorem jobCheck_spec {env : Env} (hdb : env.DbWrites) {job : LYJobInfo} {c c' : Clc}
    (h : jobCheck env c job = .ok (c', 0)) :
    c'.keys.Sublist c.keys ∧ ∀ k ∈ c'.keys, k.SameTarget job.key → Admits k job.key := by
  -- a branch that leaves the queue alone: each job of the target is looked at
  have stays : Except.ok (ε := Fault) (c, (0 : Int)) = .ok (c', 0) →
      (∀ j ∈ c.jobs, sameTarget job j = true → Admits j.key job.key) →
      c'.keys.Sublist c.keys ∧ ∀ k ∈ c'.keys, k.SameTarget job.key → Admits k job.key := by
    intro he hall
    obtain rfl := (Prod.mk.inj (Except.ok.inj he)).1
    refine ⟨.refl _, fun k hk hsame => ?_⟩
    obtain ⟨j, hj, rfl⟩ := List.mem_map.mp hk
    exact hall j hj (sameTarget_iff.mpr hsame)
  -- a loop: the jobs that are left are looked at
  have loops : c'.keys.Sublist c.keys →
      (∀ j ∈ c.jobs, j.key ∈ c'.keys → sameTarget job j = true → Admits j.key job.key) →
      c'.keys.Sublist c.keys ∧ ∀ k ∈ c'.keys, k.SameTarget job.key → Admits k job.key := by
    intro hsub hall
    refine ⟨hsub, fun k hk hsame => ?_⟩
    obtain ⟨j, hj, rfl⟩ := List.mem_map.mp (hsub.subset hk)
    exact hall j hj hk (sameTarget_iff.mpr hsame)
  have busy : ∀ {P : Prop}, Except.ok (ε := Fault) (c, LyS.cancelTargetBusy) = .ok (c', 0) → P :=
    fun he => absurd (Prod.mk.inj (Except.ok.inj he)).2 (by decide)
  unfold jobCheck at h
  split at h
  · rename_i hq
    refine stays h fun j _ _ => .of_query ?_
    simpa [isQuery, or_assoc] using hq
  split at h
  · exact busy h
  rename_i hq hdestroy
  have hnot : ∀ j ∈ c.jobs, sameTarget job j = true → j.key.action ≠ LyA.nodeDestroyInstance := by
    intro j hj hsame hact
    have := not_of_any hdestroy j hj
    rw [hsame, show j.jAction = _ from hact] at this
    cases this
  split at h
  · rename_i hnode
    split at h
    · exact busy h
    · refine stays h fun j hj hsame => .of_neither (hnot j hj hsame) ?_ fun _ => ?_
      · rcases hnode with hnode | hnode <;> rw [show job.key.action = _ from hnode] <;> decide
      · rcases hnode with hnode | hnode <;> rw [show job.key.action = _ from hnode] <;> decide
  split at h
  · rename_i hrun
    split at h
    · exact busy h
    · rename_i hother
      refine stays h fun j hj hsame => .after_query ?_ ?_
      · have := not_of_any hother j hj
        simpa [hsame] using this
      · rw [show job.key.action = _ from hrun]
        decide
  split at h
  · rename_i hreboot
    split at h
    · exact busy h
    · refine stays h fun j hj hsame => .of_neither (hnot j hj hsame) ?_ fun _ => ?_
      · rw [show job.key.action = _ from hreboot]
        decide
      · rw [show job.key.action = _ from hreboot]
        decide
  split at h
  · rename_i hdes
    obtain ⟨hsub, hall⟩ := checkDestroy_spec hdb h
    exact loops hsub fun j hj hmem hsame => .destroy_after_stop (hall j hj hmem hsame) hdes
  rename_i hdes
  split at h
  · obtain ⟨hsub, hall⟩ := checkOther_spec hdb h
    exact loops hsub fun j hj hmem hsame => .after_query (hall j hj hmem hsame) hdes
  · rename_i hinst
    refine stays h fun j hj hsame => .of_neither (hnot j hj hsame) hdes fun ht => ?_
    exact absurd ((sameTarget_iff.mp hsame).1.symm.trans ht) hinst

/-! ## The queue of a run -/

theorem jobFind_none {c : Clc} {id : Int} (h : jobExist c id = false) :
    ∀ k ∈ c.keys, k.id ≠ id := by
  intro k hk hid
  obtain ⟨j, hj, rfl⟩ := List.mem_map.mp hk
  have : jobExist c id = true := List.any_eq_true.mpr ⟨j, hj, by simpa using hid.symm⟩
  rw [h] at this
  cases this

/-- **A job from the web**: refused, or put behind jobs that precede it. -/
theorem webJob_ordered {env : Env} (hdb : env.DbWrites) {c : Clc} {jobId : Int} {r : Clc × Int}
    (h : webJob env c jobId = .ok r) (ho : Ordered c) : Ordered r.1 := by
  unfold webJob at h
  have hget := (dbJobGet_outside env c jobId).jobs
  split at h
  · rename_i c1 heq
    obtain rfl := Except.ok.inj h
    rw [heq] at hget
    rwa [Ordered, Clc.keys, hget]
  · rename_i c1 job heq
    rw [heq] at hget
    have ho1 : Ordered c1 := by rwa [Ordered, Clc.keys, hget]
    have hid : job.jId = jobId := by
      unfold dbJobGet at heq
      split at heq
      · obtain rfl := Option.some.inj (Prod.mk.inj heq).2
        rfl
      · cases (Prod.mk.inj heq).2
    split at h
    · obtain rfl := Except.ok.inj h
      exact ho1
    · rename_i hex
      split at h
      · cases h
      · rename_i c2 ret hc
        have hdoes : Does queueRules 0 c1 c2 := (jobCheck_sat id env c1 job).of_ok hc
        have ho2 : Ordered c2 := hdoes.ordered ho1
        split at h
        · obtain rfl := Except.ok.inj h
          rwa [Ordered, Clc.keys, (jobRefuse_outside ..).jobs]
        · rename_i hret
          obtain rfl := not_not.mp hret
          obtain rfl := Except.ok.inj h
          obtain ⟨hsub, hadm⟩ := jobCheck_spec hdb hc
          have hkeys : (jobInsert c2 job).keys = c2.keys ++ [job.key] := by
            simp [Clc.keys, jobInsert, LYJobInfo.key]
          rw [Ordered, hkeys, List.pairwise_append]
          refine ⟨ho2, List.pairwise_singleton _ _, fun a ha b hb => ?_⟩
          obtain rfl := List.mem_singleton.mp hb
          have hne : a.id ≠ job.key.id := by
            rw [show job.key.id = jobId from hid]
            exact jobFind_none (by simpa using hex) a (hsub.subset ha)
          exact ⟨hne, fun hs => (hadm a ha hs).destroyed, fun hs => (hadm a ha hs).final,
            fun hs => (hadm a ha hs).control⟩

/-- **One event keeps the order.** -/
theorem queueNext_ordered {env : Env} (hdb : env.DbWrites) {c c' : Clc} {ev : QueueEvent}
    (h : c.queueNext env ev = some (.ok c')) (ho : Ordered c) : Ordered c' := by
  cases ev with
  | web jobId =>
    cases hw : webJob env c jobId with
    | error e =>
      rw [Clc.queueNext, hw] at h
      cases h
    | ok r =>
      rw [Clc.queueNext, hw] at h
      obtain rfl := Except.ok.inj (Option.some.inj h)
      exact webJob_ordered hdb hw ho
  | dispatch =>
    have hd : Does queueRules 0 c c' := (jobDispatch_sat id env c).of_ok (Option.some.inj h)
    exact hd.ordered ho
  | reply id status =>
    cases hr : nodeResponseJob env c id status with
    | error e =>
      rw [Clc.queueNext, hr] at h
      cases h
    | ok r =>
      rw [Clc.queueNext, hr] at h
      obtain rfl := Except.ok.inj (Option.some.inj h)
      have hd : Does queueRules 0 c r.1 :=
        (nodeResponseJob_sat _ (fun hq => hq) c id status).of_ok hr
      exact hd.ordered ho
  | gone ent =>
    have hd : Does queueRules 0 c c' :=
      (jobCleanOnEntity_sat (fun hq => hq) env ent _ c).of_ok (Option.some.inj h)
    exact hd.ordered ho
  | around store db io hist =>
    obtain rfl := Except.ok.inj (Option.some.inj h)
    exact ho

/-- **Every queue is in order.** -/
theorem queue_ordered {env : Env} (hdb : env.DbWrites) {c : Clc}
    (h : QueueReachable env Machine.Always c) : Ordered c := by
  refine Machine.Reach.inv h (fun s hs => ?_) fun s ev t hI _ hn => queueNext_ordered hdb hn hI
  rw [Ordered, Clc.keys, hs]
  exact .nil

/-! ## Destroying an instance -/

theorem Ordered.jobs {c : Clc} (h : Ordered c) : c.jobs.Pairwise fun a b => Precedes a.key b.key :=
  List.pairwise_map.mp h

theorem Ordered.nodup {c : Clc} (h : Ordered c) : (c.jobs.map LYJobInfo.jId).Nodup := by
  rw [List.nodup_iff_pairwise_ne, List.pairwise_map]
  exact h.jobs.imp fun hp => hp.ids

theorem mem_jobsOn {c : Clc} {t d : Int} {j : LYJobInfo} :
    j ∈ c.jobsOn t d ↔ j ∈ c.jobs ∧ j.jTargetType = t ∧ j.jTargetId = d := by
  simp [Clc.jobsOn]

/-- Two jobs on one target have the same target. -/
theorem sameTarget_of_mem {c : Clc} {t d : Int} {a b : LYJobInfo} (ha : a ∈ c.jobsOn t d)
    (hb : b ∈ c.jobsOn t d) : a.key.SameTarget b.key := by
  obtain ⟨-, ha1, ha2⟩ := mem_jobsOn.mp ha
  obtain ⟨-, hb1, hb2⟩ := mem_jobsOn.mp hb
  exact ⟨ha1.trans hb1.symm, ha2.trans hb2.symm⟩

/-- The control jobs of an instance that have been sent to a node and are still queued. -/
def Clc.sentControl (c : Clc) (insId : Int) : List LYJobInfo :=
  (c.jobsOn jobTargetInstance insId).filter fun j => j.jSent && isControl j.jAction

/-- A stop job and a destroy job of one instance, both sent to its node. -/
theorem stop_then_destroy : ∃ c, QueueReachable Env.stocked Machine.Always c ∧
    (c.sentControl 7).map LYJobInfo.jAction = [LyA.nodeStopInstance, LyA.nodeDestroyInstance] := by
  have hrun : (Machine.exec (Clc.queueNext Env.stocked) [.web 1, .dispatch, .web 2, .dispatch]
      (.oneNode [.onSeven 1 LyA.nodeStopInstance, .onSeven 2 LyA.nodeDestroyInstance])).map
        (fun c => (c.sentControl 7).map LYJobInfo.jAction) =
      some [LyA.nodeStopInstance, LyA.nodeDestroyInstance] := by
    decide +kernel
  obtain ⟨c, hc, heq⟩ := Option.map_eq_some_iff.mp hrun
  exact ⟨c, queueReachable_of_exec rfl _ hc, heq⟩

/-- **Destroy is final in the queue.** Job ids are distinct, a target has at most one destroy job,
and while it is queued there are only queries and earlier stop jobs beside it. -/
theorem destroy_final {env : Env} (hdb : env.DbWrites) {c : Clc}
    (h : QueueReachable env Machine.Always c) :
    (c.jobs.map LYJobInfo.jId).Nodup ∧
    (∀ t d, ((c.jobsOn t d).filter fun j => j.jAction == LyA.nodeDestroyInstance).length ≤ 1) ∧
    ∀ t d before job after, c.jobsOn t d = before ++ job :: after →
      job.jAction = LyA.nodeDestroyInstance →
      (∀ j ∈ before, isQuery j.jAction = true ∨ j.jAction = LyA.nodeStopInstance) ∧
        ∀ j ∈ after, isQuery j.jAction = true := by
  have hord := queue_ordered hdb h
  have hon : ∀ t d, (c.jobsOn t d).Pairwise fun a b => Precedes a.key b.key :=
    fun t d => hord.jobs.sublist List.filter_sublist
  refine ⟨hord.nodup, fun t d => ?_, fun t d before job after hsplit hact => ?_⟩
  · have hpair := (hon t d).sublist
      (List.filter_sublist (p := fun j : LYJobInfo => j.jAction == LyA.nodeDestroyInstance))
    have hmem : ∀ j ∈ (c.jobsOn t d).filter fun j => j.jAction == LyA.nodeDestroyInstance,
        j ∈ c.jobsOn t d ∧ j.jAction = LyA.nodeDestroyInstance := by
      intro j hj
      simpa using List.mem_filter.mp hj
    generalize (c.jobsOn t d).filter (fun j => j.jAction == LyA.nodeDestroyInstance) =
      l at hpair hmem ⊢
    match l with
    | [] => exact Nat.zero_le 1
    | [_] => exact Nat.le_refl 1
    | a :: b :: rest =>
      -- a second destroy job would have a destroy job where only a stop job may be
      obtain ⟨ha, ha'⟩ := hmem a (by simp)
      obtain ⟨hb, hb'⟩ := hmem b (by simp)
      have hab := (List.pairwise_cons.mp hpair).1 b (by simp)
      have hstop := hab.destroyed (sameTarget_of_mem ha hb) hb'
      rw [key_action, ha'] at hstop
      exact absurd hstop (by decide)
  · have hpair := hon t d
    have hsame : ∀ j ∈ c.jobsOn t d, j.key.SameTarget job.key ∧ job.key.SameTarget j.key := by
      have hjob : job ∈ c.jobsOn t d := by rw [hsplit]; simp
      exact fun j hj => ⟨sameTarget_of_mem hj hjob, sameTarget_of_mem hjob hj⟩
    rw [hsplit] at hpair hsame
    obtain ⟨-, hafter, hbefore⟩ := List.pairwise_append.mp hpair
    refine ⟨fun j hj => .inr ?_, fun j hj => ?_⟩
    · exact (hbefore j hj job (by simp)).destroyed (hsame j (by simp [hj])).1 hact
    · exact ((List.pairwise_cons.mp hafter).1 j hj).final (hsame j (by simp [hj])).2 hact

theorem destroy_final_stop : ∃ c, QueueReachable Env.stocked Machine.Always c ∧
    (c.sentControl 7).map LYJobInfo.jAction = [LyA.nodeStopInstance, LyA.nodeDestroyInstance] ∧
    ((c.jobsOn jobTargetInstance 7).filter fun j => j.jAction == LyA.nodeDestroyInstance).length ≤
      1 := by
  obtain ⟨c, hc, hjobs⟩ := stop_then_destroy
  exact ⟨c, hc, hjobs, (destroy_final (fun _ => rfl) hc).2.1 _ _⟩

/-! ## Control jobs -/

/-- A list whose elements are pairwise an `a` and then a `b` has at most these two. -/
theorem length_le_one_or_pair {α : Type} {l : List α} {P Q : α → Prop} (hne : ∀ x, P x → ¬ Q x)
    (h : l.Pairwise fun a b => P a ∧ Q b) : l.length ≤ 1 ∨ ∃ a b, l = [a, b] ∧ P a ∧ Q b := by
  match l, h with
  | [], _ => exact .inl (Nat.zero_le 1)
  | [_], _ => exact .inl (Nat.le_refl 1)
  | [a, b], h => exact .inr ⟨a, b, rfl, (List.pairwise_cons.mp h).1 b (by simp)⟩
  | a :: b :: x :: rest, h =>
    obtain ⟨ha, hrest⟩ := List.pairwise_cons.mp h
    have hb := (List.pairwise_cons.mp hrest).1 x (by simp)
    exact absurd (ha b (by simp)).2 (hne b hb.1)

/-- **Control jobs exclude each other.** Of the control jobs of an instance other than a full
reboot, at most one is with a node, except that a stop job may be followed by a destroy job. -/
theorem control_exclusive {env : Env} (hdb : env.DbWrites) {c : Clc}
    (h : QueueReachable env Machine.Always c) (insId : Int) :
    let sent := (c.sentControl insId).filter fun j => j.jAction != LyA.nodeFullrebootInstance
    sent.length ≤ 1 ∨ ∃ a b, sent = [a, b] ∧ a.jAction = LyA.nodeStopInstance ∧
      b.jAction = LyA.nodeDestroyInstance := by
  intro sent
  have hmem : ∀ j ∈ sent, j ∈ c.jobsOn jobTargetInstance insId ∧ isExclusive j.jAction = true := by
    intro j hj
    have h1 := List.mem_filter.mp hj
    have h2 := List.mem_filter.mp h1.1
    refine ⟨h2.1, ?_⟩
    rw [isExclusive, (Bool.and_eq_true_iff.mp h2.2).2, h1.2]
    rfl
  have hpair : sent.Pairwise fun a b => Precedes a.key b.key :=
    (queue_ordered hdb h).jobs.sublist
      (List.filter_sublist.trans (List.filter_sublist.trans List.filter_sublist))
  refine length_le_one_or_pair (P := fun j : LYJobInfo => j.jAction = LyA.nodeStopInstance)
    (Q := fun j : LYJobInfo => j.jAction = LyA.nodeDestroyInstance)
      (fun x hx => by rw [hx]; decide) ?_
  refine hpair.imp_of_mem fun {a b} ha hb hab => ?_
  obtain ⟨ha1, ha2⟩ := hmem a ha
  obtain ⟨hb1, hb2⟩ := hmem b hb
  exact hab.control (sameTarget_of_mem ha1 hb1) (mem_jobsOn.mp ha1).2.1 ha2 hb2

theorem control_exclusive_pair : ∃ c, QueueReachable Env.stocked Machine.Always c ∧
    ∃ a b, (c.sentControl 7).filter (fun j => j.jAction != LyA.nodeFullrebootInstance) = [a, b] ∧
      a.jAction = LyA.nodeStopInstance ∧ b.jAction = LyA.nodeDestroyInstance := by
  obtain ⟨c, hc, hjobs⟩ := stop_then_destroy
  refine ⟨c, hc, (control_exclusive (fun _ => rfl) hc 7).resolve_left ?_⟩
  have hacts : ((c.sentControl 7).filter fun j => j.jAction != LyA.nodeFullrebootInstance).map
      LYJobInfo.jAction = [LyA.nodeStopInstance, LyA.nodeDestroyInstance] := by
    have := List.filter_map (f := LYJobInfo.jAction) (l := c.sentControl 7)
      (p := fun a => a != LyA.nodeFullrebootInstance)
    rw [hjobs] at this
    exact this.symm
  have hlen := congrArg List.length hacts
  rw [List.length_map] at hlen
  rw [hlen]
  decide

/-- Two control jobs of one instance are with its node at the same time. -/
theorem control_not_exclusive : ¬ ∀ env : Env, env.DbWrites → ∀ c,
    QueueReachable env Machine.Always c → ∀ insId, (c.sentControl insId).length ≤ 1 := by
  intro hall
  obtain ⟨c, hc, hjobs⟩ := stop_then_destroy
  have hlen := hall Env.stocked (fun _ => rfl) c hc 7
  rw [← List.length_map LYJobInfo.jAction, hjobs] at hlen
  exact absurd hlen (by decide)

end LuoYun

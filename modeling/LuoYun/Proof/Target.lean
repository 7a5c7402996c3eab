import LuoYun.Lib.Table
import LuoYun.Proof.LinkEffect
import LuoYun.Proof.Stuck
import LuoYun.Proof.RunInv

/-!
# The targets of queued jobs

A job that was sent points at a slot, and what it means is the connection that was in the slot then.
`job_clean_on_entity` takes the jobs of a node off the queue, but it is called in one place only,
when the peer has closed the connection. Wherever else an entity is released, a job that points at
it stays queued, and the next connection that gets the slot inherits it.
-/

namespace LuoYun

/-- The job points at the connection it was sent to. -/
def Aimed (c : Clc) (j : LYJobInfo) : Prop :=
  ∃ k : Nat, j.jEntId = k ∧ Live c.store k ∧ (c.hist k).serial = j.jConn

variable {c c' c'' : Clc}

/-! ## Changes that release nothing -/

/-- The targets are those of before, or new and right. -/
structure AimKept (c c' : Clc) : Prop where
  same : SameSlots c c'
  jobs : ∀ j ∈ c'.jobs, (∃ i ∈ c.jobs, i.jEntId = j.jEntId ∧ i.jConn = j.jConn) ∨ Aimed c' j

theorem Aimed.congr {j : LYJobInfo} (h : Aimed c j) (hs : SameSlots c c') : Aimed c' j := by
  obtain ⟨k, hk, hl, hser⟩ := h
  refine ⟨k, hk, ⟨hl.1, ?_⟩, ?_⟩
  · rw [hs.id]
    exact hl.2
  · rw [hs.hist]
    exact hser

theorem Aimed.of_target {i j : LYJobInfo} (h : Aimed c i) (he : i.jEntId = j.jEntId)
    (hc : i.jConn = j.jConn) : Aimed c j := by
  obtain ⟨k, hk, hl, hser⟩ := h
  exact ⟨k, he ▸ hk, hl, hser.trans hc⟩

namespace AimKept

theorem refl (c : Clc) : AimKept c c :=
  ⟨⟨fun _ => rfl, fun _ => rfl, rfl⟩, fun j hj => .inl ⟨j, hj, rfl, rfl⟩⟩

theorem trans (h : AimKept c c') (h' : AimKept c' c'') : AimKept c c'' where
  same := ⟨fun k => (h'.same.id k).trans (h.same.id k),
    fun k => (h'.same.type k).trans (h.same.type k), h'.same.hist.trans h.same.hist⟩
  jobs := by
    intro j hj
    rcases h'.jobs j hj with ⟨i, hi, he, hc⟩ | ha
    · rcases h.jobs i hi with ⟨i', hi', he', hc'⟩ | ha
      · exact .inl ⟨i', hi', he'.trans he, hc'.trans hc⟩
      · exact .inr ((ha.congr h'.same).of_target he hc)
    · exact .inr ha

theorem outside (h : Outside c c') : AimKept c c' :=
  ⟨⟨fun k => by rw [h.store], fun k => by rw [h.store], h.hist⟩,
    fun j hj => .inl ⟨j, h.jobs ▸ hj, rfl, rfl⟩⟩

/-- A write that leaves the target of the job alone. -/
theorem setJob (c : Clc) (id : Int) {f : LYJobInfo → LYJobInfo} (he : ∀ j, (f j).jEntId = j.jEntId)
    (hc : ∀ j, (f j).jConn = j.jConn) : AimKept c (setJob c id f) := by
  refine ⟨⟨fun _ => rfl, fun _ => rfl, rfl⟩, fun j hj => .inl ?_⟩
  obtain ⟨i, hi, rfl⟩ := mem_setJob.mp hj
  refine ⟨i, hi, ?_⟩
  split
  · exact ⟨(he i).symm, (hc i).symm⟩
  · exact ⟨rfl, rfl⟩

theorem busyRemove (c : Clc) (job : LYJobInfo) : AimKept c (jobBusyRemove c job) := by
  refine ⟨⟨fun k => (jobBusyRemove_id c job k).1, fun k => (jobBusyRemove_id c job k).2,
    jobBusyRemove_hist c job⟩, fun j hj => .inl ?_⟩
  rw [jobBusyRemove_jobs] at hj
  obtain ⟨i, hi, rfl⟩ := mem_setJob.mp hj
  refine ⟨i, hi, ?_⟩
  split <;> exact ⟨rfl, rfl⟩

theorem remove (c : Clc) (job : LYJobInfo) : AimKept c (jobRemove c job) := by
  refine (busyRemove c job).trans ⟨⟨fun _ => rfl, fun _ => rfl, rfl⟩, fun j hj => .inl ?_⟩
  exact ⟨j, (List.mem_filter.mp hj).1, rfl, rfl⟩

theorem idWf (h : AimKept c c') (hwf : IdWf c.store) : IdWf c'.store := by
  intro k
  rw [h.same.id]
  exact hwf k

end AimKept

/-! ## Releases -/

/-- Entity `e` may have been released. -/
structure MayRelease (e : Int) (c c' : Clc) : Prop where
  jobs : c'.jobs = c.jobs
  hist : ∀ k, (c'.hist k).serial = (c.hist k).serial
  id : ∀ k : Nat, (k : Int) ≠ e → (c'.store.ents k).id = (c.store.ents k).id
  wf : IdWf c.store → IdWf c'.store

theorem MayRelease.refl (e : Int) (c : Clc) : MayRelease e c c :=
  ⟨rfl, fun _ => rfl, fun _ _ => rfl, fun h => h⟩

theorem MayRelease.outside {e : Int} (h : MayRelease e c c') (ho : Outside c' c'') :
    MayRelease e c c'' where
  jobs := ho.jobs.trans h.jobs
  hist := fun k => by rw [ho.hist]; exact h.hist k
  id := fun k hk => by rw [ho.store]; exact h.id k hk
  wf := fun hwf => by rw [ho.store]; exact h.wf hwf

/-- No other job points at the OS manager of the job's instance. -/
def OsmFree (c : Clc) (job : LYJobInfo) : Prop :=
  ∀ j ∈ c.others job.jId, j.jEntId ≠ lyEntityFindByDb c.store .osm job.jTargetId

theorem OsmFree.congr {i j : LYJobInfo} (h : OsmFree c i) (hkey : i.key = j.key) : OsmFree c j := by
  have hid : i.jId = j.jId := congrArg JobKey.id hkey
  have ht : i.jTargetId = j.jTargetId := congrArg JobKey.targetId hkey
  unfold OsmFree at *
  rwa [hid, ht] at h

theorem unique_of_find (hd : Distinct c) {id : Int} {job : LYJobInfo}
    (h : jobFind c id = some job) :
    Unique c job := by
  intro j hj hid
  have hfind : jobFind c job.jId = some job := by
    rw [jobFind_id h]
    exact h
  rw [eq_of_id hd hfind hj hid]

/-- The jobs with the id of `job` leave its OS manager alone. -/
theorem OsmFree.all {job : LYJobInfo} (h : OsmFree c job) (hu : Unique c job) (status : Int) :
    ∀ j ∈ c.jobs, j.jId = job.jId → endReleases j status = true → OsmFree c j :=
  fun j hj hid _ => h.congr (hu j hj hid).symm

/-- The entity that gives way when slot `i` takes the database id `d`. -/
def displacedBy (s : EntityStore) (i : Nat) (d : Int) : Int :=
  let old := lyEntityFindByDb s (s.ents i).type d
  if 0 ≤ d ∧ old ≠ i then old else -1

theorem find_modify (s : EntityStore) (i : Nat) {f : LYEntity → LYEntity}
    (hid : ∀ e, (f e).id = e.id) (hdb : ∀ e, (f e).dbId = e.dbId) (t : EntityType) (d : Int) :
    lyEntityFindByDb (s.modify i f) t d = lyEntityFindByDb s t d := by
  have hent : ∀ k, ((s.modify i f).ents k).dbId = (s.ents k).dbId ∧
      ((s.modify i f).ents k).id = (s.ents k).id := by
    intro k
    by_cases hk : k = i
    · subst hk
      rw [EntityStore.modify_ents_self]
      exact ⟨hdb _, hid _⟩
    · rw [EntityStore.modify_ents_ne _ _ hk]
      exact ⟨rfl, rfl⟩
  unfold lyEntityFindByDb
  simp only [s.list_modify i f, hent]

theorem modify_same (s : EntityStore) (i : Nat) : s.modify i (fun e => e) = s := by
  have hents : (s.modify i fun e => e).ents = s.ents := by
    funext k
    by_cases hk : k = i
    · subst hk
      rw [EntityStore.modify_ents_self]
    · rw [EntityStore.modify_ents_ne _ _ hk]
  cases s
  exact congrArg (fun ents => EntityStore.mk ents _ _ _ _ _) hents

theorem jobUpdateStatus_distinct {env : Env} {id status : Int} {r : Clc × Int} (hd : Distinct c)
    (h : jobUpdateStatus env c id status = .ok r) : Distinct r.1 := by
  have hdoes : Does queueRules 0 c r.1 :=
    (jobUpdateStatus_sat (fun hq => hq) env c id status).of_ok h
  exact hdoes.distinct hd

/-- `job_clean_on_entity` leaves no job that points at the entity. -/
theorem clean_targets {env : Env} (hdb : env.DbWrites) {ent status : Int}
    (hf : isFinal status = true)
    {ids : List Int} (hd : Distinct c) (h : jobCleanOnEntity.go env ent status ids c = .ok c') :
    ∀ j ∈ c'.jobs, j ∈ c.jobs ∧ (j.jId ∈ ids → j.jEntId ≠ ent) := by
  induction ids generalizing c with
  | nil =>
    cases h
    exact fun j hj => ⟨hj, fun hm => nomatch hm⟩
  | cons id ids ih =>
    rw [jobCleanOnEntity.go] at h
    split at h
    · rename_i hnone
      intro j hj
      obtain ⟨hmem, hids⟩ := ih hd h j hj
      refine ⟨hmem, fun hm => ?_⟩
      rcases List.mem_cons.mp hm with hid | hm
      · rw [← hid, jobFind_of_mem hd hmem] at hnone
        cases hnone
      · exact hids hm
    · rename_i job hjob
      split at h
      · dsimp only at h
        split at h
        · cases h
        · rename_i r hr
          split at h
          · have hend := jobUpdateStatus_ended hdb (jobExist_of_find hjob) hf hr
            intro j hj
            obtain ⟨hmem, hids⟩ := ih (jobUpdateStatus_distinct hd hr) h j hj
            obtain ⟨hne, hmem'⟩ := hend j hmem
            refine ⟨hmem', fun hm => ?_⟩
            rcases List.mem_cons.mp hm with hid | hm
            · exact absurd hid hne
            · exact hids hm
          · cases h
      · rename_i hent
        intro j hj
        obtain ⟨hmem, hids⟩ := ih hd h j hj
        refine ⟨hmem, fun hm => ?_⟩
        rcases List.mem_cons.mp hm with hid | hm
        · have hfind := jobFind_of_mem hd hmem
          rw [hid, hjob] at hfind
          rw [← Option.some.inj hfind]
          exact hent
        · exact hids hm

/-- A job with an id of its own. -/
theorem Distinct.insert (hd : Distinct c) {job : LYJobInfo} (hnew : ∀ j ∈ c.jobs, j.jId ≠ job.jId) :
    Distinct (jobInsert c job) := by
  refine Table.nodup_append_new hd fun hin => ?_
  obtain ⟨j, hj, he⟩ := List.mem_map.mp hin
  exact hnew j hj he

end LuoYun

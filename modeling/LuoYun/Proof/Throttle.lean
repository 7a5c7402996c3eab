import LuoYun.Proof.DataType
import LuoYun.Proof.Target

/-!
# The count of start requests

A node counts the requests to start an instance that are out to it, and `node_schedule` passes over
a node whose count has reached the limit. `__job_start_instance` increments the count once the
request is sent; `job_busy_remove` decrements it, for any job whose `j_pending_nr` is zero. That
field is set to zero before the request is sent, and `j_ent_id` before it is certain that it will
be, so an attempt that fails in between takes a request of another job off the count.
-/

namespace LuoYun

/-- A request of this job is out to the node in slot `k`. -/
def startsAt (c : Clc) (k : Nat) (j : LYJobInfo) : Bool :=
  isStart j.jAction && j.jStarting && j.jEntId == k && j.jConn == (c.hist k).serial

/-- The start requests that are out to the node in slot `k`. -/
def Clc.startsOn (c : Clc) (k : Nat) : Nat := c.jobs.countP (startsAt c k)

/-- What the slots of the store have in common. -/
structure SlotsOk (s : EntityStore) : Prop where
  wf : StoreWf s
  free : ∀ k, (s.ents k).id = -1 → (s.ents k).type = .unknown
  kind : ∀ k n, (s.ents k).busy = some n → (s.ents k).type = .node
  clc : (s.ents 0).type = .clc

/-- The request of the job is out, and the node it went to is there. -/
structure Out (c : Clc) (j : LYJobInfo) : Prop where
  pending : j.jPendingNr = 0
  start : isStart j.jAction = true
  slot : ∃ k : Nat, j.jEntId = k ∧ Live c.store k ∧ (c.hist k).serial = j.jConn ∧
    ∃ n, (c.store.ents k).busy = some n

/-- The invariant: the counts are right, and `j_pending_nr` is zero for the requests that are out.
-/
structure Throttled (c : Clc) : Prop where
  slots : SlotsOk c.store
  distinct : Distinct c
  pending : 0 ≤ c.jobInsPendingNr
  out : ∀ j ∈ c.jobs, j.jStarting = true → Out c j
  held : ∀ j ∈ c.jobs, j.jPendingNr = 0 → isStart j.jAction = true ∧
    (j.jStarting = false → j.jEntId = 0)
  count : ∀ k n, Live c.store k → (c.store.ents k).busy = some n → n = c.startsOn k

variable {c c' : Clc}

/-! ## Slots -/

theorem SlotsOk.congr {s s' : EntityStore} (h : SlotsOk s)
    (hid : ∀ k, (s'.ents k).id = (s.ents k).id) (htype : ∀ k, (s'.ents k).type = (s.ents k).type)
    (hbusy : ∀ k n, (s'.ents k).busy = some n → ∃ m, (s.ents k).busy = some m)
    (hlist : ∀ t, s'.list t = s.list t) : SlotsOk s' where
  wf := h.wf.congr hid htype hlist
  free := fun k hk => by
    rw [htype]
    exact h.free k (hid k ▸ hk)
  kind := fun k n hn => by
    obtain ⟨m, hm⟩ := hbusy k n hn
    rw [htype]
    exact h.kind k m hm
  clc := by rw [htype, h.clc]

theorem SlotsOk.id_zero {s : EntityStore} (h : SlotsOk s) : (s.ents 0).id ≠ -1 := by
  intro hid
  have := h.free 0 hid
  rw [h.clc] at this
  cases this

theorem SlotsOk.busy_zero {s : EntityStore} (h : SlotsOk s) : (s.ents 0).busy = none := by
  cases hb : (s.ents 0).busy with
  | none => rfl
  | some n =>
    have := h.kind 0 n hb
    rw [h.clc] at this
    cases this

theorem SlotsOk.idWf {s : EntityStore} (h : SlotsOk s) : IdWf s := h.wf.id

/-- `job_busy_remove` on the data of a slot. -/
theorem busy_dec (e : LYEntity) : LYEntity.busy { e with entity := busyDec e.entity } =
    e.busy.map fun n => if 0 < n then n - 1 else n := by
  cases he : e.entity with
  | null =>
    simp only [LYEntity.busy, he, busyDec]
    rfl
  | node nd =>
    by_cases hn : 0 < nd.insJobBusyNr
    · simp only [LYEntity.busy, he, busyDec, if_pos hn, Option.map_some]
    · simp only [LYEntity.busy, he, busyDec, if_neg hn, Option.map_some]
  | osm oi =>
    by_cases hn : 0 < oi.tag
    · simp only [LYEntity.busy, he, busyDec, if_pos hn, Option.map_none]
    · simp only [LYEntity.busy, he, busyDec, if_neg hn, Option.map_none]

theorem jobBusyRemove_busy (c : Clc) (job : LYJobInfo) (k : Nat) :
    ((jobBusyRemove c job).store.ents k).busy =
      if job.jPendingNr = 0 ∧ slot? job.jEntId = some k then
        (c.store.ents k).busy.map fun n => if 0 < n then n - 1 else n
      else (c.store.ents k).busy := by
  rw [jobBusyRemove_ents]
  split
  · exact busy_dec _
  · rfl

theorem jobBusyRemove_list (c : Clc) (job : LYJobInfo) (t : EntityType) :
    (jobBusyRemove c job).store.list t = c.store.list t := by
  unfold jobBusyRemove
  split
  · dsimp only
    split
    · rfl
    · exact EntityStore.list_modify ..
  · rfl

theorem jobBusyRemove_slots (h : SlotsOk c.store) (job : LYJobInfo) :
    SlotsOk (jobBusyRemove c job).store := by
  refine h.congr (fun k => (jobBusyRemove_id c job k).1) (fun k => (jobBusyRemove_id c job k).2)
    (fun k n hn => ?_) (jobBusyRemove_list c job)
  rw [jobBusyRemove_busy] at hn
  split at hn
  · obtain ⟨m, hm, -⟩ := Option.map_eq_some_iff.mp hn
    exact ⟨m, hm⟩
  · exact ⟨n, hn⟩

/-! ## Counting -/

/-- The start requests on a node: one job's, and the others'. -/
theorem startsOn_split (hd : Distinct c) {job : LYJobInfo} (hj : job ∈ c.jobs) (k : Nat) :
    c.startsOn k = (c.others job.jId).countP (startsAt c k) + if startsAt c k job then 1 else 0 :=
  (Table.countP_erase hd hj _).symm

/-- Counting looks at the links and at the connection in the slot. -/
theorem startsAt_congr {j j' : LYJobInfo} {k : Nat} (hlink : j'.link = j.link)
    (hser : (c'.hist k).serial = (c.hist k).serial) : startsAt c' k j' = startsAt c k j := by
  simp only [LYJobInfo.link, LYJobInfo.key, Prod.mk.injEq, JobKey.mk.injEq] at hlink
  obtain ⟨⟨-, -, -, ha⟩, he, hc, -, hs⟩ := hlink
  unfold startsAt
  rw [ha, he, hc, hs, hser]

theorem countP_startsAt_congr {k : Nat} (hser : (c'.hist k).serial = (c.hist k).serial)
    (l : List LYJobInfo) : l.countP (startsAt c' k) = l.countP (startsAt c k) :=
  List.countP_congr fun j _ => by rw [startsAt_congr rfl hser]

theorem startsOn_congr {k : Nat} (hjobs : c'.jobs.map LYJobInfo.link = c.jobs.map LYJobInfo.link)
    (hser : (c'.hist k).serial = (c.hist k).serial) : c'.startsOn k = c.startsOn k := by
  -- `startsAt` as a function of the link
  let p : JobKey × Int × Nat × Int × Bool → Bool := fun l =>
    isStart l.1.action && l.2.2.2.2 && l.2.1 == k && l.2.2.1 == (c.hist k).serial
  have hp : ∀ {d : Clc}, (d.hist k).serial = (c.hist k).serial →
      startsAt d k = p ∘ LYJobInfo.link := by
    intro d hd
    funext j
    unfold startsAt
    rw [hd]
    rfl
  unfold Clc.startsOn
  rw [hp hser, hp rfl, ← List.countP_map, ← List.countP_map, hjobs]

/-! ## Changes that leave the links alone -/

/-- The links are those of before. -/
structure LinkSame (c c' : Clc) : Prop where
  jobs : c'.jobs.map LYJobInfo.link = c.jobs.map LYJobInfo.link
  ents : ∀ k, (c'.store.ents k).link = (c.store.ents k).link
  list : ∀ t, c'.store.list t = c.store.list t
  serial : ∀ k, (c'.hist k).serial = (c.hist k).serial
  pending : c'.jobInsPendingNr = c.jobInsPendingNr

namespace LinkSame

theorem refl (c : Clc) : LinkSame c c := ⟨rfl, fun _ => rfl, fun _ => rfl, fun _ => rfl, rfl⟩

theorem trans {c'' : Clc} (h : LinkSame c c') (h' : LinkSame c' c'') : LinkSame c c'' :=
  ⟨h'.jobs.trans h.jobs, fun k => (h'.ents k).trans (h.ents k),
    fun t => (h'.list t).trans (h.list t),
    fun k => (h'.serial k).trans (h.serial k), h'.pending.trans h.pending⟩

theorem outside (h : Outside c c') : LinkSame c c' :=
  ⟨by rw [h.jobs], fun k => by rw [h.store], fun t => by rw [h.store], fun k => by
    rw [h.hist], h.pending⟩

theorem write (c : Clc) (id : Int) {f : LYJobInfo → LYJobInfo} (hf : ∀ j, (f j).link = j.link) :
    LinkSame c (setJob c id f) := by
  refine ⟨?_, fun _ => rfl, fun _ => rfl, fun _ => rfl, rfl⟩
  simp only [setJob, List.map_map]
  refine List.map_congr_left fun j _ => ?_
  simp only [Function.comp_apply]
  split
  · exact hf j
  · rfl

theorem entity {k : Nat} {f : LYEntity → LYEntity}
    (hf : (f (c.store.ents k)).link = (c.store.ents k).link) :
    LinkSame c (c.modifyEnt k f) := by
  refine ⟨rfl, fun j => ?_, c.store.list_modify k f, fun _ => rfl, rfl⟩
  by_cases hj : j = k
  · subst hj
    rw [Clc.modifyEnt, EntityStore.modify_ents_self, hf]
  · rw [Clc.modifyEnt, EntityStore.modify_ents_ne _ _ hj]

theorem mem (h : LinkSame c c') {j : LYJobInfo} (hj : j ∈ c'.jobs) :
    ∃ i ∈ c.jobs, i.link = j.link := by
  have hmem : j.link ∈ c.jobs.map LYJobInfo.link := by
    rw [← h.jobs]
    exact List.mem_map.mpr ⟨j, hj, rfl⟩
  exact List.mem_map.mp hmem

theorem id (h : LinkSame c c') (k : Nat) : (c'.store.ents k).id = (c.store.ents k).id :=
  congrArg Prod.fst (h.ents k)

theorem type (h : LinkSame c c') (k : Nat) : (c'.store.ents k).type = (c.store.ents k).type :=
  congrArg (fun x => x.2.1) (h.ents k)

theorem busy (h : LinkSame c c') (k : Nat) : (c'.store.ents k).busy = (c.store.ents k).busy :=
  congrArg (fun x => x.2.2) (h.ents k)

theorem live (h : LinkSame c c') (k : Nat) : Live c'.store k ↔ Live c.store k := by
  rw [Live, Live, h.id]

end LinkSame

/-- What the invariant reads of a job. -/
theorem link_eq {i j : LYJobInfo} (h : i.link = j.link) :
    i.key = j.key ∧ i.jEntId = j.jEntId ∧ i.jConn = j.jConn ∧ i.jPendingNr = j.jPendingNr ∧
      i.jStarting = j.jStarting := by
  simpa only [LYJobInfo.link, Prod.mk.injEq] using h

theorem Out.of_link {i j : LYJobInfo} (h : Out c i) (hl : i.link = j.link) : Out c j := by
  obtain ⟨hkey, hent, hconn, hp, -⟩ := link_eq hl
  have ha : i.jAction = j.jAction := congrArg JobKey.action hkey
  obtain ⟨k, hk, hlive, hser, hn⟩ := h.slot
  exact ⟨hp ▸ h.pending, ha ▸ h.start, k, hent ▸ hk, hlive, hser.trans hconn, hn⟩

theorem Out.of_slots {j : LYJobInfo} (h : Out c j) (hlive : ∀ k, Live c.store k → Live c'.store k)
    (hser : ∀ k, (c'.hist k).serial = (c.hist k).serial)
    (hbusy : ∀ k n, (c.store.ents k).busy = some n → ∃ m, (c'.store.ents k).busy = some m) :
    Out c' j := by
  obtain ⟨k, hk, hl, hs, n, hn⟩ := h.slot
  exact ⟨h.pending, h.start, k, hk, hlive k hl, (hser k).trans hs, hbusy k n hn⟩

theorem LinkSame.throttled (h : LinkSame c c') (ht : Throttled c) : Throttled c' where
  slots := ht.slots.congr h.id h.type (fun k n hn => ⟨n, h.busy k ▸ hn⟩) h.list
  distinct := by
    have hids : c'.jobs.map LYJobInfo.jId = c.jobs.map LYJobInfo.jId := by
      have hmap := congrArg (List.map fun l => l.1.id) h.jobs
      rwa [List.map_map, List.map_map] at hmap
    unfold Distinct
    rw [hids]
    exact ht.distinct
  pending := h.pending ▸ ht.pending
  out := by
    intro j hj hst
    obtain ⟨i, hi, hij⟩ := h.mem hj
    have hout := ht.out i hi ((link_eq hij).2.2.2.2 ▸ hst)
    exact (hout.of_link hij).of_slots (fun k => (h.live k).mpr) h.serial fun k n hn =>
      ⟨n, h.busy k ▸ hn⟩
  held := by
    intro j hj hp
    obtain ⟨i, hi, hij⟩ := h.mem hj
    obtain ⟨hkey, hent, -, hpi, hst⟩ := link_eq hij
    have ha : i.jAction = j.jAction := congrArg JobKey.action hkey
    obtain ⟨hstart, hzero⟩ := ht.held i hi (hpi ▸ hp)
    exact ⟨ha ▸ hstart, fun hno => hent ▸ hzero (hst ▸ hno)⟩
  count := by
    intro k n hl hn
    rw [startsOn_congr h.jobs (h.serial k)]
    exact ht.count k n ((h.live k).mp hl) (h.busy k ▸ hn)

/-! ## Jobs leave the queue -/

theorem startsAt_out {job : LYJobInfo} (hout : Out c job) (hst : job.jStarting = true) {i : Nat}
    (hent : job.jEntId = i) (k : Nat) : startsAt c k job = (k == i) := by
  obtain ⟨k', hk', -, hser, -⟩ := hout.slot
  obtain rfl : k' = i := by omega
  unfold startsAt
  rw [hout.start, hst, hent, Bool.true_and, Bool.true_and]
  by_cases hk : k = k'
  · subst hk
    rw [hser]
    simp
  · have hne : ((k' : Int) == (k : Int)) = false := beq_false_of_ne fun h => hk (by omega)
    rw [hne, beq_false_of_ne hk, Bool.false_and]

theorem startsAt_not {job : LYJobInfo} (hst : job.jStarting = false) (k : Nat) :
    startsAt c k job = false := by
  rw [startsAt, hst, Bool.and_false, Bool.false_and, Bool.false_and]

theorem jobRemove_jobs_eq (c : Clc) (job : LYJobInfo) :
    (jobRemove c job).jobs = c.others job.jId := by
  rw [← jobRemove_others, Clc.others]
  exact (List.filter_eq_self.mpr fun j hj => by simpa using jobRemove_gone hj).symm

/-- What is left of the invariant when the job is taken off the queue and the counts are put right.
-/
theorem Throttled.without (ht : Throttled c) {job : LYJobInfo} (hj : job ∈ c.jobs)
    (hjobs : c'.jobs = c.others job.jId) (hslots : SlotsOk c'.store)
    (hid : ∀ k, (c'.store.ents k).id = (c.store.ents k).id)
    (hser : ∀ k, (c'.hist k).serial = (c.hist k).serial) (hp : 0 ≤ c'.jobInsPendingNr)
    (hbusy : ∀ k n, (c.store.ents k).busy = some n → ∃ m, (c'.store.ents k).busy = some m)
    (hcount : ∀ k n, Live c.store k → (c'.store.ents k).busy = some n →
      n + (if startsAt c k job then 1 else 0) = c.startsOn k) : Throttled c' where
  slots := hslots
  distinct := by
    unfold Distinct
    rw [hjobs]
    exact List.Nodup.sublist (List.Sublist.map _ List.filter_sublist) ht.distinct
  pending := hp
  out := by
    intro j hm hst
    rw [hjobs] at hm
    refine (ht.out j (mem_others.mp hm).1 hst).of_slots (fun k hl => ⟨hl.1, ?_⟩) hser hbusy
    rw [hid]
    exact hl.2
  held := by
    intro j hm
    rw [hjobs] at hm
    exact ht.held j (mem_others.mp hm).1
  count := by
    intro k n hl hn
    have hlive : Live c.store k := ⟨hl.1, by rw [← hid]; exact hl.2⟩
    have h := hcount k n hlive hn
    rw [startsOn_split ht.distinct hj k] at h
    unfold Clc.startsOn
    rw [hjobs, countP_startsAt_congr (hser k)]
    split at h <;> omega

theorem jobBusyRemove_pending (c : Clc) (job : LYJobInfo) :
    (jobBusyRemove c job).jobInsPendingNr = c.jobInsPendingNr := by
  unfold jobBusyRemove
  split
  · dsimp only
    split <;> rfl
  · rfl

theorem busyRemove_some {c : Clc} (job : LYJobInfo) (k : Nat) (n : Int)
    (h : (c.store.ents k).busy = some n) :
    ∃ m, ((jobBusyRemove c job).store.ents k).busy = some m := by
  rw [jobBusyRemove_busy, h]
  split
  · exact ⟨_, rfl⟩
  · exact ⟨n, rfl⟩

/-- `job_busy_remove` takes the request of the job off the count, if it was on it. -/
theorem Throttled.busyRemove_count (ht : Throttled c) {job : LYJobInfo}
    (hj : job ∈ c.jobs) {k : Nat}
    {n : Int} (hl : Live c.store k) (hn : ((jobBusyRemove c job).store.ents k).busy = some n) :
    n + (if startsAt c k job then 1 else 0) = c.startsOn k := by
  rw [jobBusyRemove_busy] at hn
  cases hst : job.jStarting with
  | true =>
    have hout := ht.out job hj hst
    obtain ⟨i, hi, hli, -⟩ := hout.slot
    rw [startsAt_out hout hst hi]
    by_cases hk : k = i
    · -- the node the request went to
      subst hk
      rw [if_pos ⟨hout.pending, by rw [hi]; exact slot?_natCast hli.1⟩] at hn
      obtain ⟨m, hm, hmn⟩ := Option.map_eq_some_iff.mp hn
      have hcnt := ht.count k m hl hm
      have hpos : 0 < c.startsOn k := by
        rw [startsOn_split ht.distinct hj k, startsAt_out hout hst hi, beq_self_eq_true, if_pos rfl]
        omega
      rw [if_pos (by omega)] at hmn
      rw [beq_self_eq_true, if_pos rfl]
      omega
    · rw [if_neg (by rw [hi, slot?_natCast hli.1]; exact fun h => hk (Option.some.inj h.2).symm)]
        at hn
      rw [beq_false_of_ne hk, if_neg (by decide), Int.add_zero]
      exact ht.count k n hl hn
  | false =>
    rw [startsAt_not hst, if_neg (by decide), Int.add_zero]
    by_cases hp : job.jPendingNr = 0
    · -- the job has been on its way to a node and points at slot 0, which is no node
      rw [(ht.held job hj hp).2 hst] at hn
      split at hn
      · rename_i hs
        obtain rfl : k = 0 := (Option.some.inj (hs.2.symm.trans rfl))
        rw [ht.slots.busy_zero] at hn
        cases hn
      · exact ht.count k n hl hn
    · rw [if_neg fun h => hp h.1] at hn
      exact ht.count k n hl hn

/-- **`job_remove`.** -/
theorem Throttled.remove (ht : Throttled c) {job : LYJobInfo} (hj : job ∈ c.jobs) :
    Throttled (jobRemove c job) := by
  refine ht.without hj (jobRemove_jobs_eq c job) (jobBusyRemove_slots ht.slots job)
    (fun k => (jobBusyRemove_id c job k).1) (fun k => ?_) ?_ (busyRemove_some job) fun k n => ?_
  · show ((jobBusyRemove c job).hist k).serial = _
    rw [jobBusyRemove_hist]
  · show 0 ≤ (jobBusyRemove c job).jobInsPendingNr
    rw [jobBusyRemove_pending]
    exact ht.pending
  · exact ht.busyRemove_count hj

/-! ## Jobs are written to -/

/-- The invariant when one job is written to and the counts are put right. -/
theorem Throttled.change (ht : Throttled c) {job : LYJobInfo} (hj : job ∈ c.jobs)
    {f : LYJobInfo → LYJobInfo} (hf : ∀ j, (f j).jId = j.jId)
    (hjobs : c'.jobs = (setJob c job.jId f).jobs) (hslots : SlotsOk c'.store)
    (hid : ∀ k, (c'.store.ents k).id = (c.store.ents k).id)
    (hser : ∀ k, (c'.hist k).serial = (c.hist k).serial) (hp : 0 ≤ c'.jobInsPendingNr)
    (hbusy : ∀ k n, (c.store.ents k).busy = some n → ∃ m, (c'.store.ents k).busy = some m)
    (hout : (f job).jStarting = true → Out c' (f job))
    (hheld : (f job).jPendingNr = 0 →
      isStart (f job).jAction = true ∧ ((f job).jStarting = false → (f job).jEntId = 0))
    (hcount : ∀ k n, Live c.store k → (c'.store.ents k).busy = some n →
      n + (if startsAt c k job then 1 else 0) =
        c.startsOn k + if startsAt c k (f job) then 1 else 0) :
    Throttled c' := by
  -- the job itself, or one that was there before
  have hmem : ∀ j ∈ c'.jobs, j = f job ∨ j ∈ c.jobs := by
    intro j hm
    rw [hjobs] at hm
    obtain ⟨i, hi, rfl⟩ := mem_setJob.mp hm
    split
    · rename_i hii
      rw [List.inj_on_of_nodup_map ht.distinct hi hj hii]
      exact .inl rfl
    · exact .inr hi
  have hfmem : f job ∈ c'.jobs := by
    rw [hjobs]
    exact mem_setJob.mpr ⟨job, hj, (if_pos rfl).symm⟩
  have hd : Distinct c' := by
    unfold Distinct
    rw [hjobs, setJob_ids c job.jId hf]
    exact ht.distinct
  refine ⟨hslots, hd, hp, fun j hm hst => ?_, fun j hm hz => ?_, fun k n hl hn => ?_⟩
  · rcases hmem j hm with rfl | hm
    · exact hout hst
    · refine (ht.out j hm hst).of_slots (fun k hl => ⟨hl.1, ?_⟩) hser hbusy
      rw [hid]
      exact hl.2
  · rcases hmem j hm with rfl | hm
    · exact hheld hz
    · exact ht.held j hm hz
  · have hlive : Live c.store k := ⟨hl.1, by rw [← hid]; exact hl.2⟩
    have h := hcount k n hlive hn
    have hothers : c'.others (f job).jId = c.others job.jId := by
      rw [hf, others_congr hjobs, setJob_others c job.jId hf]
    rw [startsOn_split hd hfmem k, hothers, startsAt_congr rfl (hser k),
      countP_startsAt_congr (hser k)]
    rw [startsOn_split ht.distinct hj k] at h
    by_cases ha : startsAt c k job <;> by_cases hb : startsAt c k (f job) <;>
      simp [ha, hb] at h ⊢ <;> omega

/-- No job has this id. -/
theorem setJob_absent {id : Int} (h : jobFind c id = none) (f : LYJobInfo → LYJobInfo) :
    setJob c id f = c := by
  have hmap : (c.jobs.map fun j => if j.jId = id then f j else j) = c.jobs := by
    refine (List.map_congr_left fun j hj => ?_).trans (List.map_id _)
    have hne : j.jId ≠ id := by simpa using List.find?_eq_none.mp h j hj
    rw [if_neg hne]
    rfl
  rw [setJob, hmap]

/-- A write that puts nothing out and takes nothing back. -/
theorem Throttled.write (ht : Throttled c) (id : Int) {f : LYJobInfo → LYJobInfo}
    (hf : ∀ j, (f j).jId = j.jId)
    (hst : ∀ j ∈ c.jobs, j.jId = id → j.jStarting = false ∧ (f j).jStarting = false)
    (hheld : ∀ j ∈ c.jobs, j.jId = id → (f j).jPendingNr = 0 →
      isStart (f j).jAction = true ∧ (f j).jEntId = 0) : Throttled (setJob c id f) := by
  cases hfind : jobFind c id with
  | none =>
    rw [setJob_absent hfind]
    exact ht
  | some job =>
    have hj := mem_of_find hfind
    obtain rfl := jobFind_id hfind
    obtain ⟨hno, hno'⟩ := hst job hj rfl
    refine ht.change hj hf rfl ht.slots (fun _ => rfl) (fun _ => rfl) ht.pending
      (fun k n hn => ⟨n, hn⟩) (fun h => ?_) (fun hz => ?_) fun k n hl hn => ?_
    · rw [hno'] at h
      cases h
    · obtain ⟨ha, he⟩ := hheld job hj rfl hz
      exact ⟨ha, fun _ => he⟩
    · rw [startsAt_not hno, startsAt_not hno', ht.count k n hl hn]

/-! ## Slots are released, filled and typed -/

/-- **A slot is released** to which no request is out. -/
theorem Throttled.release (ht : Throttled c) {e : Int} (h0 : e ≠ 0)
    (hfree : ∀ j ∈ c.jobs, j.jStarting = true → j.jEntId ≠ e) :
    Throttled (c.withStore (lyEntityRelease c.store e).1) := by
  rcases lyEntityRelease_cases c.store e with h | ⟨i, hi, h⟩
  · rw [h]
    exact ht
  · obtain ⟨rfl, hlt⟩ := slot?_eq_some.mp hi
    have hi0 : i ≠ 0 := by omega
    have htouch :
        Touches i c (c.withStore (((c.store.cleanup i).listDel i).modify i LYEntity.released)) :=
      touches_release rfl rfl rfl rfl
    have hself : (((c.store.cleanup i).listDel i).modify i LYEntity.released).ents i =
        (c.store.ents i).released :=
      EntityStore.modify_ents_self ..
    have hne : ∀ k, k ≠ i →
        (((c.store.cleanup i).listDel i).modify i LYEntity.released).ents k = c.store.ents k := by
      intro k hk
      rw [EntityStore.modify_ents_ne _ _ hk]
      rfl
    rw [h]
    refine ⟨⟨htouch.wf ht.slots.wf, fun k hk => ?_, fun k n hn => ?_, ?_⟩, ht.distinct, ht.pending,
      fun j hj hst => ?_, ht.held, fun k n hl hn => ?_⟩
    · rw [Clc.withStore_store] at hk ⊢
      by_cases hki : k = i
      · subst hki
        rw [hself]
        rfl
      · rw [hne k hki] at hk ⊢
        exact ht.slots.free k hk
    · rw [Clc.withStore_store] at hn ⊢
      by_cases hki : k = i
      · subst hki
        rw [hself] at hn
        cases hn
      · rw [hne k hki] at hn ⊢
        exact ht.slots.kind k n hn
    · rw [Clc.withStore_store, hne 0 (Ne.symm hi0)]
      exact ht.slots.clc
    · obtain ⟨k, hk, hl, hser, n, hn⟩ := (ht.out j hj hst).slot
      have hki : k ≠ i := by
        rintro rfl
        exact hfree j hj hst hk
      refine ⟨(ht.out j hj hst).pending, (ht.out j hj hst).start, k, hk, ⟨hl.1, ?_⟩, hser, n, ?_⟩
      · rw [Clc.withStore_store, hne k hki]
        exact hl.2
      · rw [Clc.withStore_store, hne k hki]
        exact hn
    · rw [Clc.withStore_store] at hn hl
      by_cases hki : k = i
      · subst hki
        rw [hself] at hn
        cases hn
      · rw [hne k hki] at hn
        exact ht.count k n ⟨hl.1, by rw [← hne k hki]; exact hl.2⟩ hn

/-- The OS manager of an instance is not where requests to start go. -/
theorem Throttled.releaseOsm (ht : Throttled c) (insId : Int) : Throttled (releaseOsm c insId) := by
  unfold LuoYun.releaseOsm
  dsimp only
  split
  · rename_i hpos
    refine ht.release (by omega) fun j hj hst hent => ?_
    obtain ⟨k, hk, -, -, n, hn⟩ := (ht.out j hj hst).slot
    have hosm := (findByDb_spec ht.slots.wf (hent.symm.trans hk)).1
    rw [ht.slots.kind k n hn] at hosm
    cases hosm
  · exact ht

/-- **The changes** that start nothing. -/
theorem Act.throttled (h : Act False True c c') (ht : Throttled c) : Throttled c' := by
  cases h with
  | outside h => exact (LinkSame.outside h).throttled ht
  | write id f hf => exact (LinkSame.write c id hf).throttled ht
  | aim id k hk hs =>
    have hno : ∀ j ∈ c.jobs, j.jId = id → j.jStarting = false := by
      intro j hj hid
      cases hst : j.jStarting with
      | false => rfl
      | true =>
        have := (ht.out j hj hst).start
        rw [hs (fun h => h) j hj hid] at this
        cases this
    refine ht.write id (fun _ => rfl) (fun j hj hid => ⟨hno j hj hid, hno j hj hid⟩)
      fun j hj hid hz => ?_
    have := (ht.held j hj hz).1
    rw [hs (fun h => h) j hj hid] at this
    cases this
  | remove job hjob => exact ht.remove (mem_of_find hjob)
  | entity k f hf => exact (LinkSame.entity hf).throttled ht
  | release ho insId => exact ht.releaseOsm insId
  | pending hs nr => exact hs.elim
  | hold hs id nr => exact hs.elim
  | send hs id k nd nd' hnd => exact hs.elim

theorem Acts.throttled (h : Acts False True c c') (ht : Throttled c) : Throttled c' := by
  induction h with
  | refl => exact ht
  | tail _ ha ih => exact ha.throttled ih

/-- **Only slot `i` is written**, and no request is out to it before or after. -/
theorem Throttled.slot (ht : Throttled c) {i : Nat} (hslots : SlotsOk c'.store)
    (hjobs : c'.jobs = c.jobs) (hpend : c'.jobInsPendingNr = c.jobInsPendingNr)
    (hne : ∀ k, k ≠ i → c'.store.ents k = c.store.ents k)
    (hser : ∀ k, k ≠ i → (c'.hist k).serial = (c.hist k).serial)
    (hfree : ∀ j ∈ c.jobs, j.jStarting = true → j.jEntId ≠ i)
    (hzero : ∀ n, (c'.store.ents i).busy = some n → n = 0) : Throttled c' := by
  have hlive : ∀ k, k ≠ i → (Live c'.store k ↔ Live c.store k) := by
    intro k hk
    rw [Live, Live, hne k hk]
  refine ⟨hslots, ht.distinct.congr hjobs, hpend ▸ ht.pending, fun j hj hst => ?_, fun j hj => ?_,
    fun k n hl hn => ?_⟩
  · rw [hjobs] at hj
    obtain ⟨hp, hs, k, hk, hl, hserial, n, hn⟩ := ht.out j hj hst
    have hki : k ≠ i := by
      rintro rfl
      exact hfree j hj hst hk
    exact ⟨hp, hs, k, hk, (hlive k hki).mpr hl, (hser k hki).trans hserial, n, hne k hki ▸ hn⟩
  · rw [hjobs] at hj
    exact ht.held j hj
  · by_cases hki : k = i
    · subst hki
      have hnone : c'.startsOn k = 0 := by
        unfold Clc.startsOn
        rw [hjobs, List.countP_eq_zero]
        intro j hj hat
        simp only [startsAt, Bool.and_eq_true, beq_iff_eq] at hat
        exact hfree j hj hat.1.1.2 hat.1.2
      rw [hnone, hzero n hn]
      rfl
    · have hcount : c'.startsOn k = c.startsOn k := startsOn_congr (by rw [hjobs]) (hser k hki)
      rw [hcount]
      exact ht.count k n ((hlive k hki).mp hl) (hne k hki ▸ hn)

/-- **A connection is accepted.** -/
theorem Throttled.accept (ht : Throttled c) (fd : Int) (m : Mem) :
    Throttled (epollWorkRecv c fd m) := by
  rcases epollWorkRecv_cases c fd m with h |
      ⟨i, hi, -, hid, hnull, -, -, hstore, hjobs, -, -, hhist⟩
  · rw [h]
    exact ht
  · have hi0 : i ≠ 0 := by
      rintro rfl
      exact ht.slots.id_zero hid
    have hself : ((epollWorkRecv c fd m).store.ents i).busy = none := by
      rw [hstore, EntityStore.set_ents_self]
      simp only [LYEntity.busy, LYEntity.accepted, hnull]
    have hne : ∀ k, k ≠ i → (epollWorkRecv c fd m).store.ents k = c.store.ents k := by
      intro k hk
      rw [hstore, EntityStore.set_ents_ne _ _ hk]
    refine ht.slot ⟨?_, fun k hk => ?_, fun k n hn => ?_, ?_⟩ hjobs ?_ hne (fun k hk => ?_)
      (fun j hj hst hent => ?_) (fun n hn => ?_)
    · rw [hstore]
      refine storeWf_set ht.slots.wf ?_ (.inr rfl)
      rw [ht.slots.free i hid]
      exact fun h => by rcases h with h | h <;> cases h
    · by_cases hki : k = i
      · subst hki
        rw [hstore, EntityStore.set_ents_self]
        rfl
      · rw [hne k hki] at hk ⊢
        exact ht.slots.free k hk
    · by_cases hki : k = i
      · subst hki
        rw [hself] at hn
        cases hn
      · rw [hne k hki] at hn ⊢
        exact ht.slots.kind k n hn
    · rw [hne 0 (Ne.symm hi0)]
      exact ht.slots.clc
    · unfold epollWorkRecv
      dsimp only
      split <;> rfl
    · rw [hhist]
      dsimp only
      rw [if_neg hk]
    · obtain ⟨k, hk, hl, -⟩ := (ht.out j hj hst).slot
      obtain rfl : k = i := by omega
      exact hl.2 hid
    · rw [hself] at hn
      cases hn

theorem init_store_ne {i k : Nat} (hi : i < lyEntityMax) (hk : k ≠ i) (c : Clc) (t : EntityType) :
    (c.init i t).store.ents k = c.store.ents k := by
  unfold Clc.init lyEntityInit
  rw [slot?_natCast hi]
  dsimp only
  split
  · rfl
  · cases t <;> simp [EntityStore.modify, EntityStore.set, hk]

/-- A slot that has a type keeps it. -/
theorem init_of_typed {i : Nat} (hi : i < lyEntityMax) {c : Clc} (t : EntityType)
    (h : (c.store.ents i).type ≠ .unknown) : c.init i t = c := by
  unfold Clc.init lyEntityInit
  rw [slot?_natCast hi]
  dsimp only
  rw [if_pos h]
  rfl

theorem Does.storeWf {R : Rules} {i : Nat} (h : Does R i c c') (hwf : StoreWf c.store) :
    StoreWf c'.store := by
  induction h with
  | refl => exact hwf
  | tail _ hp ih =>
    cases hp with
    | outside h _ => exact h.store ▸ ih
    | jobs _ hs _ _ => exact hs ▸ ih
    | insert hs _ _ _ => exact hs ▸ ih
    | slot j htouch _ _ => exact htouch.wf ih
    | displace j htouch _ _ => exact htouch.wf ih

/-- **A connection takes its type.** -/
theorem Throttled.init (ht : Throttled c) {i : Nat} (hi : i < lyEntityMax) (t : EntityType)
    (hid : (c.store.ents i).id ≠ -1) : Throttled (c.init i t) := by
  by_cases hu : (c.store.ents i).type = .unknown
  · have hi0 : i ≠ 0 := by
      rintro rfl
      rw [ht.slots.clc] at hu
      cases hu
    have hbusy : (c.store.ents i).busy = none := by
      cases hb : (c.store.ents i).busy with
      | none => rfl
      | some n =>
        have := ht.slots.kind i n hb
        rw [hu] at this
        cases this
    have hself : ((c.init i t).store.ents i).id = (c.store.ents i).id ∧
        ∀ n, ((c.init i t).store.ents i).busy = some n → n = 0 ∧
          ((c.init i t).store.ents i).type = .node := by
      rcases init_ents hi c t with h | h
      · rw [h, hbusy]
        exact ⟨rfl, fun n hn => nomatch hn⟩
      · rw [h]
        cases t with
        | node => exact ⟨rfl, fun n hn => ⟨(Option.some.inj hn).symm, rfl⟩⟩
        | osm => exact ⟨rfl, fun n hn => nomatch hn⟩
        | _ =>
          refine ⟨rfl, fun n hn => ?_⟩
          have hnone : (c.store.ents i).busy = some n := hn
          rw [hbusy] at hnone
          cases hnone
    have hdoes : Does anyRules i c (c.init i t) := init_does hi t (fun _ => hid) trivial
    have hwf : StoreWf (c.init i t).store := hdoes.storeWf ht.slots.wf
    refine ht.slot ⟨hwf, fun k hk => ?_, fun k n hn => ?_, ?_⟩ rfl rfl
      (fun k hk => init_store_ne hi hk c t) (fun _ _ => rfl) (fun j hj hst hent => ?_)
      fun n hn => (hself.2 n hn).1
    · by_cases hki : k = i
      · subst hki
        rw [hself.1] at hk
        exact absurd hk hid
      · rw [init_store_ne hi hki] at hk ⊢
        exact ht.slots.free k hk
    · by_cases hki : k = i
      · subst hki
        exact (hself.2 n hn).2
      · rw [init_store_ne hi hki] at hn ⊢
        exact ht.slots.kind k n hn
    · rw [init_store_ne hi (Ne.symm hi0)]
      exact ht.slots.clc
    · obtain ⟨k, hk, -, -, n, hn⟩ := (ht.out j hj hst).slot
      obtain rfl : k = i := by omega
      rw [hbusy] at hn
      cases hn
  · rw [init_of_typed hi t hu]
    exact ht

/-- **A database id is taken**: no request is out to the entity that gives way. -/
theorem Throttled.claim (ht : Throttled c) (i : Nat) {f : LYEntity → LYEntity}
    (hid : ∀ e, (f e).id = e.id) (hdb : ∀ e, (f e).dbId = e.dbId)
    (hlink : ∀ e, (f e).link = e.link) (d : Int)
    (hfree : ∀ j ∈ c.jobs, j.jStarting = true → j.jEntId ≠ displacedBy c.store i d) :
    Throttled (c.withStore (claimDbId (c.store.modify i f) i d)) := by
  have htype : ∀ e, (f e).type = e.type := fun e => congrArg (fun x => x.2.1) (hlink e)
  have hf : Throttled (c.modifyEnt i f) := (LinkSame.entity (hlink _)).throttled ht
  have hold : lyEntityFindByDb (c.store.modify i f) ((c.store.modify i f).ents i).type d =
      lyEntityFindByDb c.store (c.store.ents i).type d := by
    rw [find_modify c.store i hid hdb, EntityStore.modify_ents_self, htype]
  unfold claimDbId
  split
  · exact hf
  · rename_i hd
    dsimp only
    rw [hold]
    have hset : ∀ {c1 : Clc}, Throttled c1 →
        Throttled (c1.modifyEnt i fun e => { e with dbId := d }) := by
      intro c1 h1
      refine (LinkSame.entity ?_).throttled h1
      rfl
    split
    · rename_i hrel
      have hdis : displacedBy c.store i d = lyEntityFindByDb c.store (c.store.ents i).type d :=
        if_pos ⟨by omega, hrel.2⟩
      refine hset (hf.release ?_ ?_)
      · -- the entity found is in a list, and the listening socket is in none
        intro h0
        obtain ⟨htyp, hl, -, -⟩ := findByDb_spec ht.slots.wf (j := 0) h0
        rw [ht.slots.clc] at htyp
        rw [← htyp] at hl
        rcases hl with h | h <;> cases h
      · rw [← hdis]
        exact hfree
    · exact hset hf

/-- **A job is put into the queue.** -/
theorem Throttled.insert (ht : Throttled c) (h : Inserted c c') : Throttled c' := by
  obtain ⟨job, rfl, hent, hst, hnew⟩ := h.job
  have hmem : ∀ j ∈ (jobInsert c job).jobs, j ∈ c.jobs ∨ j = { job with jPendingNr := -1 } := by
    intro j hj
    exact (List.mem_append.mp hj).imp (fun h => h) List.mem_singleton.mp
  refine ⟨ht.slots, ht.distinct.insert hnew, ht.pending, fun j hj hs => ?_,
    fun j hj hz => ?_, fun k n hl hn => ?_⟩
  · rcases hmem j hj with hj | rfl
    · obtain ⟨hp, hstart, hslot⟩ := ht.out j hj hs
      exact ⟨hp, hstart, hslot⟩
    · have : job.jStarting = true := hs
      rw [hst] at this
      cases this
  · rcases hmem j hj with hj | rfl
    · exact ht.held j hj hz
    · cases hz
  · have hcount : (jobInsert c job).startsOn k = c.startsOn k := by
      have hnot : startsAt (jobInsert c job) k { job with jPendingNr := -1 } = false :=
        startsAt_not hst k
      show (c.jobs ++ [{ job with jPendingNr := -1 }]).countP (startsAt (jobInsert c job) k) = _
      rw [List.countP_append, List.countP_singleton, hnot, if_neg (by decide)]
      rfl
    rw [hcount]
    exact ht.count k n hl hn

/-! ## The instance is up -/

/-- Both writes of `job_update_status` succeed when the job reaches `LY_S_WAITING_STARTING_OSM`. -/
def StartStored (env : Env) (c : Clc) (id : Int) : Prop :=
  let c1 := jobStamp env c id LyS.waitingStartingOsm
  ∀ job, jobFind c1 id = some job → 0 ≤ (dbJobUpdateStatus env c1 job).2 ∧
    0 ≤ (dbInstanceUpdateStatus env (dbJobUpdateStatus env c1 job).1 job.jTargetId
      (some { ip := some (cstr "0.0.0.0"), status := DomainS.start })
      (lyEntityDbId (dbJobUpdateStatus env c1 job).1.store job.jEntId)).2

theorem setJob_setJob (c : Clc) (id : Int) {f : LYJobInfo → LYJobInfo} (hf : ∀ j, (f j).jId = j.jId)
    (g : LYJobInfo → LYJobInfo) : setJob (setJob c id f) id g = setJob c id fun j => g (f j) := by
  have hmap : ((c.jobs.map fun j => if j.jId = id then f j else j).map fun j =>
      if j.jId = id then g j else j) =
      c.jobs.map fun j => if j.jId = id then g (f j) else j := by
    rw [List.map_map]
    refine List.map_congr_left fun j _ => ?_
    simp only [Function.comp_apply]
    by_cases hj : j.jId = id
    · rw [if_pos hj, if_pos hj, if_pos ((hf j).trans hj)]
    · rw [if_neg hj, if_neg hj, if_neg hj]
  simp only [setJob, hmap]

theorem jobFind_setJob {id : Int} {f : LYJobInfo → LYJobInfo} (hf : ∀ j, (f j).jId = j.jId)
    {job : LYJobInfo} (hd : Distinct c) (h : jobFind c id = some job) :
    jobFind (setJob c id f) id = some (f job) := by
  have hd' : Distinct (setJob c id f) := by
    unfold Distinct
    rw [setJob_ids c id hf]
    exact hd
  have hid := jobFind_id h
  have hmem : f job ∈ (setJob c id f).jobs := mem_setJob.mpr ⟨job, mem_of_find h, (if_pos hid).symm⟩
  have hfind := jobFind_of_mem hd' hmem
  rwa [hf, hid] at hfind

/-- What a stamp leaves of a job. -/
structure Stamps (status : Int) (st : LYJobInfo → LYJobInfo) : Prop where
  key : ∀ j, (st j).key = j.key
  ent : ∀ j, (st j).jEntId = j.jEntId
  conn : ∀ j, (st j).jConn = j.jConn
  pending : ∀ j, (st j).jPendingNr = j.jPendingNr
  starting : ∀ j, (st j).jStarting = (j.jStarting && status != LyS.waitingStartingOsm)

theorem Stamps.id {status : Int} {st : LYJobInfo → LYJobInfo}
    (h : Stamps status st) (j : LYJobInfo) :
    (st j).jId = j.jId := congrArg JobKey.id (h.key j)

theorem jobStamp_eq (env : Env) (c : Clc) (id status : Int) :
    ∃ st, Stamps status st ∧ jobStamp env c id status = (setJob c id st).called := by
  refine ⟨_, ?_, rfl⟩
  exact ⟨fun _ => rfl, fun _ => rfl, fun _ => rfl, fun _ => rfl, fun _ => rfl⟩

/-- **The job reaches `LY_S_WAITING_STARTING_OSM`**: its request is off the count. -/
theorem Throttled.started (ht : Throttled c) {env : Env} {id : Int} {job : LYJobInfo}
    (hjob : jobFind c id = some job) (hq : job.jStarting = true → StartStored env c id)
    {r : Clc × Int}
    (h : jobUpdateStatus env c id LyS.waitingStartingOsm = .ok r) : Throttled r.1 := by
  have hj := mem_of_find hjob
  obtain rfl := jobFind_id hjob
  unfold jobUpdateStatus at h
  rw [if_neg (by decide)] at h
  unfold StartStored at hq
  dsimp only at h hq
  obtain ⟨st, hst, hstamp⟩ := jobStamp_eq env c job.jId LyS.waitingStartingOsm
  rw [hstamp] at h hq
  have hidle : (st job).jStarting = false := by
    rw [hst.starting, bne_self_eq_false, Bool.and_false]
  have hjob1 : jobFind (setJob c job.jId st).called job.jId = some (st job) :=
    jobFind_setJob hst.id ht.distinct hjob
  -- the stamp alone is harmless if no request was out
  have hstop : ∀ {c2 : Clc}, (job.jStarting = true → False) →
      Outside (setJob c job.jId st).called c2 → Throttled c2 := by
    intro c2 hno hout
    have hno' : job.jStarting = false := Bool.eq_false_iff.mpr hno
    refine (LinkSame.outside hout).throttled ((LinkSame.outside (.called _)).throttled ?_)
    refine ht.write job.jId hst.id (fun j hm hid => ?_) fun j hm hid hz => ?_
    · obtain rfl := eq_of_id ht.distinct hjob hm hid
      exact ⟨hno', hidle⟩
    · obtain rfl := eq_of_id ht.distinct hjob hm hid
      rw [hst.pending] at hz
      obtain ⟨ha, he⟩ := ht.held j hm hz
      have hact : (st j).jAction = j.jAction := congrArg JobKey.action (hst.key j)
      rw [hact, hst.ent]
      exact ⟨ha, he hno'⟩
  rw [hjob1] at h
  dsimp only at h
  have hq' : job.jStarting = true → _ := fun hs => hq hs (st job) hjob1
  have hdb := dbJobUpdateStatus_outside env (setJob c job.jId st).called (st job)
  generalize dbJobUpdateStatus env (setJob c job.jId st).called (st job) = d at hdb h hq'
  split at h
  · rename_i hneg
    cases h
    refine hstop (fun hs => ?_) hdb
    have := (hq' hs).1
    omega
  · rw [if_pos rfl] at h
    have hup := hdb.trans (dbInstanceUpdateStatus_outside env d.1 (st job).jTargetId
      (some { ip := some (cstr "0.0.0.0"), status := DomainS.start })
        (lyEntityDbId d.1.store (st job).jEntId))
    split at h
    · rename_i hneg
      cases h
      refine hstop (fun hs => ?_) hup
      have := (hq' hs).2
      omega
    · cases h
      dsimp only
      generalize (dbInstanceUpdateStatus env d.1 (st job).jTargetId
        (some { ip := some (cstr "0.0.0.0"), status := DomainS.start })
        (lyEntityDbId d.1.store (st job).jEntId)).1 = c2 at hup
      have hents : c2.store = c.store := hup.store
      have hbusy : ∀ k, ((jobBusyRemove c2 (st job)).store.ents k).busy =
          ((jobBusyRemove c job).store.ents k).busy := by
        intro k
        rw [jobBusyRemove_busy, jobBusyRemove_busy, hents, hst.pending, hst.ent]
      let g : LYJobInfo → LYJobInfo := fun j =>
        { j with jPendingNr := if (st job).jPendingNr = 0 then -1 else j.jPendingNr }
      have hidle' : (g (st job)).jStarting = false := hidle
      refine ht.change (f := fun j => g (st j)) hj hst.id ?_ ?_
        (fun k => ?_) (fun k => ?_) ?_ (fun k n hn => ?_) (fun hs => ?_)
          (fun hz => ?_) fun k n hl hn => ?_
      · rw [jobBusyRemove_jobs, hst.id, ← setJob_setJob c job.jId hst.id g]
        simp only [setJob, hup.jobs]
        rfl
      · exact jobBusyRemove_slots (hents ▸ ht.slots) (st job)
      · rw [(jobBusyRemove_id c2 (st job) k).1, hents]
      · rw [jobBusyRemove_hist, hup.hist]
        rfl
      · rw [jobBusyRemove_pending, hup.pending]
        exact ht.pending
      · rw [hbusy]
        exact busyRemove_some job k n hn
      · rw [hidle'] at hs
        cases hs
      · have hz' : (if (st job).jPendingNr = 0 then -1 else (st job).jPendingNr) = 0 := hz
        split at hz'
        · cases hz'
        · contradiction
      · rw [hbusy] at hn
        rw [ht.busyRemove_count hj hl hn, startsAt_not hidle']
        rfl

/-! ## An attempt to start an instance -/

/-- The state in which an attempt to start the instance of the job sends its request, with the
request and the slot of the node, if it gets there. -/
def startAim (env : Env) (c : Clc) (job : LYJobInfo) : Option (Clc × NodeCtrlInstance × Nat) :=
  match jobUpdateStatus env c job.jId LyS.running with
  | .error _ => none
  | .ok r =>
    if r.2 < 0 then none
    else match dbNodeInstanceControlGet env (setJob r.1 job.jId fun j => { j with jPendingNr := 0 })
        { reqId := job.jId, insId := job.jTargetId } with
    | (_, none) => none
    | (c, some (ci, nodeId)) =>
      match nodeSchedule env c.store nodeId with
      | .error _ => none
      | .ok ent => (slot? ent).map fun i => (c, { ci with reqAction := job.jAction }, i)

/-- What `sendmsg` does with the request to the node in slot `i`, if it comes to that: the entity
has its data, the secret and the node of the instance are stored, and the request fits its buffer.
-/
def requestSend (env : Env) (c : Clc) (id : Int) (ci : NodeCtrlInstance)
    (i : Nat) : Option SendResult :=
  let c := setJobEnt c id i
  match (c.store.ents i).entity with
  | .node _ =>
    match renewSecret env c ci with
    | (_, none) => none
    | (c, some ci) =>
      let r := dbInstanceUpdateStatus env c ci.insId none (lyEntityDbId c.store i)
      if r.2 < 0 then none
      else match lyxmlDataInstanceRun ci with
      | none => none
      | some xml =>
        match lyPacketFrame (lyEntityFd r.1.store i) PktType.clcInstanceControlRequest xml with
        | .error _ => none
        | .ok _ => some (env.sendmsg r.1.io.tick)
  | _ => none

/-- The request gets out to the node in slot `i`. -/
def goesOut (env : Env) (c : Clc) (id : Int) (ci : NodeCtrlInstance) (i : Nat) : Bool :=
  requestSend env c id ci i == some .all

/-- The attempt does no harm to the counts: the job points nowhere yet, and if it gets to a node
then the request gets out, or `ly_packet_send` does not report that it did and there is nothing on
the count of the node that a failure could take off. -/
def StartOk (env : Env) (c : Clc) (job : LYJobInfo) : Prop :=
  job.jEntId = 0 ∧ ∀ c2 ci i, startAim env c job = some (c2, ci, i) →
    goesOut env c2 job.jId ci i = true ∨
      requestSend env c2 job.jId ci i ≠ some .error ∧
        env.DbWrites ∧ ∀ n, (c.store.ents i).busy = some n → n ≤ 0

theorem renewSecret_size {env : Env} {c c' : Clc} {ci ci' : NodeCtrlInstance}
    (h : renewSecret env c ci = (c', some ci')) :
    ci'.insVcpu = ci.insVcpu ∧ ci'.insMem = ci.insMem := by
  unfold renewSecret at h
  split at h
  · dsimp only at h
    split at h
    · cases (Prod.mk.inj h).2
    · obtain rfl := Option.some.inj (Prod.mk.inj h).2
      exact ⟨rfl, rfl⟩
  · obtain rfl := Option.some.inj (Prod.mk.inj h).2
    exact ⟨rfl, rfl⟩

/-- The result of `ly_packet_send` is that of `sendmsg`, if the packet can be framed. -/
theorem lyPacketSend_code (env : Env) (c : Clc) (fd type : Int) (data : Bytes) :
    (∃ e, lyPacketFrame fd type data = .error e ∧ (lyPacketSend env c fd type data).2 < 0) ∨
      ∃ bs, lyPacketFrame fd type data = .ok bs ∧
        (lyPacketSend env c fd type data).2 = (env.sendmsg c.io.tick).code := by
  unfold lyPacketSend
  cases hframe : lyPacketFrame fd type data with
  | ok bs => exact .inr ⟨bs, rfl, rfl⟩
  | error e =>
    refine .inl ⟨e, rfl, ?_⟩
    unfold lyPacketFrame at hframe
    split at hframe
    · obtain rfl := Except.error.inj hframe
      dsimp only
      decide
    · split at hframe
      · obtain rfl := Except.error.inj hframe
        dsimp only
        decide
      · cases hframe

/-- The end of `__job_start_instance`. -/
theorem jobSendRun_cases {env : Env} {id : Int} {ci : NodeCtrlInstance} {i : Nat}
    (h : jobSendRun env c id ci i = .ok c') :
    (∃ c3 nd ci' res, Outside (setJobEnt c id i) c3 ∧ (c.store.ents i).entity = .node nd ∧
      (ci'.insVcpu = ci.insVcpu ∧ ci'.insMem = ci.insMem) ∧
      requestSend env c id ci i = some res ∧ res ≠ .part ∧
      c' = setJob (c3.modifyEnt i fun e => { e with entity := .node (holdResource nd ci') }) id
        fun j => { j with jSent := true, jStarting := j.jStarting || (res == .all) }) ∨
    (∀ res, requestSend env c id ci i = some res → res = .part) ∧
      ∃ c3, Outside (setJobEnt c id i) c3 ∧ jobFail env c3 id LyS.finishedFailure = .ok c' := by
  unfold jobSendRun at h
  unfold requestSend
  have hent : (setJobEnt c id i).store.ents i = c.store.ents i := rfl
  dsimp only at h ⊢
  rw [hent] at h ⊢
  cases he : (c.store.ents i).entity with
  | null =>
    rw [he] at h
    exact .inr ⟨nofun, _, .refl _, h⟩
  | osm oi =>
    rw [he] at h
    cases h
  | node nd =>
    rw [he] at h
    dsimp only at h ⊢
    have hrenew := renewSecret_outside env (setJobEnt c id i) ci
    rcases hr : renewSecret env (setJobEnt c id i) ci with ⟨c1, _ | ci1⟩
    · rw [hr] at h hrenew
      exact .inr ⟨nofun, c1, hrenew, h⟩
    · rw [hr] at h hrenew
      dsimp only at h ⊢
      have hst := hrenew.trans (dbInstanceUpdateStatus_outside env c1 ci1.insId none
        (lyEntityDbId c1.store i))
      generalize dbInstanceUpdateStatus env c1 ci1.insId none (lyEntityDbId c1.store i) = u at h hst
      by_cases hu : u.2 < 0
      · rw [if_pos hu] at h ⊢
        exact .inr ⟨nofun, u.1, hst, h⟩
      · rw [if_neg hu] at h ⊢
        cases hx : lyxmlDataInstanceRun ci1 with
        | none =>
          rw [hx] at h
          exact .inr ⟨nofun, u.1, hst, h⟩
        | some xml =>
          rw [hx] at h
          dsimp only at h ⊢
          have hsend := hst.trans (lyPacketSend_outside env u.1 (lyEntityFd u.1.store i)
            PktType.clcInstanceControlRequest xml)
          have hcode := lyPacketSend_code env u.1 (lyEntityFd u.1.store i)
            PktType.clcInstanceControlRequest xml
          generalize lyPacketSend env u.1 (lyEntityFd u.1.store i)
            PktType.clcInstanceControlRequest xml = v
            at h hsend hcode
          rcases hcode with ⟨e, hframe, hneg⟩ | ⟨bs, hframe, hval⟩
          · rw [hframe]
            rw [if_pos hneg] at h
            exact .inr ⟨nofun, v.1, hsend, h⟩
          · rw [hframe]
            dsimp only
            cases hres : env.sendmsg u.1.io.tick with
            | part =>
              rw [hres] at hval
              rw [if_pos (by rw [hval]; decide)] at h
              exact .inr ⟨fun res heq => (Option.some.inj heq).symm, v.1, hsend, h⟩
            | _ =>
              rw [hres] at hval h
              rw [if_neg (by rw [hval]; decide)] at h
              cases h
              exact .inl ⟨v.1, nd, ci1, _, hsend, rfl, renewSecret_size hr, rfl, nofun, rfl⟩

/-- **The request is sent**: one more is out, and one more is on the count. -/
theorem Throttled.sent (ht : Throttled c) {id : Int} {job : LYJobInfo}
    (hjob : jobFind c id = some job)
    (hp : job.jPendingNr = 0) (hidle : job.jStarting = false) {i : Nat} (hl : Live c.store i)
    {c3 : Clc} {nd nd' : LYNodeData} (hout : Outside (setJobEnt c id i) c3)
    (hnd : (c.store.ents i).entity = .node nd) (hnr : nd'.insJobBusyNr = nd.insJobBusyNr + 1) :
    Throttled (setJob (c3.modifyEnt i fun e => { e with entity := .node nd' }) id
      fun j => { j with jSent := true, jStarting := true }) := by
  have hj := mem_of_find hjob
  obtain rfl := jobFind_id hjob
  have hstart := (ht.held job hj hp).1
  have hstore : c3.store = c.store := hout.store
  have hbusy0 : (c.store.ents i).busy = some nd.insJobBusyNr := by
    simp only [LYEntity.busy, hnd]
  have hself : ((c3.modifyEnt i fun e => { e with entity := .node nd' }).store.ents i).busy =
      some (nd.insJobBusyNr + 1) := by
    rw [Clc.modifyEnt, EntityStore.modify_ents_self, ← hnr]
    rfl
  have hne : ∀ k, k ≠ i →
      (c3.modifyEnt i fun e => { e with entity := .node nd' }).store.ents k = c.store.ents k := by
    intro k hk
    rw [Clc.modifyEnt, EntityStore.modify_ents_ne _ _ hk, hstore]
  have hsame : SameSlots c3 (c3.modifyEnt i fun e => { e with entity := .node nd' }) :=
    modifyEnt_same rfl rfl
  refine ht.change
    (f := fun j =>
      { j with jEntId := i, jConn := (c.hist i).serial, jSent := true, jStarting := true }) hj
      (fun _ => rfl) ?_ ?_ (fun k => ?_) (fun k => ?_) ?_ (fun k n hn => ?_)
    (fun _ => ?_) (fun _ => ⟨hstart, fun h => Bool.noConfusion h⟩) fun k n hlk hn => ?_
  · have hset : ∀ (a : Clc) (f g : LYJobInfo → LYJobInfo), a.jobs = (setJob c job.jId f).jobs →
        (∀ j, (f j).jId = j.jId) → (setJob a job.jId g).jobs =
          (setJob c job.jId fun j => g (f j)).jobs := by
      intro a f g ha hf
      rw [← setJob_setJob c job.jId hf]
      simp only [setJob, ha]
    exact hset _ _ _ hout.jobs fun _ => rfl
  · refine ht.slots.congr (fun k => ?_) (fun k => ?_) (fun k n hn => ?_) fun t => ?_
    · exact (hsame.id k).trans (by rw [hstore])
    · exact (hsame.type k).trans (by rw [hstore])
    · by_cases hk : k = i
      · subst hk
        exact ⟨_, hbusy0⟩
      · exact ⟨n, hne k hk ▸ hn⟩
    · exact (c3.store.list_modify i _ t).trans (by rw [hstore])
  · exact (hsame.id k).trans (by rw [hstore])
  · show (c3.hist k).serial = _
    rw [hout.hist]
    rfl
  · show 0 ≤ c3.jobInsPendingNr
    rw [hout.pending]
    exact ht.pending
  · by_cases hk : k = i
    · subst hk
      exact ⟨_, hself⟩
    · exact ⟨n, (congrArg LYEntity.busy (hne k hk)).trans hn⟩
  · refine ⟨hp, hstart, i, rfl, ⟨hl.1, ?_⟩, ?_, _, hself⟩
    · intro h
      exact hl.2 (((hsame.id i).trans (by rw [hstore])).symm.trans h)
    · show (c3.hist i).serial = _
      rw [hout.hist]
      rfl
  · have hat : startsAt c k
        { job with jEntId := i, jConn := (c.hist i).serial, jSent := true, jStarting := true } =
          (k == i) := by
      have hout' : Out c
          { job with jEntId := i, jConn := (c.hist i).serial, jSent := true, jStarting := true } :=
        ⟨hp, hstart, i, rfl, hl, rfl, _, hbusy0⟩
      exact startsAt_out hout' rfl rfl k
    rw [hat, startsAt_not hidle]
    by_cases hk : k = i
    · subst hk
      obtain rfl := Option.some.inj (hself.symm.trans hn)
      rw [← ht.count k _ hlk hbusy0]
      simp
    · have hn' : (c.store.ents k).busy = some n := (congrArg LYEntity.busy (hne k hk)).symm.trans hn
      rw [ht.count k n hlk hn']
      simp [hk]

/-- A status that does not end the job is written to it, and that is all. -/
theorem jobUpdateStatus_linkSame {env : Env} {id status : Int} {r : Clc × Int}
    (hfin : isFinal status = false) (hne : status ≠ LyS.waitingStartingOsm)
    (h : jobUpdateStatus env c id status = .ok r) : LinkSame c r.1 := by
  rw [jobUpdateStatus] at h
  split at h
  · cases h
    exact .refl c
  · obtain ⟨st, hst, hstamp⟩ := jobStamp_eq env c id status
    rw [hstamp] at h
    have h1 : LinkSame c (setJob c id st).called := by
      refine (LinkSame.write c id fun j => ?_).trans (.outside (.called _))
      have hs : (st j).jStarting = j.jStarting := by
        rw [hst.starting, bne_iff_ne.mpr hne, Bool.and_true]
      simp only [LYJobInfo.link, hst.key, hst.ent, hst.conn, hst.pending, hs]
    dsimp only at h
    split at h
    · cases h
    · rename_i job _
      have h2 := h1.trans (.outside (dbJobUpdateStatus_outside env (setJob c id st).called job))
      split at h
      · cases h
        exact h2
      · split at h
        · rename_i hf
          have hf' : isFinal status = true := hf
          rw [hfin] at hf'
          cases hf'
        · cases h
          exact h2

theorem jobFail_linkSame {env : Env} {id status : Int} (hfin : isFinal status = false)
    (hne : status ≠ LyS.waitingStartingOsm) (h : jobFail env c id status = .ok c') :
    LinkSame c c' := by
  unfold jobFail at h
  split at h
  · cases h
  · rename_i r hr
    cases h
    exact jobUpdateStatus_linkSame hfin hne hr

/-- A job that ends in failure leaves the queue, when the database takes the status. -/
theorem jobFail_removes {env : Env} (hdb : env.DbWrites) {id : Int}
    {job : LYJobInfo} (hd : Distinct c)
    (hjob : jobFind c id = some job) (h : jobFail env c id LyS.finishedFailure = .ok c') :
    ∃ d job', d.store = c.store ∧ d.hist = c.hist ∧ d.jobInsPendingNr = c.jobInsPendingNr ∧
      d.others id = c.others id ∧ job'.jId = id ∧ job'.jPendingNr = job.jPendingNr ∧
      job'.jEntId = job.jEntId ∧ c' = jobRemove d job' := by
  unfold jobFail at h
  split at h
  · cases h
  · rename_i r hr
    cases h
    unfold jobUpdateStatus at hr
    rw [if_neg (by decide)] at hr
    obtain ⟨st, hst, hstamp⟩ := jobStamp_eq env c id LyS.finishedFailure
    rw [hstamp] at hr
    have hfind : jobFind (setJob c id st).called id = some (st job) := jobFind_setJob hst.id hd hjob
    have hothers : (setJob c id st).called.others id = c.others id := setJob_others c id hst.id
    dsimp only at hr
    rw [hfind] at hr
    dsimp only at hr
    have hout := dbJobUpdateStatus_outside env (setJob c id st).called (st job)
    have hok : ¬ (dbJobUpdateStatus env (setJob c id st).called (st job)).2 < 0 := by
      unfold dbJobUpdateStatus
      rw [dbExec_ok hdb]
      decide
    generalize dbJobUpdateStatus env (setJob c id st).called (st job) = d at hr hout hok
    rw [if_neg hok, if_neg (by decide), if_pos (by decide)] at hr
    have hsame : ∀ {e : Clc}, Outside d.1 e → ∃ d' job', d'.store = c.store ∧ d'.hist = c.hist ∧
        d'.jobInsPendingNr = c.jobInsPendingNr ∧ d'.others id = c.others id ∧ job'.jId = id ∧
        job'.jPendingNr = job.jPendingNr ∧ job'.jEntId = job.jEntId ∧
        jobRemove e (st job) = jobRemove d' job' := by
      intro e he
      have he' := hout.trans he
      exact ⟨e, st job, he'.store, he'.hist, he'.pending, (others_congr he'.jobs id).trans hothers,
        (hst.id job).trans (jobFind_id hjob), hst.pending job, hst.ent job, rfl⟩
    split at hr
    · cases hr
      exact hsame (.refl _)
    · rename_i hend
      push Not at hend
      cases hr
      exact hsame (jobEnd_outside env d.1 hend.2 (Calm.releases (by decide) _))

/-- **The attempt fails at the node**, where there is nothing to take off the count. -/
theorem Throttled.failed (ht : Throttled c) {env : Env} (hdb : env.DbWrites)
    {id : Int} {job : LYJobInfo}
    (hjob : jobFind c id = some job) (hidle : job.jStarting = false)
    {i : Nat} (hi : i < lyEntityMax)
    (hzero : ∀ n, (c.store.ents i).busy = some n → n ≤ 0) {c3 : Clc}
    (hout : Outside (setJobEnt c id i) c3)
    (h : jobFail env c3 id LyS.finishedFailure = .ok c') : Throttled c' := by
  have hj := mem_of_find hjob
  obtain rfl := jobFind_id hjob
  have hd3 : Distinct c3 := by
    have hids : (setJobEnt c job.jId i).jobs.map LYJobInfo.jId = c.jobs.map LYJobInfo.jId := by
      refine setJob_ids c job.jId ?_
      exact fun _ => rfl
    unfold Distinct
    rw [hout.jobs, hids]
    exact ht.distinct
  have hfind3 : jobFind c3 job.jId =
      some { job with jEntId := i, jConn := (c.hist (i : Int).toNat).serial } := by
    rw [jobFind_congr hout.jobs]
    refine jobFind_setJob ?_ ht.distinct hjob
    exact fun _ => rfl
  obtain ⟨d, job', hstore, hhist, hpend, hothers, hid', hp', hent', rfl⟩ :=
    jobFail_removes hdb hd3 hfind3 h
  have hstore' : d.store = c.store := hstore.trans hout.store
  have hbusy : ∀ k, ((jobBusyRemove d job').store.ents k).busy = (c.store.ents k).busy := by
    intro k
    rw [jobBusyRemove_busy, hstore']
    split
    · rename_i hk
      rw [hent', slot?_natCast hi] at hk
      obtain rfl := Option.some.inj hk.2
      cases hb : (c.store.ents i).busy with
      | none => rfl
      | some n =>
        have := hzero n hb
        rw [Option.map_some, if_neg (by omega)]
    · rfl
  refine ht.without hj ?_ (jobBusyRemove_slots (hstore' ▸ ht.slots) job')
    (fun k => ?_) (fun k => ?_) ?_
    (fun k n hn => ⟨n, (hbusy k).trans hn⟩) fun k n hl hn => ?_
  · rw [jobRemove_jobs_eq, hid', hothers, others_congr hout.jobs]
    refine setJob_others c job.jId ?_
    exact fun _ => rfl
  · rw [jobRemove_store, (jobBusyRemove_id d job' k).1, hstore']
  · show ((jobBusyRemove d job').hist k).serial = _
    rw [jobBusyRemove_hist, hhist, hout.hist]
    rfl
  · show 0 ≤ (jobBusyRemove d job').jobInsPendingNr
    rw [jobBusyRemove_pending, hpend, hout.pending]
    exact ht.pending
  · rw [startsAt_not hidle, ht.count k n hl ((hbusy k).symm.trans hn)]
    rfl

theorem Throttled.fail (ht : Throttled c) {env : Env} {id status : Int} (hst : Calm status)
    (h : jobFail env c id status = .ok c') : Throttled c' := by
  have hacts : Acts False True c c' := ((Acts.refl c).fail hst).of_ok h
  exact hacts.throttled ht

/-- A job that points at slot 0 has no request out. -/
theorem Throttled.idle (ht : Throttled c) {job : LYJobInfo} (hj : job ∈ c.jobs)
    (h0 : job.jEntId = 0) :
    job.jStarting = false := by
  cases hst : job.jStarting with
  | false => rfl
  | true =>
    obtain ⟨k, hk, -, -, n, hn⟩ := (ht.out job hj hst).slot
    obtain rfl : k = 0 := by omega
    rw [ht.slots.busy_zero] at hn
    cases hn

/-- No node has room: the job gets the next number. -/
theorem Throttled.stroke (ht : Throttled c) {env : Env} {id : Int}
    (hidle : ∀ j ∈ c.jobs, j.jId = id → j.jStarting = false)
    (h : jobFail env (setJob { c with jobInsPendingNr := c.jobInsPendingNr + 1 } id
      fun j => { j with jPendingNr := c.jobInsPendingNr + 1 }) id LyS.pendingNodeStroke = .ok c') :
    Throttled c' := by
  have hp := ht.pending
  have ht1 : Throttled { c with jobInsPendingNr := c.jobInsPendingNr + 1 } := by
    refine ⟨ht.slots, ht.distinct, by dsimp only; omega, fun j hj hst => ?_, ht.held, ht.count⟩
    obtain ⟨hp, hs, hslot⟩ := ht.out j hj hst
    exact ⟨hp, hs, hslot⟩
  refine (jobFail_linkSame (by decide) (by decide) h).throttled ?_
  refine ht1.write id (fun _ => rfl) (fun j hj hid => ⟨hidle j hj hid, hidle j hj hid⟩)
    fun j hj hid hz => ?_
  have : c.jobInsPendingNr + 1 = 0 := hz
  omega

/-- **`__job_start_instance`.** -/
theorem Throttled.startInstance (ht : Throttled c) {env : Env} {job : LYJobInfo}
    (hjob : jobFind c job.jId = some job) (hs : isStart job.jAction = true)
    (hq : jobIsWaitingOsm job.jStatus = false → StartOk env c job)
    (h : jobStartInstance env c job = .ok c') : Throttled c' := by
  unfold jobStartInstance at h
  split at h
  · have hacts : Acts False True c c' := (jobWait_acts env (.inl trivial)).of_ok h
    exact hacts.throttled ht
  · rename_i hwait
    obtain ⟨h0, haim⟩ := hq (Bool.not_eq_true _ ▸ hwait)
    have hidle := ht.idle (mem_of_find hjob) h0
    split at h
    · cases h
    · rename_i r hr
      have hsame := jobUpdateStatus_linkSame (by decide) (by decide) hr
      have ht1 := hsame.throttled ht
      split at h
      · cases h
        exact ht1
      · rename_i hret
        -- the job, with all that the update leaves alone
        have hmem : ∀ j ∈ r.1.jobs, j.jId = job.jId →
            j.jStarting = false ∧ isStart j.jAction = true ∧ j.jEntId = 0 := by
          intro j hj hid
          obtain ⟨i, hi, hij⟩ := hsame.mem hj
          obtain ⟨hkey, hent, -, -, hst⟩ := link_eq hij
          have hid' : i.jId = j.jId := congrArg JobKey.id hkey
          have ha : i.jAction = j.jAction := congrArg JobKey.action hkey
          obtain rfl := eq_of_id ht.distinct hjob hi (hid'.trans hid)
          exact ⟨hst ▸ hidle, ha ▸ hs, hent ▸ h0⟩
        have ht2 : Throttled (setJob r.1 job.jId fun j => { j with jPendingNr := 0 }) := by
          refine ht1.write job.jId (fun _ => rfl) (fun j hj hid => ?_) fun j hj hid _ => ?_
          · exact ⟨(hmem j hj hid).1, (hmem j hj hid).1⟩
          · exact (hmem j hj hid).2
        have hjob2 : ∀ j, jobFind (setJob r.1 job.jId fun j => { j with jPendingNr := 0 }) job.jId =
          some j →
            j.jPendingNr = 0 ∧ j.jStarting = false := by
          intro j hj
          obtain ⟨i, hi, hii, rfl⟩ := of_mem_setJob (mem_of_find hj) (jobFind_id hj)
          exact ⟨rfl, (hmem i hi hii).1⟩
        dsimp only at h
        have hget := dbNodeInstanceControlGet_outside env
          (setJob r.1 job.jId fun j => { j with jPendingNr := 0 })
          { reqId := job.jId, insId := job.jTargetId }
        rcases hg : dbNodeInstanceControlGet env
            (setJob r.1 job.jId fun j => { j with jPendingNr := 0 })
            { reqId := job.jId, insId := job.jTargetId } with ⟨c2, _ | ⟨ci, nodeId⟩⟩
        · rw [hg] at h hget
          exact ((LinkSame.outside hget).throttled ht2).fail (by decide) h
        · rw [hg] at h hget
          dsimp only at h hget
          have ht3 := (LinkSame.outside hget).throttled ht2
          have hfind : jobFind c2 job.jId =
              jobFind (setJob r.1 job.jId fun j => { j with jPendingNr := 0 }) job.jId :=
            jobFind_congr hget.jobs _
          split at h
          · cases h
          · rename_i ent hsched
            split at h
            · exact ht3.fail (by decide) h
            · split at h
              · refine ht3.stroke (fun j hj hid => ?_) h
                have hj' : jobFind c2 job.jId = some j := hid ▸ jobFind_of_mem ht3.distinct hj
                exact (hjob2 j (hfind ▸ hj')).2
              · split at h
                · exact ht3.fail (calm_unavail _ _) h
                · rename_i i hi
                  have haim' : startAim env c job =
                      some (c2, { ci with reqAction := job.jAction }, i) := by
                    unfold startAim
                    rw [hr]
                    dsimp only
                    rw [if_neg hret, hg]
                    dsimp only
                    rw [hsched]
                    dsimp only
                    rw [hi, Option.map_some]
                  have hl := schedule_live ht3.slots.idWf hsched hi
                  obtain ⟨job2, hj2⟩ : ∃ j, jobFind c2 job.jId = some j := by
                    rw [hfind]
                    refine find_of_jobExist (setJob_exist (fun _ => rfl) ?_)
                    exact ((jobUpdateStatus_updated env (jobExist_of_find hjob) (by decide)).of_ok
                      hr).stays
                      (by decide)
                  obtain ⟨hp2, hidle2⟩ := hjob2 job2 (hfind ▸ hj2)
                  rcases jobSendRun_cases h
                      with ⟨c3, nd, ci', res, hout, hnd, -, hres, hpart, rfl⟩ |
                    ⟨hno, c3, hout, hfail⟩
                  · -- an error would pass for a request that went out
                    have hall : res = .all := by
                      cases res with
                      | all => rfl
                      | part => exact absurd rfl hpart
                      | error =>
                        rcases haim c2 _ i haim' with hgo | ⟨hne, -, -⟩
                        · rw [goesOut, hres] at hgo
                          cases hgo
                        · exact absurd hres hne
                    subst hall
                    simp only [beq_self_eq_true, Bool.or_true]
                    exact ht3.sent hj2 hp2 hidle2 hl hout hnd rfl
                  · rcases haim c2 _ i haim' with hgo | ⟨-, hdb, hzero⟩
                    · have hsend :
                          requestSend env c2 job.jId { ci with reqAction := job.jAction } i =
                          some .all := eq_of_beq hgo
                      cases hno _ hsend
                    · refine ht3.failed hdb hj2 hidle2 hl.1 (fun n hn => hzero n ?_) hout hfail
                      rw [← hsame.busy i]
                      rw [hget.store] at hn
                      exact hn

/-! ## Runs -/

/-- No request is out to entity `e`. -/
def Idle (c : Clc) (e : Int) : Prop := ∀ j ∈ c.jobs, j.jStarting = true → j.jEntId ≠ e

/-- The event does no harm to the counts. -/
def Counted (env : Env) (c : Clc) : LinkEvent → Prop
  | .visit now id => ∀ job, jobFind c id = some job → isStart job.jAction = true →
      jobIsWaitingOsm job.jStatus = false → ∀ c0, runState env now c job =
        some c0 → StartOk env c0 job
  | .reply id status => ∀ job, jobFind c id = some job → status = LyS.waitingStartingOsm →
      job.jStarting = true → StartStored env c id
  | .init i _ => (c.store.ents i).id ≠ -1
  | .update i dbId _ => Idle c (displacedBy c.store i dbId)
  | .enable i dbId _ => Idle c (displacedBy c.store i dbId)
  | .closed i => env.DbWrites ∨ Idle c i
  | .drop i => i ≠ 0 ∧ Idle c i
  | _ => True

theorem jobRun_start {env : Env} {job : LYJobInfo} (hs : isStart job.jAction = true) :
    jobRun env c job = jobStartInstance env c job := by
  unfold isStart at hs
  rw [Bool.or_eq_true, beq_iff_eq, beq_iff_eq] at hs
  unfold jobRun
  rcases hs with ha | ha
  · rw [ha]
    rfl
  · rw [ha]
    rfl

theorem Throttled.runNow (ht : Throttled c) {env : Env} {job : LYJobInfo}
    (hjob : jobFind c job.jId = some job) (hs : isStart job.jAction = true)
    (hq : jobIsWaitingOsm job.jStatus = false →
      StartOk env (setJob c.called job.jId fun j => { j with jLastRun := env.time c.io.tick }) job)
    (h : jobRunNow env c job = .ok c') : Throttled c' := by
  unfold jobRunNow at h
  have hrun :
      jobRun env (setJob c.called job.jId fun j => { j with jLastRun := env.time c.io.tick })
      { job with jLastRun := env.time c.io.tick } = _ := jobRun_start hs
  dsimp only at h
  rw [hrun] at h
  have ht1 :
      Throttled (setJob c.called job.jId fun j => { j with jLastRun := env.time c.io.tick }) := by
    refine (LinkSame.write c.called job.jId ?_).throttled
      ((LinkSame.outside (.called c)).throttled ht)
    exact fun _ => rfl
  have hfind : jobFind (setJob c.called job.jId fun j => { j with jLastRun := env.time c.io.tick })
      { job with jLastRun := env.time c.io.tick }.jId =
        some { job with jLastRun := env.time c.io.tick } := by
    refine jobFind_setJob ?_ ht.distinct hjob
    exact fun _ => rfl
  exact ht1.startInstance hfind hs hq h

/-- **One visit of the dispatch.** -/
theorem Throttled.visit (ht : Throttled c) {env : Env} {now id : Int} {job : LYJobInfo}
    (hjob : jobFind c id = some job) (hq : Counted env c (.visit now id))
    (h : jobDispatchOne env now c job = .ok c') : Throttled c' := by
  have hu := unique_of_find ht.distinct hjob
  cases hs : isStart job.jAction with
  | false =>
    have hacts : Acts False True c c' :=
      (jobDispatchOne_acts env now ht.slots.idWf hu (fun hs' => by rw [hs] at hs'; cases hs')
        (.inl trivial)).of_ok h
    exact hacts.throttled ht
  | true =>
    have hq' := hq job hjob hs
    obtain rfl := jobFind_id hjob
    have hend : ∀ {status : Int}, status ≠ LyS.waitingStartingOsm →
        jobFail env c job.jId status = .ok c' → Throttled c' := by
      intro status hne hf
      have hacts : Acts False True c c' := (jobFail_acts env hne (.inl trivial)).of_ok hf
      exact hacts.throttled ht
    unfold jobDispatchOne at h
    unfold runState at hq'
    split at h
    · rename_i hi
      rw [if_pos hi] at hq'
      exact ht.runNow hjob hs (fun hw => hq' hw _ rfl) h
    · rename_i hi
      rw [if_neg hi] at hq'
      split at h
      · split at h
        · rename_i hp
          rw [if_pos hp] at hq'
          split at h
          · rename_i hdue
            rw [if_pos hdue] at hq'
            exact ht.runNow hjob hs (fun hw => hq' hw _ rfl) h
          · cases h
            exact ht
        · rename_i hp
          rw [if_neg hp] at hq'
          split at h
          · exact hend (by decide) h
          · rename_i hlate
            split at h
            · rename_i hw
              rw [if_pos hw, if_neg hlate] at hq'
              rw [jobRun_start hs] at h
              exact ht.startInstance hjob hs (fun hw => hq' hw _ rfl) h
            · cases h
              exact ht
      · exact hend (by decide) h

theorem Act.idle {e : Int} (h : Act False True c c') (ht : Throttled c)
    (hi : Idle c e) : Idle c' e := by
  intro j hj hst
  cases h with
  | outside h => exact hi j (h.jobs ▸ hj) hst
  | write id f hf =>
    obtain ⟨i, hm, hij⟩ := (LinkSame.write c id hf).mem hj
    obtain ⟨-, hent, -, -, hs⟩ := link_eq hij
    exact hent ▸ hi i hm (hs ▸ hst)
  | aim id k hk hs =>
    obtain ⟨i, hm, rfl⟩ := mem_setJob.mp hj
    split at hst
    · rename_i hid
      -- only a job that starts an instance has a request out
      have hact := (ht.out i hm hst).start
      rw [hs (fun h => h) i hm hid] at hact
      cases hact
    · rename_i hid
      rw [if_neg hid]
      exact hi i hm hst
  | remove job hjob =>
    rw [jobRemove_jobs_eq] at hj
    exact hi j (mem_others.mp hj).1 hst
  | entity k f hf => exact hi j hj hst
  | release ho insId =>
    rw [releaseOsm_jobs] at hj
    exact hi j hj hst
  | pending hs nr => exact hs.elim
  | hold hs id nr => exact hs.elim
  | send hs id k nd nd' hnd => exact hs.elim

theorem Acts.idle {e : Int} (h : Acts False True c c') (ht : Throttled c)
    (hi : Idle c e) : Idle c' e := by
  induction h with
  | refl => exact hi
  | tail hs ha ih => exact ha.idle (Acts.throttled hs ht) ih

/-- **The peer has closed the connection.** -/
theorem Throttled.closed (ht : Throttled c) {env : Env} {i : Nat} {r : Clc × Int}
    (hread : Readable (c.store.ents i)) (hq : env.DbWrites ∨ Idle c i)
    (h : entityClosed env c i = .ok r) : Throttled (r.1.release i) := by
  have hi0 : (i : Int) ≠ 0 := by
    intro hi
    obtain rfl : i = 0 := by omega
    exact hread.1 ht.slots.clc
  -- what was done before the release, and that no request is out to the slot then
  suffices hpre : ∃ c1, Acts False True c c1 ∧ Outside c1 r.1 ∧ Idle c1 i by
    obtain ⟨c1, h1, hout, hidle⟩ := hpre
    have ht1 := (LinkSame.outside hout).throttled (h1.throttled ht)
    exact ht1.release hi0 fun j hj => hidle j (hout.jobs ▸ hj)
  have hother : (c.store.ents i).type ≠ .node → Idle c i := by
    intro hne j hj hst hent
    obtain ⟨k, hk, -, -, n, hn⟩ := (ht.out j hj hst).slot
    obtain rfl : k = i := by omega
    exact hne (ht.slots.kind k n hn)
  unfold entityClosed at h
  dsimp only at h
  split at h
  · split at h
    · cases h
    · rename_i c1 hc
      cases h
      have hacts : Acts False True c c1 := (jobCleanOnEntity_go_acts env i (by decide) _ c).of_ok hc
      refine ⟨c1, hacts, dbNodeUpdateStatus_outside .., ?_⟩
      rcases hq with hdb | hidle
      · intro j hj _
        obtain ⟨hmem, hids⟩ := clean_targets hdb (by decide) ht.distinct hc j hj
        exact hids (List.mem_map.mpr ⟨j, hmem, rfl⟩)
      · exact hacts.idle ht hidle
  · rename_i htype
    cases h
    refine ⟨c, .refl c, (dbInstanceUpdateStatus_outside ..).trans
      (jobInternalQueryInstance_outside ..), ?_⟩
    exact hother fun hn => by rw [htype] at hn; cases hn
  · rename_i hnot _
    cases h
    exact ⟨c, .refl c, .refl c, hother hnot⟩

/-- **A reply of a node.** -/
theorem Throttled.reply (ht : Throttled c) {env : Env} {id status : Int} {r : Clc × Option Int}
    (hq : Counted env c (.reply id status)) (h : nodeResponseJob env c id status = .ok r) :
    Throttled r.1 := by
  unfold nodeResponseJob at h
  split at h
  · cases h
    exact ht
  · split at h
    · cases h
      exact ht
    · rename_i job hjob
      split at h
      · cases h
      · rename_i u hu
        have ht1 : Throttled u.1 := by
          by_cases hst : status = LyS.waitingStartingOsm
          · subst hst
            exact ht.started hjob (hq job hjob rfl) hu
          · have hacts : Acts False True c u.1 :=
              (jobUpdateStatus_acts env hst (.inl trivial)).of_ok hu
            exact hacts.throttled ht
        split at h
        · cases h
          exact ht1
        · have ht2 : Throttled (u.1.readAgain id) := by
            unfold Clc.readAgain
            split
            · exact ht1
            · have hsame : LinkSame u.1 { u.1 with staleReads := u.1.staleReads + 1 } :=
                ⟨rfl, fun _ => rfl, fun _ => rfl, fun _ => rfl, rfl⟩
              exact hsame.throttled ht1
          dsimp only at h
          split at h
          · cases h
            exact ht2.releaseOsm _
          · cases h
            exact ht2

theorem LinkSame.around (c : Clc) (ents : Nat → LYEntity)
    (hist : Nat → ConnHist) (db : Db) (io : Io) :
    LinkSame c (c.around ents hist db io) := by
  refine ⟨rfl, fun k => ?_, fun t => ?_, fun _ => rfl, rfl⟩
  · show ((ents k).relink (c.store.ents k)).link = _
    cases he : (ents k).entity <;> cases ho : (c.store.ents k).entity <;>
      simp [LYEntity.link, LYEntity.busy, LYEntity.relink, EntityData.relink, he, ho]
  · cases t <;> rfl

/-- **One event.** -/
theorem Throttled.next (ht : Throttled c) {env : Env} {ev : LinkEvent} (hq : Counted env c ev)
    (h : c.linkNext env ev = some (.ok c')) : Throttled c' := by
  cases ev with
  | web jobId =>
    obtain ⟨r, hr, rfl⟩ := map_ok (Option.some.inj h)
    have hweb : ∃ c1, Acts False True c c1 ∧ (r.1 = c1 ∨ Inserted c1 r.1) := webJob_acts hr
    obtain ⟨c1, hacts, hc⟩ := hweb
    have ht1 := hacts.throttled ht
    rcases hc with rfl | hins
    · exact ht1
    · exact ht1.insert hins
  | pass =>
    cases h
    refine ⟨ht.slots, ht.distinct, Int.le_refl 0, fun j hj hst => ?_, ht.held, ht.count⟩
    obtain ⟨hp, hs, hslot⟩ := ht.out j hj hst
    exact ⟨hp, hs, hslot⟩
  | visit now id =>
    obtain ⟨job, hjob, hone⟩ := Option.map_eq_some_iff.mp h
    exact ht.visit hjob hq hone
  | reply id status =>
    obtain ⟨r, hr, rfl⟩ := map_ok (Option.some.inj h)
    exact ht.reply hq hr
  | answer id =>
    rw [Clc.linkNext] at h
    split at h
    · obtain ⟨r, hr, rfl⟩ := map_ok (Option.some.inj h)
      have hacts : Acts False True c r.1 :=
        (jobUpdateStatus_acts env (by decide) (.inl trivial)).of_ok hr
      exact hacts.throttled ht
    · cases h
  | accept fd m =>
    cases h
    exact ht.accept fd m
  | init i type =>
    rw [Clc.linkNext] at h
    split at h
    · rename_i hi
      cases h
      exact ht.init hi type hq
    · cases h
  | update i dbId status =>
    rw [Clc.linkNext] at h
    split at h
    · rename_i hi
      cases h
      rw [Clc.update, lyEntityUpdate, slot?_natCast hi]
      dsimp only
      split
      · refine ht.claim i ?_ ?_ ?_ dbId hq
        · exact fun _ => rfl
        · exact fun _ => rfl
        · exact fun _ => rfl
      · have hsame := ht.claim i (f := fun e => e) (fun _ => rfl)
          (fun _ => rfl) (fun _ => rfl) dbId hq
        rwa [modify_same] at hsame
    · cases h
  | enable i dbId en =>
    rw [Clc.linkNext] at h
    split at h
    · rename_i hi
      cases h
      rw [lyEntityEnable, slot?_natCast hi]
      refine ht.claim i ?_ ?_ ?_ dbId hq
      · exact fun _ => rfl
      · exact fun _ => rfl
      · exact fun _ => rfl
    · cases h
  | closed i =>
    rw [Clc.linkNext] at h
    split at h
    · rename_i hread
      obtain ⟨r, hr, rfl⟩ := map_ok (Option.some.inj h)
      exact ht.closed hread hq hr
    · cases h
  | drop i =>
    cases h
    have hi := hq.1
    exact ht.release (by omega) hq.2
  | around ents hist db io =>
    cases h
    exact (LinkSame.around c ents hist db io).throttled ht

end LuoYun

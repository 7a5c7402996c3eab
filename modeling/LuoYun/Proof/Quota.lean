import LuoYun.Lib.Machine
import LuoYun.Web.Quota
import Mathlib.Algebra.Order.BigOperators.Group.List

/-!
# Whether the quota holds

`LifeControl.run` adds up what the instances that run, or wait for a job, are *configured* for. That
bounds what the virtual machines of the user take as long as every one of them belongs to an
instance that is counted, and was started with what the instance is configured for. The first
depends on what the control server reports and when; the second is given up by `ResourceEdit`.

The sum is also out of date as soon as it has been made: two requests that are served at the same
time both find enough. What the run of one instance has found has to be true still when its job is
written.
-/

namespace LuoYun.Web

namespace QuotaDb

/-- The last job of the instance is a run job that is not finished. -/
def pending (db : QuotaDb) (inst : Int) : Bool :=
  (db.lastJob inst).any fun j => !jobCompleted j.status && j.action == runInstanceA

/-- A virtual machine is active, or on its way. -/
def busy (i : QuotaInstance) : Bool := i.active.isSome || i.requested.isSome

/-- A virtual machine is active, on its way, or about to be asked for. -/
def committed (db : QuotaDb) (i : QuotaInstance) : Bool := busy i || db.pending i.id

/-- `LifeControl.run` counts the instance. -/
def counted (db : QuotaDb) (i : QuotaInstance) : Bool := isRunning i.status || db.waiting i.id

/-- What the active virtual machines of the user were started with. -/
def activeSum (db : QuotaDb) (user : Int) (t : ResourceType) : Int :=
  (db.instances.map fun i => if i.userId = user then (i.active.map (·.get t)).getD 0 else 0).sum

end QuotaDb

open QuotaDb

/-- An instance is counted, for what its virtual machine takes. -/
structure Fits (db : QuotaDb) (i : QuotaInstance) : Prop where
  active : ∀ a, i.active = some a → a = i.config
  requested : ∀ a, i.requested = some a → a = i.config
  libvirtConf : db.pending i.id = true → i.libvirtConf = some i.config
  counted : busy i = true → db.counted i = true

/-- What is kept for the user `u`. -/
structure Covered (u : Int) (db : QuotaDb) : Prop where
  ids : (db.instances.map fun i => i.id).Nodup
  nonneg : ∀ i ∈ db.instances, ∀ t, 0 ≤ i.config.get t
  fits : ∀ i ∈ db.instances, i.userId = u → Fits db i
  sum : ∀ p, db.profile u = some p → ∀ t, db.sumOf u t db.committed ≤ p.getResourceTotal db.now t

variable {u : Int} {db db' : QuotaDb}

/-! ## Sums -/

theorem share_of {p : QuotaInstance → Bool} {i : QuotaInstance}
    {t : ResourceType} (hu : i.userId = u)
    (hp : p i = true) : share u t p i = i.config.get t := if_pos ⟨hu, hp⟩

theorem share_nonneg {p : QuotaInstance → Bool} {i : QuotaInstance} {t : ResourceType}
    (h : 0 ≤ i.config.get t) : 0 ≤ share u t p i := by
  unfold share
  split <;> omega

/-- An instance adds no more if it adds it for a reason it had before. -/
theorem share_le {p q : QuotaInstance → Bool} {i j : QuotaInstance} {t : ResourceType}
    (hnn : 0 ≤ i.config.get t)
    (h : j.userId = u → p j = true → i.userId = u ∧ q i = true ∧ j.config = i.config) :
    share u t p j ≤ share u t q i := by
  by_cases hj : j.userId = u ∧ p j = true
  · obtain ⟨hu, hq, hc⟩ := h hj.1 hj.2
    rw [share_of hj.1 hj.2, share_of hu hq, hc]
  · rw [share, if_neg hj]
    exact share_nonneg hnn

/-- What is active has been counted. -/
theorem Covered.activeSum_le (h : Covered u db) (t : ResourceType) :
    db.activeSum u t ≤ db.sumOf u t db.committed := by
  refine List.sum_le_sum fun i hi => ?_
  have hnn := h.nonneg i hi t
  by_cases hu : i.userId = u
  · cases ha : i.active with
    | none =>
      rw [if_pos hu, Option.map_none, Option.getD_none]
      exact share_nonneg hnn
    | some a =>
      have hcom : db.committed i = true := by
        rw [committed, busy, ha]
        rfl
      rw [if_pos hu, share_of hu hcom, Option.map_some, Option.getD_some,
        (h.fits i hi hu).active a ha]
  · rw [if_neg hu]
    exact share_nonneg hnn

/-! ## One instance changes -/

/-- An instance changes and no job does. -/
theorem Covered.setInstance (h : Covered u db) {inst : Int} {f : QuotaInstance → QuotaInstance}
    (hid : ∀ i, (f i).id = i.id) (huser : ∀ i, (f i).userId = i.userId)
    (hnn : ∀ i ∈ db.instances, i.id = inst → ∀ t, 0 ≤ (f i).config.get t)
    (hfits : ∀ i ∈ db.instances, i.id = inst → i.userId = u → Fits db i → Fits db (f i))
    (hcom : ∀ i ∈ db.instances, i.id = inst → i.userId = u → db.committed (f i) = true →
      db.committed i = true ∧ (f i).config = i.config) :
    Covered u (db.setInstance inst f) := by
  have hmem : ∀ j ∈ (db.setInstance inst f).instances,
      ∃ i ∈ db.instances, j = (if i.id = inst then f i else i) := by
    intro j hj
    obtain ⟨i, hi, rfl⟩ := List.mem_map.mp hj
    exact ⟨i, hi, rfl⟩
  refine ⟨?_, ?_, ?_, ?_⟩
  · rw [QuotaDb.setInstance, Table.map_key_update hid]
    exact h.ids
  · intro j hj t
    obtain ⟨i, hi, rfl⟩ := hmem j hj
    split
    · rename_i he
      exact hnn i hi he t
    · exact h.nonneg i hi t
  · intro j hj hu
    obtain ⟨i, hi, rfl⟩ := hmem j hj
    split at hu
    · rename_i he
      rw [if_pos he]
      have hu' : i.userId = u := (huser i).symm.trans hu
      have hf := hfits i hi he hu' (h.fits i hi hu')
      exact ⟨hf.active, hf.requested, hf.libvirtConf, hf.counted⟩
    · rename_i he
      rw [if_neg he]
      have hf := h.fits i hi hu
      exact ⟨hf.active, hf.requested, hf.libvirtConf, hf.counted⟩
  · intro p hp t
    refine le_trans ?_ (h.sum p hp t)
    rw [sumOf, sumOf, QuotaDb.setInstance, Table.update, List.map_map]
    refine List.sum_le_sum fun i hi => ?_
    rw [Function.comp]
    by_cases he : i.id = inst
    · rw [if_pos he]
      refine share_le (h.nonneg i hi t) fun hu hc => ?_
      have hu' : i.userId = u := (huser i).symm.trans hu
      exact ⟨hu', hcom i hi he hu' hc⟩
    · rw [if_neg he]
      exact le_refl _

theorem vmStart_covered (h : Covered u db) (inst : Int) :
    Covered u (db.setInstance inst started) := by
  have hbusy : ∀ i, busy (started i) = busy i := by
    intro i
    unfold busy started
    cases i.active <;> cases i.requested <;> rfl
  refine h.setInstance (fun _ => rfl) (fun _ => rfl) (fun i hi _ => h.nonneg i hi) ?_ ?_
  · intro i _ _ _ hf
    refine ⟨?_, (fun _ ha => nomatch ha), hf.libvirtConf, ?_⟩
    · intro a ha
      cases hact : i.active with
      | none =>
        rw [started, hact] at ha
        exact hf.requested a ha
      | some b =>
        rw [started, hact] at ha
        exact hf.active a (hact.trans ha)
    · intro hb
      exact hf.counted ((hbusy i).symm.trans hb)
  · intro i _ _ _ hc
    refine ⟨?_, rfl⟩
    rw [committed, hbusy] at hc
    exact hc

theorem vmRefused_covered (h : Covered u db) (inst : Int) :
    Covered u (db.setInstance inst fun i => { i with requested := none }) := by
  have hbusy : ∀ i : QuotaInstance, busy { i with requested := none } = true → busy i = true := by
    intro i hb
    unfold busy at hb ⊢
    rw [Option.isSome_none, Bool.or_false] at hb
    rw [hb, Bool.true_or]
  refine h.setInstance (fun _ => rfl) (fun _ => rfl) (fun i hi _ => h.nonneg i hi) ?_ ?_
  · intro i _ _ _ hf
    exact ⟨hf.active, (fun _ ha => nomatch ha), hf.libvirtConf, fun hb => hf.counted (hbusy i hb)⟩
  · intro i _ _ _ hc
    refine ⟨?_, rfl⟩
    rcases Bool.or_eq_true_iff.mp hc with hb | hp
    · rw [committed, hbusy i hb, Bool.true_or]
    · exact Bool.or_eq_true_iff.mpr (.inr hp)

theorem vmEnd_covered (h : Covered u db) (inst : Int) :
    Covered u (db.setInstance inst fun i => { i with active := none }) := by
  have hbusy : ∀ i : QuotaInstance, busy { i with active := none } = true → busy i = true := by
    intro i hb
    unfold busy at hb ⊢
    rw [Option.isSome_none, Bool.false_or] at hb
    rw [hb, Bool.or_true]
  refine h.setInstance (fun _ => rfl) (fun _ => rfl) (fun i hi _ => h.nonneg i hi) ?_ ?_
  · intro i _ _ _ hf
    exact ⟨(fun _ ha => nomatch ha), hf.requested, hf.libvirtConf,
      fun hb => hf.counted (hbusy i hb)⟩
  · intro i _ _ _ hc
    refine ⟨?_, rfl⟩
    rcases Bool.or_eq_true_iff.mp hc with hb | hp
    · rw [committed, hbusy i hb, Bool.true_or]
    · exact Bool.or_eq_true_iff.mpr (.inr hp)

/-- The status may change if the instance stays counted. -/
theorem instanceStatus_covered (h : Covered u db) {inst status : Int}
    (hkeep : ∀ i ∈ db.instances, i.id = inst → i.userId = u → busy i = true →
      isRunning status = true ∨ db.waiting inst = true) :
    Covered u (db.setInstance inst fun i => { i with status := status }) := by
  refine h.setInstance (fun _ => rfl) (fun _ => rfl) (fun i hi _ => h.nonneg i hi) ?_ ?_
  · intro i hi he hu hf
    refine ⟨hf.active, hf.requested, hf.libvirtConf, fun hb => ?_⟩
    rcases hkeep i hi he hu hb with hr | hw
    · exact Bool.or_eq_true_iff.mpr (.inl hr)
    · exact Bool.or_eq_true_iff.mpr (.inr (he ▸ hw))
  · intro i _ _ _ hc
    exact ⟨hc, rfl⟩

/-! ## Jobs -/

/-- Jobs change and no instance does. -/
theorem Covered.setJobs (h : Covered u db) (hinst : db'.instances = db.instances)
    (hprof : db'.profiles = db.profiles) (hnow : db'.now = db.now)
    (hpend : ∀ i ∈ db.instances, i.userId = u → db'.pending i.id = true → db.pending i.id = true)
    (hcount : ∀ i ∈ db.instances, i.userId = u → busy i = true → db.counted i = true →
      db'.counted i = true) : Covered u db' := by
  refine ⟨?_, ?_, ?_, ?_⟩
  · rw [hinst]
    exact h.ids
  · rw [hinst]
    exact h.nonneg
  · intro i hi hu
    rw [hinst] at hi
    have hf := h.fits i hi hu
    exact ⟨hf.active, hf.requested, fun hp => hf.libvirtConf (hpend i hi hu hp), fun hb =>
      hcount i hi hu hb (hf.counted hb)⟩
  · intro p hp t
    rw [QuotaDb.profile, hprof] at hp
    rw [hnow]
    refine le_trans ?_ (h.sum p hp t)
    rw [sumOf, sumOf, hinst]
    refine List.sum_le_sum fun i hi => share_le (h.nonneg i hi t) fun hu hc => ⟨hu, ?_, rfl⟩
    rcases Bool.or_eq_true_iff.mp hc with hb | hp'
    · exact Bool.or_eq_true_iff.mpr (.inl hb)
    · exact Bool.or_eq_true_iff.mpr (.inr (hpend i hi hu hp'))

/-- The job that is the last after a new one is written. -/
theorem lastJob_cons (j : InstanceJob) (seq inst : Int) :
    lastJob { db with jobs := j :: db.jobs, seq := seq } inst =
      if j.targetId = inst then some j else db.lastJob inst := by
  unfold lastJob
  dsimp only
  split
  · rename_i he
    rw [List.find?_cons_of_pos (by simpa using he)]
  · rename_i he
    rw [List.find?_cons_of_neg (by simpa using he)]

/-- A job that does not run anything takes nothing, and the instance is counted because of it. -/
theorem addJob_covered_of_ne (h : Covered u db) (inst : Int) {action : Int}
    (hne : action ≠ runInstanceA) :
    Covered u (db.addJob inst action) := by
  refine h.setJobs rfl rfl rfl ?_ ?_
  · intro x _ _ hp
    rw [pending, addJob, lastJob_cons] at hp
    split at hp
    · rw [Option.any_some, beq_eq_false_iff_ne.mpr hne, Bool.and_false] at hp
      exact absurd hp Bool.false_ne_true
    · exact hp
  · intro x _ _ _ hc
    rw [QuotaDb.counted, waiting, addJob, lastJob_cons]
    split
    · exact Bool.or_eq_true_iff.mpr (.inr rfl)
    · exact hc

theorem lastJob_update (job status inst : Int) :
    lastJob
      { db with jobs := Table.update (·.id) job (fun j => { j with status := status }) db.jobs }
      inst = (db.lastJob inst).map fun j =>
        if j.id = job then { j with status := status } else j := by
  unfold lastJob Table.update
  rw [List.find?_map]
  congr 2
  funext j
  rw [Function.comp]
  split <;> rfl

/-- A job that is finished stays so, and is not finished before the instance is seen to run. -/
theorem jobStatus_covered (h : Covered u db) {job status : Int}
    (hkeep : ∀ j ∈ db.jobs, j.id = job →
      (jobCompleted j.status = true → jobCompleted status = true) ∧
      (jobCompleted status = true → ∀ i ∈ db.instances, i.userId = u → db.lastJob i.id = some j →
        busy i = true → isRunning i.status = true)) :
    Covered u
      { db with
        jobs := Table.update (·.id) job (fun j => { j with status := status }) db.jobs } := by
  refine h.setJobs rfl rfl rfl ?_ ?_
  · intro i _ _ hp
    rw [pending, lastJob_update] at hp
    rw [pending]
    cases hj : db.lastJob i.id with
    | none =>
      rw [hj] at hp
      exact hp
    | some j =>
      rw [hj, Option.map_some, Option.any_some] at hp
      rw [Option.any_some]
      split at hp
      · rename_i he
        obtain ⟨hopen, hrun⟩ := Bool.and_eq_true_iff.mp hp
        have hnot : jobCompleted j.status = false := by
          by_contra hc
          have hdone := (hkeep j (List.mem_of_find?_eq_some hj) he).1 (by simpa using hc)
          rw [hdone] at hopen
          exact absurd hopen (by decide)
        rw [hnot, Bool.not_false, Bool.true_and]
        exact hrun
      · exact hp
  · intro i hi hu hb hc
    rcases Bool.or_eq_true_iff.mp hc with hr | hw
    · exact Bool.or_eq_true_iff.mpr (.inl hr)
    rw [waiting] at hw
    rw [QuotaDb.counted, waiting, lastJob_update]
    cases hj : db.lastJob i.id with
    | none =>
      rw [hj] at hw
      exact absurd hw (by decide)
    | some j =>
      rw [hj, Option.any_some] at hw
      rw [Option.map_some, Option.any_some]
      split
      · rename_i he
        cases hs : jobCompleted status with
        | false => exact Bool.or_eq_true_iff.mpr (.inr rfl)
        | true =>
          have hrun := (hkeep j (List.mem_of_find?_eq_some hj) he).2 hs i hi hu hj hb
          exact Bool.or_eq_true_iff.mpr (.inl hrun)
      · exact Bool.or_eq_true_iff.mpr (.inr hw)

/-- The control server dispatches a run job that is the last of its instance and not finished. -/
theorem dispatch_covered (h : Covered u db) {job : Int}
    (hlast : ∀ j ∈ db.jobs, j.id = job → j.action = runInstanceA →
      db.lastJob j.targetId = some j ∧ jobCompleted j.status = false) :
    Covered u (db.dispatch job) := by
  unfold dispatch
  split
  · exact h
  rename_i j hj
  have hid : j.id = job := by simpa using List.find?_some hj
  split
  · rename_i hrun
    obtain ⟨hl, hopen⟩ := hlast j (List.mem_of_find?_eq_some hj) hid hrun
    have hpend : db.pending j.targetId = true := by
      rw [pending, hl, Option.any_some, hopen, hrun]
      rfl
    have hwait : db.waiting j.targetId = true := by
      rw [waiting, hl, Option.any_some, hopen]
      rfl
    refine h.setInstance (fun _ => rfl) (fun _ => rfl) (fun i hi _ => h.nonneg i hi) ?_ ?_
    · intro i _ he _ hf
      refine ⟨hf.active, ?_, hf.libvirtConf, fun _ => ?_⟩
      · intro a ha
        rw [hf.libvirtConf (he ▸ hpend)] at ha
        exact (Option.some.inj ha).symm
      · exact Bool.or_eq_true_iff.mpr (.inr (he ▸ hwait))
    · intro i _ he _ _
      exact ⟨Bool.or_eq_true_iff.mpr (.inr (he ▸ hpend)), rfl⟩
  · exact h

/-! ## The requests -/

theorem Covered.unique (h : Covered u db) {i j : QuotaInstance} (hi : i ∈ db.instances)
    (hj : j ∈ db.instances) (he : i.id = j.id) : i = j := List.inj_on_of_nodup_map h.ids hi hj he

theorem FormAmount.get_nonneg (a : FormAmount) (t : ResourceType) : 0 ≤ a.toAmount.get t := by
  have hcpus := a.cpus_min
  have hmemory := a.memory_min
  cases t with
  | cpu =>
    show 0 ≤ a.cpus
    omega
  | memory =>
    show 0 ≤ a.memory
    omega

/-- The configuration may change while nothing depends on it. -/
theorem config_covered (h : Covered u db) {inst : Int} {old : Amount} (a : FormAmount)
    (hkeep : ∀ x ∈ db.instances, x.id = inst → x.userId = u → db.committed x = true →
      old.assign a.toAmount x.config = x.config) :
    Covered u
      (db.setInstance inst fun x => { x with config := old.assign a.toAmount x.config }) := by
  refine h.setInstance (fun _ => rfl) (fun _ => rfl) ?_ ?_ ?_
  · intro x hx _ t
    rw [Amount.get_assign]
    split
    · exact h.nonneg x hx t
    · exact a.get_nonneg t
  · intro x hx he hu hf
    cases hc : db.committed x with
    | true =>
      rw [hkeep x hx he hu hc]
      exact ⟨hf.active, hf.requested, hf.libvirtConf, hf.counted⟩
    | false =>
      -- there is nothing that the configuration could differ from
      obtain ⟨hb, hp⟩ := Bool.or_eq_false_iff.mp hc
      obtain ⟨ha, hr⟩ := Bool.or_eq_false_iff.mp hb
      refine ⟨?_, ?_, ?_, ?_⟩
      · intro c hact
        rw [show x.active = some c from hact] at ha
        cases ha
      · intro c hreq
        rw [show x.requested = some c from hreq] at hr
        cases hr
      · intro hp'
        exact absurd (hp.symm.trans hp') (by decide)
      · intro hb'
        exact absurd (hb.symm.trans hb') (by decide)
  · intro x hx he hu hc
    exact ⟨hc, hkeep x hx he hu hc⟩

/-- What is committed besides the instance `i` is among what `LifeControl.run` adds up. -/
theorem others_le (h : Covered u db) {l : List QuotaInstance} (hl : ∀ x ∈ l, x ∈ db.instances)
    {q : QuotaInstance → Bool} (hq : ∀ x ∈ l, q x = true → db.committed x = true)
    (t : ResourceType) :
    (l.map (share u t q)).sum ≤ (l.map (share u t fun i => isRunning i.status)).sum +
      (l.map (share u t fun i => db.waiting i.id)).sum := by
  rw [← List.sum_map_add]
  refine List.sum_le_sum fun x hx => ?_
  have hnn := h.nonneg x (hl x hx) t
  have h1 : 0 ≤ share u t (fun i => isRunning i.status) x := share_nonneg hnn
  have h2 : 0 ≤ share u t (fun i => db.waiting i.id) x := share_nonneg hnn
  by_cases hc : x.userId = u ∧ q x = true
  · have hcount : db.counted x = true := by
      rcases Bool.or_eq_true_iff.mp (hq x hx hc.2) with hb | hp
      · exact (h.fits x (hl x hx) hc.1).counted hb
      · refine Bool.or_eq_true_iff.mpr (.inr ?_)
        obtain ⟨j, hj, hpj⟩ := (Option.any_eq_true _ _).mp hp
        exact (Option.any_eq_true _ _).mpr ⟨j, hj, (Bool.and_eq_true_iff.mp hpj).1⟩
    rw [share_of hc.1 hc.2]
    rcases Bool.or_eq_true_iff.mp hcount with hr | hw
    · have heq : share u t (fun i => isRunning i.status) x = x.config.get t := share_of hc.1 hr
      omega
    · have heq : share u t (fun i => db.waiting i.id) x = x.config.get t := share_of hc.1 hw
      omega
  · rw [share, if_neg hc]
    omega

/-- What is rendered while a run job waits is what the instance is configured for. -/
theorem libvirtConf_covered (h : Covered u db) {inst : Int} {a : Amount}
    (hkeep : ∀ x ∈ db.instances, x.id = inst → x.userId = u →
      db.pending x.id = true → a = x.config) :
    Covered u (db.setInstance inst fun x => { x with libvirtConf := some a }) := by
  refine h.setInstance (fun _ => rfl) (fun _ => rfl) (fun x hx _ => h.nonneg x hx) ?_ ?_
  · intro x hx he hu hf
    exact ⟨hf.active, hf.requested, fun hp => congrArg some (hkeep x hx he hu hp), hf.counted⟩
  · intro x _ _ _ hc
    exact ⟨hc, rfl⟩

/-- The run job of an instance of the user: what is rendered is what the instance is configured for,
and what is left is enough for it. -/
theorem runJob_covered (h : Covered u db) {i : QuotaInstance}
    (hi : i ∈ db.instances) (hu : i.userId = u) (hconf : i.libvirtConf = some i.config)
    (henough : ∀ p, db.profile u = some p → ∀ t, db.enough p i t = true) :
    Covered u (db.addJob i.id runInstanceA) := by
  have hlast := fun inst => @lastJob_cons db ⟨db.seq, i.id, runInstanceA, jobInitiatedS, db.now⟩
    (db.seq + 1) inst
  obtain ⟨a, b, hab⟩ := Table.exists_around h.ids hi
  have hrest : ∀ x, x ∈ a ∨ x ∈ b → x ∈ db.instances ∧ i.id ≠ x.id := by
    rintro x (hx | hx)
    · exact ⟨hab.sublist.subset (List.mem_append_left _ hx), fun he => hab.before x hx he.symm⟩
    · exact ⟨hab.sublist.subset (List.mem_append_right _ hx), fun he => hab.after x hx he.symm⟩
  refine ⟨h.ids, h.nonneg, ?_, ?_⟩
  · intro x hx hxu
    have hf := h.fits x hx hxu
    by_cases he : i.id = x.id
    · obtain rfl := h.unique hi hx he
      refine ⟨hf.active, hf.requested, fun _ => hconf, fun _ => ?_⟩
      refine Bool.or_eq_true_iff.mpr (.inr ?_)
      rw [waiting]
      refine (congrArg (Option.any _) ((hlast i.id).trans (if_pos rfl))).trans ?_
      rfl
    · have hsame := (hlast x.id).trans (if_neg he)
      refine ⟨hf.active, hf.requested, fun hpend => ?_, fun hb => ?_⟩
      · exact hf.libvirtConf ((congrArg (Option.any _) hsame).symm.trans hpend)
      · rcases Bool.or_eq_true_iff.mp (hf.counted hb) with hr | hw
        · exact Bool.or_eq_true_iff.mpr (.inl hr)
        · exact Bool.or_eq_true_iff.mpr (.inr ((congrArg (Option.any _) hsame).trans hw))
  · intro p hp t
    have hneed := of_decide_eq_true (henough p hp t)
    rw [getResourceUsed, resourceWait, sumOf, sumOf, hab.eq, hu] at hneed
    rw [sumOf]
    show (db.instances.map _).sum ≤ _
    rw [hab.eq]
    -- everything but `i` was committed before
    have hold : ∀ x, x ∈ a ∨ x ∈ b → committed (db.addJob i.id runInstanceA) x = true →
        db.committed x = true := by
      intro x hx hc
      have hsame := (hlast x.id).trans (if_neg (hrest x hx).2)
      rcases Bool.or_eq_true_iff.mp hc with hb | hpend
      · exact Bool.or_eq_true_iff.mpr (.inl hb)
      · exact Bool.or_eq_true_iff.mpr (.inr ((congrArg (Option.any _) hsame).symm.trans hpend))
    have ha := others_le h (fun x hx => (hrest x (.inl hx)).1) (fun x hx => hold x (.inl hx)) t
    have hb := others_le h (fun x hx => (hrest x (.inr hx)).1) (fun x hx => hold x (.inr hx)) t
    have hnn := h.nonneg i hi t
    have hi1 : 0 ≤ share u t (fun x => isRunning x.status) i := share_nonneg hnn
    have hi2 : 0 ≤ share u t (fun x => db.waiting x.id) i := share_nonneg hnn
    rw [List.map_append, List.map_cons, List.sum_append, List.sum_cons] at hneed ⊢
    rw [List.map_append, List.map_cons, List.sum_append, List.sum_cons] at hneed
    have hself : ∀ q : QuotaInstance → Bool, share u t q i ≤ i.config.get t := by
      intro q
      unfold share
      split
      · exact le_refl _
      · exact hnn
    refine le_trans (add_le_add ha (add_le_add (hself _) hb)) ?_
    show _ ≤ p.getResourceTotal db.now t
    omega

/-- A run job is written for an instance that is still configured for what was rendered, and for
which enough is still left. -/
def StillRight (u : Int) (db : QuotaDb) (inst : Int) : Prop :=
  ∀ x ∈ db.instances, x.id = inst → x.userId = u → x.libvirtConf = some x.config ∧
    ∀ p, db.profile u = some p → ∀ t, db.enough p x t = true

theorem addJob_covered (h : Covered u db) {inst action : Int}
    (hright : action = runInstanceA → StillRight u db inst) :
    Covered u (db.addJob inst action) := by
  by_cases hne : action ≠ runInstanceA
  · exact addJob_covered_of_ne h inst hne
  · obtain rfl := not_not.mp hne
    by_cases hmine : ∃ x ∈ db.instances, x.id = inst ∧ x.userId = u
    · obtain ⟨x, hx, rfl, hu⟩ := hmine
      obtain ⟨hconf, henough⟩ := hright rfl x hx rfl hu
      exact runJob_covered h hx hu hconf henough
    · -- an instance of someone else
      have hother : ∀ x ∈ db.instances, x.userId = u →
          (db.addJob inst runInstanceA).lastJob x.id = db.lastJob x.id := fun x hx hu =>
        (lastJob_cons ..).trans (if_neg fun he => hmine ⟨x, hx, he.symm, hu⟩)
      refine h.setJobs rfl rfl rfl ?_ ?_
      · intro x hx hu hp
        rw [pending, hother x hx hu] at hp
        exact hp
      · intro x hx hu _ hc
        rw [QuotaDb.counted, waiting, hother x hx hu]
        exact hc

/-! ## Runs -/

/-- The resources of the user do not shrink. -/
def NoShrink (u : Int) (db : QuotaDb) : QuotaEvent → Prop
  | .tick now => ∀ p, db.profile u = some p → ∀ t,
      p.getResourceTotal db.now t ≤ p.getResourceTotal now t
  | .resources user static l => user = u → ∀ p, db.profile u = some p → ∀ t,
      p.getResourceTotal db.now t ≤
        { p with static := static, resources := l }.getResourceTotal db.now t
  | _ => True

/-- What a statement of a request may write: a configuration that no virtual machine depends on, and
a run job that is still right. -/
def RequestOrderly (u : Int) (db : QuotaDb) (redraw : Bool) : QuotaRequest → Prop
  | .runAdmitted i => renders redraw i = true → ∀ x ∈ db.instances, x.id = i.id → x.userId = u →
      db.pending x.id = true → i.config = x.config
  | .newJob inst action => action = runInstanceA → StillRight u db inst
  | .editValid i a => ∀ x ∈ db.instances, x.id = i.id → x.userId = u → db.committed x = true →
      i.config.assign a.toAmount x.config = x.config
  | _ => True

/-- The requests are in order, and the control server keeps an instance counted as long as a virtual
machine belongs to it. -/
def Orderly (u : Int) (s : QuotaSystem) : QuotaEvent → Prop
  | .serve k redraw => ∀ r, s.requests[k]? = some r → RequestOrderly u s.db redraw r
  | .jobStatus job status => ∀ j ∈ s.db.jobs, j.id = job →
      (jobCompleted j.status = true → jobCompleted status = true) ∧
      (jobCompleted status = true → ∀ i ∈ s.db.instances, i.userId = u →
        s.db.lastJob i.id = some j →
        busy i = true → isRunning i.status = true)
  | .instanceStatus inst status => ∀ i ∈ s.db.instances, i.id = inst →
      i.userId = u → busy i = true →
      isRunning status = true ∨ s.db.waiting inst = true
  | .dispatch job => ∀ j ∈ s.db.jobs, j.id = job → j.action = runInstanceA →
      s.db.lastJob j.targetId = some j ∧ jobCompleted j.status = false
  | _ => True

/-- Nothing runs and nothing waits. -/
structure Idle (db : QuotaDb) : Prop where
  ids : (db.instances.map fun i => i.id).Nodup
  nonneg : ∀ i ∈ db.instances, ∀ t, 0 ≤ i.config.get t
  rest : ∀ i ∈ db.instances, i.active = none ∧ i.requested = none ∧ db.waiting i.id = false
  total : ∀ p ∈ db.profiles, ∀ t, 0 ≤ p.getResourceTotal db.now t

theorem Idle.covered (h : Idle db) (u : Int) : Covered u db := by
  have hrest : ∀ i ∈ db.instances, db.committed i = false := by
    intro i hi
    obtain ⟨ha, hr, hw⟩ := h.rest i hi
    have hp : db.pending i.id = false := by
      by_contra hc
      obtain ⟨j, hj, hpj⟩ := (Option.any_eq_true _ _).mp (Bool.not_eq_false _ ▸ hc)
      have hw' : db.waiting i.id = true :=
        (Option.any_eq_true _ _).mpr ⟨j, hj, (Bool.and_eq_true_iff.mp hpj).1⟩
      exact absurd (hw.symm.trans hw') (by decide)
    rw [committed, busy, ha, hr, hp]
    rfl
  refine ⟨h.ids, h.nonneg, ?_, ?_⟩
  · intro i hi _
    obtain ⟨ha, hr, _⟩ := h.rest i hi
    obtain ⟨hb, hp⟩ := Bool.or_eq_false_iff.mp (hrest i hi)
    refine ⟨fun a ha' => ?_, fun a hr' => ?_, fun hp' => ?_, fun hb' => ?_⟩
    · exact absurd (ha.symm.trans ha') (by simp)
    · exact absurd (hr.symm.trans hr') (by simp)
    · exact absurd (hp.symm.trans hp') (by decide)
    · exact absurd (hb.symm.trans hb') (by decide)
  · intro p hp t
    have hzero : db.sumOf u t db.committed = 0 := by
      refine List.sum_eq_zero fun x hx => ?_
      obtain ⟨i, hi, rfl⟩ := List.mem_map.mp hx
      refine if_neg fun hc => ?_
      exact absurd ((hrest i hi).symm.trans hc.2) (by decide)
    rw [hzero]
    exact h.total p (List.mem_of_find?_eq_some hp) t

theorem profile_update (user : Int) (static : Amount) (l : List Resource) :
    QuotaDb.profile { db with
        profiles := Table.update (·.userId) user
          (fun p => { p with static := static, resources := l })
          db.profiles } u =
      (db.profile u).map fun p =>
        if p.userId = user then { p with static := static, resources := l }
        else p := by
  unfold QuotaDb.profile Table.update
  rw [List.find?_map]
  congr 2
  funext p
  rw [Function.comp]
  split <;> rfl

/-- **One statement.** -/
theorem serve_covered (h : Covered u db) {redraw : Bool} {r : QuotaRequest}
    (ho : RequestOrderly u db redraw r) : Covered u (db.serve redraw r).1 := by
  cases r with
  | runAdmitted i =>
    unfold serve
    dsimp only
    split
    · rename_i hr
      exact libvirtConf_covered h (ho hr)
    · exact h
  | newJob inst action => exact addJob_covered h ho
  | editValid i a => exact config_covered h a ho
  | runWaits i xi rest wait => cases rest <;> exact h
  | runTotal i xi wait total =>
    unfold serve
    dsimp only
    split
    · exact h
    · split <;> exact h
  | _ => exact h

theorem after_covered {s : QuotaSystem} (h : Covered u s.db) {ev : QuotaEvent}
    (hs : NoShrink u s.db ev) (ho : Orderly u s ev) : Covered u (s.after ev).db := by
  cases ev with
  | run | stop | resourceEdit => exact h
  | serve k redraw =>
    show Covered u (s.serve k redraw).db
    unfold QuotaSystem.serve
    cases hr : s.requests[k]? with
    | none => exact h
    | some r =>
      have hserved := serve_covered h (ho r hr)
      dsimp only
      split
      · rename_i he
        rw [he] at hserved
        exact hserved
      · rename_i he
        rw [he] at hserved
        exact hserved
  | jobStatus job status => exact jobStatus_covered h ho
  | instanceStatus inst status => exact instanceStatus_covered h ho
  | dispatch job => exact dispatch_covered h ho
  | vmStart inst => exact vmStart_covered h inst
  | vmRefused inst => exact vmRefused_covered h inst
  | vmEnd inst => exact vmEnd_covered h inst
  | tick now =>
    refine ⟨h.ids, h.nonneg, fun i hi hu => ?_, fun p hp t => ?_⟩
    · have hf := h.fits i hi hu
      exact ⟨hf.active, hf.requested, hf.libvirtConf, hf.counted⟩
    · exact le_trans (h.sum p hp t) (hs p hp t)
  | resources user static l =>
    refine ⟨h.ids, h.nonneg, fun i hi hu => ?_, fun p hp t => ?_⟩
    · have hf := h.fits i hi hu
      exact ⟨hf.active, hf.requested, hf.libvirtConf, hf.counted⟩
    · replace hp := (profile_update user static l).symm.trans hp
      obtain ⟨q, hq, rfl⟩ := Option.map_eq_some_iff.mp hp
      have hid : q.userId = u := by simpa using List.find?_some hq
      split
      · rename_i he
        exact le_trans (h.sum q hq t) (hs (he.symm.trans hid) q hq t)
      · exact h.sum q hq t

/-! ### A request alone -/

/-- `n` statements of a request with nothing in between. -/
def QuotaDb.serveFor (db : QuotaDb) (redraw : Bool) :
    Nat → QuotaRequest → QuotaDb × Option QuotaRequest
  | 0, r => (db, some r)
  | n + 1, r =>
    match db.serve redraw r with
    | (db, none) => (db, none)
    | (db, some r) => db.serveFor redraw n r

variable {redraw : Bool}

theorem serveFor_succ {n : Nat} {r r' : QuotaRequest} (h : db.serve redraw r = (db, some r')) :
    db.serveFor redraw (n + 1) r = db.serveFor redraw n r' := by
  rw [serveFor, h]

/-- The instances of `rest` that wait for a job, added to `wait`. -/
def waitIn (db : QuotaDb) (rest : List QuotaInstance) (wait : Amount) : Amount :=
  rest.foldl (fun a x => if db.waiting x.id then a.add x.config else a) wait

theorem serveFor_waits (i xi : QuotaInstance) (rest : List QuotaInstance) (wait : Amount)
    (n : Nat) :
    db.serveFor redraw (rest.length + n) (.runWaits i xi rest wait) =
      db.serveFor redraw n (.runWaits i (rest.getLastD xi) [] (waitIn db rest wait)) := by
  induction rest generalizing xi wait with
  | nil => rw [List.length_nil, Nat.zero_add, waitIn, List.foldl_nil, List.getLastD_nil]
  | cons x rest ih =>
    have hlen : (x :: rest).length + n = rest.length + n + 1 := by
      rw [List.length_cons]
      omega
    have hserve : db.serve redraw (.runWaits i xi (x :: rest) wait) =
        (db, some (.runWaits i x rest (if db.waiting x.id then wait.add x.config else wait))) := rfl
    rw [hlen, serveFor_succ hserve, ih, waitIn, waitIn, List.foldl_cons, List.getLastD_cons]

theorem get_waitIn (rest : List QuotaInstance) (wait : Amount) (t : ResourceType) :
    (waitIn db rest wait).get t =
      wait.get t +
        (rest.map fun x => if db.waiting x.id = true then x.config.get t else 0).sum := by
  induction rest generalizing wait with
  | nil => rw [waitIn, List.foldl_nil, List.map_nil, List.sum_nil, Int.add_zero]
  | cons x rest ih =>
    have hstep : waitIn db (x :: rest) wait =
        waitIn db rest (if db.waiting x.id then wait.add x.config else wait) := rfl
    rw [hstep, ih, List.map_cons, List.sum_cons]
    split
    · rw [Amount.get_add, Int.add_assoc]
    · rw [Int.zero_add]

theorem get_usedIn (l : List QuotaInstance) (t : ResourceType) :
    (usedIn l).get t =
      (l.map fun x => if isRunning x.status = true then x.config.get t else 0).sum := by
  induction l with
  | nil => cases t <;> rfl
  | cons x l ih =>
    have hstep : usedIn (x :: l) = if isRunning x.status then
        x.config.add (usedIn l)
        else usedIn l := rfl
    rw [hstep, List.map_cons, List.sum_cons, ← ih]
    split
    · rw [Amount.get_add]
    · rw [Int.zero_add]

/-- The sum over the user's own rows. -/
theorem sum_own (user : Int) (t : ResourceType) (p : QuotaInstance → Bool) :
    (((db.instances.filter fun x => x.userId = user).map fun x =>
      if p x = true then x.config.get t else 0)).sum =
      db.sumOf user t p := by
  unfold sumOf
  induction db.instances with
  | nil => rfl
  | cons x l ih =>
    rw [List.map_cons, List.sum_cons, ← ih, List.filter_cons, share]
    by_cases hu : x.userId = user
    · rw [if_pos (by simpa using hu), List.map_cons, List.sum_cons]
      simp only [hu, true_and]
    · rw [if_neg (by simpa using hu), if_neg (fun h => hu h.1), Int.zero_add]

/-- The session has no row that is not as it is in the table. -/
theorem instancesOf_eq (hids : (db.instances.map fun i => i.id).Nodup) {held : List QuotaInstance}
    (hheld : ∀ y ∈ held, y ∈ db.instances) (user : Int) :
    db.instancesOf user held = db.instances.filter fun x => x.userId = user := by
  unfold instancesOf
  refine (List.map_congr_left fun x hx => ?_).trans (List.map_id _)
  cases hf : held.find? fun y => y.id = x.id with
  | none => rfl
  | some y =>
    have hy := hheld y (List.mem_of_find?_eq_some hf)
    have he : y.id = x.id := by simpa using List.find?_some hf
    exact List.inj_on_of_nodup_map hids hy (List.mem_of_mem_filter hx) he

/-- **What `enough` says is what `LifeControl.run` finds**, as long as nothing else happens. -/
theorem run_alone (hids : (db.instances.map fun i => i.id).Nodup) {i : QuotaInstance}
    (hi : i ∈ db.instances) {p : UserProfile} (hp : db.profile i.userId = some p) :
    db.serveFor redraw ((db.instancesOf i.userId [i]).length + 2 + 1) (.runFound i) =
      (db, if db.enough p i .cpu && db.enough p i .memory && !isRunning i.status
        then some (.runAdmitted i)
        else none) := by
  have hheld : ∀ y ∈ [i], y ∈ db.instances := by
    intro y hy
    obtain rfl := List.mem_singleton.mp hy
    exact hi
  have hown := instancesOf_eq hids hheld i.userId
  have hwait : ∀ t, (waitIn db (db.instancesOf i.userId [i]) ⟨0, 0⟩).get t =
      db.resourceWait i.userId t := by
    intro t
    rw [get_waitIn, hown, resourceWait, ← sum_own]
    cases t <;> exact Int.zero_add _
  have hlast : (db.instancesOf i.userId [i]).getLastD i ∈ db.instances := by
    rw [hown]
    rcases List.mem_cons.mp (List.getLastD_mem_cons ..) with he | hx
    · exact he ▸ hi
    · exact List.mem_of_mem_filter hx
  have hfound : db.serve redraw (.runFound i) =
      (db, some (.runWaits i i (db.instancesOf i.userId [i]) ⟨0, 0⟩)) := rfl
  rw [serveFor_succ hfound, serveFor_waits]
  generalize waitIn db (db.instancesOf i.userId [i]) ⟨0, 0⟩ = wait at hwait
  generalize (db.instancesOf i.userId [i]).getLastD i = xi at hlast
  have hused : ∀ t, (usedIn (db.instancesOf i.userId [i, xi])).get t =
      db.getResourceUsed i.userId t := by
    intro t
    have hboth : ∀ y ∈ [i, xi], y ∈ db.instances := by
      intro y hy
      rcases List.mem_pair.mp hy with rfl | rfl
      · exact hi
      · exact hlast
    rw [get_usedIn, instancesOf_eq hids hboth, getResourceUsed, ← sum_own]
  have htotal : db.serve redraw (.runWaits i xi [] wait) =
      (db, some (.runTotal i xi wait (p.total db.now))) := by
    rw [serve, hp]
    rfl
  rw [serveFor_succ htotal]
  have hcpu : enoughLeft i.config.cpus (p.total db.now).cpus
      (usedIn (db.instancesOf i.userId [i, xi])).cpus wait.cpus = db.enough p i .cpu := by
    rw [enough, ← hwait, ← hused]
    rfl
  have hmemory : enoughLeft i.config.memory (p.total db.now).memory
      (usedIn (db.instancesOf i.userId [i, xi])).memory wait.memory = db.enough p i .memory := by
    rw [enough, ← hwait, ← hused]
    rfl
  simp only [serveFor, serve, hcpu, hmemory]
  cases db.enough p i .cpu <;> cases db.enough p i .memory <;> cases isRunning i.status <;> rfl

/-- The system as it starts: nothing runs, nothing waits, and no request is being served. -/
structure QuotaStart (s : QuotaSystem) : Prop where
  idle : Idle s.db
  requests : s.requests = []

/-- **The quota holds in every run**, however the statements of its requests are mixed, in which no
instance is edited under a virtual machine, every run job is still right when it is written, and the
control server keeps every instance counted that has a virtual machine. -/
theorem quota_holds {s : QuotaSystem} (h : Machine.Reach QuotaSystem.next
    (fun s ev => NoShrink u s.db ev ∧ Orderly u s ev) QuotaStart s) :
    ∀ p, s.db.profile u = some p → ∀ t, s.db.activeSum u t ≤ p.getResourceTotal s.db.now t := by
  have hc : Covered u s.db := by
    refine h.inv (I := fun s => Covered u s.db) (fun _ h0 => h0.idle.covered u) ?_
    intro s ev t hs hq hn
    obtain rfl := Except.ok.inj (Option.some.inj hn)
    exact after_covered hs hq.1 hq.2
  intro p hp t
  exact le_trans (hc.activeSum_le t) (hc.sum p hp t)

/-- A user with 4 cores and 1024 M, and two instances. -/
def QuotaDb.twoInstances : QuotaDb where
  instances := [⟨⟨7, 3, 2⟩, ⟨4, 512⟩, none, none, none⟩, ⟨⟨8, 3, 2⟩, ⟨3, 256⟩, none, none, none⟩]
  profiles := [⟨3, ⟨4, 1024⟩, []⟩]

theorem twoInstances_idle : Idle .twoInstances := by
  refine ⟨by decide, ?_, ?_, ?_⟩
  · intro i hi t
    rcases List.mem_pair.mp hi with rfl | rfl <;> cases t <;> decide
  · intro i hi
    rcases List.mem_pair.mp hi with rfl | rfl <;> decide
  · intro p hp t
    obtain rfl := List.mem_singleton.mp hp
    cases t <;> decide

/-- The first instance is run: its job is dispatched, and the node starts the virtual machine. -/
def QuotaDb.oneStarted : QuotaDb where
  instances := [⟨⟨7, 3, 2⟩, ⟨4, 512⟩, some ⟨4, 512⟩, none, some ⟨4, 512⟩⟩,
    ⟨⟨8, 3, 2⟩, ⟨3, 256⟩, none, none, none⟩]
  jobs := [⟨1, 7, 201, 100, 0⟩]
  profiles := [⟨3, ⟨4, 1024⟩, []⟩]
  seq := 2

/-- A test for `Orderly` that is enough to start virtual machines. -/
def QuotaSystem.startsLast (s : QuotaSystem) : QuotaEvent → Bool
  | .run _ _ _ | .vmStart _ => true
  | .serve k _ => (s.requests[k]?).all fun
    | .runAdmitted i => s.db.instances.all fun x => !(x.id == i.id) || i.config == x.config
    | .newJob inst _ => s.db.instances.all fun x =>
      !(x.id == inst) || (x.libvirtConf == some x.config &&
        s.db.profiles.all fun p => s.db.enough p x .cpu && s.db.enough p x .memory)
    | .editValid _ _ => false
    | _ => true
  | .dispatch job => s.db.jobs.all fun j =>
      !(j.id == job) || (s.db.lastJob j.targetId == some j && !jobCompleted j.status)
  | _ => false

theorem startsLast_orderly {s : QuotaSystem} {ev : QuotaEvent} (h : s.startsLast ev = true) :
    NoShrink u s.db ev ∧ Orderly u s ev := by
  cases ev with
  | run | vmStart => exact ⟨trivial, trivial⟩
  | serve k redraw =>
    refine ⟨trivial, fun r hr => ?_⟩
    simp only [QuotaSystem.startsLast, hr, Option.all_some] at h
    cases r with
    | runAdmitted i =>
      intro _ x hx he _ _
      have hx' := List.all_eq_true.mp h x hx
      rw [he] at hx'
      simpa using hx'
    | newJob inst action =>
      intro _ x hx he _
      have hx' := List.all_eq_true.mp h x hx
      rw [he] at hx'
      simp only [beq_self_eq_true, Bool.not_true, Bool.false_or, Bool.and_eq_true, beq_iff_eq,
        List.all_eq_true] at hx'
      refine ⟨hx'.1, fun p hp t => ?_⟩
      have hboth := hx'.2 p (List.mem_of_find?_eq_some hp)
      cases t with
      | cpu => exact hboth.1
      | memory => exact hboth.2
    | editValid i a => exact absurd h Bool.false_ne_true
    | _ => trivial
  | dispatch job =>
    refine ⟨trivial, fun j hj hid _ => ?_⟩
    have hj' := List.all_eq_true.mp h j hj
    rw [hid] at hj'
    simpa using hj'
  | _ => exact absurd h Bool.false_ne_true

/-- Both instances are to be run. The second request has found its instance before the first one
gets any further, and the first one writes its job before the second one adds up. -/
def twoRequests : List QuotaEvent :=
  [.run 3 false 7, .run 3 false 8, .serve 0 true, .serve 1 true] ++
    List.replicate 8 (.serve 0 true) ++ List.replicate 5 (.serve 0 true) ++
    [.dispatch 1, .vmStart 7]

/-- The second one is refused: the virtual machine takes no more than the 4 cores of the user. -/
theorem quota_holds_started :
    Machine.exec QuotaSystem.next twoRequests ⟨.twoInstances, []⟩ = some ⟨.oneStarted, []⟩ ∧
      QuotaDb.oneStarted.activeSum 3 .cpu ≤ 4 := by
  have hrun : Machine.execIf QuotaSystem.next QuotaSystem.startsLast twoRequests
      ⟨.twoInstances, []⟩ =
      some ⟨.oneStarted, []⟩ := by
    decide
  have hstart : QuotaStart ⟨.twoInstances, []⟩ := ⟨twoInstances_idle, rfl⟩
  exact ⟨Machine.exec_of_execIf hrun, quota_holds ((Machine.Reach.of_init hstart).of_execIf
    (fun _ _ => startsLast_orderly) hrun) ⟨3, ⟨4, 1024⟩, []⟩ rfl .cpu⟩

/-- The statements of one request, with nothing in between. -/
def served (r : QuotaEvent) (n : Nat) : List QuotaEvent :=
  r :: List.replicate n (.serve 0 true)

/-- With the first virtual machine running on 4 cores, the instance is edited down to one core. Then
there are 3 cores left for the second. -/
theorem quota_exceeded :
    ¬ ∀ (u : Int) (s : QuotaSystem),
      Machine.Reach QuotaSystem.next (fun s => NoShrink u s.db) QuotaStart s →
      ∀ p, s.db.profile u = some p → ∀ t, s.db.activeSum u t ≤ p.getResourceTotal s.db.now t := by
  intro hall
  have hrun : Machine.execIf QuotaSystem.next
      (fun _ ev => match ev with | .tick _ | .resources _ _ _ => false | _ => true)
      (served (.run 3 false 7) 9 ++
        [.dispatch 1, .vmStart 7, .instanceStatus 7 3, .jobStatus 1 301] ++
        served (.resourceEdit 3 7 ⟨1, 512⟩) 4 ++ served (.run 3 false 8) 9 ++
          [.dispatch 2, .vmStart 8])
      ⟨.twoInstances, []⟩ =
      some
        ⟨{ instances := [⟨⟨7, 3, 3⟩, ⟨1, 512⟩, some ⟨4, 512⟩, none, some ⟨4, 512⟩⟩,
            ⟨⟨8, 3, 2⟩, ⟨3, 256⟩, some ⟨3, 256⟩, none, some ⟨3, 256⟩⟩]
           jobs := [⟨2, 8, 201, 100, 0⟩, ⟨1, 7, 201, 301, 0⟩]
           profiles := [⟨3, ⟨4, 1024⟩, []⟩]
           seq := 3 }, []⟩ := by
    decide
  have hstart : QuotaStart ⟨.twoInstances, []⟩ := ⟨twoInstances_idle, rfl⟩
  have hbad := hall 3 _ ((Machine.Reach.of_init hstart).of_execIf (fun s ev hev => ?_) hrun)
    ⟨3, ⟨4, 1024⟩, []⟩ rfl .cpu
  · revert hbad
    decide
  · cases ev with
    | tick | resources => exact absurd hev Bool.false_ne_true
    | _ => exact trivial

end LuoYun.Web

import LuoYun.Compute.NodeInfo

/-!
# The commit report

`libvirt_node_info_update` leaves through `out` with `ret` set to the number of domains. When there
are none it leaves before the two fields are written: the report says success and carries what was
committed when the last domain was running.
-/

namespace LuoYun

namespace Hypervisor

variable (hv : Hypervisor)

/-- The active domains. -/
def active : List Int := hv.listDomains.getD []

/-- The active domains other than domain 0. -/
def guests : List Int := hv.active.filter fun id => decide (id ≠ 0)

/-- The sum of a field of `virDomainInfo` over these domains. -/
def sumOver (field : VirDomainInfo → Nat) (ids : List Int) : Nat :=
  (ids.map fun id => ((hv.info id).map field).getD 0).sum

/-- The processors of the active domains other than domain 0. -/
def cpuSum : Nat := hv.sumOver (fun di => di.nrVirtCpu.toNat) hv.guests

/-- The memory of the active domains other than domain 0. -/
def memSum : Nat := hv.sumOver (fun di => di.maxMem.toNat) hv.guests

/-- Every call that an update makes is answered. -/
def answers : Bool :=
  hv.conn && (hv.numOfDomains == some 0 ||
    hv.numOfDomains.isSome && hv.malloc && hv.listDomains.isSome && hv.guests.all fun id =>
      (hv.info id).isSome)

end Hypervisor

/-- The report is exact: on success the two fields are the sums, on failure they are as before. -/
def ReportExact (hv : Hypervisor) (ni : NodeInfo) : Prop :=
  let r := libvirtNodeInfoUpdate hv ni
  (0 ≤ r.2 → r.1.cpuCommit = hv.cpuSum ∧ r.1.memCommit = hv.memSum) ∧
    (r.2 < 0 → r.1.cpuCommit = ni.cpuCommit ∧ r.1.memCommit = ni.memCommit)

/-- Nothing stale is left where there are no domains, and the sums fit the fields. -/
def Refreshable (hv : Hypervisor) (ni : NodeInfo) : Prop :=
  hv.answers = true → (hv.active = [] → ni.cpuCommit = 0 ∧ ni.memCommit = 0) ∧
    hv.cpuSum < 2 ^ 32 ∧ hv.memSum < 2 ^ 32

/-! ## The loop -/

theorem toInt32_add (x : Int) (y : Int) : toInt32 (toInt32 x + y) = toInt32 (x + y) := by
  unfold toInt32
  omega

theorem toUInt32_add (x y : Int) : toUInt32 (toUInt32 x + y) = toUInt32 (x + y) := by
  unfold toUInt32
  omega

theorem toUInt32_toInt32 (x : Int) : toUInt32 (toInt32 x) = toUInt32 x := by
  unfold toUInt32 toInt32
  omega

/-- The loop adds up the domains other than domain 0, unless one of them does not answer. -/
theorem commitLoop_eq (hv : Hypervisor) (ids : List Int) (cpu mem : Int) :
    commitLoop hv ids (toInt32 cpu) (toUInt32 mem) =
      if (ids.filter fun id => decide (id ≠ 0)).all fun id => (hv.info id).isSome then
        some
          (toInt32 (cpu + hv.sumOver (fun di => di.nrVirtCpu.toNat)
            (ids.filter fun id => decide (id ≠ 0))),
          toUInt32 (mem + hv.sumOver (fun di => di.maxMem.toNat)
            (ids.filter fun id => decide (id ≠ 0))))
      else none := by
  induction ids generalizing cpu mem with
  | nil => simp [commitLoop, Hypervisor.sumOver]
  | cons id ids ih =>
    rw [commitLoop]
    split
    · rename_i hid
      rw [ih, List.filter_cons_of_neg (by simp [hid])]
    · rename_i hid
      rw [List.filter_cons_of_pos (by simp [hid])]
      cases hinfo : hv.info id with
      | none => simp [hinfo]
      | some di =>
        dsimp only
        rw [toInt32_add, toUInt32_add, ih]
        simp only [List.all_cons, hinfo, Option.isSome_some, Bool.true_and, Hypervisor.sumOver,
          List.map_cons, Option.map_some, Option.getD_some, List.sum_cons, Int.natCast_add,
          Int.add_assoc]

theorem toUInt32_natCast_iff {n : Nat} : (toUInt32 (n : Int) : Int) = n ↔ n < 2 ^ 32 := by
  unfold toUInt32
  omega

/-! ## The update -/

variable {hv : Hypervisor} {ni : NodeInfo}

/-- Without domains there is nothing to add up. -/
theorem sums_of_idle (h : hv.active = []) : hv.cpuSum = 0 ∧ hv.memSum = 0 := by
  simp [Hypervisor.cpuSum, Hypervisor.memSum, Hypervisor.guests, h, Hypervisor.sumOver]

/-- **What an update does**: it fails and writes nothing, it finds no domains and writes nothing, or
it writes the sums. -/
theorem libvirtNodeInfoUpdate_cases (hv : Hypervisor) (ni : NodeInfo) :
    (hv.answers = false ∧ libvirtNodeInfoUpdate hv ni = (ni, -1)) ∨
    (hv.answers = true ∧ hv.active = [] ∧ libvirtNodeInfoUpdate hv ni = (ni, 0)) ∨
    (hv.answers = true ∧ hv.active ≠ [] ∧ ∃ n : Nat, libvirtNodeInfoUpdate hv ni =
      ({ ni with cpuCommit := toUInt32 hv.cpuSum, memCommit := toUInt32 hv.memSum },
        (n : Int))) := by
  unfold libvirtNodeInfoUpdate
  split
  · rename_i hconn
    exact .inl ⟨by simp [Hypervisor.answers, hconn], rfl⟩
  rename_i hconn
  have hconn : hv.conn = true := by simpa using hconn
  split
  · rename_i hnum
    exact .inl ⟨by simp [Hypervisor.answers, hnum], rfl⟩
  · -- nothing is counted, so nothing would be listed
    rename_i hnum
    refine .inr (.inl ⟨by simp [Hypervisor.answers, hconn, hnum], ?_, rfl⟩)
    unfold Hypervisor.active
    cases hlist : hv.listDomains with
    | none => rfl
    | some ids =>
      have hlen : ids.length = 0 := Nat.le_zero.mp (hv.room 0 ids hnum hlist)
      exact List.length_eq_zero_iff.mp hlen
  rename_i n hnum
  split
  · rename_i hmalloc
    exact .inl ⟨by simp [Hypervisor.answers, hnum, hmalloc], rfl⟩
  rename_i hmalloc
  have hmalloc : hv.malloc = true := by simpa using hmalloc
  split
  · rename_i hlist
    exact .inl ⟨by simp [Hypervisor.answers, hnum, hlist], rfl⟩
  · rename_i hlist
    have hactive : hv.active = [] := by rw [Hypervisor.active, hlist]; rfl
    refine .inr (.inl ⟨?_, hactive, rfl⟩)
    simp [Hypervisor.answers, hconn, hnum, hmalloc, hlist, Hypervisor.guests, hactive]
  · rename_i id ids hlist
    have hactive : hv.active = id :: ids := by rw [Hypervisor.active, hlist]; rfl
    have hloop := commitLoop_eq hv (id :: ids) 0 0
    rw [show toInt32 0 = 0 from rfl, show toUInt32 0 = 0 from rfl, ← hactive] at hloop
    change commitLoop hv hv.active 0 0 = if hv.guests.all (fun id => (hv.info id).isSome) then
      some (toInt32 (0 + hv.cpuSum), toUInt32 (0 + hv.memSum))
      else none at hloop
    rw [← hactive, hloop]
    cases hall : hv.guests.all fun id => (hv.info id).isSome with
    | false => exact .inl ⟨by simp [Hypervisor.answers, hnum, hall], rfl⟩
    | true =>
      refine .inr (.inr ⟨?_, by simp [hactive], hv.active.length, ?_⟩)
      · simp [Hypervisor.answers, hconn, hnum, hmalloc, hlist, hall]
      · simp only [if_true, Int.zero_add, toUInt32_toInt32]

/-- The commit report is exact if nothing stale is left over and nothing wraps around. -/
theorem Refreshable.exact {hv : Hypervisor} {ni : NodeInfo} (h : Refreshable hv ni) :
    ReportExact hv ni := by
  unfold Refreshable at h
  unfold ReportExact
  rcases libvirtNodeInfoUpdate_cases hv ni with ⟨-, hr⟩ | ⟨hyes, hidle, hr⟩ | ⟨hyes, -, n, hr⟩
  · rw [hr]
    simp
  · obtain ⟨hcpu, hmem⟩ := sums_of_idle hidle
    obtain ⟨hstale, -⟩ := h hyes
    rw [hr, hcpu, hmem]
    simp [hstale hidle]
  · obtain ⟨-, hsums⟩ := h hyes
    rw [hr]
    dsimp only
    rw [toUInt32_natCast_iff, toUInt32_natCast_iff]
    exact ⟨fun _ => hsums, fun hneg => absurd hneg (Int.not_lt.mpr (Int.natCast_nonneg n))⟩

/-- **The commit report is exact exactly when nothing stale is left over and nothing wraps around.**
-/
theorem reportExact_iff (hv : Hypervisor) (ni : NodeInfo) :
    ReportExact hv ni ↔ Refreshable hv ni := by
  refine ⟨fun h => ?_, Refreshable.exact⟩
  unfold ReportExact at h
  unfold Refreshable
  rcases libvirtNodeInfoUpdate_cases hv ni with ⟨hno, -⟩ | ⟨hyes, hidle, hr⟩ | ⟨hyes, hbusy, n, hr⟩
  · rw [hno]
    simp
  · obtain ⟨hcpu, hmem⟩ := sums_of_idle hidle
    rw [hr, hcpu, hmem] at h
    rw [hcpu, hmem]
    simpa [hyes, hidle] using h
  · have hsums := h.1
    rw [hr] at hsums
    dsimp only at hsums
    rw [toUInt32_natCast_iff, toUInt32_natCast_iff] at hsums
    simpa [hyes, hbusy] using hsums

/-- The last domain was shut down: libvirt counts none. -/
def Hypervisor.idle : Hypervisor where
  numOfDomains := some 0
  listDomains := some []
  room := by
    intro n ids _ hids
    obtain rfl := Option.some.inj hids
    exact Nat.zero_le n
  info := fun _ => none

/-- The node goes on reporting what its last domain was given. -/
theorem report_stale : ¬ ∀ (hv : Hypervisor) (ni : NodeInfo), ReportExact hv ni := by
  intro hall
  have h := (hall .idle { cpuCommit := 2, memCommit := 1048576 }).1 (by decide)
  exact absurd h.1 (by decide)

/-! ## The report that goes out -/

/-- The update of the node information touches the commits through libvirt only. -/
theorem lyNodeInfoUpdate_commits (hv : Hypervisor) (host : HostState) (nf : NodeInfo) :
    (∃ nf', nf'.cpuCommit = nf.cpuCommit ∧ nf'.memCommit = nf.memCommit ∧
      lyNodeInfoUpdate hv host nf = ((libvirtNodeInfoUpdate hv nf').1,
        if (libvirtNodeInfoUpdate hv nf').2 < 0 then -1 else 0)) ∨
    ((lyNodeInfoUpdate hv host nf).2 = -1 ∧
      (lyNodeInfoUpdate hv host nf).1.cpuCommit = nf.cpuCommit ∧
      (lyNodeInfoUpdate hv host nf).1.memCommit = nf.memCommit) := by
  unfold lyNodeInfoUpdate
  dsimp only
  have hip : ∀ nf' : NodeInfo, nf' =
      (if host.nodeIp = none then nf else { nf with hostIp := host.nodeIp }) →
      nf'.cpuCommit = nf.cpuCommit ∧ nf'.memCommit = nf.memCommit := by
    rintro nf' rfl
    split <;> exact ⟨rfl, rfl⟩
  generalize hnf : (if host.nodeIp = none then nf else { nf with hostIp := host.nodeIp }) = nf'
  obtain ⟨hc, hm⟩ := hip nf' hnf.symm
  split
  · exact .inr ⟨rfl, hc, hm⟩
  split
  · exact .inr ⟨rfl, hc, hm⟩
  split
  · exact .inr ⟨rfl, hc, hm⟩
  · let seen : NodeInfo := { nf' with
      memFree := host.freeMemory
      storageFree := host.freeStorage
      loadAverage := host.loadAverage
      status := reportedStatus host }
    exact .inl ⟨seen, hc, hm, rfl⟩

/-- A report of success carries the sums if nothing stale is left over and nothing wraps around. -/
theorem report_success (host : HostState) {nf : NodeInfo} (hok : Refreshable hv nf)
    (h : 0 ≤ (lyNodeInfoUpdate hv host nf).2) :
    (lyNodeInfoUpdate hv host nf).1.cpuCommit = hv.cpuSum ∧
      (lyNodeInfoUpdate hv host nf).1.memCommit = hv.memSum := by
  rcases lyNodeInfoUpdate_commits hv host nf with ⟨nf', hc, hm, heq⟩ | ⟨hfail, -⟩
  · rw [heq] at h ⊢
    have hfresh : Refreshable hv nf' := by
      unfold Refreshable at hok ⊢
      rwa [hc, hm]
    refine hfresh.exact.1 ?_
    dsimp only at h ⊢
    split at h <;> omega
  · rw [hfail] at h
    exact absurd h (by decide)

end LuoYun

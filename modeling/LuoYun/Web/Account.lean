import LuoYun.Web.Instance

/-!
# The resources of a user

`app/account/models.py` computes what a user has and uses twice: `get_resource_total` and
`get_resource_used` walk over the resources and the instances once and fill in a dictionary, and
`cpu_remain` and the others walk over them again for one number each.

Dates and times are numbers. Both dates of a resource may be `NULL`: a new resource gets dates of
its own, but the page on which a resource is edited stores what the form holds, which is `None` for
a field that was not sent. Comparing `None` with a time raises a `TypeError`, and `none` is what a
function returns then. `type` is a column of the table and can be anything; the forms ask for a
size.
-/

namespace LuoYun.Web.Account

/-- `Resource`. -/
structure Resource where
  type : Int
  size : Int
  effectDate : Option Int
  expiredDate : Option Int
  deriving DecidableEq, Repr

/-- `Resource.T_CPU`. -/
def tCpu : Int := 1
/-- `Resource.T_MEMORY`. -/
def tMemory : Int := 2
/-- `Resource.T_STORAGE`. -/
def tStorage : Int := 3
/-- `Resource.T_INSTANCE`. -/
def tInstance : Int := 4

/-- `Instance`, with the sizes of its storages. -/
structure Instance where
  status : Int
  cpus : Int
  memory : Int
  storages : List Int := []
  deriving DecidableEq, Repr

/-- `UserProfile`, with the resources and the instances of its user. -/
structure UserProfile where
  cpu : Int
  memory : Int
  storage : Int
  instance' : Int
  resources : List Resource := []
  instances : List Instance := []
  deriving DecidableEq, Repr

/-- The dictionary that is filled in. -/
structure Amounts where
  cpu : Int
  memory : Int
  instance' : Int
  storage : Int
  deriving DecidableEq, Repr

/-- `R.effect_date < now < R.expired_date`. The second date is looked at if the first is past. -/
def Resource.valid (r : Resource) (now : Int) : Option Bool := do
  let effectDate ← r.effectDate
  if effectDate < now then
    let expiredDate ← r.expiredDate
    return now < expiredDate
  else return false

/-! ## The dictionaries -/

/-- A resource is added to the total: its dates are compared first. -/
def addResource (now : Int) (d : Amounts) (r : Resource) : Option Amounts := do
  if ← r.valid now then
    if r.type = tCpu then return { d with cpu := d.cpu + r.size }
    else if r.type = tMemory then return { d with memory := d.memory + r.size }
    else if r.type = tStorage then return { d with storage := d.storage + r.size }
    else if r.type = tInstance then return { d with instance' := d.instance' + r.size }
    else return d
  else return d

/-- `get_resource_total`. -/
def getResourceTotal (p : UserProfile) (now : Int) : Option Amounts :=
  p.resources.foldlM (addResource now) ⟨p.cpu, p.memory, p.instance', p.storage⟩

/-- An instance is added to what is used. -/
def addInstance (d : Amounts) (i : Instance) : Amounts :=
  let d := if isRunning i.status then
    { d with cpu := d.cpu + i.cpus, memory := d.memory + i.memory }
    else d
  let d := { d with instance' := d.instance' + 1 }
  { d with storage := i.storages.foldl (· + ·) d.storage }

/-- `get_resource_used`. -/
def getResourceUsed (p : UserProfile) : Amounts := p.instances.foldl addInstance ⟨0, 0, 0, 0⟩

/-! ## The numbers -/

/-- A resource of this type is added to the number; the dates of the others are not compared. -/
def addSize (rtype now total : Int) (r : Resource) : Option Int := do
  if r.type = rtype then
    if ← r.valid now then return total + r.size
    else return total
  else return total

/-- The loop over the resources of a type, from the `total` of the profile. -/
def totalOf (rtype now total : Int) (l : List Resource) : Option Int :=
  l.foldlM (addSize rtype now) total

/-- The loop over the instances that run. -/
def usedOf (amount : Instance → Int) (l : List Instance) : Int :=
  l.foldl (fun used i => if isRunning i.status then used + amount i else used) 0

/-- `total - used if total > used else 0`. -/
def remainOf (total used : Int) : Int := if used < total then total - used else 0

/-- `cpu_remain`. -/
def cpuRemain (p : UserProfile) (now : Int) : Option Int :=
  (totalOf tCpu now p.cpu p.resources).map fun total =>
    remainOf total (usedOf Instance.cpus p.instances)

/-- `memory_remain`. -/
def memoryRemain (p : UserProfile) (now : Int) : Option Int :=
  (totalOf tMemory now p.memory p.resources).map fun total =>
    remainOf total (usedOf Instance.memory p.instances)

/-- `storage_remain`. -/
def storageRemain (p : UserProfile) (now : Int) : Option Int :=
  (totalOf tStorage now p.storage p.resources).map fun total =>
    remainOf total (p.instances.foldl (fun used i => i.storages.foldl (· + ·) used) 0)

/-- `instance_remain`. -/
def instanceRemain (p : UserProfile) (now : Int) : Option Int :=
  (totalOf tInstance now p.instance' p.resources).map fun total =>
    remainOf total p.instances.length

/-- What remains is what the two dictionaries leave, and never less than nothing. -/
def Agrees (p : UserProfile) (now : Int) : Prop :=
  ∃ total, getResourceTotal p now = some total ∧
    cpuRemain p now = some (max 0 (total.cpu - (getResourceUsed p).cpu)) ∧
    memoryRemain p now = some (max 0 (total.memory - (getResourceUsed p).memory)) ∧
    storageRemain p now = some (max 0 (total.storage - (getResourceUsed p).storage)) ∧
    instanceRemain p now = some (max 0 (total.instance' - (getResourceUsed p).instance'))

/-! ## Loops over the resources -/

/-- The resource has the dates that are looked at. -/
def Resource.Dated (r : Resource) (now : Int) : Prop :=
  ∃ effectDate, r.effectDate = some effectDate ∧ (effectDate < now → r.expiredDate ≠ none)

theorem valid_iff_dated {r : Resource} {now : Int} : (∃ b, r.valid now = some b) ↔ r.Dated now := by
  unfold Resource.valid Resource.Dated
  cases r.effectDate with
  | none => simp
  | some effectDate =>
    by_cases h : effectDate < now
    · cases r.expiredDate <;> simp [h]
    · simp [h]

section

variable {σ : Type} {step : σ → Resource → Option σ} {l : List Resource} {now : Int}

/-- A loop that compares the dates of every resource gets through if and only if all have them. -/
theorem foldlM_dated (hstep : ∀ s r, (∃ t, step s r = some t) ↔ r.Dated now) (s : σ) :
    (∃ t, l.foldlM step s = some t) ↔ ∀ r ∈ l, r.Dated now := by
  induction l generalizing s with
  | nil => simp
  | cons r l ih =>
    rw [List.foldlM_cons, List.forall_mem_cons, ← hstep s r]
    cases step s r with
    | none => simp
    | some t => simp [ih t]

/-- A number that the steps of a loop change by itself is the result of a loop of its own. -/
theorem foldlM_field {step' : Int → Resource → Option Int} (field : σ → Int)
    (h : ∀ r ∈ l, ∀ s, (step s r).map field = step' (field s) r) (s : σ) :
    (l.foldlM step s).map field = l.foldlM step' (field s) := by
  induction l generalizing s with
  | nil => rfl
  | cons r l ih =>
    have hr := h r List.mem_cons_self s
    rw [List.foldlM_cons, List.foldlM_cons, ← hr]
    cases step s r with
    | none => rfl
    | some t => exact ih (fun r' hr' => h r' (List.mem_cons_of_mem _ hr')) t

end

theorem addResource_dated (now : Int) (d : Amounts) (r : Resource) :
    (∃ t, addResource now d r = some t) ↔ r.Dated now := by
  rw [← valid_iff_dated]
  unfold addResource
  cases r.valid now with
  | none => simp
  | some b =>
    refine iff_of_true ?_ ⟨b, rfl⟩
    simp only [Option.bind_eq_bind, Option.bind_some]
    repeat' split
    all_goals exact ⟨_, rfl⟩

/-- The types are told apart, so each part of the dictionary has its own. -/
theorem addResource_fields {now : Int} {r : Resource} (h : r.Dated now) (d : Amounts) :
    (addResource now d r).map Amounts.cpu = addSize tCpu now d.cpu r ∧
    (addResource now d r).map Amounts.memory = addSize tMemory now d.memory r ∧
    (addResource now d r).map Amounts.storage = addSize tStorage now d.storage r ∧
    (addResource now d r).map Amounts.instance' = addSize tInstance now d.instance' r := by
  obtain ⟨b, hb⟩ := valid_iff_dated.mpr h
  unfold addResource addSize
  rw [hb]
  cases b with
  | false => simp
  | true =>
    by_cases hc : r.type = tCpu
    · simp [hc, tCpu, tMemory, tStorage, tInstance]
    · by_cases hm : r.type = tMemory
      · simp [hm, tCpu, tMemory, tStorage, tInstance]
      · by_cases hs : r.type = tStorage
        · simp [hs, tCpu, tMemory, tStorage, tInstance]
        · by_cases hi : r.type = tInstance
          · simp [hi, tCpu, tMemory, tStorage, tInstance]
          · simp [hc, hm, hs, hi]

theorem getResourceTotal_fields {p : UserProfile} {now : Int} (h : ∀ r ∈ p.resources, r.Dated now) :
    (getResourceTotal p now).map Amounts.cpu = totalOf tCpu now p.cpu p.resources ∧
    (getResourceTotal p now).map Amounts.memory = totalOf tMemory now p.memory p.resources ∧
    (getResourceTotal p now).map Amounts.storage = totalOf tStorage now p.storage p.resources ∧
    (getResourceTotal p now).map Amounts.instance' =
      totalOf tInstance now p.instance' p.resources := by
  have hf := fun r hr => addResource_fields (h r hr)
  exact ⟨foldlM_field Amounts.cpu (fun r hr d => (hf r hr d).1) _,
    foldlM_field Amounts.memory (fun r hr d => (hf r hr d).2.1) _,
    foldlM_field Amounts.storage (fun r hr d => (hf r hr d).2.2.1) _,
    foldlM_field Amounts.instance' (fun r hr d => (hf r hr d).2.2.2) _⟩

/-! ## Loops over the instances -/

theorem foldl_field {α : Type} {step : Amounts → α → Amounts} {step' : Int → α → Int}
    (field : Amounts → Int) (h : ∀ d a, field (step d a) = step' (field d) a) (l : List α)
    (d : Amounts) : field (l.foldl step d) = l.foldl step' (field d) := by
  induction l generalizing d with
  | nil => rfl
  | cons a l ih => rw [List.foldl_cons, List.foldl_cons, ih, h]

theorem addInstance_fields (d : Amounts) (i : Instance) :
    (addInstance d i).cpu = (if isRunning i.status then d.cpu + i.cpus else d.cpu) ∧
    (addInstance d i).memory = (if isRunning i.status then d.memory + i.memory else d.memory) ∧
    (addInstance d i).storage = i.storages.foldl (· + ·) d.storage ∧
    (addInstance d i).instance' = d.instance' + 1 := by
  unfold addInstance
  by_cases h : isRunning i.status = true <;> simp [h]

theorem foldl_count {α : Type} (l : List α) (n : Int) :
    l.foldl (fun m _ => m + 1) n = n + l.length := by
  induction l generalizing n with
  | nil => simp
  | cons a l ih =>
    rw [List.foldl_cons, ih, List.length_cons]
    omega

theorem getResourceUsed_fields (p : UserProfile) :
    (getResourceUsed p).cpu = usedOf Instance.cpus p.instances ∧
    (getResourceUsed p).memory = usedOf Instance.memory p.instances ∧
    (getResourceUsed p).storage =
      p.instances.foldl (fun used i => i.storages.foldl (· + ·) used) 0 ∧
    (getResourceUsed p).instance' = p.instances.length := by
  have h := addInstance_fields
  have hcount : (getResourceUsed p).instance' = p.instances.foldl (fun m _ => m + 1) 0 :=
    foldl_field Amounts.instance' (fun d i => (h d i).2.2.2) _ _
  rw [foldl_count, Int.zero_add] at hcount
  exact ⟨foldl_field Amounts.cpu (fun d i => (h d i).1) _ _,
    foldl_field Amounts.memory (fun d i => (h d i).2.1) _ _,
    foldl_field Amounts.storage (fun d i => (h d i).2.2.1) _ _, hcount⟩

/-! ## What remains -/

theorem remainOf_eq (total used : Int) : remainOf total used = max 0 (total - used) := by
  unfold remainOf
  split <;> omega

/-- **What remains agrees with the dictionaries** if and only if every resource has an effect date,
and an expiry date where the effect date is past. -/
theorem remain_agrees_iff (p : UserProfile) (now : Int) :
    Agrees p now ↔ ∀ r ∈ p.resources, r.Dated now := by
  have hloop : (∃ t, getResourceTotal p now = some t) ↔ ∀ r ∈ p.resources, r.Dated now :=
    foldlM_dated (addResource_dated now) _
  constructor
  · rintro ⟨total, htotal, -⟩
    exact hloop.mp ⟨total, htotal⟩
  · intro h
    obtain ⟨total, htotal⟩ := hloop.mpr h
    obtain ⟨htc, htm, hts, hti⟩ := getResourceTotal_fields h
    obtain ⟨huc, hum, hus, hui⟩ := getResourceUsed_fields p
    rw [htotal, Option.map_some] at htc htm hts hti
    refine ⟨total, htotal, ?_, ?_, ?_, ?_⟩
    · rw [cpuRemain, ← htc, Option.map_some, remainOf_eq, huc]
    · rw [memoryRemain, ← htm, Option.map_some, remainOf_eq, hum]
    · rw [storageRemain, ← hts, Option.map_some, remainOf_eq, hus]
    · rw [instanceRemain, ← hti, Option.map_some, remainOf_eq, hui]

/-- A user with four cores and a storage resource that was saved without its dates. -/
def undated : UserProfile where
  cpu := 4
  memory := 1024
  storage := 10
  instance' := 3
  resources := [⟨tStorage, 20, none, none⟩]

/-- The total is not computed, although four cores remain. -/
theorem undated_disagrees : getResourceTotal undated 1400000000 = none ∧
    cpuRemain undated 1400000000 = some 4 ∧ ¬ ∀ p now, Agrees p now := by
  refine ⟨by decide, by decide, fun h => ?_⟩
  obtain ⟨total, htotal, -⟩ := h undated 1400000000
  cases htotal

end LuoYun.Web.Account

import LuoYun.Lib.Machine
import LuoYun.Web.Network
import Mathlib.Data.List.Perm.Basic

/-!
# Who is reached through a port mapping

A port mapping and its rule come and go together in `PortMappingAdd` and `PortMappingDelete`. The
two requests that take an address away from an instance do not keep them together: `NetworkDelete`
leaves the mapping and the rule behind, `InstanceDelete` frees the mapping and leaves the rule
behind.
-/

namespace LuoYun.Web

namespace NetDb

/-- The address with this id. -/
def addr (db : NetDb) (ip : Int) : Option Bytes := (db.ips.find? (·.id = ip)).map IPPool.ip

/-- The rule that belongs to a port mapping: none if it is not bound. -/
def ruleOf (db : NetDb) (m : PortMapping) : Option Rule :=
  m.ipId.bind fun ip => m.ipPort.bind fun port => (db.addr ip).bind fun a =>
    (db.gateways.find? (·.id = m.gatewayId)).map fun g =>
      ⟨some g.ip, some m.gatewayPort, some (a, port)⟩

/-- The rules the program has installed: those to an address of a pool. -/
def toPool (db : NetDb) (r : Rule) : Bool :=
  r.destination.any fun d => (db.ips.map IPPool.ip).contains d.1

/-- The end of a port mapping that is bound. -/
def boundTo (m : PortMapping) : Option (Int × Int) :=
  m.ipId.bind fun ip => m.ipPort.map fun port => (ip, port)

end NetDb

open NetDb

/-- What the columns of the tables promise: the primary keys, unique addresses, the foreign keys,
and that a mapping has an address if and only if it has a port. -/
structure Tables (db : NetDb) : Prop where
  ips : (db.ips.map IPPool.id).Nodup
  addrs : (db.ips.map IPPool.ip).Nodup
  mappings : (db.mappings.map PortMapping.id).Nodup
  gateway : ∀ m ∈ db.mappings, ∃ g ∈ db.gateways, g.id = m.gatewayId
  both : ∀ m ∈ db.mappings, m.ipId.isSome = m.ipPort.isSome
  /-- `PortMappingForm.validate_port`. -/
  ends : (db.mappings.filterMap boundTo).Nodup

/-- A bound mapping leads to an address that is assigned, and there is one rule for each. -/
structure Forwarded (db : NetDb) : Prop where
  assigned : ∀ m ∈ db.mappings, ∀ ip, m.ipId = some ip →
    ∃ x ∈ db.ips, x.id = ip ∧ x.instanceId ≠ none
  rules : (db.chain.filter db.toPool).Perm (db.mappings.filterMap db.ruleOf)

/-! ## Addresses and rules -/

variable {db db' : NetDb}

theorem Tables.ip_unique (h : Tables db) {x y : IPPool} (hx : x ∈ db.ips) (hy : y ∈ db.ips)
    (he : x.id = y.id) : x = y := List.inj_on_of_nodup_map h.ips hx hy he

theorem Tables.addr_unique (h : Tables db) {x y : IPPool} (hx : x ∈ db.ips) (hy : y ∈ db.ips)
    (he : x.ip = y.ip) : x = y := List.inj_on_of_nodup_map h.addrs hx hy he

theorem ruleOf_spec {m : PortMapping} {r : Rule} (h : db.ruleOf m = some r) :
    ∃ x ∈ db.ips, ∃ port, m.ipId = some x.id ∧ m.ipPort = some port ∧
      r.destination = some (x.ip, port) := by
  obtain ⟨ip, hip, h⟩ := Option.bind_eq_some_iff.mp h
  obtain ⟨port, hport, h⟩ := Option.bind_eq_some_iff.mp h
  obtain ⟨a, ha, h⟩ := Option.bind_eq_some_iff.mp h
  obtain ⟨g, hg, rfl⟩ := Option.map_eq_some_iff.mp h
  obtain ⟨x, hx, rfl⟩ := Option.map_eq_some_iff.mp ha
  have hid : x.id = ip := by simpa using List.find?_some hx
  exact ⟨x, List.mem_of_find?_eq_some hx, port, hid ▸ hip, hport, rfl⟩

theorem ruleOf_eq (ht : Tables db) {m : PortMapping} {x : IPPool} {port : Int} {g : Gateway}
    (hx : x ∈ db.ips) (hip : m.ipId = some x.id) (hport : m.ipPort = some port)
    (hg : db.gateways.find? (·.id = m.gatewayId) = some g) :
    db.ruleOf m = some ⟨some g.ip, some m.gatewayPort, some (x.ip, port)⟩ := by
  have ha : db.addr x.id = some x.ip := by
    rw [addr, Table.find?_key ht.ips hx, Option.map_some]
  rw [ruleOf, hip, Option.bind_some, hport, Option.bind_some, ha, Option.bind_some, hg,
    Option.map_some]

theorem ruleOf_unbound {m : PortMapping} (h : m.ipId = none) : db.ruleOf m = none := by
  rw [ruleOf, h, Option.bind_none]

theorem toPool_iff {r : Rule} {a : Bytes} {port : Int} (h : r.destination = some (a, port)) :
    db.toPool r = true ↔ ∃ x ∈ db.ips, x.ip = a := by
  rw [toPool, h, Option.any_some, List.contains_iff_mem, List.mem_map]

/-- A rule to an address of a pool belongs to a mapping that is bound to this address. -/
theorem mapping_of_rule (ht : Tables db) (h : Forwarded db) {r : Rule} {x : IPPool} {port : Int}
    (hr : r ∈ db.chain) (hx : x ∈ db.ips) (hd : r.destination = some (x.ip, port)) :
    ∃ m ∈ db.mappings, m.ipId = some x.id ∧ m.ipPort = some port := by
  have hpool : r ∈ db.chain.filter db.toPool :=
    List.mem_filter.mpr ⟨hr, (toPool_iff hd).mpr ⟨x, hx, rfl⟩⟩
  obtain ⟨m, hm, hrule⟩ := List.mem_filterMap.mp (h.rules.mem_iff.mp hpool)
  obtain ⟨y, hy, port', hip, hport, hd'⟩ := ruleOf_spec hrule
  obtain ⟨hip', rfl⟩ := Prod.mk.inj (Option.some.inj (hd.symm.trans hd'))
  obtain rfl := ht.addr_unique hx hy hip'
  exact ⟨m, hm, hip, hport⟩

/-- No rule leads to an address that is free. -/
theorem free_unreachable (ht : Tables db) (h : Forwarded db) {x : IPPool} (hx : x ∈ db.ips)
    (hfree : x.instanceId = none) : ∀ r ∈ db.chain, ∀ port, r.destination ≠ some (x.ip, port) := by
  intro r hr port hd
  obtain ⟨m, hm, hip, _⟩ := mapping_of_rule ht h hr hx hd
  obtain ⟨y, hy, hid, hne⟩ := h.assigned m hm x.id hip
  obtain rfl := ht.ip_unique hy hx hid
  exact hne hfree

/-! ## Addresses change hands -/

/-- A change of the owners: the addresses and the gateways are what they were. -/
structure Reowned (f : IPPool → IPPool) (db db' : NetDb) : Prop where
  id : ∀ x, (f x).id = x.id
  ip : ∀ x, (f x).ip = x.ip
  ips : db'.ips = db.ips.map f
  gateways : db'.gateways = db.gateways

namespace Reowned

variable {f : IPPool → IPPool}

theorem map_id (h : Reowned f db db') : db'.ips.map IPPool.id = db.ips.map IPPool.id := by
  have hcomp : IPPool.id ∘ f = IPPool.id := funext h.id
  rw [h.ips, List.map_map, hcomp]

theorem map_ip (h : Reowned f db db') : db'.ips.map IPPool.ip = db.ips.map IPPool.ip := by
  have hcomp : IPPool.ip ∘ f = IPPool.ip := funext h.ip
  rw [h.ips, List.map_map, hcomp]

theorem addr (h : Reowned f db db') : db'.addr = db.addr := by
  funext ip
  have hkey : (fun x : IPPool => decide (x.id = ip)) ∘ f = fun x => decide (x.id = ip) := by
    funext x
    exact congrArg (fun k => decide (k = ip)) (h.id x)
  have hcomp : IPPool.ip ∘ f = IPPool.ip := funext h.ip
  rw [NetDb.addr, NetDb.addr, h.ips, List.find?_map, hkey, Option.map_map, hcomp]

theorem ruleOf (h : Reowned f db db') : db'.ruleOf = db.ruleOf := by
  funext m
  rw [NetDb.ruleOf, NetDb.ruleOf, h.addr, h.gateways]

theorem toPool (h : Reowned f db db') : db'.toPool = db.toPool := by
  funext r
  rw [NetDb.toPool, NetDb.toPool, h.map_ip]

/-- If the mappings are what they were, too, the tables are sound. -/
theorem tables (h : Reowned f db db') (hm : db'.mappings = db.mappings) (ht : Tables db) :
    Tables db' where
  ips := h.map_id ▸ ht.ips
  addrs := h.map_ip ▸ ht.addrs
  mappings := hm ▸ ht.mappings
  gateway := by
    rw [hm, h.gateways]
    exact ht.gateway
  both := by
    rw [hm]
    exact ht.both
  ends := hm ▸ ht.ends

/-- If neither the mappings nor the rules change, it is left to see that no address that is in use
loses its owner. -/
theorem forwarded_iff (h : Reowned f db db') (hm : db'.mappings = db.mappings)
    (hc : db'.chain = db.chain) (ht : Tables db) (hf : Forwarded db) :
    Forwarded db' ↔ ∀ m ∈ db.mappings, ∀ x ∈ db.ips, m.ipId = some x.id →
      (f x).instanceId ≠ none := by
  constructor
  · intro hf' m hmem x hx hip
    obtain ⟨y, hy, hid, hne⟩ := hf'.assigned m (hm ▸ hmem) x.id hip
    obtain ⟨z, hz, rfl⟩ := List.mem_map.mp (h.ips ▸ hy)
    obtain rfl := ht.ip_unique hz hx ((h.id z).symm.trans hid)
    exact hne
  · intro hkeep
    refine ⟨?_, ?_⟩
    · intro m hmem ip hip
      rw [hm] at hmem
      obtain ⟨x, hx, rfl, hne⟩ := hf.assigned m hmem ip hip
      refine ⟨f x, ?_, h.id x, hkeep m hmem x hx hip⟩
      rw [h.ips]
      exact List.mem_map_of_mem hx
    · rw [hc, hm, h.ruleOf, h.toPool]
      exact hf.rules

end Reowned

theorem reowned_assign (db : NetDb) (ip : Int) (inst : Option Int) :
    Reowned (fun x => if x.id = ip then { x with instanceId := inst } else x) db
      (db.assign ip inst) where
  id := by
    intro x
    split <;> rfl
  ip := by
    intro x
    split <;> rfl
  ips := rfl
  gateways := rfl

theorem networkAdd_kept (ht : Tables db) (hf : Forwarded db) (user inst network : Int) :
    Tables (db.networkAdd user inst network) ∧ Forwarded (db.networkAdd user inst network) := by
  unfold networkAdd
  split
  · exact ⟨ht, hf⟩
  split
  · exact ⟨ht, hf⟩
  split
  · exact ⟨ht, hf⟩
  rename_i i _ _ _ x hx
  have hre := reowned_assign db x.id (some i.id)
  refine ⟨hre.tables rfl ht, (hre.forwarded_iff rfl rfl ht hf).mpr ?_⟩
  intro m hm y hy hip
  split
  · exact Option.some_ne_none _
  · obtain ⟨z, hz, hid, hne⟩ := hf.assigned m hm y.id hip
    obtain rfl := ht.ip_unique hz hy hid
    exact hne

/-- `NetworkDelete` looks at no mapping. -/
theorem networkDelete_tables (ht : Tables db) (user ip : Int) :
    Tables (db.networkDelete user ip) := by
  unfold networkDelete
  split
  · exact ht
  · exact (reowned_assign db _ none).tables rfl ht

theorem networkDelete_forwarded (ht : Tables db) (hf : Forwarded db) (user ip : Int) :
    Forwarded (db.networkDelete user ip) ↔
      ∀ x, db.myIp user ip = some x → ∀ m ∈ db.mappings, m.ipId ≠ some x.id := by
  unfold networkDelete
  cases hx : db.myIp user ip with
  | none => exact ⟨fun _ x hx' => absurd hx' (by simp), fun _ => hf⟩
  | some x =>
    have hmem : x ∈ db.ips := List.mem_of_find?_eq_some (Option.filter_eq_some_iff.mp hx).1
    refine ((reowned_assign db x.id none).forwarded_iff rfl rfl ht hf).trans ?_
    constructor
    · intro hkeep y hy m hm hip
      obtain rfl := Option.some.inj hy
      refine hkeep m hm x hmem hip ?_
      rw [if_pos rfl]
    · intro hnone m hm y hy hip
      have hother : y.id ≠ x.id := by
        intro he
        exact hnone x rfl m hm (he ▸ hip)
      rw [if_neg hother]
      obtain ⟨z, hz, hid, hne⟩ := hf.assigned m hm y.id hip
      obtain rfl := ht.ip_unique hz hy hid
      exact hne

/-! ## Port mappings come and go -/

theorem boundTo_eq_some {m : PortMapping} {ip port : Int} :
    boundTo m = some (ip, port) ↔ m.ipId = some ip ∧ m.ipPort = some port := by
  rw [boundTo, Option.bind_eq_some_iff]
  constructor
  · rintro ⟨ip', hip, h⟩
    obtain ⟨port', hport, he⟩ := Option.map_eq_some_iff.mp h
    obtain ⟨rfl, rfl⟩ := Prod.mk.inj he
    exact ⟨hip, hport⟩
  · rintro ⟨hip, hport⟩
    exact ⟨ip, hip, by rw [hport, Option.map_some]⟩

/-- Binding the mapping `m` changes the tables there and nowhere else. -/
theorem tables_bind (ht : Tables db) {m : PortMapping} (hm : m ∈ db.mappings)
    {dest : Option (Int × Int)} (hnew : ∀ d ∈ dest, d ∉ db.mappings.filterMap boundTo) :
    Tables (db.bind m.id dest) := by
  have hkeep : ∀ y : PortMapping,
      PortMapping.id { y with ipId := dest.map Prod.fst, ipPort := dest.map Prod.snd } = y.id :=
    fun _ => rfl
  obtain ⟨a, b, hab⟩ := Table.exists_around ht.mappings hm
  have heq : (db.bind m.id dest).mappings =
      a ++ { m with ipId := dest.map Prod.fst, ipPort := dest.map Prod.snd } :: b :=
    Table.update_around hab _
  have hdest : boundTo { m with ipId := dest.map Prod.fst, ipPort := dest.map Prod.snd } =
    dest := by
    cases dest <;> rfl
  have hcases : ∀ y ∈ (db.bind m.id dest).mappings,
      y = { m with ipId := dest.map Prod.fst, ipPort := dest.map Prod.snd } ∨ y ∈ db.mappings := by
    intro y hy
    rw [heq, List.mem_append, List.mem_cons] at hy
    rcases hy with hya | rfl | hyb
    · exact .inr (hab.sublist.subset (List.mem_append_left _ hya))
    · exact .inl rfl
    · exact .inr (hab.sublist.subset (List.mem_append_right _ hyb))
  refine ⟨ht.ips, ht.addrs, ?_, ?_, ?_, ?_⟩
  · rw [NetDb.bind, Table.map_key_update hkeep]
    exact ht.mappings
  · intro y hy
    rcases hcases y hy with rfl | hy'
    · exact ht.gateway m hm
    · exact ht.gateway y hy'
  · intro y hy
    rcases hcases y hy with rfl | hy'
    · cases dest <;> rfl
    · exact ht.both y hy'
  · -- the new end is in no other mapping
    have hsub : ((a ++ b).filterMap boundTo).Nodup := ht.ends.sublist (hab.sublist.filterMap _)
    rw [heq, List.filterMap_append, List.filterMap_cons, hdest]
    rw [List.filterMap_append] at hsub
    cases dest with
    | none => exact hsub
    | some d =>
      dsimp only
      refine (List.perm_middle.nodup_iff).mpr (List.nodup_cons.mpr ⟨?_, hsub⟩)
      intro hd
      rw [← List.filterMap_append] at hd
      obtain ⟨y, hy, hyd⟩ := List.mem_filterMap.mp hd
      exact hnew d rfl (List.mem_filterMap.mpr ⟨y, hab.sublist.subset hy, hyd⟩)

/-- What a request for a port finds: a mapping that is free, and an address of an instance to which
no mapping leads on this port. -/
theorem portMappingAdd_cases (db : NetDb) (user inst ip port total : Int) :
    db.portMappingAdd user inst ip port total = db ∨
      ∃ g m x, db.gateways.head? = some g ∧ m ∈ db.mappings ∧ m.gatewayId = g.id ∧ m.ipId = none ∧
        x ∈ db.ips ∧ x.instanceId ≠ none ∧ (x.id, port) ∉ db.mappings.filterMap boundTo ∧
        db.portMappingAdd user inst ip port total =
          { db.bind m.id (some (x.id, port)) with
            chain := ruleAdd db.chain g.ip m.gatewayPort x.ip port } := by
  unfold portMappingAdd
  split
  · rename_i g i hg hi
    split
    · exact .inl rfl
    · split
      · rename_i x m hx hm
        obtain ⟨hfind, hok⟩ := Option.filter_eq_some_iff.mp hx
        have hid : x.id = ip := by simpa using List.find?_some hfind
        have hfree : m.gatewayId = g.id ∧ ¬ (m.ipPort.isSome ∨ m.ipId.isSome) := by
          simpa using List.find?_some hm
        have hok' : x.instanceId = some i.id ∧ 20 ≤ port ∧ port ≤ 65535 ∧
            ¬ (db.mappings.any fun m => m.ipId = some ip ∧ m.ipPort = some port) = true := by
          simpa using hok
        refine .inr ⟨g, m, x, hg, List.mem_of_find?_eq_some hm, hfree.1, ?_,
          List.mem_of_find?_eq_some hfind, ?_, ?_, rfl⟩
        · cases hip : m.ipId with
          | none => rfl
          | some k => exact absurd (.inr (by rw [hip]; rfl)) hfree.2
        · rw [hok'.1]
          exact Option.some_ne_none _
        · intro hmem
          obtain ⟨y, hy, hyd⟩ := List.mem_filterMap.mp hmem
          obtain ⟨h1, h2⟩ := boundTo_eq_some.mp hyd
          refine hok'.2.2.2 (List.any_eq_true.mpr ⟨y, hy, ?_⟩)
          rw [← hid, h1, h2]
          simp
      · exact .inl rfl
  · exact .inl rfl

theorem portMappingAdd_kept (ht : Tables db) (hf : Forwarded db) (user inst ip port total : Int) :
    Tables (db.portMappingAdd user inst ip port total) ∧
      Forwarded (db.portMappingAdd user inst ip port total) := by
  obtain he | ⟨g, m, x, hg, hm, hgw, hfree, hx, hown, hnew, he⟩ :=
    portMappingAdd_cases db user inst ip port total
  · rw [he]
    exact ⟨ht, hf⟩
  rw [he]
  have htab : Tables (db.bind m.id (some (x.id, port))) := by
    refine tables_bind ht hm ?_
    intro d hd
    obtain rfl := Option.some.inj hd
    exact hnew
  refine ⟨⟨htab.ips, htab.addrs, htab.mappings, htab.gateway, htab.both, htab.ends⟩, ?_⟩
  obtain ⟨a, b, hab⟩ := Table.exists_around ht.mappings hm
  have heq : (db.bind m.id (some (x.id, port))).mappings =
      a ++ { m with ipId := some x.id, ipPort := some port } :: b := Table.update_around hab _
  -- no rule leads to this port of the address yet
  have hadd : ruleAdd db.chain g.ip m.gatewayPort x.ip port =
      ⟨some g.ip, some m.gatewayPort, some (x.ip, port)⟩ :: db.chain := by
    refine if_neg ?_
    intro hex
    obtain ⟨r, hr, hd⟩ := List.any_eq_true.mp hex
    obtain ⟨y, hy, hip, hport⟩ := mapping_of_rule ht hf hr hx (of_decide_eq_true hd)
    exact hnew (List.mem_filterMap.mpr ⟨y, hy, boundTo_eq_some.mpr ⟨hip, hport⟩⟩)
  have hgate : db.gateways.find? (·.id = m.gatewayId) = some g := by
    obtain ⟨gs, hgs⟩ := List.head?_eq_some_iff.mp hg
    rw [hgs, List.find?_cons_of_pos (by simpa using hgw.symm)]
  have hrule : db.ruleOf { m with ipId := some x.id, ipPort := some port } =
      some ⟨some g.ip, some m.gatewayPort, some (x.ip, port)⟩ :=
    ruleOf_eq ht hx rfl rfl hgate
  refine ⟨?_, ?_⟩
  · intro y hy k hk
    have hy' : y ∈ a ++ { m with ipId := some x.id, ipPort := some port } :: b := heq ▸ hy
    rw [List.mem_append, List.mem_cons] at hy'
    rcases hy' with hya | rfl | hyb
    · exact hf.assigned y (hab.sublist.subset (List.mem_append_left _ hya)) k hk
    · exact ⟨x, hx, Option.some.inj hk, hown⟩
    · exact hf.assigned y (hab.sublist.subset (List.mem_append_right _ hyb)) k hk
  · show ((ruleAdd db.chain g.ip m.gatewayPort x.ip port).filter db.toPool).Perm
      ((db.bind m.id (some (x.id, port))).mappings.filterMap db.ruleOf)
    have hpool : db.toPool ⟨some g.ip, some m.gatewayPort, some (x.ip, port)⟩ = true :=
      (toPool_iff rfl).mpr ⟨x, hx, rfl⟩
    have hrules := hf.rules
    rw [hab.eq, List.filterMap_append, List.filterMap_cons_none (ruleOf_unbound hfree)] at hrules
    rw [hadd, List.filter_cons_of_pos hpool, heq, List.filterMap_append,
      List.filterMap_cons_some hrule]
    exact (hrules.cons _).trans List.perm_middle.symm

theorem portMappingDelete_cases (db : NetDb) (user inst mapping : Int) :
    db.portMappingDelete user inst mapping = db ∨
      ∃ m x port, m ∈ db.mappings ∧ x ∈ db.ips ∧ m.ipId = some x.id ∧ m.ipPort = some port ∧
        db.portMappingDelete user inst mapping =
          { db.bind m.id none with chain := deleteByDestination db.chain x.ip port } := by
  unfold portMappingDelete
  split
  · rename_i i m hi hm
    split
    · rename_i x port hx hport
      obtain ⟨ip, hip, hfind⟩ := Option.bind_eq_some_iff.mp hx
      have hid : x.id = ip := by simpa using List.find?_some hfind
      have hmem : x ∈ db.ips := (List.mem_filter.mp (List.mem_of_find?_eq_some hfind)).1
      exact .inr ⟨m, x, port, List.mem_of_find?_eq_some hm, hmem, hid ▸ hip, hport, rfl⟩
    · exact .inl rfl
  · exact .inl rfl

/-- The rules of different mappings lead to different ends. -/
theorem rules_apart (ht : Tables db) (d : Bytes × Int) :
    (db.mappings.filterMap db.ruleOf).Pairwise fun r r' =>
      decide (r.destination = some d) = true → decide (r'.destination = some d) = true → False := by
  refine List.pairwise_filterMap.mpr ((List.pairwise_filterMap.mp ht.ends).imp ?_)
  intro m m' hapart r hr r' hr' hd hd'
  obtain ⟨x, hx, port, hip, hport, hdest⟩ := ruleOf_spec hr
  obtain ⟨x', hx', port', hip', hport', hdest'⟩ := ruleOf_spec hr'
  have hsame : (x.ip, port) = (x'.ip, port') := by
    rw [← Option.some.injEq, ← hdest, ← hdest', of_decide_eq_true hd, of_decide_eq_true hd']
  obtain ⟨hx2, rfl⟩ := Prod.mk.inj hsame
  obtain rfl := ht.addr_unique hx hx' hx2
  exact hapart _ (boundTo_eq_some.mpr ⟨hip, hport⟩) _ (boundTo_eq_some.mpr ⟨hip', hport'⟩) rfl

theorem portMappingDelete_kept (ht : Tables db) (hf : Forwarded db) (user inst mapping : Int) :
    Tables (db.portMappingDelete user inst mapping) ∧
      Forwarded (db.portMappingDelete user inst mapping) := by
  obtain he | ⟨m, x, port, hm, hx, hip, hport, he⟩ := portMappingDelete_cases db user inst mapping
  · rw [he]
    exact ⟨ht, hf⟩
  rw [he]
  have htab : Tables (db.bind m.id none) := tables_bind ht hm (by simp)
  refine ⟨⟨htab.ips, htab.addrs, htab.mappings, htab.gateway, htab.both, htab.ends⟩, ?_⟩
  obtain ⟨a, b, hab⟩ := Table.exists_around ht.mappings hm
  have heq : (db.bind m.id none).mappings = a ++ { m with ipId := none, ipPort := none } :: b :=
    Table.update_around hab _
  obtain ⟨g, hg⟩ : ∃ g, db.gateways.find? (·.id = m.gatewayId) = some g := by
    obtain ⟨g, hmem, hid⟩ := ht.gateway m hm
    exact Option.isSome_iff_exists.mp (List.find?_isSome.mpr ⟨g, hmem, by simpa using hid⟩)
  have hrule := ruleOf_eq ht hx hip hport hg
  refine ⟨?_, ?_⟩
  · intro y hy k hk
    have hy' : y ∈ a ++ { m with ipId := none, ipPort := none } :: b := heq ▸ hy
    rw [List.mem_append, List.mem_cons] at hy'
    rcases hy' with hya | rfl | hyb
    · exact hf.assigned y (hab.sublist.subset (List.mem_append_left _ hya)) k hk
    · cases hk
    · exact hf.assigned y (hab.sublist.subset (List.mem_append_right _ hyb)) k hk
  · show ((deleteByDestination db.chain x.ip port).filter db.toPool).Perm
      ((db.bind m.id none).mappings.filterMap db.ruleOf)
    -- the first rule to this end is the only one, and it is the rule of `m`
    have hcomm : (deleteByDestination db.chain x.ip port).filter db.toPool =
        (db.chain.filter db.toPool).eraseP fun r => r.destination = some (x.ip, port) := by
      rw [List.eraseP_filter, deleteByDestination]
      congr 2
      funext r
      by_cases hd : r.destination = some (x.ip, port)
      · rw [(toPool_iff hd).mpr ⟨x, hx, rfl⟩, Bool.and_true]
      · rw [decide_eq_false hd, Bool.false_and]
    have hapart := rules_apart ht (x.ip, port)
    have hperm := (hf.rules.symm.eraseP _ hapart).symm
    rw [hab.eq, List.filterMap_append, List.filterMap_cons_some hrule] at hapart hperm
    rw [List.eraseP_append_right, List.eraseP_cons_of_pos (by simp)] at hperm
    · rw [hcomm, heq, List.filterMap_append, List.filterMap_cons_none (ruleOf_unbound rfl)]
      exact hperm
    · intro r hr hd
      exact (List.pairwise_append.mp hapart).2.2 r hr _ List.mem_cons_self hd (by simp)

/-! ## An instance is deleted -/

theorem freeMapping_of_mem {ips : List IPPool} {m : PortMapping} {x : IPPool} (hx : x ∈ ips)
    (hip : m.ipId = some x.id) : freeMapping ips m = { m with ipId := none, ipPort := none } := by
  refine if_pos ?_
  rw [hip, Option.any_some]
  exact List.any_eq_true.mpr ⟨x, hx, by simp⟩

theorem freeMapping_of_not {ips : List IPPool} {m : PortMapping}
    (h : ∀ x ∈ ips, m.ipId ≠ some x.id) :
    freeMapping ips m = m := by
  refine if_neg ?_
  intro hany
  obtain ⟨ip, hip, hex⟩ := (Option.any_eq_true _ _).mp hany
  obtain ⟨x, hx, he⟩ := List.any_eq_true.mp hex
  obtain rfl : x.id = ip := of_decide_eq_true he
  exact h x hx hip

theorem freeMapping_cases (ips : List IPPool) (m : PortMapping) :
    freeMapping ips m = { m with ipId := none, ipPort := none } ∨
      freeMapping ips m = m ∧ ∀ x ∈ ips, m.ipId ≠ some x.id := by
  by_cases h : ∃ x ∈ ips, m.ipId = some x.id
  · obtain ⟨x, hx, hip⟩ := h
    exact .inl (freeMapping_of_mem hx hip)
  · have hnot : ∀ x ∈ ips, m.ipId ≠ some x.id := fun x hx hip => h ⟨x, hx, hip⟩
    exact .inr ⟨freeMapping_of_not hnot, hnot⟩

theorem boundTo_freed (ips : List IPPool) (l : List PortMapping) :
    ((l.map (freeMapping ips)).filterMap boundTo).Sublist (l.filterMap boundTo) := by
  induction l with
  | nil => exact List.Sublist.refl _
  | cons m l ih =>
    rw [List.map_cons, List.filterMap_cons, List.filterMap_cons]
    rcases freeMapping_cases ips m with he | ⟨he, _⟩
    · rw [he]
      have hnone : boundTo { m with ipId := none, ipPort := none } = none := rfl
      rw [hnone]
      cases boundTo m with
      | none => exact ih
      | some d => exact ih.cons d
    · rw [he]
      cases boundTo m with
      | none => exact ih
      | some d => exact ih.cons_cons d

theorem freeIp_id (inst : Int) (x : IPPool) : (freeIp inst x).id = x.id := by
  unfold freeIp
  split <;> rfl

theorem freeIp_ip (inst : Int) (x : IPPool) : (freeIp inst x).ip = x.ip := by
  unfold freeIp
  split <;> rfl

/-- The deletion of the instance `i`, with the tables as it leaves them. -/
theorem instanceDelete_tables (ht : Tables db) (user : Int) (admin : Bool) (inst : Int) :
    Tables (db.instanceDelete user admin inst) := by
  unfold instanceDelete
  split
  · exact ht
  split
  · exact ht
  rename_i i _ _
  have hre : Reowned (freeIp i.id) db { db with ips := db.ips.map (freeIp i.id) } :=
    ⟨freeIp_id i.id, freeIp_ip i.id, rfl, rfl⟩
  have hre' := hre.tables rfl ht
  have hid : PortMapping.id ∘ freeMapping (db.ipsOf i.id) = PortMapping.id := by
    funext m
    rw [Function.comp]
    rcases freeMapping_cases (db.ipsOf i.id) m with he | ⟨he, _⟩ <;> rw [he]
  refine ⟨hre'.ips, hre'.addrs, ?_, ?_, ?_, ?_⟩
  · dsimp only
    rw [List.map_map, hid]
    exact ht.mappings
  · intro y hy
    obtain ⟨m, hm, rfl⟩ := List.mem_map.mp hy
    rcases freeMapping_cases (db.ipsOf i.id) m with he | ⟨he, _⟩ <;> rw [he] <;>
      exact ht.gateway m hm
  · intro y hy
    obtain ⟨m, hm, rfl⟩ := List.mem_map.mp hy
    rcases freeMapping_cases (db.ipsOf i.id) m with he | ⟨he, _⟩ <;> rw [he]
    exact ht.both m hm
  · exact ht.ends.sublist (boundTo_freed _ _)

/-- `InstanceDelete` takes no rule out of the chain. -/
theorem instanceDelete_forwarded (ht : Tables db) (hf : Forwarded db) (user : Int) (admin : Bool)
    (inst : Int) : Forwarded (db.instanceDelete user admin inst) ↔
      ∀ i, instanceById db.instances user admin inst = some i → isRunning i.status = true ∨
        ∀ x ∈ db.ipsOf i.id, ∀ m ∈ db.mappings, m.ipId ≠ some x.id := by
  unfold instanceDelete
  cases hi : instanceById db.instances user admin inst with
  | none => exact ⟨fun _ i hi' => absurd hi' (by simp), fun _ => hf⟩
  | some i =>
    dsimp only
    by_cases hrun : isRunning i.status = true
    · rw [if_pos hrun]
      refine ⟨fun _ j hj => ?_, fun _ => hf⟩
      obtain rfl := Option.some.inj hj
      exact .inl hrun
    rw [if_neg hrun]
    have hre : Reowned (freeIp i.id) db
        { db with
          instances := Table.update InstanceRef.id i.id (fun j => { j with status := deletedS })
            db.instances
          mappings := db.mappings.map (freeMapping (db.ipsOf i.id))
          ips := db.ips.map (freeIp i.id) } := ⟨freeIp_id i.id, freeIp_ip i.id, rfl, rfl⟩
    constructor
    · intro hf' j hj
      obtain rfl := Option.some.inj hj
      refine .inr fun x hx m hm hip => ?_
      -- the rule of `m` is still there, and no mapping is left that it could belong to
      have hxmem : x ∈ db.ips := (List.mem_filter.mp hx).1
      obtain ⟨port, hport⟩ : ∃ port, m.ipPort = some port := by
        refine Option.isSome_iff_exists.mp ?_
        rw [← ht.both m hm, hip]
        rfl
      obtain ⟨g, hg⟩ : ∃ g, db.gateways.find? (·.id = m.gatewayId) = some g := by
        obtain ⟨g, hmem, hid⟩ := ht.gateway m hm
        exact Option.isSome_iff_exists.mp (List.find?_isSome.mpr ⟨g, hmem, by simpa using hid⟩)
      have hrule := ruleOf_eq ht hxmem hip hport hg
      have hin := hf.rules.mem_iff.mpr (List.mem_filterMap.mpr ⟨m, hm, hrule⟩)
      have hrules := hf'.rules
      rw [hre.ruleOf, hre.toPool] at hrules
      obtain ⟨y, hy, hyrule⟩ := List.mem_filterMap.mp (hrules.mem_iff.mp hin)
      obtain ⟨m', hm', rfl⟩ := List.mem_map.mp hy
      obtain ⟨x', hx', port', hip', _, hd'⟩ := ruleOf_spec hyrule
      obtain ⟨haddr, _⟩ := Prod.mk.inj (Option.some.inj hd')
      obtain rfl := ht.addr_unique hxmem hx' haddr
      rcases freeMapping_cases (db.ipsOf i.id) m' with he | ⟨he, hnot⟩
      · rw [he] at hip'
        cases hip'
      · rw [he] at hip'
        exact hnot x hx hip'
    · intro hnone
      have hfree := (hnone i rfl).resolve_left hrun
      have hsame : db.mappings.map (freeMapping (db.ipsOf i.id)) = db.mappings := by
        have hid : ∀ m ∈ db.mappings, freeMapping (db.ipsOf i.id) m = id m := fun m hm =>
          freeMapping_of_not fun x hx => hfree x hx m hm
        rw [List.map_congr_left hid, List.map_id]
      refine (hre.forwarded_iff hsame rfl ht hf).mpr ?_
      intro m hm x hx hip
      have hother : x.instanceId ≠ some i.id := by
        intro he
        exact hfree x (List.mem_filter.mpr ⟨hx, by simpa using he⟩) m hm hip
      rw [freeIp, if_neg hother]
      obtain ⟨z, hz, hid, hne⟩ := hf.assigned m hm x.id hip
      obtain rfl := ht.ip_unique hz hx hid
      exact hne

/-! ## Runs -/

/-- The requests that take no address away from under a port mapping: the form of the condition
depends on how the request names the address. -/
def Released (db : NetDb) : NetRequest → Prop
  | .networkDelete user ip => ∀ x, db.myIp user ip = some x → ∀ m ∈ db.mappings, m.ipId ≠ some x.id
  | .instanceDelete user admin inst => ∀ i, instanceById db.instances user admin inst = some i →
      isRunning i.status = true ∨ ∀ x ∈ db.ipsOf i.id, ∀ m ∈ db.mappings, m.ipId ≠ some x.id
  | _ => True

theorem next_tables (ht : Tables db) (hf : Forwarded db) {r : NetRequest}
    (hn : db.next r = some (.ok db')) : Tables db' := by
  cases r with
  | networkAdd user inst network =>
    obtain rfl := Except.ok.inj (Option.some.inj hn)
    exact (networkAdd_kept ht hf user inst network).1
  | networkDelete user ip =>
    obtain rfl := Except.ok.inj (Option.some.inj hn)
    exact networkDelete_tables ht user ip
  | portMappingAdd user inst ip port total =>
    obtain rfl := Except.ok.inj (Option.some.inj hn)
    exact (portMappingAdd_kept ht hf user inst ip port total).1
  | portMappingDelete user inst mapping =>
    obtain rfl := Except.ok.inj (Option.some.inj hn)
    exact (portMappingDelete_kept ht hf user inst mapping).1
  | instanceDelete user admin inst =>
    obtain rfl := Except.ok.inj (Option.some.inj hn)
    exact instanceDelete_tables ht user admin inst

theorem next_forwarded (ht : Tables db) (hf : Forwarded db) {r : NetRequest}
    (hn : db.next r = some (.ok db')) : Forwarded db' ↔ Released db r := by
  cases r with
  | networkAdd user inst network =>
    obtain rfl := Except.ok.inj (Option.some.inj hn)
    exact iff_of_true (networkAdd_kept ht hf user inst network).2 trivial
  | networkDelete user ip =>
    obtain rfl := Except.ok.inj (Option.some.inj hn)
    exact networkDelete_forwarded ht hf user ip
  | portMappingAdd user inst ip port total =>
    obtain rfl := Except.ok.inj (Option.some.inj hn)
    exact iff_of_true (portMappingAdd_kept ht hf user inst ip port total).2 trivial
  | portMappingDelete user inst mapping =>
    obtain rfl := Except.ok.inj (Option.some.inj hn)
    exact iff_of_true (portMappingDelete_kept ht hf user inst mapping).2 trivial
  | instanceDelete user admin inst =>
    obtain rfl := Except.ok.inj (Option.some.inj hn)
    exact instanceDelete_forwarded ht hf user admin inst

/-- Nothing is bound yet: no mapping, and no rule to an address of a pool. -/
structure Unbound (db : NetDb) : Prop where
  tables : Tables db
  mappings : ∀ m ∈ db.mappings, m.ipId = none
  chain : ∀ r ∈ db.chain, db.toPool r = false

theorem Unbound.forwarded (h : Unbound db) : Forwarded db := by
  refine ⟨?_, ?_⟩
  · intro m hm ip hip
    exact absurd ((h.mappings m hm).symm.trans hip) (by simp)
  · have hchain : db.chain.filter db.toPool = [] :=
      List.filter_eq_nil_iff.mpr fun r hr => by rw [h.chain r hr]; exact Bool.false_ne_true
    have hrules : db.mappings.filterMap db.ruleOf = [] :=
      List.filterMap_eq_nil_iff.mpr fun m hm => ruleOf_unbound (h.mappings m hm)
    rw [hchain, hrules]

/-- **As long as no address is taken away from under a port mapping**, mappings and rules agree, no
rule leads to an address that is free to be handed out, and the next request keeps it so if and only
if it takes none away either. -/
theorem port_forwarding (h : Machine.Reach NetDb.next Released Unbound db) :
    Forwarded db ∧
      (∀ x ∈ db.ips, x.instanceId = none →
        ∀ r ∈ db.chain, ∀ port, r.destination ≠ some (x.ip, port)) ∧
      ∀ (r : NetRequest) (db' : NetDb), db.next r = some (.ok db') →
        (Forwarded db' ↔ Released db r) := by
  have hdb : Tables db ∧ Forwarded db := by
    refine h.inv (I := fun db => Tables db ∧ Forwarded db)
      (fun _ h0 => ⟨h0.tables, h0.forwarded⟩) ?_
    intro s r t ⟨hts, hfs⟩ hq hn
    exact ⟨next_tables hts hfs hn, (next_forwarded hts hfs hn).mpr hq⟩
  obtain ⟨ht, hf⟩ := hdb
  exact ⟨hf, fun x hx hfree => free_unreachable ht hf hx hfree,
    fun r db' hn => next_forwarded ht hf hn⟩

/-- One address, one port of the gateway, and two users with an instance each. -/
def NetDb.oneAddress : NetDb where
  networks := [1]
  ips := [⟨1, [49], 1, none⟩]
  gateways := [⟨1, [50]⟩]
  mappings := [⟨1, 2000, 1, none, none⟩]
  instances := [⟨7, 3, 2⟩, ⟨8, 4, 2⟩]

theorem oneAddress_unbound : Unbound .oneAddress := by
  refine ⟨⟨by decide, by decide, by decide, ?_, ?_, by decide⟩, ?_, ?_⟩
  · intro m hm
    obtain rfl := List.mem_singleton.mp hm
    exact ⟨_, List.mem_singleton_self _, rfl⟩
  · intro m hm
    obtain rfl := List.mem_singleton.mp hm
    rfl
  · intro m hm
    obtain rfl := List.mem_singleton.mp hm
    rfl
  · intro r hr
    cases hr

/-- The address is given to the first instance, and its port 22 is mapped. -/
def NetDb.oneBound : NetDb where
  networks := [1]
  ips := [⟨1, [49], 1, some 7⟩]
  gateways := [⟨1, [50]⟩]
  mappings := [⟨1, 2000, 1, some 22, some 1⟩]
  instances := [⟨7, 3, 2⟩, ⟨8, 4, 2⟩]
  chain := [⟨some [50], some 2000, some ([49], 22)⟩]

theorem oneBound_run : Machine.exec NetDb.next [.networkAdd 3 7 1, .portMappingAdd 3 7 1 22 5]
    .oneAddress = some .oneBound := by decide

/-- To add addresses and ports is always safe. -/
theorem port_forwarding_bound : Forwarded .oneBound := by
  refine (port_forwarding ((Machine.Reach.of_init oneAddress_unbound).of_exec ?_ oneBound_run)).1
  intro r hr db
  rcases List.mem_pair.mp hr with rfl | rfl <;> exact trivial

/-- When the network is deleted, the mapping still leads to the address that is now free. -/
theorem port_forwarding_stale :
    ¬ ∀ db, Machine.Reach NetDb.next Machine.Always Unbound db → Forwarded db := by
  intro hall
  have hrun : Machine.exec NetDb.next
      [.networkAdd 3 7 1, .portMappingAdd 3 7 1 22 5, .networkDelete 3 1] .oneAddress =
        some { NetDb.oneBound with ips := [⟨1, [49], 1, none⟩] } := by
    decide
  have hbad :=
    hall _ ((Machine.Reach.of_init oneAddress_unbound).of_exec (fun _ _ _ => trivial) hrun)
  obtain ⟨x, hx, _, hne⟩ := hbad.assigned _ List.mem_cons_self 1 rfl
  obtain rfl := List.mem_singleton.mp hx
  exact hne rfl

end LuoYun.Web

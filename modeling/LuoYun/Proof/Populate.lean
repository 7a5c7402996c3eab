import LuoYun.Web.Populate
import Mathlib.Data.List.Sort
import Mathlib.Data.List.Nodup

/-!
# What the pools of networks and gateways are filled with

Both loops add a row for each member of a list that has none. For addresses that is the right list
if `exclude_ips`, in which an address is looked for as a text, has no address in it by accident: in
`10.0.0.10` there is `10.0.0.1`. For ports it lacks the last one, and those that another gateway
has.
-/

namespace LuoYun.Web

/-! ## Addresses -/

section

variable {α : Type} [LinearOrder α] {ipy : IPy α} {N : NetworkPool}

/-- An address of the network, from the first one to the last. -/
def InRange (ipy : IPy α) (N : NetworkPool) (x : α) : Prop :=
  ∃ start last l, ipy.parse N.start = some start ∧ ipy.parse N.last = some last ∧
    ipy.network N.network = some l ∧ x ∈ l ∧ start ≤ x ∧ x ≤ last

/-- An address that the administrator has listed. -/
def Listed (ipy : IPy α) (N : NetworkPool) (x : α) : Prop :=
  ∃ w ∈ split N.excludeIps, ipy.parse w = some x

/-- The pool has got the addresses of the network that are not listed and were not there, once each,
and nothing else has changed. -/
def ExactPool (ipy : IPy α) (N : NetworkPool) (pool pool' : List IPPool) : Prop :=
  ∃ added, pool' = pool ++ added ∧ (added.map IPPool.ip).Nodup ∧
    ∀ a, a ∈ added.map IPPool.ip ↔
      a ∉ pool.map IPPool.ip ∧ ∃ x, InRange ipy N x ∧ ¬ Listed ipy N x ∧ a = ipy.strNormal x

/-- What the loop looks for rows of. -/
def candidates (ipy : IPy α) (N : NetworkPool) (start last : α) (l : List α) : List α :=
  (l.takeWhile (· ≤ last)).filter fun x => start ≤ x ∧ ¬ occurs (ipy.strNormal x) N.excludeIps

/-- In increasing order, what stands before the first greater one is what is not greater. -/
theorem takeWhile_le {l : List α} (h : l.Pairwise (· < ·)) (last : α) :
    l.takeWhile (· ≤ last) = l.filter (· ≤ last) := by
  induction l with
  | nil => rfl
  | cons x l ih =>
    obtain ⟨hx, hl⟩ := List.pairwise_cons.mp h
    by_cases hle : x ≤ last
    · rw [List.takeWhile_cons_of_pos (by simpa using hle),
        List.filter_cons_of_pos (by simpa using hle), ih hl]
    · have hrest : l.filter (· ≤ last) = [] := by
        refine List.filter_eq_nil_iff.mpr ?_
        intro y hy hle'
        exact hle ((hx y hy).le.trans (of_decide_eq_true hle'))
      rw [List.takeWhile_cons_of_neg (by simpa using hle),
        List.filter_cons_of_neg (by simpa using hle), hrest]

theorem mem_candidates {l : List α} (h : l.Pairwise (· < ·)) {start last x : α} :
    x ∈ candidates ipy N start last l ↔
      x ∈ l ∧ start ≤ x ∧ x ≤ last ∧ ¬ occurs (ipy.strNormal x) N.excludeIps = true := by
  rw [candidates, takeWhile_le h, List.mem_filter, List.mem_filter, decide_eq_true_eq,
    decide_eq_true_eq]
  constructor
  · rintro ⟨⟨hx, hle⟩, hs, ho⟩
    exact ⟨hx, hs, hle, ho⟩
  · rintro ⟨hx, hs, hle, ho⟩
    exact ⟨⟨hx, hle⟩, hs, ho⟩

theorem ippoolLoop_eq (ipy : IPy α) (N : NetworkPool) (start last : α) (l : List α)
    (t : List IPPool × Int) :
    ippoolLoop ipy N start last l t =
      ((candidates ipy N start last l).map ipy.strNormal).foldl
        (Table.insertNew IPPool.ip (newIp N.id)) t := by
  induction l generalizing t with
  | nil => rfl
  | cons x l ih =>
    rw [ippoolLoop]
    by_cases hlast : last < x
    · rw [if_pos hlast, candidates, List.takeWhile_cons_of_neg (by simpa using hlast)]
      rfl
    · rw [if_neg hlast, candidates, List.takeWhile_cons_of_pos (by simpa using hlast)]
      by_cases hx : start ≤ x ∧ ¬ occurs (ipy.strNormal x) N.excludeIps = true
      · rw [if_pos hx, ih, List.filter_cons, if_pos (decide_eq_true hx)]
        rfl
      · rw [if_neg hx, ih, List.filter_cons, if_neg fun hd => hx (of_decide_eq_true hd)]
        rfl

/-- What `add_to_ippool` adds. -/
theorem addToIppool_spec (h : ipy.Lawful) {t t' : List IPPool × Int}
    (hadd : addToIppool ipy N t = some t') :
    ∃ added, t'.1 = t.1 ++ added ∧ (added.map IPPool.ip).Nodup ∧
      ∀ a, a ∈ added.map IPPool.ip ↔ a ∉ t.1.map IPPool.ip ∧
        ∃ x, InRange ipy N x ∧ ¬ occurs (ipy.strNormal x) N.excludeIps = true ∧
          a = ipy.strNormal x := by
  unfold addToIppool at hadd
  obtain ⟨start, hstart, hadd⟩ := Option.bind_eq_some_iff.mp hadd
  obtain ⟨last, hlast, hadd⟩ := Option.bind_eq_some_iff.mp hadd
  obtain ⟨l, hl, hadd⟩ := Option.bind_eq_some_iff.mp hadd
  rw [← Option.some.inj hadd, ippoolLoop_eq]
  have hsorted := h.increasing _ l hl
  have hnodup : ((candidates ipy N start last l).map ipy.strNormal).Nodup := by
    refine List.Nodup.map (fun x y => h.injective x y) ?_
    rw [candidates, takeWhile_le hsorted]
    exact (hsorted.imp fun hlt => ne_of_lt hlt).filter _ |>.filter _
  have hmake : ∀ n k, IPPool.ip (newIp N.id n k) = k := fun _ _ => rfl
  obtain ⟨added, heq, hadded, hkeys, -⟩ := Table.foldl_insertNew hmake hnodup t
  refine ⟨added, heq, hadded, ?_⟩
  intro a
  rw [hkeys, List.mem_map]
  constructor
  · rintro ⟨⟨x, hx, rfl⟩, ha⟩
    obtain ⟨hx, hs, hle, ho⟩ := (mem_candidates hsorted).mp hx
    exact ⟨ha, x, ⟨start, last, l, hstart, hlast, hl, hx, hs, hle⟩, ho, rfl⟩
  · rintro ⟨ha, x, ⟨s, e, l', hs, he, hl', hx, hsx, hxe⟩, ho, rfl⟩
    rw [hstart, Option.some.injEq] at hs
    rw [hlast, Option.some.injEq] at he
    rw [hl, Option.some.injEq] at hl'
    subst hs he hl'
    exact ⟨⟨x, (mem_candidates hsorted).mpr ⟨hx, hsx, hxe, ho⟩, rfl⟩, ha⟩

/-- **The pool is filled exactly if no address of the network is found in the text `exclude_ips` but
those that are listed there**, the ones that are in the pool already apart. -/
theorem exactPool_iff (ipy : IPy α) (h : ipy.Lawful) (N : NetworkPool) (t t' : List IPPool × Int)
    (hadd : addToIppool ipy N t = some t') :
    ExactPool ipy N t.1 t'.1 ↔
      ∀ x, InRange ipy N x → ipy.strNormal x ∉ t.1.map IPPool.ip →
        (occurs (ipy.strNormal x) N.excludeIps = true ↔ Listed ipy N x) := by
  obtain ⟨added, heq, hnodup, hmem⟩ := addToIppool_spec h hadd
  constructor
  · rintro ⟨added', heq', -, hmem'⟩ x hx hnew
    have hsame : added' = added := List.append_cancel_left (heq'.symm.trans heq)
    subst hsame
    have hone := hmem (ipy.strNormal x)
    rw [hmem' (ipy.strNormal x)] at hone
    have hiff : ¬ Listed ipy N x ↔ ¬ occurs (ipy.strNormal x) N.excludeIps = true := by
      constructor
      · intro hl
        obtain ⟨-, y, -, ho, he⟩ := hone.mp ⟨hnew, x, hx, hl, rfl⟩
        rw [h.injective x y he]
        exact ho
      · intro ho
        obtain ⟨-, y, -, hl, he⟩ := hone.mpr ⟨hnew, x, hx, ho, rfl⟩
        rw [h.injective x y he]
        exact hl
    exact (not_iff_not.mp hiff).symm
  · intro hcond
    refine ⟨added, heq, hnodup, ?_⟩
    intro a
    rw [hmem]
    constructor
    · rintro ⟨ha, x, hx, ho, rfl⟩
      exact ⟨ha, x, hx, fun hl => ho ((hcond x hx ha).mpr hl), rfl⟩
    · rintro ⟨ha, x, hx, hl, rfl⟩
      exact ⟨ha, x, hx, fun ho => hl ((hcond x hx ha).mp ho), rfl⟩

end

/-- The text of an IPv4 address. -/
def quadText (n : Nat) : Bytes :=
  decNat (n / 2 ^ 24) ++ 46 :: (decNat (n / 2 ^ 16 % 256) ++ 46 ::
    (decNat (n / 2 ^ 8 % 256) ++ 46 :: decNat (n % 256)))

/-- IPy on the texts that are used below. -/
def ipyV4 : IPy Nat where
  parse text :=
    if text = cstr "10.0.0.1" then some 167772161
    else if text = cstr "10.0.0.2" then some 167772162
    else if text = cstr "10.0.0.3" then some 167772163
    else if text = cstr "10.0.0.10" then some 167772170
    else none
  network text :=
    if text = cstr "10.0.0.1/255.255.255.252" then some [167772160, 167772161, 167772162, 167772163]
    else none
  strNormal := quadText

theorem decNat_injective {m n : Nat} (h : decNat m = decNat n) : m = n := by
  rw [← digitsVal_decNat m, ← digitsVal_decNat n, h]

theorem decNat_no_dot (n : Nat) : (46 : UInt8) ∉ decNat n := fun h =>
  absurd (decNat_isDigit n 46 h) (by decide)

/-- A text is cut at its first dot. -/
theorem dot_inj {a b r r' : Bytes} (ha : (46 : UInt8) ∉ a) (hb : (46 : UInt8) ∉ b)
    (h : a ++ 46 :: r = b ++ 46 :: r') : a = b ∧ r = r' := by
  induction a generalizing b with
  | nil =>
    cases b with
    | nil => exact ⟨rfl, (List.cons.inj h).2⟩
    | cons y b => exact absurd ((List.cons.inj h).1 ▸ List.mem_cons_self) hb
  | cons x a ih =>
    cases b with
    | nil => exact absurd ((List.cons.inj h).1 ▸ List.mem_cons_self) ha
    | cons y b =>
      obtain ⟨hx, h⟩ := List.cons.inj h
      obtain ⟨hab, hr⟩ := ih (fun hm => ha (List.mem_cons_of_mem _ hm))
        (fun hm => hb (List.mem_cons_of_mem _ hm)) h
      exact ⟨by rw [hx, hab], hr⟩

theorem quadText_injective {m n : Nat} (h : quadText m = quadText n) : m = n := by
  have hdot : ∀ {a b : Nat} {r r' : Bytes}, decNat a ++ 46 :: r = decNat b ++ 46 :: r' →
      a = b ∧ r = r' := by
    intro a b r r' he
    obtain ⟨ha, hr⟩ := dot_inj (decNat_no_dot a) (decNat_no_dot b) he
    exact ⟨decNat_injective ha, hr⟩
  obtain ⟨h1, h⟩ := hdot h
  obtain ⟨h2, h⟩ := hdot h
  obtain ⟨h3, h⟩ := hdot h
  have h4 := decNat_injective h
  omega

theorem ipyV4_lawful : ipyV4.Lawful where
  increasing text l h := by
    unfold ipyV4 at h
    dsimp only at h
    split at h
    · cases h
      decide
    · cases h
  injective _ _ h := quadText_injective h

/-- The addresses of a small network, up to `last`. -/
def smallPool (last excludeIps : Bytes) : NetworkPool :=
  ⟨1, cstr "10.0.0.1", last, cstr "255.255.255.252", excludeIps⟩

/-- The pool has got `10.0.0.3`, which an instance uses. -/
def usedIp : IPPool := ⟨1, cstr "10.0.0.3", 1, some 7⟩

/-- Of three addresses one is used and one is listed. -/
theorem exactPool_small :
    addToIppool ipyV4 (smallPool (cstr "10.0.0.3") (cstr "10.0.0.2")) ([usedIp], 2) =
        some ([usedIp, newIp 1 2 (cstr "10.0.0.1")], 3) ∧
      ExactPool ipyV4 (smallPool (cstr "10.0.0.3") (cstr "10.0.0.2")) [usedIp]
        [usedIp, newIp 1 2 (cstr "10.0.0.1")] := by
  have hadd : addToIppool ipyV4 (smallPool (cstr "10.0.0.3") (cstr "10.0.0.2")) ([usedIp], 2) =
      some ([usedIp, newIp 1 2 (cstr "10.0.0.1")], 3) := by
    decide
  refine ⟨hadd, (exactPool_iff ipyV4 ipyV4_lawful _ _ _ hadd).mpr ?_⟩
  rintro x ⟨start, last, l, hstart, hlast, hl, hx, hs, hle⟩ -
  obtain rfl : 167772161 = start := Option.some.inj hstart
  obtain rfl : 167772163 = last := Option.some.inj hlast
  have hwords : split (smallPool (cstr "10.0.0.3") (cstr "10.0.0.2")).excludeIps =
      [cstr "10.0.0.2"] := by
    decide
  have hlisted : Listed ipyV4 (smallPool (cstr "10.0.0.3") (cstr "10.0.0.2")) x ↔
      x = 167772162 := by
    rw [Listed, hwords]
    refine ⟨?_, fun h => ⟨_, List.mem_singleton_self _, by rw [h]; rfl⟩⟩
    rintro ⟨w, hw, hp⟩
    rw [List.mem_singleton.mp hw] at hp
    exact (Option.some.inj hp).symm
  rw [hlisted]
  have hcases : x = 167772161 ∨ x = 167772162 ∨ x = 167772163 := by omega
  rcases hcases with rfl | rfl | rfl <;> decide

/-- With `10.0.0.10` listed, `10.0.0.1` is left out. -/
theorem exactPool_lost :
    ∃ t', addToIppool ipyV4 (smallPool (cstr "10.0.0.2") (cstr "10.0.0.10")) ([], 1) = some t' ∧
      t'.1.map IPPool.ip = [cstr "10.0.0.2"] ∧
      ¬ ExactPool ipyV4 (smallPool (cstr "10.0.0.2") (cstr "10.0.0.10")) [] t'.1 := by
  refine ⟨_, rfl, by decide, ?_⟩
  rintro ⟨added, heq, -, hmem⟩
  have hrange : InRange ipyV4 (smallPool (cstr "10.0.0.2") (cstr "10.0.0.10")) 167772161 :=
    ⟨167772161, 167772162, _, by decide, by decide, rfl, by decide, by decide, by decide⟩
  have hlisted : ¬ Listed ipyV4 (smallPool (cstr "10.0.0.2") (cstr "10.0.0.10")) 167772161 := by
    rintro ⟨w, hw, hp⟩
    have hwords : split (smallPool (cstr "10.0.0.2") (cstr "10.0.0.10")).excludeIps =
        [cstr "10.0.0.10"] := by decide
    rw [hwords, List.mem_singleton] at hw
    rw [hw] at hp
    exact absurd hp (by decide)
  have hin := (hmem (quadText 167772161)).mpr ⟨by simp, 167772161, hrange, hlisted, rfl⟩
  rw [List.nil_append] at heq
  rw [← heq] at hin
  exact absurd hin (by decide)

/-! ## Ports -/

/-- A port of the gateway, from the first one to the last, that is not listed. -/
def Wanted (G : GatewayConfig) (exclude : List Int) (p : Int) : Prop :=
  G.start ≤ p ∧ p ≤ G.last ∧ p ∉ exclude

/-- The rows that a gateway has for a port. -/
def rowsOf (rows : List PortMapping) (gateway p : Int) : List PortMapping :=
  rows.filter fun m => m.gatewayId = gateway ∧ m.gatewayPort = p

/-- The gateway has a row for each port that is wanted, and nothing else has changed. -/
structure Populated (G : GatewayConfig) (exclude : List Int)
    (rows rows' : List PortMapping) : Prop where
  owns : ∀ p, Wanted G exclude p → (rowsOf rows' G.id p).length = 1
  rest : ∀ p, ¬ Wanted G exclude p → rowsOf rows' G.id p = rowsOf rows G.id p
  others : ∀ g, g ≠ G.id →
    rows'.filter (fun m => m.gatewayId = g) = rows.filter (fun m => m.gatewayId = g)

/-- No other gateway has a port that is wanted, and the last port is not wanted or there already. -/
structure Unclaimed (G : GatewayConfig) (exclude : List Int) (rows : List PortMapping) : Prop where
  ports : ∀ m ∈ rows, Wanted G exclude m.gatewayPort → m.gatewayId = G.id
  last : Wanted G exclude G.last → ∃ m ∈ rows, m.gatewayId = G.id ∧ m.gatewayPort = G.last

/-- No port stands in the table twice, whichever gateway has it. -/
def DistinctPorts (rows : List PortMapping) : Prop := (rows.map PortMapping.gatewayPort).Nodup

variable {G : GatewayConfig} {exclude : List Int}

theorem foldl_addPort (gateway : Int) (exclude l : List Int) (t : List PortMapping × Int) :
    l.foldl (addPort gateway exclude) t =
      (l.filter fun p => p ∉ exclude).foldl
        (Table.insertNew PortMapping.gatewayPort (newPort gateway)) t := by
  induction l generalizing t with
  | nil => rfl
  | cons p l ih =>
    rw [List.foldl_cons, addPort]
    by_cases hp : p ∈ exclude
    · rw [if_pos hp, ih, List.filter_cons, if_neg (by simpa using hp)]
    · rw [if_neg hp, ih, List.filter_cons, if_pos (by simpa using hp), List.foldl_cons]

/-- What `add_to_portmapping` adds: the ports before the last one that no gateway has. -/
theorem addToPortmapping_spec (hex : G.exclude = some exclude) (t : List PortMapping × Int) :
    ∃ t' added, addToPortmapping G t = some t' ∧ t'.1 = t.1 ++ added ∧ DistinctPorts added ∧
      (∀ p, p ∈ added.map PortMapping.gatewayPort ↔
        (Wanted G exclude p ∧ p < G.last) ∧ p ∉ t.1.map PortMapping.gatewayPort) ∧
      ∀ m ∈ added, m.gatewayId = G.id := by
  have hnodup : ((range G.start G.last).filter fun p => p ∉ exclude).Nodup :=
    ((range_increasing G.start G.last).imp fun h => ne_of_lt h).filter _
  have hmake : ∀ n k, PortMapping.gatewayPort (newPort G.id n k) = k := fun _ _ => rfl
  obtain ⟨added, heq, hdistinct, hkeys, hrows⟩ := Table.foldl_insertNew hmake hnodup t
  refine ⟨_, added, ?_, heq, hdistinct, ?_, ?_⟩
  · rw [addToPortmapping, hex, Option.bind_eq_bind, Option.bind_some, foldl_addPort]
    rfl
  · intro p
    rw [hkeys, List.mem_filter, mem_range, decide_eq_true_eq, Wanted]
    refine and_congr_left fun _ => ?_
    constructor
    · rintro ⟨⟨hs, he⟩, hx⟩
      exact ⟨⟨hs, by omega, hx⟩, he⟩
    · rintro ⟨⟨hs, -, hx⟩, he⟩
      exact ⟨⟨hs, he⟩, hx⟩
  · intro m hm
    obtain ⟨n, hn⟩ := hrows m hm
    rw [hn]
    rfl

/-- One more configuration keeps the ports apart. -/
theorem distinctPorts_append {rows added : List PortMapping} (h : DistinctPorts rows)
    (hadded : DistinctPorts added)
    (hnew : ∀ p ∈ added.map PortMapping.gatewayPort, p ∉ rows.map PortMapping.gatewayPort) :
    DistinctPorts (rows ++ added) := by
  unfold DistinctPorts at *
  rw [List.map_append, List.nodup_append]
  refine ⟨h, hadded, ?_⟩
  intro p hp q hq he
  exact hnew q hq (he ▸ hp)

theorem PortEvent.after_distinct {t : List PortMapping × Int}
    (h : DistinctPorts t.1) (ev : PortEvent) :
    DistinctPorts (ev.after t).1 := by
  cases ev with
  | configure G =>
    rw [PortEvent.after]
    cases hex : G.exclude with
    | none =>
      rw [addToPortmapping, hex]
      exact h
    | some exclude =>
      obtain ⟨t', added, hadd, heq, hdistinct, hports, -⟩ := addToPortmapping_spec hex t
      rw [hadd, Option.getD_some, heq]
      exact distinctPorts_append h hdistinct fun p hp => ((hports p).mp hp).2
  | bind mapping dest =>
    have hsame : (PortEvent.after t (.bind mapping dest)).1.map PortMapping.gatewayPort =
        t.1.map PortMapping.gatewayPort := by
      rw [PortEvent.after, Table.update, List.map_map]
      refine List.map_congr_left fun m _ => ?_
      rw [Function.comp]
      split <;> rfl
    rw [DistinctPorts, hsame]
    exact h

theorem afterEvents_distinct (events : List PortEvent) : DistinctPorts (afterEvents events).1 := by
  have hrun : ∀ (events : List PortEvent) (t : List PortMapping × Int), DistinctPorts t.1 →
      DistinctPorts (events.foldl PortEvent.after t).1 := by
    intro events
    induction events with
    | nil => exact fun _ h => h
    | cons ev events ih => exact fun t h => ih _ (ev.after_distinct h)
  exact hrun events _ List.nodup_nil

theorem mem_rowsOf {rows : List PortMapping} {g p : Int} {m : PortMapping} :
    m ∈ rowsOf rows g p ↔ m ∈ rows ∧ m.gatewayId = g ∧ m.gatewayPort = p := by
  rw [rowsOf, List.mem_filter, decide_eq_true_eq]

/-- A gateway has one row for a port as soon as it has any. -/
theorem length_rowsOf {rows : List PortMapping} (h : DistinctPorts rows) {g p : Int} :
    (rowsOf rows g p).length = 1 ↔ ∃ m ∈ rows, m.gatewayId = g ∧ m.gatewayPort = p := by
  have hsub : ((rowsOf rows g p).map PortMapping.gatewayPort).Nodup :=
    h.sublist (List.filter_sublist.map _)
  have hall : (rowsOf rows g p).map PortMapping.gatewayPort =
      List.replicate (rowsOf rows g p).length p := by
    refine List.eq_replicate_iff.mpr ⟨List.length_map _, ?_⟩
    intro q hq
    obtain ⟨m, hm, rfl⟩ := List.mem_map.mp hq
    exact (mem_rowsOf.mp hm).2.2
  rw [hall, List.nodup_replicate] at hsub
  constructor
  · intro h1
    obtain ⟨m, hm⟩ := List.exists_mem_of_length_pos (by omega : 0 < (rowsOf rows g p).length)
    exact ⟨m, mem_rowsOf.mp hm⟩
  · rintro ⟨m, hm⟩
    have hpos := List.length_pos_of_mem (mem_rowsOf.mpr hm)
    omega

/-- **A gateway gets its ports exactly if no other gateway has one of them**, and if the last one is
not wanted or is there already. That holds after any configurations of any gateways. -/
theorem populated_iff (events : List PortEvent) (G : GatewayConfig) (exclude : List Int)
    (hex : G.exclude = some exclude) :
    ∃ t', addToPortmapping G (afterEvents events) = some t' ∧
      (Populated G exclude (afterEvents events).1 t'.1 ↔
        Unclaimed G exclude (afterEvents events).1) := by
  have hdistinct := afterEvents_distinct events
  generalize afterEvents events = t at *
  obtain ⟨t', added, hadd, heq, hadded, hports, hgateway⟩ := addToPortmapping_spec hex t
  have hdistinct' : DistinctPorts t'.1 := by
    rw [heq]
    exact distinctPorts_append hdistinct hadded fun p hp => ((hports p).mp hp).2
  refine ⟨t', hadd, ?_, ?_⟩
  · intro h
    refine ⟨?_, ?_⟩
    · intro m hm hw
      obtain ⟨m', hm', hg, hp⟩ := (length_rowsOf hdistinct').mp (h.owns _ hw)
      have hm'' : m ∈ t'.1 := by
        rw [heq]
        exact List.mem_append_left _ hm
      have hsame := List.inj_on_of_nodup_map hdistinct' hm'' hm' hp.symm
      rw [hsame, hg]
    · intro hw
      obtain ⟨m, hm, hg, hp⟩ := (length_rowsOf hdistinct').mp (h.owns _ hw)
      rw [heq, List.mem_append] at hm
      rcases hm with hm | hm
      · exact ⟨m, hm, hg, hp⟩
      -- the loop ends before the last port
      · have hlt := ((hports _).mp (List.mem_map_of_mem hm)).1.2
        omega
  · intro h
    refine ⟨?_, ?_, ?_⟩
    · intro p hw
      rw [length_rowsOf hdistinct', heq]
      by_cases hp : p ∈ t.1.map PortMapping.gatewayPort
      · obtain ⟨m, hm, rfl⟩ := List.mem_map.mp hp
        exact ⟨m, List.mem_append_left _ hm, h.ports m hm hw, rfl⟩
      · have hlt : p < G.last := by
          rcases lt_or_eq_of_le hw.2.1 with hlt | rfl
          · exact hlt
          · obtain ⟨m, hm, -, hml⟩ := h.last hw
            exact absurd (hml ▸ List.mem_map_of_mem hm) hp
        obtain ⟨m, hm, rfl⟩ := List.mem_map.mp ((hports p).mpr ⟨⟨hw, hlt⟩, hp⟩)
        exact ⟨m, List.mem_append_right _ hm, hgateway m hm, rfl⟩
    · intro p hw
      have hnone : rowsOf added G.id p = [] := by
        refine List.eq_nil_iff_forall_not_mem.mpr fun m hm => ?_
        obtain ⟨hm', -, rfl⟩ := mem_rowsOf.mp hm
        exact hw ((hports _).mp (List.mem_map_of_mem hm')).1.1
      rw [heq, rowsOf, List.filter_append, ← rowsOf, ← rowsOf, hnone, List.append_nil]
    · intro g hg
      have hnone : added.filter (fun m => m.gatewayId = g) = [] := by
        refine List.filter_eq_nil_iff.mpr fun m hm hd => hg ?_
        exact (of_decide_eq_true hd).symm.trans (hgateway m hm)
      rw [heq, List.filter_append, hnone, List.append_nil]

/-- Another gateway has its ports already, and one of them is bound. -/
def firstGateway : List PortEvent :=
  [.configure ⟨1, 10000, 10003, cstr "10001"⟩, .bind 1 (some (5, 22))]

/-- The ports behind those, up to 10006: the last one is listed. -/
theorem populated_listed :
    ∃ t', addToPortmapping ⟨2, 10003, 10006, cstr "10004 10006"⟩ (afterEvents firstGateway) =
      some t' ∧
      t'.1.map (fun m => (m.gatewayId, m.gatewayPort)) =
        [(1, 10000), (1, 10002), (2, 10003), (2, 10005)] ∧
      Populated ⟨2, 10003, 10006, cstr "10004 10006"⟩ [10004, 10006]
        (afterEvents firstGateway).1 t'.1 := by
  obtain ⟨t', hadd, hiff⟩ :=
    populated_iff firstGateway ⟨2, 10003, 10006, cstr "10004 10006"⟩ [10004, 10006]
    (by decide)
  have hrows :
      (addToPortmapping ⟨2, 10003, 10006, cstr "10004 10006"⟩ (afterEvents firstGateway)).map
      (fun t => t.1.map fun m => (m.gatewayId, m.gatewayPort)) =
        some [(1, 10000), (1, 10002), (2, 10003), (2, 10005)] := by
    decide
  refine ⟨t', hadd, ?_, hiff.mpr ⟨?_, ?_⟩⟩
  · rw [hadd] at hrows
    exact Option.some.inj hrows
  · have hports : ∀ m ∈ (afterEvents firstGateway).1, m.gatewayPort < 10003 := by decide
    intro m hm hw
    have hlt := hports m hm
    have hle : 10003 ≤ m.gatewayPort := hw.1
    omega
  · rintro ⟨-, -, hlisted⟩
    exact absurd (show (10006 : Int) ∈ [10004, 10006] by decide) hlisted

/-- Two gateways with the ports 10000 to 10002: the first one gets two of them, the second one none.
-/
theorem populated_fails :
    ∃ t', addToPortmapping ⟨2, 10000, 10002, []⟩ (afterEvents [.configure ⟨1, 10000, 10002, []⟩]) =
      some t' ∧
      t'.1.map (fun m => (m.gatewayId, m.gatewayPort)) = [(1, 10000), (1, 10001)] ∧
      ¬ Populated ⟨2, 10000, 10002, []⟩ []
        (afterEvents [.configure ⟨1, 10000, 10002, []⟩]).1 t'.1 := by
  refine ⟨_, rfl, by decide, ?_⟩
  intro h
  exact absurd (h.owns 10000 ⟨by decide, by decide, by decide⟩) (by decide)

end LuoYun.Web

import LuoYun.Web.Instance
import Mathlib.Data.Nat.Digits.Lemmas

/-!
# The network of an instance

`update_network` of `app/instance/models.py` writes one entry for each address of the instance into
its configuration, with the hardware address that the interface gets. That is made of the id of the
instance: two octets of it, and nothing of the interface.
-/

namespace LuoYun.Web

/-- A hexadecimal digit, as `%x` writes it. -/
def hexDigit (d : Nat) : UInt8 := if d < 10 then UInt8.ofNat (48 + d) else UInt8.ofNat (87 + d)

/-- The hexadecimal digits of a number. -/
def hexDigits (n : Nat) : Bytes := ((Nat.digits 16 n).map hexDigit).reverse

/-- `'%02x' % x`: two digits, or as many as there are. -/
def hex02 (x : Int) : Bytes :=
  if x < 0 then 45 :: hexDigits x.natAbs
  else List.replicate (2 - (hexDigits x.natAbs).length) 48 ++ hexDigits x.natAbs

/-- `Instance.mac`. -/
def mac (id : Int) : Bytes :=
  cstr "92:1B:40:26:" ++ hex02 (Int.fdiv id 256) ++ cstr ":" ++ hex02 (Int.fmod id 256)

/-- `IPPool`, with its `NetworkPool`. -/
structure InstanceIp where
  ip : Bytes
  netmask : Option Bytes := none
  gateway : Option Bytes := none
  nameservers : Option Bytes := none
  deriving DecidableEq, Repr

/-- An entry of `network`. Without an address there are only `mac` and `type`. -/
structure NetworkEntry where
  mac : Bytes
  type : Bytes := cstr "default"
  address : Option InstanceIp := none
  deriving DecidableEq, Repr

/-- The members of `domain` that are written here. -/
structure DomainConfig where
  ip : Option Bytes := none
  name : Option Bytes := none
  deriving DecidableEq, Repr

/-- `Instance`, with the parts of `config` that are written here. -/
structure NetworkInstance where
  id : Int
  status : Int := 1
  /-- `ips`. -/
  ips : List InstanceIp := []
  /-- The `domain` of the instance. -/
  domainName : Bytes := []
  network : List NetworkEntry := []
  nameservers : Bytes := []
  domain : DomainConfig := {}
  ischanged : Bool := false
  deriving DecidableEq, Repr

/-- The loop over the addresses. -/
def networkLoop (id : Int) (domainName : Bytes) :
    List InstanceIp → List NetworkEntry × Bytes × DomainConfig →
      List NetworkEntry × Bytes × DomainConfig
  | [], r => r
  | ip :: rest, (network, nameservers, domain) =>
    let nameservers :=
      match ip.nameservers with
      | none | some [] => nameservers
      | some ns => ns
    networkLoop id domainName rest
      (network ++ [{ mac := mac id, address := some ip }], nameservers,
        { domain with ip := some ip.ip, name := some domainName })

/-- `Instance.update_network`. -/
def updateNetwork (i : NetworkInstance) : NetworkInstance :=
  let (network, nameservers, domain) :=
    networkLoop i.id i.domainName i.ips ([], [], { i.domain with ip := some [] })
  let network := if i.ips.length ≤ 0 then network ++ [{ mac := mac i.id }] else network
  { i with
    network := network
    nameservers := nameservers
    domain := domain
    ischanged := i.ischanged || isRunning i.status }

/-! ## Hexadecimal numbers -/

/-- `0` to `9`, `a` to `f`, `A` to `F`. -/
def isHexDigit (b : UInt8) : Bool :=
  isDigit b || (decide (97 ≤ b) && decide (b ≤ 102)) || (decide (65 ≤ b) && decide (b ≤ 70))

/-- The value of a digit. -/
def hexVal (b : UInt8) : Nat := if b.toNat < 58 then b.toNat - 48 else b.toNat - 87

theorem hexDigit_facts : ∀ d < 16, isHexDigit (hexDigit d) = true ∧
    hexVal (hexDigit d) = d := by decide

theorem mem_hexDigits {n : Nat} {b : UInt8} (h : b ∈ hexDigits n) : isHexDigit b = true := by
  rw [hexDigits, List.mem_reverse, List.mem_map] at h
  obtain ⟨d, hd, rfl⟩ := h
  exact (hexDigit_facts d (Nat.digits_lt_base (by decide) hd)).1

/-- The digits read back, with zeros in front of them. -/
theorem ofDigits_hexDigits (k n : Nat) :
    Nat.ofDigits 16 ((List.replicate k 48 ++ hexDigits n).map hexVal).reverse = n := by
  have hval : (Nat.digits 16 n).map (hexVal ∘ hexDigit) = Nat.digits 16 n := by
    refine (List.map_congr_left ?_).trans (List.map_id _)
    intro d hd
    exact (hexDigit_facts d (Nat.digits_lt_base (by decide) hd)).2
  have hzero : hexVal 48 = 0 := by decide
  rw [List.map_append, List.reverse_append, List.map_replicate, hzero, List.reverse_replicate,
    hexDigits, List.map_reverse, List.reverse_reverse, List.map_map, hval,
    Nat.ofDigits_append_replicate_zero, Nat.ofDigits_digits]

theorem mem_hex02 {x : Int} {b : UInt8} (hx : 0 ≤ x) (h : b ∈ hex02 x) : isHexDigit b = true := by
  rw [hex02, if_neg (by omega), List.mem_append] at h
  rcases h with h | h
  · rw [List.eq_of_mem_replicate h]
    decide
  · exact mem_hexDigits h

/-- A number that fits has two digits, and no other one has. -/
theorem length_hex02 {x : Int} (hx : 0 ≤ x) : (hex02 x).length = 2 ↔ x < 256 := by
  have hlen : (hexDigits x.natAbs).length ≤ 2 ↔ x.natAbs < 16 ^ 2 := by
    rw [hexDigits, List.length_reverse, List.length_map]
    exact Nat.digits_length_le_iff (by decide) _
  have hpow : 16 ^ 2 = 256 := by decide
  rw [hpow] at hlen
  rw [hex02, if_neg (by omega), List.length_append, List.length_replicate]
  omega

/-- A minus is no digit. -/
theorem hex02_neg {x : Int} (hx : x < 0) : hex02 x = 45 :: hexDigits x.natAbs := if_pos hx

theorem hex02_injective {x y : Int} (h : hex02 x = hex02 y) : x = y := by
  have hminus : ∀ {x : Int}, 0 ≤ x → (45 : UInt8) ∉ hex02 x := fun hx hm =>
    absurd (mem_hex02 hx hm) (by decide)
  have hnat : x.natAbs = y.natAbs ∧ (x < 0 ↔ y < 0) := by
    rcases lt_or_ge x 0 with hx | hx <;> rcases lt_or_ge y 0 with hy | hy
    · rw [hex02_neg hx, hex02_neg hy, List.cons.injEq] at h
      have hd :=
        congrArg (fun s => Nat.ofDigits 16 ((List.replicate 0 48 ++ s).map hexVal).reverse) h.2
      rw [ofDigits_hexDigits, ofDigits_hexDigits] at hd
      exact ⟨hd, by omega⟩
    · exact absurd (h ▸ hex02_neg hx ▸ List.mem_cons_self) (hminus hy)
    · exact absurd (h ▸ hex02_neg hy ▸ List.mem_cons_self) (hminus hx)
    · rw [hex02, hex02, if_neg (by omega), if_neg (by omega)] at h
      have hd := congrArg (fun s => Nat.ofDigits 16 (s.map hexVal).reverse) h
      rw [ofDigits_hexDigits, ofDigits_hexDigits] at hd
      exact ⟨hd, by omega⟩
  omega

/-! ## Hardware addresses -/

/-- Six groups of two hexadecimal digits. -/
def ValidMac (m : Bytes) : Prop :=
  (splitColon m).length = 6 ∧ ∀ g ∈ splitColon m, g.length = 2 ∧ ∀ b ∈ g, isHexDigit b = true

/-- No digit is a colon, and the minus is none. -/
theorem hex02_no_colon {x : Int} {b : UInt8} (h : b ∈ hex02 x) : b ≠ 58 := by
  rintro rfl
  rcases lt_or_ge x 0 with hx | hx
  · rw [hex02_neg hx, List.mem_cons] at h
    rcases h with h | h
    · exact absurd h (by decide)
    · exact absurd (mem_hexDigits h) (by decide)
  · exact absurd (mem_hex02 hx h) (by decide)

/-- The groups of the address of an instance. -/
theorem splitColon_mac (id : Int) :
    splitColon (mac id) =
      [cstr "92", cstr "1B", cstr "40", cstr "26", hex02 (Int.fdiv id 256),
        hex02 (Int.fmod id 256)] := by
  have hsplit : mac id = cstr "92" ++ 58 :: (cstr "1B" ++ 58 :: (cstr "40" ++ 58 :: (cstr "26" ++
      58 :: (hex02 (Int.fdiv id 256) ++ 58 :: hex02 (Int.fmod id 256))))) := by
    have hhead : cstr "92:1B:40:26:" = cstr "92" ++ 58 :: (cstr "1B" ++ 58 :: (cstr "40" ++ 58 ::
        (cstr "26" ++ [58]))) := by decide
    have hcolon : cstr ":" = [58] := by decide
    rw [mac, hhead, hcolon]
    simp
  rw [hsplit, splitColon_colon _ (by decide +kernel), splitColon_colon _ (by decide +kernel),
    splitColon_colon _ (by decide +kernel), splitColon_colon _ (by decide +kernel),
    splitColon_colon _ fun b hb => hex02_no_colon hb, splitColon_last fun b hb => hex02_no_colon hb]

/-- **An address is valid exactly for the ids that fit into two octets.** -/
theorem validMac_iff (id : Int) : ValidMac (mac id) ↔ 0 ≤ id ∧ id < 65536 := by
  have hmod0 : 0 ≤ Int.fmod id 256 := Int.fmod_nonneg_of_pos id (by decide)
  have hmod1 : Int.fmod id 256 < 256 := Int.fmod_lt_of_pos id (by decide)
  have hdiv := Int.mul_fdiv_add_fmod id 256
  have hfixed : ∀ g ∈ [cstr "92", cstr "1B", cstr "40", cstr "26"],
      g.length = 2 ∧ ∀ b ∈ g, isHexDigit b = true := by decide +kernel
  rw [ValidMac, splitColon_mac]
  constructor
  · rintro ⟨-, h⟩
    obtain ⟨hlen, hhex⟩ := h (hex02 (Int.fdiv id 256)) (by simp)
    have hq : 0 ≤ Int.fdiv id 256 := by
      rcases lt_or_ge (Int.fdiv id 256) 0 with hx | hx
      · rw [hex02_neg hx] at hhex
        exact absurd (hhex 45 List.mem_cons_self) (by decide)
      · exact hx
    rw [length_hex02 hq] at hlen
    omega
  · intro h
    refine ⟨rfl, ?_⟩
    intro g hg
    have hq : 0 ≤ Int.fdiv id 256 := by omega
    have hcases : g ∈ [cstr "92", cstr "1B", cstr "40", cstr "26"] ∨
        g = hex02 (Int.fdiv id 256) ∨ g = hex02 (Int.fmod id 256) := by
      simpa [or_assoc] using hg
    rcases hcases with hg | rfl | rfl
    · exact hfixed g hg
    · exact ⟨(length_hex02 hq).mpr (by omega), fun b hb => mem_hex02 hq hb⟩
    · exact ⟨(length_hex02 hmod0).mpr hmod1, fun b hb => mem_hex02 hmod0 hb⟩

theorem mac_injective {a b : Int} (h : mac a = mac b) : a = b := by
  have hs := congrArg splitColon h
  rw [splitColon_mac, splitColon_mac] at hs
  simp only [List.cons.injEq, and_true, true_and] at hs
  have hq := hex02_injective hs.1
  have hr := hex02_injective hs.2
  rw [← Int.mul_fdiv_add_fmod a 256, ← Int.mul_fdiv_add_fmod b 256, hq, hr]

/-! ## Interfaces -/

theorem networkLoop_macs (id : Int) (domainName : Bytes) (ips : List InstanceIp)
    (r : List NetworkEntry × Bytes × DomainConfig) :
    (networkLoop id domainName ips r).1.map NetworkEntry.mac =
      r.1.map NetworkEntry.mac ++ List.replicate ips.length (mac id) := by
  induction ips generalizing r with
  | nil => rw [networkLoop, List.length_nil, List.replicate_zero, List.append_nil]
  | cons ip ips ih =>
    obtain ⟨network, nameservers, domain⟩ := r
    rw [networkLoop, ih, List.map_append, List.length_cons, List.replicate_succ, List.append_assoc]
    rfl

/-- Every interface gets the same address. -/
theorem updateNetwork_macs (i : NetworkInstance) :
    (updateNetwork i).network.map NetworkEntry.mac =
      List.replicate (max 1 i.ips.length) (mac i.id) := by
  have hloop := networkLoop_macs i.id i.domainName i.ips ([], [], { i.domain with ip := some [] })
  rw [List.map_nil, List.nil_append] at hloop
  rw [updateNetwork]
  dsimp only
  by_cases h : i.ips.length ≤ 0
  · rw [if_pos h, List.map_append, hloop]
    have hz : i.ips.length = 0 := by omega
    rw [hz]
    rfl
  · rw [if_neg h, hloop, Nat.max_eq_right (by omega)]

/-- The addresses of an instance are valid, and no other interface has them. -/
structure GoodMacs (i : NetworkInstance) : Prop where
  valid : ∀ e ∈ (updateNetwork i).network, ValidMac e.mac
  own : ((updateNetwork i).network.map NetworkEntry.mac).Nodup
  others : ∀ j : NetworkInstance, j.id ≠ i.id →
    ∀ e ∈ (updateNetwork i).network, ∀ e' ∈ (updateNetwork j).network, e.mac ≠ e'.mac

theorem mac_of_mem {i : NetworkInstance} {e : NetworkEntry} (h : e ∈ (updateNetwork i).network) :
    e.mac = mac i.id :=
  List.eq_of_mem_replicate (updateNetwork_macs i ▸ List.mem_map_of_mem h)

theorem exists_entry (i : NetworkInstance) : ∃ e, e ∈ (updateNetwork i).network := by
  have hlen := congrArg List.length (updateNetwork_macs i)
  rw [List.length_map, List.length_replicate] at hlen
  exact List.exists_mem_of_length_pos (by omega)

/-- **The hardware addresses are good exactly for an instance with an id that fits into two octets
and with one interface.** Two instances never share an address, but two interfaces of one instance
always do. -/
theorem goodMacs_iff (i : NetworkInstance) :
    GoodMacs i ↔ (0 ≤ i.id ∧ i.id < 65536) ∧ i.ips.length ≤ 1 := by
  constructor
  · intro h
    obtain ⟨e, he⟩ := exists_entry i
    have hvalid := h.valid e he
    rw [mac_of_mem he, validMac_iff] at hvalid
    refine ⟨hvalid, ?_⟩
    have hown := h.own
    rw [updateNetwork_macs, List.nodup_replicate] at hown
    omega
  · rintro ⟨hid, hips⟩
    refine ⟨?_, ?_, ?_⟩
    · intro e he
      rw [mac_of_mem he]
      exact (validMac_iff i.id).mpr hid
    · rw [updateNetwork_macs, List.nodup_replicate]
      omega
    · intro j hj e he e' he' heq
      rw [mac_of_mem he, mac_of_mem he'] at heq
      exact hj (mac_injective heq).symm

/-- The first id that does not fit, and an instance with two interfaces. -/
theorem goodMacs_fails :
    (updateNetwork { id := 65536 }).network.map NetworkEntry.mac = [cstr "92:1B:40:26:100:00"] ∧
    ¬ GoodMacs { id := 65536 } ∧
    (updateNetwork { id := 1, ips := [⟨cstr "10.0.0.2", none, none, none⟩,
      ⟨cstr "10.0.0.3", none, none, none⟩] }).network.map NetworkEntry.mac =
        [cstr "92:1B:40:26:00:01", cstr "92:1B:40:26:00:01"] := by
  refine ⟨rfl, ?_, rfl⟩
  intro h
  obtain ⟨e, he⟩ := exists_entry { id := 65536 }
  have hvalid := h.valid e he
  rw [mac_of_mem he, validMac_iff] at hvalid
  exact absurd hvalid.2 (by decide)

end LuoYun.Web

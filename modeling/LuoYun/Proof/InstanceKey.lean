import LuoYun.Proof.QuietDb
import LuoYun.Proof.Traffic
import LuoYun.Web.Instance

/-!
# The key of an instance

Column `key` of an instance holds a secret and, behind colons, a port and four counters. Two
functions write it: `db_instance_update_secret` replaces what stands before the first colon, and
`db_instance_update_status` what stands behind it. Four functions read it, each with code of its
own.

`Key` is what the text means, and `Key.text` its form. Both writers are followed on it, as long as
no address that is pasted into the statement of `db_instance_update_status` ends its literal: such
an address can write anything. What a reader gets is then a fact about `Key.text`.
-/

namespace LuoYun

/-! ## The text and its meaning -/

/-- A character of a uuid. -/
def isUuidChar (b : UInt8) : Bool :=
  isDigit b || (decide (97 ≤ b) && decide (b ≤ 102)) ||
    (decide (65 ≤ b) && decide (b ≤ 70)) || b == 45

/-- The text of a uuid: 36 hexadecimal digits and dashes. -/
def IsUuid (t : Bytes) : Prop := t.length = 36 ∧ ∀ b ∈ t, isUuidChar b = true

instance (t : Bytes) : Decidable (IsUuid t) := inferInstanceAs (Decidable (_ ∧ _))

/-- What `db_instance_update_status` puts behind the secret. -/
structure Counters where
  port : Int
  sum1 : Int
  rx : Int
  sum2 : Int
  tx : Int

def Counters.text (n : Counters) : Bytes :=
  dec n.port ++ 58 :: (dec n.sum1 ++ 58 :: (dec n.rx ++ 58 :: (dec n.sum2 ++ 58 :: dec n.tx)))

/-- What a key holds. -/
structure Key where
  secret : Option Bytes := none
  counters : Option Counters := none

/-- Its text, where the empty one counts as absent. -/
def Key.text (k : Key) : Option Bytes :=
  match k.secret, k.counters with
  | secret, none => secret
  | secret, some n => some (secret.getD [] ++ 58 :: n.text)

/-- `%ld` of an `unsigned long`: its value as a `long`. -/
def toInt64 (x : Int) : Int := (x + 9223372036854775808) % 18446744073709551616 -
    9223372036854775808

theorem decL_eq (x : Int) : decL x = dec (toInt64 x) := rfl

theorem uuid_plain {t : Bytes} (h : IsUuid t) : ∀ b ∈ t, b ≠ 58 ∧ b ≠ 39 := by
  intro b hb
  have hc := h.2 b hb
  refine ⟨?_, ?_⟩
  · rintro rfl
    revert hc
    decide
  · rintro rfl
    revert hc
    decide

theorem uuid_ne_nil {t : Bytes} (h : IsUuid t) : t ≠ [] := by
  rintro rfl
  exact absurd h.1 (by decide)

theorem dec_no_quote {x : Int} : ∀ b ∈ dec x, b ≠ 39 := by
  intro b hb hq
  subst hq
  rcases mem_dec hb with h | h <;> revert h <;> decide

theorem counters_no_quote (n : Counters) : (39 : UInt8) ∉ n.text := by
  intro h
  simp only [Counters.text, List.mem_append, List.mem_cons] at h
  rcases h with h | h | h | h | h | h | h | h | h
  · exact dec_no_quote _ h rfl
  · exact absurd h (by decide)
  · exact dec_no_quote _ h rfl
  · exact absurd h (by decide)
  · exact dec_no_quote _ h rfl
  · exact absurd h (by decide)
  · exact dec_no_quote _ h rfl
  · exact absurd h (by decide)
  · exact dec_no_quote _ h rfl

/-- The secret of a key is a uuid, once there is one. -/
def Key.Ok (k : Key) : Prop := ∀ t, k.secret = some t → IsUuid t

theorem Key.Ok.secret_no_colon {k : Key} (h : k.Ok) : ∀ b ∈ k.secret.getD [], b ≠ 58 := by
  cases hk : k.secret with
  | none => intro b hb; exact absurd hb List.not_mem_nil
  | some t => intro b hb; exact (uuid_plain (h t hk) b hb).1

theorem Key.Ok.secret_no_quote {k : Key} (h : k.Ok) : (39 : UInt8) ∉ k.secret.getD [] := by
  cases hk : k.secret with
  | none => exact List.not_mem_nil
  | some t => intro hb; exact (uuid_plain (h t hk) 39 hb).2 rfl

/-! ## The readers -/

theorem keySecret_colon {s : Bytes} (rest : Bytes) (h : ∀ b ∈ s, b ≠ 58) :
    keySecret (s ++ 58 :: rest) = s := by
  rw [keySecret, List.takeWhile_append_of_pos (by simpa using h)]
  simp

theorem keySecret_plain {s : Bytes} (h : ∀ b ∈ s, b ≠ 58) : keySecret s = s :=
  List.takeWhile_eq_self_iff.mpr (by simpa using h)

/-- What `db_instance_find_secret` finds. -/
theorem Key.find_secret {k : Key} (h : k.Ok) {t : Bytes} (ht : k.secret = some t) :
    k.text.map keySecret = some t := by
  have hplain : ∀ b ∈ t, b ≠ 58 := fun b hb => (uuid_plain (h t ht) b hb).1
  unfold Key.text
  rw [ht]
  cases k.counters with
  | none => exact congrArg some (keySecret_plain hplain)
  | some n => exact congrArg some (keySecret_colon _ hplain)

/-- What `db_node_instance_control_get` finds, once there is a secret. -/
theorem Key.strtok_secret {k : Key} (h : k.Ok) {t : Bytes} (ht : k.secret = some t) :
    k.text.bind strtokColon = some t := by
  have hplain : ∀ b ∈ t, b ≠ 58 := fun b hb => (uuid_plain (h t ht) b hb).1
  have htok : ∀ rest : Bytes, rest.head? = none ∨ rest.head? = some 58 →
      strtokColon (t ++ rest) = some t := by
    intro rest hrest
    obtain ⟨b, t', rfl⟩ := List.exists_cons_of_ne_nil (uuid_ne_nil (h t ht))
    have hb := hplain b List.mem_cons_self
    have htake : (b :: t' ++ rest).takeWhile (· ≠ 58) = b :: t' := by
      rw [List.takeWhile_append_of_pos (by simpa using hplain)]
      cases rest with
      | nil => simp
      | cons x rest =>
        obtain hx | hx := hrest
        · exact absurd hx (by simp)
        · obtain rfl : x = 58 := by simpa using hx
          simp
    have hdrop : (b :: t' ++ rest).dropWhile (· = 58) = b :: t' ++ rest := by
      rw [List.cons_append, List.dropWhile_cons, if_neg (by simpa using hb)]
    rw [strtokColon, hdrop]
    exact congrArg some htake
  unfold Key.text
  rw [ht]
  cases k.counters with
  | none =>
    have := htok [] (.inl rfl)
    rw [List.append_nil] at this
    exact this
  | some n => exact htok _ (.inr rfl)

theorem Key.text_ne_nil {k : Key} (h : k.Ok) : k.text ≠ some [] := by
  unfold Key.text
  cases hc : k.counters with
  | none =>
    cases hs : k.secret with
    | none => simp
    | some t =>
      intro he
      exact uuid_ne_nil (h t hs) (Option.some.inj he)
  | some n =>
    intro he
    have := Option.some.inj he
    simp at this

/-- The fields behind the secret. -/
theorem Key.fields_tail {k : Key} (h : k.Ok) : (keyFields 6 k.text).tail =
    match k.counters with
    | none => [none, none, none, none, none]
    | some n => [some (dec n.port), some (dec n.sum1), some (dec n.rx), some (dec n.sum2),
        some (dec n.tx)] := by
  unfold Key.text
  cases hc : k.counters with
  | none =>
    cases hs : k.secret with
    | none => rfl
    | some t =>
      dsimp only
      rw [keyFields_last _ (uuid_ne_nil (h t hs)) fun b hb => (uuid_plain (h t hs) b hb).1]
      rfl
  | some n =>
    dsimp only
    rw [Counters.text, keyFields_six h.secret_no_colon dec_no_colon dec_no_colon dec_no_colon
      dec_no_colon dec_no_colon (dec_ne_nil _)]
    rfl

/-- What the web interface finds. -/
theorem Key.web_sums {k : Key} (h : k.Ok) {key : Option Bytes} (hk : nonEmpty key = k.text) :
    Web.rxBytes key = (k.counters.map Counters.sum1).getD 0 ∧
      Web.txBytes key = (k.counters.map Counters.sum2).getD 0 := by
  have hnum : ∀ i, Web.keyNumber key i =
      ((k.text.bind fun t => (Web.splitColon t)[i]?).bind Web.int).getD 0 := by
    intro i
    rw [← hk]
    match key with
    | none => rfl
    | some [] => rfl
    | some (b :: t) => rfl
  rw [Web.rxBytes, Web.txBytes, hnum, hnum]
  unfold Key.text
  cases hc : k.counters with
  | none =>
    cases hs : k.secret with
    | none => exact ⟨rfl, rfl⟩
    | some t =>
      have hsplit := Web.splitColon_last fun b hb => (uuid_plain (h t hs) b hb).1
      dsimp only [Option.bind_some]
      rw [hsplit]
      exact ⟨rfl, rfl⟩
  | some n =>
    dsimp only [Option.bind_some]
    rw [Counters.text, Web.splitColon_colon _ h.secret_no_colon,
      Web.splitColon_colon _ dec_no_colon, Web.splitColon_colon _ dec_no_colon,
      Web.splitColon_colon _ dec_no_colon, Web.splitColon_colon _ dec_no_colon]
    simp only [List.getElem?_cons_succ, List.getElem?_cons_zero, Option.bind_some, Web.int_dec]
    exact ⟨rfl, rfl⟩

/-! ## The writers -/

/-- `db_instance_update_status` changes the row. -/
def InstanceRow.live (r : InstanceRow) : Bool := r.status.any (· ≠ DomainS.delete)

/-- The assignments of `db_instance_update_status` that were not cut off. One that was has lost
its quote or its comma, and the database refuses the statement. -/
def Uncut (r : InstanceRow) (ii : Option InstanceInfo) (nodeId : Int) : Prop :=
  (assignIp r ii).text.length < 100 ∧ (assignStatus r ii).text.length < 20 ∧
    (assignNode r nodeId).text.length < 20

instance (r : InstanceRow) (ii : Option InstanceInfo) (nodeId : Int) :
    Decidable (Uncut r ii nodeId) := inferInstanceAs (Decidable (_ ∧ _))

/-- The row with all the assignments. -/
def InstanceRow.assigned (r : InstanceRow) (ii : Option InstanceInfo)
    (nodeId : Int) : InstanceRow :=
  (assignKey r ii).set ((assignNode r nodeId).set ((assignStatus r ii).set ((assignIp r ii).set r)))

theorem assignIp_key (r r' : InstanceRow) (ii : Option InstanceInfo) :
    ((assignIp r ii).set r').key = r'.key ∧
      ((assignIp r ii).text = [] → (assignIp r ii).set r' = r') := by
  unfold assignIp
  split
  · exact ⟨rfl, fun _ => rfl⟩
  · split
    · exact ⟨rfl, fun _ => rfl⟩
    · refine ⟨rfl, fun h => absurd h ?_⟩
      exact List.append_ne_nil_of_right_ne_nil _ (by decide)

theorem assignStatus_key (r r' : InstanceRow) (ii : Option InstanceInfo) :
    ((assignStatus r ii).set r').key = r'.key ∧
      ((assignStatus r ii).text = [] → (assignStatus r ii).set r' = r') := by
  unfold assignStatus
  split
  · exact ⟨rfl, fun _ => rfl⟩
  · split
    · exact ⟨rfl, fun _ => rfl⟩
    · refine ⟨rfl, fun h => absurd h ?_⟩
      exact List.append_ne_nil_of_right_ne_nil _ (by decide)

theorem assignNode_key (r r' : InstanceRow) (nodeId : Int) :
    ((assignNode r nodeId).set r').key = r'.key ∧
      ((assignNode r nodeId).text = [] → (assignNode r nodeId).set r' = r') := by
  unfold assignNode
  split
  · exact ⟨rfl, fun _ => rfl⟩
  · split
    · refine ⟨rfl, fun h => absurd h ?_⟩
      decide
    · split
      · exact ⟨rfl, fun _ => rfl⟩
      · refine ⟨rfl, fun h => absurd h ?_⟩
        exact List.append_ne_nil_of_right_ne_nil _ (by decide)

theorem assigned_id (r r' : InstanceRow) (ii : Option InstanceInfo) (nodeId : Int) :
    ((assignKey r ii).set ((assignNode r nodeId).set ((assignStatus r ii).set
      ((assignIp r ii).set r')))).id = r'.id := by
  have h : ((assignNode r nodeId).set ((assignStatus r ii).set ((assignIp r ii).set r'))).id =
      r'.id := by
    rw [assignNode_id, assignStatus_id, assignIp_id]
  cases ii with
  | none => exact h
  | some ii => exact h

theorem assigned_key_none (r : InstanceRow) (nodeId : Int) :
    (r.assigned none nodeId).key = r.key := by
  have h : (r.assigned none nodeId).key =
      ((assignNode r nodeId).set ((assignStatus r none).set ((assignIp r none).set r))).key := rfl
  rw [h, (assignNode_key _ _ _).1, (assignStatus_key _ _ _).1, (assignIp_key _ _ _).1]

theorem dbSelect_rows {env : Env} {c : Clc} {id : Int} {r : InstanceRow} {rows : List InstanceRow}
    (hrow : c.db.instancesById id = [r])
    (hsel : dbSelect env c (fun db => db.instancesById id) = some rows) : rows = [r] := by
  unfold dbSelect at hsel
  split at hsel
  · exact (Option.some.inj hsel).symm.trans hrow
  · cases hsel

theorem row_id {db : Db} {id : Int} {r : InstanceRow}
    (h : db.instancesById id = [r]) : r.id = id := by
  have hmem : r ∈ db.instancesById id := by rw [h]; exact List.mem_singleton.mpr rfl
  simpa using (List.mem_filter.mp hmem).2

/-- An update of other rows. -/
theorem instancesById_skip {db : Db} {id : Int} {r : InstanceRow} {p : InstanceRow → Bool}
    {f : InstanceRow → InstanceRow} (h : db.instancesById id = [r]) (hp : p r = false)
    (hf : ∀ x, (f x).id = x.id) : (db.updateInstance p f).instancesById id = [r] := by
  unfold Db.instancesById Db.updateInstance at *
  dsimp only
  rw [List.filter_map, update_comp_id p hf, h, List.map_cons, List.map_nil, hp]
  rfl

/-- What a statement that goes through does to the row of the instance. -/
theorem dbInstanceUpdateStatus_row {env : Env} {c : Clc} {id : Int} {ii : Option InstanceInfo}
    {nodeId : Int} {r : InstanceRow} (hrow : c.db.instancesById id = [r]) (hcut : Uncut r ii nodeId)
    (hkey : (assignKey r ii).text.length < 256)
    (hquot : quotable [(ii.bind InstanceInfo.ip).getD [],
      ii.elim [] fun _ => keySecret (r.key.getD [])] = true)
    (hret : 0 ≤ (dbInstanceUpdateStatus env c id ii nodeId).2) :
    (dbInstanceUpdateStatus env c id ii nodeId).1.db.instancesById id =
      [if r.live then r.assigned ii nodeId else r] := by
  unfold dbInstanceUpdateStatus at hret ⊢
  cases hsel : dbSelect env c (fun db => db.instancesById id) with
  | none =>
    rw [hsel] at hret
    dsimp only at hret
    omega
  | some rows =>
    obtain rfl := dbSelect_rows hrow hsel
    rw [hsel] at hret
    dsimp only at hret ⊢
    split
    · -- nothing to assign
      rename_i hempty
      obtain ⟨h1, h2, h3, h4⟩ := hempty
      have hsame : r.assigned ii nodeId = r := by
        have hk : ∀ r', (assignKey r ii).set r' = r' := by
          intro r'
          cases ii with
          | none => rfl
          | some ii => exact absurd h4 (keyText_assign_ne r ii)
        rw [InstanceRow.assigned, hk, (assignNode_key _ _ _).2 h3, (assignStatus_key _ _ _).2 h2,
          (assignIp_key _ _ _).2 h1]
      rw [hsame, ite_self]
      exact hrow
    · rename_i hne
      rw [if_neg hne] at hret
      have hall : (assignIp r ii).text.length < 100 ∧ (assignStatus r ii).text.length < 20 ∧
          (assignNode r nodeId).text.length < 20 ∧ (assignKey r ii).text.length < 256 :=
        ⟨hcut.1, hcut.2.1, hcut.2.2, hkey⟩
      rw [if_pos hall] at hret ⊢
      rw [dbExecText_done env _ hquot (by omega)]
      have hid := row_id hrow
      by_cases hlive : r.live
      · rw [if_pos hlive]
        refine instancesById_update hrow ?_ fun x => assigned_id r x ii nodeId
        rw [hid, show r.status.any (· ≠ DomainS.delete) = true from hlive]
        simp
      · rw [if_neg hlive]
        refine instancesById_skip hrow ?_ fun x => assigned_id r x ii nodeId
        rw [show r.status.any (· ≠ DomainS.delete) = false from Bool.eq_false_iff.mpr hlive]
        simp

/-- The key with another secret: what stands behind the first colon of the old one is kept. -/
def keyWith (secret : Bytes) (old : Option Bytes) : Bytes :=
  match old.map fun k => k.dropWhile (· ≠ 58) with
  | some (_ :: rest) => secret ++ cstr ":" ++ rest
  | _ => secret

theorem dbInstanceUpdateSecret_eq {env : Env} {c : Clc} {id : Int} {t : Bytes} {r : InstanceRow}
    (hsel : dbSelect env c (fun db => db.instancesById id) = some [r]) :
    dbInstanceUpdateSecret env c id t =
      if (nonEmpty r.key).map keySecret = some t then (c.called, 0)
      else dbExecText env c.called
        (cstr "UPDATE instance SET key = '" ++ keyWith t (nonEmpty r.key) ++
          cstr "', updated = 'now' WHERE id= " ++ dec id ++ cstr ";")
        [keyWith t (nonEmpty r.key)] fun db =>
          db.updateInstance (·.id == id) fun x =>
            { x with key := some (keyWith t (nonEmpty r.key)) } := by
  unfold dbInstanceUpdateSecret
  rw [hsel]
  rfl

theorem keyWith_text {k : Key} {t : Bytes} (hok : k.Ok) :
    Key.text { k with secret := some t } = some (keyWith t k.text) := by
  unfold Key.text keyWith
  cases hc : k.counters with
  | none =>
    cases hs : k.secret with
    | none => rfl
    | some u =>
      have hdrop : u.dropWhile (· ≠ 58) = [] :=
        List.dropWhile_eq_nil_iff.mpr (by simpa using fun b hb => (uuid_plain (hok u hs) b hb).1)
      dsimp only [Option.map_some]
      rw [hdrop]
  | some n =>
    have hdrop : (k.secret.getD [] ++ 58 :: n.text).dropWhile (· ≠ 58) = 58 :: n.text := by
      rw [List.dropWhile_append_of_pos (by simpa using hok.secret_no_colon)]
      simp
    dsimp only [Option.map_some]
    rw [hdrop, cstr_colon]
    simp

theorem Key.text_no_quote {k : Key} (hok : k.Ok) {key : Bytes} (h : k.text = some key) :
    (39 : UInt8) ∉ key := by
  have hsec := hok.secret_no_quote
  unfold Key.text at h
  cases hc : k.counters with
  | none =>
    rw [hc] at h
    dsimp only at h
    rw [h] at hsec
    exact hsec
  | some n =>
    rw [hc] at h
    obtain rfl := Option.some.inj h
    intro hb
    rcases List.mem_append.mp hb with hb | hb
    · exact hsec hb
    · rcases List.mem_cons.mp hb with hb | hb
      · exact absurd hb (by decide)
      · exact counters_no_quote n hb

/-- The secret stands in the text. -/
theorem Key.secret_of_text {k : Key} (hok : k.Ok) {t : Bytes} (ht : t ≠ [])
    (h : k.text.map keySecret = some t) : k.secret = some t := by
  cases hs : k.secret with
  | some u => exact (Key.find_secret hok hs).symm.trans h
  | none =>
    unfold Key.text at h
    rw [hs] at h
    cases hc : k.counters with
    | none =>
      rw [hc] at h
      cases h
    | some n =>
      rw [hc] at h
      have hnil : [] = t := Option.some.inj h
      exact absurd hnil.symm ht

/-- **What a new secret does to the row of the instance.** -/
theorem dbInstanceUpdateSecret_row {env : Env} {c : Clc} {id : Int} {t : Bytes} {r : InstanceRow}
    {k : Key} (hrow : c.db.instancesById id = [r]) (hk : nonEmpty r.key = k.text) (hok : k.Ok)
    (ht : IsUuid t) (hret : 0 ≤ (dbInstanceUpdateSecret env c id t).2) :
    ∃ r', (dbInstanceUpdateSecret env c id t).1.db.instancesById id = [r'] ∧
      nonEmpty r'.key = Key.text { k with secret := some t } := by
  have hnew : Key.Ok { k with secret := some t } := by
    intro u hu
    obtain rfl := Option.some.inj hu
    exact ht
  have htext : Key.text { k with secret := some t } = some (keyWith t k.text) := keyWith_text hok
  cases hsel : dbSelect env c (fun db => db.instancesById id) with
  | none =>
    rw [dbInstanceUpdateSecret, hsel] at hret
    dsimp only at hret
    omega
  | some rows =>
    obtain rfl := dbSelect_rows hrow hsel
    rw [dbInstanceUpdateSecret_eq hsel, hk] at hret ⊢
    by_cases hsame : k.text.map keySecret = some t
    · -- the secret is the one that stands there
      rw [if_pos hsame]
      refine ⟨r, hrow, hk.trans ?_⟩
      rw [← Key.secret_of_text hok (uuid_ne_nil ht) hsame]
    · rw [if_neg hsame] at hret ⊢
      have hq : quotable [keyWith t k.text] = true := by
        simpa [quotable] using Key.text_no_quote hnew htext
      rw [dbExecText_done env _ hq (by omega)]
      refine ⟨_, instancesById_update hrow (by rw [row_id hrow]; simp) fun _ => rfl, ?_⟩
      have hne : keyWith t k.text ≠ [] := by
        intro hnil
        exact Key.text_ne_nil hnew (hnil ▸ htext)
      rw [nonEmpty_some hne, htext]

/-! ### `db_instance_update_status` -/

/-- The counters that a report leaves in the key. -/
def Key.counted (key : Option Bytes) (ii : InstanceInfo) : Counters where
  port := (keyStat key ii).gport
  sum1 := toInt64 (keyStat key ii).sum1
  rx := toInt64 ii.rxBytes
  sum2 := toInt64 (keyStat key ii).sum2
  tx := toInt64 ii.txBytes

/-- The counters after a status: those of the report, when it has any and the row takes them. -/
def InstanceRow.countersAfter (r : InstanceRow) (ii : Option InstanceInfo) (old : Option Counters) :
    Option Counters :=
  match ii with
  | some i => if r.live then some (Key.counted r.key i) else old
  | none => old

theorem keyStat_secret {k : Key} {key : Option Bytes} (hok : k.Ok) (hk : nonEmpty key = k.text)
    (ii : InstanceInfo) : (keyStat key ii).secret = k.secret.getD [] := by
  have hsec : (keyStat key ii).secret = (((keyFields 6 k.text)[0]?).join).getD [] := by
    rw [← hk]
    rfl
  rw [hsec]
  unfold Key.text
  cases hc : k.counters with
  | none =>
    cases hs : k.secret with
    | none => rfl
    | some t =>
      dsimp only
      rw [keyFields_last _ (uuid_ne_nil (hok t hs)) fun b hb => (uuid_plain (hok t hs) b hb).1]
      rfl
  | some n =>
    dsimp only
    rw [keyFields_colon _ _ hok.secret_no_colon]
    rfl

theorem keyText_counted {k : Key} {key : Option Bytes} (hok : k.Ok) (hk : nonEmpty key = k.text)
    (ii : InstanceInfo) :
    nonEmpty (some (keyText (keyStat key ii) ii)) =
      Key.text { k with counters := some (Key.counted key ii) } := by
  have htext : keyText (keyStat key ii) ii =
      k.secret.getD [] ++ 58 :: (Key.counted key ii).text := by
    rw [keyText, cstr_colon, keyStat_secret hok hk]
    exact append_colons ..
  have hne : keyText (keyStat key ii) ii ≠ [] := by
    rw [htext]
    exact List.append_ne_nil_of_right_ne_nil _ (List.cons_ne_nil _ _)
  rw [nonEmpty_some hne, htext]
  rfl

theorem length_decL (x : Int) : (decL x).length ≤ 20 := by
  have hlen : (decNat (toInt64 x).natAbs).length ≤ 19 := by
    refine length_decNat (by decide) ?_
    unfold toInt64
    omega
  rw [decL_eq, dec]
  split
  · exact Nat.succ_le_succ hlen
  · omega

theorem keyStat_port {key : Option Bytes} {ii : InstanceInfo} (h : IsInt32 ii.gport) :
    IsInt32 (keyStat key ii).gport := by
  have hgp : (keyStat key ii).gport = if ii.gport = -1 then
      ((((keyFields 6 (nonEmpty key))[1]?).join).map atoi).getD 0
      else ii.gport := rfl
  rw [hgp]
  split
  · cases ((keyFields 6 (nonEmpty key))[1]?).join with
    | none => exact ⟨by decide, by decide⟩
    | some t =>
      show IsInt32 (toInt32 (atol t))
      unfold IsInt32 toInt32
      omega
  · exact h

/-- The assignment of the key fits its 256 bytes. -/
theorem assignKey_fits {k : Key} {r : InstanceRow} (hok : k.Ok) (hk : nonEmpty r.key = k.text)
    {ii : InstanceInfo} (hport : IsInt32 ii.gport) : (assignKey r (some ii)).text.length < 256 := by
  have hsec : ((keyStat r.key ii).secret).length ≤ 36 := by
    rw [keyStat_secret hok hk]
    cases hs : k.secret with
    | none => exact Nat.zero_le _
    | some t => exact Nat.le_of_eq (hok t hs).1
  have hp := length_dec_int32 (keyStat_port hport : IsInt32 (keyStat r.key ii).gport)
  have h1 := length_decL (keyStat r.key ii).sum1
  have h2 := length_decL (keyStat r.key ii).sum2
  have h3 := length_decL ii.rxBytes
  have h4 := length_decL ii.txBytes
  have htext : (assignKey r (some ii)).text = cstr "key = '" ++ keyText (keyStat r.key ii) ii ++
      cstr "', vdi_port = " ++ dec (keyStat r.key ii).gport ++ cstr ", rx = " ++
      decL (keyStat r.key ii).sum1 ++ cstr ", tx = " ++ decL (keyStat r.key ii).sum2 := rfl
  have c1 : (cstr "key = '").length = 7 := by decide
  have c2 : (cstr "', vdi_port = ").length = 14 := by decide
  have c3 : (cstr ", rx = ").length = 7 := by decide
  have c4 : (cstr ", tx = ").length = 7 := by decide
  rw [htext, keyText, cstr_colon]
  simp only [List.length_append, List.length_cons, List.length_nil, c1, c2, c3, c4]
  omega

theorem keySecret_no_quote {k : Key} {key : Option Bytes} (hok : k.Ok)
    (hk : nonEmpty key = k.text) :
    (39 : UInt8) ∉ keySecret (key.getD []) := by
  intro hb
  have hmem : (39 : UInt8) ∈ key.getD [] := (List.takeWhile_prefix _).subset hb
  match key with
  | none => exact absurd hmem List.not_mem_nil
  | some [] => exact absurd hmem List.not_mem_nil
  | some (b :: t) => exact Key.text_no_quote hok hk.symm hmem

/-- **What a status does to the row of the instance**, when its address ends no literal. -/
theorem dbInstanceUpdateStatus_key {env : Env} {c : Clc} {id : Int} {ii : Option InstanceInfo}
    {nodeId : Int} {r : InstanceRow} {k : Key} (hrow : c.db.instancesById id = [r])
    (hk : nonEmpty r.key = k.text) (hok : k.Ok) (hcut : Uncut r ii nodeId)
    (hport : ∀ i, ii = some i → IsInt32 i.gport)
    (hip : ∀ i ip, ii = some i → i.ip = some ip → (39 : UInt8) ∉ ip)
    (hret : 0 ≤ (dbInstanceUpdateStatus env c id ii nodeId).2) :
    ∃ r', (dbInstanceUpdateStatus env c id ii nodeId).1.db.instancesById id = [r'] ∧
      nonEmpty r'.key = Key.text { k with counters := r.countersAfter ii k.counters } := by
  have hfits : (assignKey r ii).text.length < 256 := by
    cases ii with
    | none => exact Nat.zero_lt_of_lt (show 255 < 256 by decide)
    | some i => exact assignKey_fits hok hk (hport i rfl)
  have hquot : quotable [(ii.bind InstanceInfo.ip).getD [],
      ii.elim [] fun _ => keySecret (r.key.getD [])] = true := by
    cases ii with
    | none => rfl
    | some i =>
      have hsec := keySecret_no_quote hok hk
      have haddr : (39 : UInt8) ∉ i.ip.getD [] := by
        cases hi : i.ip with
        | none => exact List.not_mem_nil
        | some ip => exact hip i ip rfl hi
      simp only [quotable, List.all_cons, List.all_nil, Bool.and_true, Bool.and_eq_true,
        Bool.not_eq_true', List.contains_eq_mem, decide_eq_false_iff_not]
      exact ⟨haddr, hsec⟩
  refine ⟨_, dbInstanceUpdateStatus_row hrow hcut hfits hquot hret, ?_⟩
  cases ii with
  | none =>
    split
    · rw [assigned_key_none, hk]
      rfl
    · exact hk
  | some i =>
    by_cases hlive : r.live
    · rw [if_pos hlive, InstanceRow.countersAfter, if_pos hlive]
      exact keyText_counted hok hk i
    · rw [if_neg hlive, InstanceRow.countersAfter, if_neg hlive]
      exact hk

/-! ## Runs -/

/-- The CLC, and what was last written to the key of one instance. -/
structure Keyed where
  clc : Clc
  /-- The secret of the last `db_instance_update_secret`. -/
  last : Option Bytes := none
  /-- The sums of the last `db_instance_update_status` that wrote any. -/
  sums : Option (Int × Int) := none

/-- The calls. -/
inductive KeyCall where
  | secret (t : Bytes)
  | status (ii : Option InstanceInfo) (nodeId : Int)

def Counters.sums (n : Counters) : Int × Int := (n.sum1, n.sum2)

/-- The sums that a call writes, as `%ld` prints them. -/
def sumsWritten (c : Clc) (id : Int) (ii : Option InstanceInfo) : Option (Int × Int) :=
  match c.db.instancesById id with
  | [r] => (r.countersAfter ii none).map Counters.sums
  | _ => none

/-- A call whose statements succeed. A secret is a uuid, and a port is an `int`. -/
def Keyed.next (env : Env) (id : Int) (s : Keyed) : KeyCall → Option (Res Keyed)
  | .secret t =>
    if IsUuid t ∧ 0 ≤ (dbInstanceUpdateSecret env s.clc id t).2 then
      some (.ok { s with clc := (dbInstanceUpdateSecret env s.clc id t).1, last := some t })
    else none
  | .status ii nodeId =>
    if ((s.clc.db.instancesById id).all fun r => decide (Uncut r ii nodeId)) = true ∧
        (ii.all fun i => decide (IsInt32 i.gport)) = true ∧
        0 ≤ (dbInstanceUpdateStatus env s.clc id ii nodeId).2 then
      some (.ok { s with clc := (dbInstanceUpdateStatus env s.clc id ii nodeId).1
                         sums := (sumsWritten s.clc id ii).or s.sums })
    else none

/-- An instance whose key is empty. -/
def KeyEmpty (id : Int) (s : Keyed) : Prop :=
  s.last = none ∧ s.sums = none ∧ ∃ r, s.clc.db.instancesById id = [r] ∧ nonEmpty r.key = none

/-- The reported address has no quote in it. -/
def QuoteFree (_ : Keyed) : KeyCall → Prop
  | .secret _ => True
  | .status ii _ => ∀ i ip, ii = some i → i.ip = some ip → (39 : UInt8) ∉ ip

/-- The row says what was written. -/
structure Keyed.Holds (id : Int) (s : Keyed) (r : InstanceRow) (k : Key) : Prop where
  row : s.clc.db.instancesById id = [r]
  text : nonEmpty r.key = k.text
  ok : k.Ok
  last : k.secret = s.last
  sums : k.counters.map Counters.sums = s.sums

theorem keyEmpty_holds {id : Int} {s : Keyed} (h : KeyEmpty id s) : ∃ r k, s.Holds id r k := by
  obtain ⟨hlast, hsums, r, hrow, hkey⟩ := h
  exact ⟨r, {}, hrow, hkey, nofun, hlast.symm, hsums.symm⟩

/-- A new secret changes the secret and nothing else. -/
theorem secret_holds {env : Env} {id : Int} {s s' : Keyed} {r : InstanceRow} {k : Key} {t : Bytes}
    (h : s.Holds id r k) (hn : s.next env id (.secret t) = some (.ok s')) :
    ∃ r', s'.Holds id r' { k with secret := some t } := by
  unfold Keyed.next at hn
  dsimp only at hn
  split at hn
  · rename_i hcall
    obtain rfl := Except.ok.inj (Option.some.inj hn)
    obtain ⟨r', hrow, hkey⟩ := dbInstanceUpdateSecret_row h.row h.text h.ok hcall.1 hcall.2
    refine ⟨r', hrow, hkey, ?_, rfl, h.sums⟩
    intro u hu
    obtain rfl := Option.some.inj hu
    exact hcall.1
  · cases hn

/-- A status changes the counters and nothing else. -/
theorem status_holds {env : Env} {id : Int} {s s' : Keyed} {r : InstanceRow} {k : Key}
    {ii : Option InstanceInfo} {nodeId : Int} (h : s.Holds id r k)
    (hq : QuoteFree s (.status ii nodeId))
    (hn : s.next env id (.status ii nodeId) = some (.ok s')) :
    ∃ r', s'.Holds id r' { k with counters := r.countersAfter ii k.counters } := by
  unfold Keyed.next at hn
  dsimp only at hn
  split at hn
  · rename_i hcall
    obtain ⟨hcut, hport, hret⟩ := hcall
    obtain rfl := Except.ok.inj (Option.some.inj hn)
    rw [h.row] at hcut
    have hcut' : Uncut r ii nodeId := by simpa using hcut
    have hport' : ∀ i, ii = some i → IsInt32 i.gport := by
      rintro i rfl
      simpa using hport
    obtain ⟨r', hrow, hkey⟩ := dbInstanceUpdateStatus_key h.row h.text h.ok hcut' hport' hq hret
    refine ⟨r', hrow, hkey, h.ok, h.last, ?_⟩
    have hwritten : sumsWritten s.clc id ii = (r.countersAfter ii none).map Counters.sums := by
      rw [sumsWritten, h.row]
    rw [hwritten, ← h.sums]
    cases ii with
    | none => rfl
    | some i =>
      unfold InstanceRow.countersAfter
      dsimp only
      by_cases hlive : r.live
      · rw [if_pos hlive, if_pos hlive]
        rfl
      · rw [if_neg hlive, if_neg hlive]
        rfl
  · cases hn

theorem next_holds {env : Env} {id : Int} {s s' : Keyed} {ev : KeyCall}
    (h : ∃ r k, s.Holds id r k) (hq : QuoteFree s ev) (hn : s.next env id ev = some (.ok s')) :
    ∃ r k, s'.Holds id r k := by
  obtain ⟨r, k, hk⟩ := h
  cases ev with
  | secret t =>
    obtain ⟨r', h'⟩ := secret_holds hk hn
    exact ⟨r', _, h'⟩
  | status ii nodeId =>
    obtain ⟨r', h'⟩ := status_holds hk hq hn
    exact ⟨r', _, h'⟩

theorem findSecret_holds {env : Env} {id : Int} {s : Keyed} {r : InstanceRow} {k : Key}
    (h : s.Holds id r k) (hsel : env.ok .dbSelect s.clc.io.tick = true) :
    (dbInstanceFindSecret env s.clc id).2 = (1, k.text.map keySecret) := by
  have hrows : dbSelect env s.clc (fun db => db.instancesById id) = some [r] := by
    rw [dbSelect, if_pos hsel, h.row]
  rw [dbInstanceFindSecret, hrows]
  dsimp only
  rw [h.text]

/-- **The secret survives status updates, and the counters survive secret updates.** -/
theorem secret_survives {env : Env} {id : Int} {s : Keyed}
    (h : Machine.Reach (Keyed.next env id) QuoteFree (KeyEmpty id) s) :
    (∀ t, s.last = some t → env.ok .dbSelect s.clc.io.tick = true →
      (dbInstanceFindSecret env s.clc id).2 = (1, some t)) ∧
    ∀ t s', s.next env id (.secret t) = some (.ok s') →
      ∃ r r', s.clc.db.instancesById id = [r] ∧ s'.clc.db.instancesById id = [r'] ∧
        (keyFields 6 (nonEmpty r'.key)).tail = (keyFields 6 (nonEmpty r.key)).tail := by
  obtain ⟨r, k, hk⟩ := h.inv (I := fun s => ∃ r k, s.Holds id r k) (fun _ h0 => keyEmpty_holds h0)
    fun _ _ _ hi hq hn => next_holds hi hq hn
  refine ⟨?_, ?_⟩
  · intro t ht hsel
    rw [findSecret_holds hk hsel, Key.find_secret hk.ok (hk.last.trans ht)]
  · intro t s' hn
    obtain ⟨r', hk'⟩ := secret_holds hk hn
    refine ⟨r, r', hk.row, hk'.row, ?_⟩
    rw [hk.text, hk'.text, Key.fields_tail hk.ok, Key.fields_tail hk'.ok]

def sampleSecret : Bytes := cstr "d2719ad5-6f8a-4b1e-9d3f-0c5a7e2b4c61"

/-- Instance 7 before its first secret. -/
def Keyed.seven : Keyed := { clc := .oneNode [] }

theorem seven_keyEmpty : KeyEmpty 7 .seven := ⟨rfl, rfl, .seven, rfl, rfl⟩

/-- A secret and a report. -/
theorem secret_survives_report : ∃ s, Machine.exec (Keyed.next Env.stocked 7)
    [.secret sampleSecret, .status (some (.traffic 100 50)) (-1)] .seven = some s ∧
    (dbInstanceFindSecret Env.stocked s.clc 7).2 = (1, some sampleSecret) := by
  have hrun : (Machine.exec (Keyed.next Env.stocked 7)
      [.secret sampleSecret, .status (some (.traffic 100 50)) (-1)] .seven).map Keyed.last =
      some (some sampleSecret) := by
    decide +kernel
  obtain ⟨s, hs, hlast⟩ := Option.map_eq_some_iff.mp hrun
  have hreach : Machine.Reach (Keyed.next Env.stocked 7) QuoteFree (KeyEmpty 7) s := by
    refine (Machine.Reach.of_init seven_keyEmpty).of_exec ?_ hs
    intro ev hev u
    rcases List.mem_cons.mp hev with rfl | hev
    · trivial
    · obtain rfl := List.mem_singleton.mp hev
      rintro i ip hi hip
      obtain rfl := Option.some.inj hi
      cases hip
  exact ⟨s, hs, (secret_survives hreach).1 sampleSecret hlast rfl⟩

/-- An address that ends its literal and goes on with an assignment of its own. -/
def quoteIp : Bytes := cstr "', key = 'k' where id = 7 --"

/-- The database on the statement with that address: everything behind the two dashes is a
comment. -/
def Env.quoted : Env :=
  { Env.stocked with
    injectExec := fun sql db =>
      if (cstr "UPDATE instance SET ip = '', key = 'k' where id = 7 --").isPrefixOf sql then
        (db.updateInstance (·.id == 7) fun r =>
          { r with ip := some [], key := some (cstr "k") }, true)
      else (db, false) }

/-- A report with that address replaces the secret. -/
theorem secret_replaced : ¬ ∀ s,
    Machine.Reach (Keyed.next Env.quoted 7) Machine.Always (KeyEmpty 7) s →
    ∀ t, s.last = some t → (dbInstanceFindSecret Env.quoted s.clc 7).2 = (1, some t) := by
  intro hall
  have hrun : (Machine.exec (Keyed.next Env.quoted 7)
      [.secret sampleSecret, .status (some { ip := some quoteIp }) (-1)] .seven).map (fun s =>
        (s.last, (dbInstanceFindSecret Env.quoted s.clc 7).2)) =
      some (some sampleSecret, (1, some (cstr "k"))) := by
    decide +kernel
  obtain ⟨s, hs, heq⟩ := Option.map_eq_some_iff.mp hrun
  obtain ⟨hlast, hfind⟩ := Prod.mk.inj heq
  have hbad := hall s ((Machine.Reach.of_init seven_keyEmpty).of_exec (fun _ _ _ => trivial) hs)
    sampleSecret hlast
  rw [hfind] at hbad
  revert hbad
  decide

/-! ## The readers agree -/

/-- The reported address has no quote in it, and no counters are written before the first secret. -/
def SecretFirst (id : Int) (s : Keyed) (ev : KeyCall) : Prop :=
  QuoteFree s ev ∧ ((∃ ii nodeId r, ev = .status (some ii) nodeId ∧
    s.clc.db.instancesById id = [r] ∧ r.live = true) → s.last ≠ none)

/-- No counters without a secret. -/
def Keyed.Ordered (id : Int) (s : Keyed) : Prop :=
  ∃ r k, s.Holds id r k ∧ (k.secret = none → k.counters = none)

theorem next_ordered {env : Env} {id : Int} {s s' : Keyed} {ev : KeyCall} (h : s.Ordered id)
    (hq : SecretFirst id s ev) (hn : s.next env id ev = some (.ok s')) : s'.Ordered id := by
  obtain ⟨r, k, hk, hord⟩ := h
  cases ev with
  | secret t =>
    obtain ⟨r', h'⟩ := secret_holds hk hn
    exact ⟨r', _, h', fun hnone => absurd hnone (by simp)⟩
  | status ii nodeId =>
    obtain ⟨r', h'⟩ := status_holds hk hq.1 hn
    refine ⟨r', _, h', ?_⟩
    intro hnone
    cases ii with
    | none => exact hord hnone
    | some i =>
      by_cases hlive : r.live
      · exact absurd (hk.last.symm.trans hnone) (hq.2 ⟨i, nodeId, r, rfl, hk.row, hlive⟩)
      · show r.countersAfter (some i) k.counters = none
        rw [InstanceRow.countersAfter, if_neg hlive]
        exact hord hnone

theorem controlGet_holds {env : Env} {id : Int} {s : Keyed} {r : InstanceRow} {k : Key}
    (h : s.Holds id r k) {ci ci' : NodeCtrlInstance} {c' : Clc} {nodeId : Int} (hci : ci.insId = id)
    (hget : dbNodeInstanceControlGet env s.clc ci = (c', some (ci', nodeId))) :
    env.ok .dbSelect s.clc.io.tick = true ∧ ci'.osmSecret = k.text.bind strtokColon := by
  unfold dbNodeInstanceControlGet dbSelect at hget
  by_cases hok : env.ok .dbSelect s.clc.io.tick = true
  · refine ⟨hok, ?_⟩
    rw [if_pos hok, hci] at hget
    dsimp only at hget
    rw [h.row] at hget
    by_cases happ : (env.appliance r.applianceId).isSome = true
    · rw [List.filter_cons_of_pos (by simpa using happ), List.filter_nil] at hget
      have hci' := (Prod.mk.inj (Option.some.inj (Prod.mk.inj hget).2)).1
      rw [← hci', ← h.text]
    · rw [List.filter_cons_of_neg (by simpa using happ), List.filter_nil] at hget
      cases hget
  · rw [if_neg hok] at hget
    cases hget

/-- **All readers of the key agree.** -/
theorem readers_agree {env : Env} {id : Int} {s : Keyed}
    (h : Machine.Reach (Keyed.next env id) (SecretFirst id) (KeyEmpty id) s) :
    (∀ ci ci' c' nodeId, ci.insId = id →
      dbNodeInstanceControlGet env s.clc ci = (c', some (ci', nodeId)) →
        ci'.osmSecret = (dbInstanceFindSecret env s.clc id).2.2 ∧ ci'.osmSecret = s.last) ∧
    ∃ r, s.clc.db.instancesById id = [r] ∧ Web.rxBytes r.key = (s.sums.map Prod.fst).getD 0 ∧
      Web.txBytes r.key = (s.sums.map Prod.snd).getD 0 := by
  obtain ⟨r, k, hk, hord⟩ := h.inv (I := Keyed.Ordered id)
    (fun _ h0 => by
      obtain ⟨hlast, hsums, r, hrow, hkey⟩ := h0
      exact ⟨r, {}, ⟨hrow, hkey, nofun, hlast.symm, hsums.symm⟩, fun _ => rfl⟩)
    fun _ _ _ hi hq hn => next_ordered hi hq hn
  refine ⟨?_, r, hk.row, ?_⟩
  · intro ci ci' c' nodeId hci hget
    obtain ⟨hsel, hsec⟩ := controlGet_holds hk hci hget
    rw [findSecret_holds hk hsel, hsec, ← hk.last]
    cases hs : k.secret with
    | some t =>
      rw [Key.strtok_secret hk.ok hs, Key.find_secret hk.ok hs]
      exact ⟨rfl, rfl⟩
    | none =>
      have htext : k.text = none := by
        rw [Key.text, hs, hord hs]
      rw [htext]
      exact ⟨rfl, rfl⟩
  · obtain ⟨hrx, htx⟩ := Key.web_sums hk.ok hk.text
    rw [hrx, htx, ← hk.sums, Option.map_map, Option.map_map]
    exact ⟨rfl, rfl⟩

/-- A test for `SecretFirst`. -/
def secretFirst (s : Keyed) : KeyCall → Bool
  | .secret _ => true
  | .status ii _ => s.last.isSome && ii.all fun i => i.ip.isNone

theorem secretFirst_sound {id : Int} {s : Keyed} {ev : KeyCall} (h : secretFirst s ev = true) :
    SecretFirst id s ev := by
  cases ev with
  | secret t => exact ⟨trivial, fun ⟨_, _, _, he, _⟩ => nomatch he⟩
  | status ii nodeId =>
    obtain ⟨hlast, hip⟩ := Bool.and_eq_true_iff.mp h
    refine ⟨?_, ?_⟩
    · rintro i ip rfl hi
      have hnone : i.ip.isNone = true := hip
      rw [hi] at hnone
      cases hnone
    · intro _ hnone
      rw [hnone] at hlast
      cases hlast

/-- A report between two secrets. -/
def reportBetween : List KeyCall :=
  [.secret (cstr "a2719ad5-6f8a-4b1e-9d3f-0c5a7e2b4c61"), .status (some (.traffic 100 50)) (-1),
    .secret sampleSecret]

/-- The node is sent the second one, and the web interface shows the sums of the report. -/
theorem readers_agree_report :
    ∃ s ci' nodeId, Machine.execIf (Keyed.next Env.stocked 7) secretFirst reportBetween .seven =
      some s ∧
      (dbNodeInstanceControlGet Env.stocked s.clc { insId := 7 }).2 = some (ci', nodeId) ∧
      ci'.osmSecret = some sampleSecret ∧
      ∃ r, s.clc.db.instancesById 7 = [r] ∧ Web.rxBytes r.key = 100 ∧ Web.txBytes r.key = 50 := by
  have hrun : (Machine.execIf (Keyed.next Env.stocked 7) secretFirst reportBetween .seven).map
      (fun s =>
      (s.last, s.sums, (dbNodeInstanceControlGet Env.stocked s.clc { insId := 7 }).2.isSome)) =
      some (some sampleSecret, some (100, 50), true) := by
    decide +kernel
  obtain ⟨s, hs, heq⟩ := Option.map_eq_some_iff.mp hrun
  obtain ⟨hlast, heq'⟩ := Prod.mk.inj heq
  obtain ⟨hsums, hsome⟩ := Prod.mk.inj heq'
  have hreach : Machine.Reach (Keyed.next Env.stocked 7) (SecretFirst 7) (KeyEmpty 7) s :=
    (Machine.Reach.of_init seven_keyEmpty).of_execIf (fun _ _ => secretFirst_sound) hs
  obtain ⟨⟨ci', nodeId⟩, hget⟩ := Option.isSome_iff_exists.mp hsome
  obtain ⟨hagree, r, hr, hrx, htx⟩ := readers_agree hreach
  refine ⟨s, ci', nodeId, hs, hget, ?_, r, hr, ?_, ?_⟩
  · exact ((hagree { insId := 7 } ci' _ nodeId rfl (Prod.ext rfl hget)).2).trans hlast
  · rw [hrx, hsums]
    rfl
  · rw [htx, hsums]
    rfl

/-- A report before the first secret: the node is sent the port in place of a secret. -/
theorem readers_differ : ¬ ∀ s,
    Machine.Reach (Keyed.next Env.stocked 7) Machine.Always (KeyEmpty 7) s →
    ∀ ci', (dbNodeInstanceControlGet Env.stocked s.clc { insId := 7 }).2.map Prod.fst = some ci' →
      ci'.osmSecret.getD [] = ((dbInstanceFindSecret Env.stocked s.clc 7).2.2).getD [] := by
  intro hall
  have hrun : (Machine.exec (Keyed.next Env.stocked 7) [.status (some (.traffic 100 50)) (-1)]
      .seven).map (fun s => ((dbNodeInstanceControlGet Env.stocked s.clc { insId := 7 }).2.map
        (fun q => q.1.osmSecret), (dbInstanceFindSecret Env.stocked s.clc 7).2.2)) =
      some (some (some (cstr "0")), some []) := by
    decide +kernel
  obtain ⟨s, hs, heq⟩ := Option.map_eq_some_iff.mp hrun
  obtain ⟨hget, hfind⟩ := Prod.mk.inj heq
  obtain ⟨q, hq, hsec⟩ := Option.map_eq_some_iff.mp hget
  have hbad := hall s ((Machine.Reach.of_init seven_keyEmpty).of_exec (fun _ _ _ => trivial) hs) q.1
    (by rw [hq]; rfl)
  rw [hsec, hfind] at hbad
  revert hbad
  decide

end LuoYun

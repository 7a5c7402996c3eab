import LuoYun.Clc.Queue
import LuoYun.Proof.Outside
import Mathlib.Data.List.TakeWhile

/-!
# Traffic accounting

The traffic of an instance is kept in its row: the totals in columns `rx` and `tx`, and in the text
of `key` once more the totals together with the counters of the last report. A report adds what the
counters have grown by; a counter that has become smaller means that the instance was rebooted.

`db_instance_update_status` is also called to write a status, with counters that are zero. Such a
call looks like a reboot, and a report of the same boot that comes after it is counted in full. The
accounting is exact in runs where no report follows such a call once its boot has had traffic, and
where the first report of a boot can be told from the last one of the boot before.
-/

namespace LuoYun

/-! ## The key -/

/-- Field `i` of a key, as a number. -/
def keyNum (key : Option Bytes) (i : Nat) : Int :=
  toUInt64 (((((keyFields 6 (nonEmpty key))[i]?).join).map atol).getD 0)

theorem keyStat_sum1 (key : Option Bytes) (ii : InstanceInfo) :
    (keyStat key ii).sum1 = toUInt64 (keyNum key 2 + ii.rxBytes -
      if keyNum key 3 ≤ ii.rxBytes then keyNum key 3 else 0) := rfl

theorem keyStat_sum2 (key : Option Bytes) (ii : InstanceInfo) :
    (keyStat key ii).sum2 = toUInt64 (keyNum key 4 + ii.txBytes -
      if keyNum key 3 ≤ ii.rxBytes then keyNum key 5 else 0) := rfl

theorem keyNum_nonneg (key : Option Bytes) (i : Nat) : 0 ≤ keyNum key i := by
  unfold keyNum toUInt64
  omega

/-- A colon ends a field. -/
theorem keyFields_colon (n : Nat) {s : Bytes} (rest : Bytes) (h : ∀ b ∈ s, b ≠ 58) :
    keyFields (n + 1) (some (s ++ 58 :: rest)) = some s :: keyFields n (some rest) := by
  have htake : (s ++ 58 :: rest).takeWhile (· ≠ 58) = s := by
    rw [List.takeWhile_append_of_pos (by simpa using h)]
    simp
  have hdrop : (s ++ 58 :: rest).dropWhile (· ≠ 58) = 58 :: rest := by
    rw [List.dropWhile_append_of_pos (by simpa using h)]
    simp
  cases hs : s ++ 58 :: rest with
  | nil => exact absurd hs (by simp)
  | cons b t =>
    rw [keyFields, ← hs, htake, hdrop]
    simp

/-- The last field has no colon behind it. -/
theorem keyFields_last (n : Nat) {s : Bytes} (hne : s ≠ []) (h : ∀ b ∈ s, b ≠ 58) :
    keyFields (n + 1) (some s) = some s :: keyFields n none := by
  have htake : s.takeWhile (· ≠ 58) = s := List.takeWhile_eq_self_iff.mpr (by simpa using h)
  have hdrop : s.dropWhile (· ≠ 58) = [] := List.dropWhile_eq_nil_iff.mpr (by simpa using h)
  cases hs : s with
  | nil => exact absurd hs hne
  | cons b t =>
    rw [keyFields, ← hs, htake, hdrop]
    simp

theorem dec_no_colon {x : Int} : ∀ b ∈ dec x, b ≠ 58 := by
  intro b hb hb'
  subst hb'
  rcases mem_dec hb with h | h <;> revert h <;> decide

theorem decL_no_colon {x : Int} : ∀ b ∈ decL x, b ≠ 58 := dec_no_colon

theorem decL_ne_nil (x : Int) : decL x ≠ [] := dec_ne_nil _

theorem secret_no_colon (key : Option Bytes) (ii : InstanceInfo) :
    ∀ b ∈ (keyStat key ii).secret, b ≠ 58 := by
  intro b hb
  have hsec : (keyStat key ii).secret = (((keyFields 6 (nonEmpty key))[0]?).join).getD [] := rfl
  rw [hsec] at hb
  match hk : nonEmpty key with
  | none =>
    rw [hk] at hb
    exact absurd hb List.not_mem_nil
  | some [] =>
    rw [hk] at hb
    exact absurd hb List.not_mem_nil
  | some (a :: t) =>
    rw [hk] at hb
    have hmem : b ∈ (a :: t).takeWhile fun x => decide (x ≠ 58) := hb
    simpa using List.mem_takeWhile_imp hmem

theorem nonEmpty_some {t : Bytes} (h : t ≠ []) : nonEmpty (some t) = some t := by
  cases t with
  | nil => exact absurd rfl h
  | cons b t => rfl

theorem cstr_colon : cstr ":" = [58] := by decide

theorem append_colons (a b c d e f : Bytes) :
    a ++ [58] ++ b ++ [58] ++ c ++ [58] ++ d ++ [58] ++ e ++ [58] ++ f =
      a ++ 58 :: (b ++ 58 :: (c ++ 58 :: (d ++ 58 :: (e ++ 58 :: f)))) := by
  simp only [List.append_assoc, List.cons_append, List.nil_append]

/-- Six fields with colons between them. -/
theorem keyFields_six {a b c d e f : Bytes} (ha : ∀ x ∈ a, x ≠ 58) (hb : ∀ x ∈ b, x ≠ 58)
    (hc : ∀ x ∈ c, x ≠ 58) (hd : ∀ x ∈ d, x ≠ 58) (he : ∀ x ∈ e, x ≠ 58) (hf : ∀ x ∈ f, x ≠ 58)
    (hne : f ≠ []) :
    keyFields 6 (some (a ++ 58 :: (b ++ 58 :: (c ++ 58 :: (d ++ 58 :: (e ++ 58 :: f)))))) =
      [some a, some b, some c, some d, some e, some f] := by
  rw [keyFields_colon _ _ ha, keyFields_colon _ _ hb, keyFields_colon _ _ hc,
    keyFields_colon _ _ hd, keyFields_colon _ _ he, keyFields_last _ hne hf, keyFields]

theorem keyFields_keyText {k : KeyStat} (ii : InstanceInfo) (h : ∀ b ∈ k.secret, b ≠ 58) :
    keyFields 6 (nonEmpty (some (keyText k ii))) =
      [some k.secret, some (dec k.gport), some (decL k.sum1), some (decL ii.rxBytes),
        some (decL k.sum2), some (decL ii.txBytes)] := by
  have htext : keyText k ii = k.secret ++ 58 :: (dec k.gport ++ 58 :: (decL k.sum1 ++ 58 ::
      (decL ii.rxBytes ++ 58 :: (decL k.sum2 ++ 58 :: decL ii.txBytes)))) := by
    unfold keyText
    rw [cstr_colon]
    exact append_colons ..
  have hne : keyText k ii ≠ [] := by
    rw [htext]
    exact List.append_ne_nil_of_right_ne_nil _ (List.cons_ne_nil _ _)
  rw [nonEmpty_some hne, htext]
  exact keyFields_six h dec_no_colon decL_no_colon decL_no_colon decL_no_colon decL_no_colon
    (decL_ne_nil _)

/-- A counter is read back from the text it was written to. -/
theorem toUInt64_decL {x : Int} (h0 : 0 ≤ x) (h : x < 2 ^ 63) : toUInt64 (atol (decL x)) = x := by
  have hx : (x + 9223372036854775808) % 18446744073709551616 - 9223372036854775808 = x := by omega
  rw [decL, hx, atol_dec h0 h]
  unfold toUInt64
  omega

theorem keyNum_of_field {key : Option Bytes} {i : Nat} {t : Bytes} {l : List (Option Bytes)}
    (h : keyFields 6 (nonEmpty key) = l) (hi : l[i]? = some (some t)) :
    keyNum key i = toUInt64 (atol t) := by
  rw [keyNum, h, hi]
  rfl

/-- **The key is read back as it was written.** -/
theorem keyNum_keyText {k : KeyStat} {ii : InstanceInfo} (h : ∀ b ∈ k.secret, b ≠ 58)
    (h1 : 0 ≤ k.sum1) (h1' : k.sum1 < 2 ^ 63) (h2 : 0 ≤ k.sum2) (h2' : k.sum2 < 2 ^ 63)
    (hrx : (ii.rxBytes : Int) < 2 ^ 63) (htx : (ii.txBytes : Int) < 2 ^ 63) :
    keyNum (some (keyText k ii)) 2 = k.sum1 ∧ keyNum (some (keyText k ii)) 3 = ii.rxBytes ∧
      keyNum (some (keyText k ii)) 4 = k.sum2 ∧ keyNum (some (keyText k ii)) 5 = ii.txBytes := by
  have hf := keyFields_keyText ii h
  refine ⟨?_, ?_, ?_, ?_⟩
  · rw [keyNum_of_field hf rfl]
    exact toUInt64_decL h1 h1'
  · rw [keyNum_of_field hf rfl]
    exact toUInt64_decL (Int.natCast_nonneg _) hrx
  · rw [keyNum_of_field hf rfl]
    exact toUInt64_decL h2 h2'
  · rw [keyNum_of_field hf rfl]
    exact toUInt64_decL (Int.natCast_nonneg _) htx

/-! ## The row -/

/-- What `db_instance_update_status` makes of a row. -/
def InstanceRow.updated (r : InstanceRow) (ii : InstanceInfo) (nodeId : Int) : InstanceRow :=
  (assignKey r (some ii)).set ((assignNode r nodeId).set
    ((assignStatus r (some ii)).set ((assignIp r (some ii)).set r)))

/-- The other assignments leave the row's id alone. -/
theorem assignIp_id (r r' : InstanceRow) (ii : Option InstanceInfo) :
    ((assignIp r ii).set r').id = r'.id := by
  unfold assignIp
  split
  · rfl
  · split <;> rfl

theorem assignStatus_id (r r' : InstanceRow) (ii : Option InstanceInfo) :
    ((assignStatus r ii).set r').id = r'.id := by
  unfold assignStatus
  split
  · rfl
  · split <;> rfl

theorem assignNode_id (r r' : InstanceRow) (nodeId : Int) :
    ((assignNode r nodeId).set r').id = r'.id := by
  unfold assignNode
  repeat' split
  all_goals rfl

/-- The key and the columns of the totals. -/
theorem updated_spec (r : InstanceRow) (ii : InstanceInfo) (nodeId : Int) :
    (r.updated ii nodeId).id = r.id ∧
      (r.updated ii nodeId).key = some (keyText (keyStat r.key ii) ii) ∧
      (r.updated ii nodeId).rx = (keyStat r.key ii).sum1 ∧
      (r.updated ii nodeId).tx = (keyStat r.key ii).sum2 := by
  refine ⟨?_, rfl, rfl, rfl⟩
  show ((assignNode r nodeId).set _).id = r.id
  rw [assignNode_id, assignStatus_id, assignIp_id]

/-- The call finds the row of instance `id`, its statement fits the buffers of the function and no
text in it ends a literal, and the database carries it out. -/
structure Goes (env : Env) (c : Clc) (id : Int) (ii : InstanceInfo) (nodeId : Int)
    (r : InstanceRow) : Prop where
  row : c.db.instancesById id = [r]
  live : r.status.any (· ≠ DomainS.delete) = true
  int32 : IsInt32 id
  select : env.ok .dbSelect c.io.tick = true
  exec : env.ok .dbExec (c.io.tick + 1) = true
  quotable : quotable [(ii.ip).getD [], keySecret (r.key.getD [])] = true
  ip : (assignIp r (some ii)).text.length < 100
  status : (assignStatus r (some ii)).text.length < 20
  node : (assignNode r nodeId).text.length < 20
  key : (assignKey r (some ii)).text.length < 256

/-- An update finds the rows of an instance where they were. -/
theorem update_comp_id {id : Int} (p : InstanceRow → Bool) {f : InstanceRow → InstanceRow}
    (hf : ∀ x, (f x).id = x.id) :
    ((fun x : InstanceRow => x.id == id) ∘ fun x => if p x then f x else x) =
      fun x => x.id == id := by
  funext x
  simp only [Function.comp_apply]
  split
  · rw [hf]
  · rfl

/-- An update of the row of instance `id`. -/
theorem instancesById_update {db : Db} {id : Int} {r : InstanceRow} {p : InstanceRow → Bool}
    {f : InstanceRow → InstanceRow} (h : db.instancesById id = [r]) (hp : p r = true)
    (hf : ∀ x, (f x).id = x.id) : (db.updateInstance p f).instancesById id = [f r] := by
  unfold Db.instancesById Db.updateInstance at *
  dsimp only
  rw [List.filter_map, update_comp_id p hf, h, List.map_cons, List.map_nil, if_pos hp]

theorem keyText_assign_ne (r : InstanceRow) (ii : InstanceInfo) :
    (assignKey r (some ii)).text ≠ [] := by
  have hc : cstr "key = '" ≠ [] := by decide
  unfold assignKey
  dsimp only
  intro hnil
  simp only [List.append_eq_nil_iff] at hnil
  exact hc hnil.1.1.1.1.1.1.1

/-- The statement fits its buffer. -/
theorem sql_fits {id : Int} (h : IsInt32 id) {a b d e sep : Bytes} (ha : a.length ≤ 99)
    (hb : b.length ≤ 19) (hd : d.length ≤ 19) (he : e.length ≤ 255) (hs : sep.length ≤ 18) :
    ¬ lineMax ≤
      (cstr "UPDATE instance SET " ++ a ++ cstr " " ++ b ++ cstr " " ++ d ++ cstr " " ++ e ++
      cstr " " ++ sep ++ cstr " WHERE status != 100 and id = " ++ dec id ++ cstr ";").length := by
  have h1 : (cstr "UPDATE instance SET ").length = 20 := by decide
  have h2 : (cstr " WHERE status != 100 and id = ").length = 30 := by decide
  have h3 : (cstr " ").length = 1 := by decide
  have h4 : (cstr ";").length = 1 := by decide
  have h5 := length_dec_int32 h
  have h6 : lineMax = 2048 := rfl
  simp only [List.length_append, h1, h2, h3, h4]
  omega

/-- **A call that goes through** writes the row. -/
theorem dbInstanceUpdateStatus_written {env : Env} {c : Clc} {id : Int} {ii : InstanceInfo}
    {nodeId : Int} {r : InstanceRow} (h : Goes env c id ii nodeId r) :
    (dbInstanceUpdateStatus env c id (some ii) nodeId).1.db.instancesById id =
      [r.updated ii nodeId] := by
  have hkey := keyText_assign_ne r ii
  have hsel : dbSelect env c (fun db => db.instancesById id) = some [r] := by
    rw [dbSelect, if_pos h.select, h.row]
  have hrid : r.id = id := by
    have hmem : r ∈ c.db.instancesById id := by rw [h.row]; exact List.mem_singleton.mpr rfl
    simpa using (List.mem_filter.mp hmem).2
  have hquot : quotable [((some ii).bind InstanceInfo.ip).getD [],
      (some ii).elim [] fun _ => keySecret (r.key.getD [])] = true := h.quotable
  have hexec : env.ok .dbExec c.called.io.tick = true := h.exec
  unfold dbInstanceUpdateStatus
  rw [hsel]
  dsimp only
  rw [if_neg fun hall => hkey hall.2.2.2, if_pos ⟨h.ip, h.status, h.node, h.key⟩, dbExecText,
    if_neg (sql_fits h.int32 (List.length_take_le _ _) (List.length_take_le _ _)
      (List.length_take_le _ _) (List.length_take_le _ _) ?_), if_pos hquot, dbExec, if_pos hexec]
  · refine instancesById_update h.row ?_ fun x => ?_
    · rw [hrid, h.live]
      simp
    · show ((assignNode r nodeId).set _).id = x.id
      rw [assignNode_id, assignStatus_id, assignIp_id]
  · split
    · decide
    · decide

/-! ## Runs of an instance -/

/-- What the node has reported: the sums of the last counters of the earlier boots, and the last
counters of this one. -/
structure Account where
  rxBase : Nat := 0
  txBase : Nat := 0
  rx : Nat := 0
  tx : Nat := 0
  /-- The last call in this boot was a report. -/
  reported : Bool := false

/-- The CLC, and what has been reported about one instance. -/
structure Metered where
  clc : Clc
  acc : Account := {}

/-- The traffic in a row. -/
def InstanceRow.traffic (r : InstanceRow) : Option Bytes × Int × Int := (r.key, r.rx, r.tx)

/-- The traffic in the rows of an instance. -/
def Clc.traffic (c : Clc) (id : Int) : List (Option Bytes × Int × Int) :=
  (c.db.instancesById id).map InstanceRow.traffic

/-- What may happen. -/
inductive TrafficEvent where
  /-- The node reports the instance. -/
  | report (ii : InstanceInfo)
  /-- The CLC writes a status. -/
  | call (ii : InstanceInfo) (nodeId : Int)
  /-- The instance is rebooted. -/
  | boot
  /-- Something that leaves the traffic of the instance alone. -/
  | around (clc : Clc)

/-- What an event does. The counters of a report do not decrease within a boot, and a call that
writes a status has none. -/
def Metered.next (env : Env) (id : Int) (s : Metered) : TrafficEvent → Option (Res Metered)
  | .report ii =>
    if s.acc.rx ≤ ii.rxBytes ∧ s.acc.tx ≤ ii.txBytes then
      some (.ok ⟨(dbInstanceUpdateStatus env s.clc id (some ii) (-1)).1,
        { s.acc with rx := ii.rxBytes, tx := ii.txBytes, reported := true }⟩)
    else none
  | .call ii nodeId =>
    if ii.rxBytes = 0 ∧ ii.txBytes = 0 then
      some (.ok ⟨(dbInstanceUpdateStatus env s.clc id (some ii) nodeId).1,
        { s.acc with reported := false }⟩)
    else none
  | .boot =>
    some (.ok ⟨s.clc, { rxBase := s.acc.rxBase + s.acc.rx, txBase := s.acc.txBase + s.acc.tx }⟩)
  | .around clc =>
    if clc.traffic id = s.clc.traffic id then some (.ok ⟨clc, s.acc⟩) else none

/-- The statement of the event goes through, and no total reaches `2 ^ 63`. -/
def Through (env : Env) (id : Int) (s : Metered) : TrafficEvent → Prop
  | .report ii => (∃ r, Goes env s.clc id ii (-1) r) ∧ s.acc.rxBase + ii.rxBytes < 2 ^ 63 ∧
      s.acc.txBase + ii.txBytes < 2 ^ 63
  | .call ii nodeId => ∃ r, Goes env s.clc id ii nodeId r
  | _ => True

/-- The call can be told from a reboot, and a reboot from its absence. A report follows another one
of its boot, or it is the first traffic of its boot and finds no counters in the key or a larger
one; and a status is not written over a counter of sent bytes alone. -/
def ToldApart (id : Int) (s : Metered) : TrafficEvent → Prop
  | .report ii => ∀ r, s.clc.db.instancesById id = [r] → s.acc.reported = true ∨
      s.acc.rx = 0 ∧ s.acc.tx = 0 ∧
        ((ii.rxBytes : Int) < keyNum r.key 3 ∨ keyNum r.key 3 = 0 ∧ keyNum r.key 5 = 0)
  | .call _ _ => ∀ r, s.clc.db.instancesById id = [r] → 0 < keyNum r.key 3 ∨ keyNum r.key 5 = 0
  | _ => True

/-- An instance whose row has no traffic in it. -/
def Untouched (id : Int) (s : Metered) : Prop :=
  s.acc = {} ∧ ∃ r, s.clc.db.instancesById id = [r] ∧ r.rx = 0 ∧ r.tx = 0 ∧
    ∀ i, 2 ≤ i → keyNum r.key i = 0

/-- The row says what was reported. -/
structure Accounted (acc : Account) (r : InstanceRow) : Prop where
  rx : r.rx = (acc.rxBase + acc.rx : Nat)
  tx : r.tx = (acc.txBase + acc.tx : Nat)
  rxBound : acc.rxBase + acc.rx < 2 ^ 63
  txBound : acc.txBase + acc.tx < 2 ^ 63
  sum1 : keyNum r.key 2 = r.rx
  sum2 : keyNum r.key 4 = r.tx
  last : acc.reported = true → keyNum r.key 3 = acc.rx ∧ keyNum r.key 5 = acc.tx

/-- **One call**, when the sums come out as they should. -/
theorem updated_accounted {acc : Account} {r : InstanceRow} {ii : InstanceInfo} {nodeId : Int}
    (h1 : (keyStat r.key ii).sum1 = (acc.rxBase + acc.rx : Nat))
    (h2 : (keyStat r.key ii).sum2 = (acc.txBase + acc.tx : Nat))
    (hb1 : acc.rxBase + acc.rx < 2 ^ 63) (hb2 : acc.txBase + acc.tx < 2 ^ 63)
    (hrx63 : ii.rxBytes < 2 ^ 63) (htx63 : ii.txBytes < 2 ^ 63)
    (hlast : acc.reported = true → ii.rxBytes = acc.rx ∧ ii.txBytes = acc.tx) :
    Accounted acc (r.updated ii nodeId) := by
  obtain ⟨-, hkey, hrx, htx⟩ := updated_spec r ii nodeId
  obtain ⟨k2, k3, k4, k5⟩ := keyNum_keyText (secret_no_colon r.key ii)
    (by rw [h1]; exact Int.natCast_nonneg _) (by rw [h1]; exact_mod_cast hb1)
    (by rw [h2]; exact Int.natCast_nonneg _) (by rw [h2]; exact_mod_cast hb2)
    (by exact_mod_cast hrx63) (by exact_mod_cast htx63)
  rw [← hkey] at k2 k3 k4 k5
  refine ⟨hrx.trans h1, htx.trans h2, hb1, hb2, k2.trans hrx.symm,
    k4.trans htx.symm, fun hrep => ?_⟩
  obtain ⟨l1, l2⟩ := hlast hrep
  rw [k3, k5, l1, l2]
  exact ⟨rfl, rfl⟩

theorem toUInt64_eq {x : Int} (h0 : 0 ≤ x) (h : x < 2 ^ 63) : toUInt64 x = x := by
  unfold toUInt64
  omega

/-- A report within the rules. -/
theorem report_accounted {acc : Account} {r : InstanceRow} {ii : InstanceInfo} (h : Accounted acc r)
    (hrx : acc.rx ≤ ii.rxBytes)
    (hb1 : acc.rxBase + ii.rxBytes < 2 ^ 63) (hb2 : acc.txBase + ii.txBytes < 2 ^ 63)
    (htold : acc.reported = true ∨ acc.rx = 0 ∧ acc.tx = 0 ∧
      ((ii.rxBytes : Int) < keyNum r.key 3 ∨ keyNum r.key 3 = 0 ∧ keyNum r.key 5 = 0)) :
    Accounted { acc with rx := ii.rxBytes, tx := ii.txBytes, reported := true }
      (r.updated ii (-1)) := by
  have e1 := keyStat_sum1 r.key ii
  have e2 := keyStat_sum2 r.key ii
  rw [h.sum1, h.rx] at e1
  rw [h.sum2, h.tx] at e2
  -- what the totals grow by, for a counter that goes on and for one that starts anew
  have hgrow : ((acc.rxBase + acc.rx : Nat) : Int) + ii.rxBytes -
        (if keyNum r.key 3 ≤ ii.rxBytes then keyNum r.key 3 else 0) =
          (acc.rxBase + ii.rxBytes : Nat) ∧
      ((acc.txBase + acc.tx : Nat) : Int) + ii.txBytes -
        (if keyNum r.key 3 ≤ ii.rxBytes then keyNum r.key 5 else 0) =
          (acc.txBase + ii.txBytes : Nat) := by
    rcases htold with hrep | ⟨f1, f2, hlt | ⟨k3, k5⟩⟩
    · obtain ⟨k3, k5⟩ := h.last hrep
      rw [k3, k5, if_pos (by omega), if_pos (by omega)]
      omega
    · rw [if_neg (by omega), if_neg (by omega), f1, f2]
      omega
    · rw [k3, k5, ite_self, f1, f2]
      omega
  rw [hgrow.1, toUInt64_eq (Int.natCast_nonneg _) (by exact_mod_cast hb1)] at e1
  rw [hgrow.2, toUInt64_eq (Int.natCast_nonneg _) (by exact_mod_cast hb2)] at e2
  exact updated_accounted e1 e2 hb1 hb2 (by omega) (by omega) fun _ => ⟨rfl, rfl⟩

/-- A status that is written within the rules. -/
theorem call_accounted {acc : Account} {r : InstanceRow} {ii : InstanceInfo} {nodeId : Int}
    (h : Accounted acc r) (hrx : ii.rxBytes = 0) (htx : ii.txBytes = 0)
    (htold : 0 < keyNum r.key 3 ∨ keyNum r.key 5 = 0) :
    Accounted { acc with reported := false } (r.updated ii nodeId) := by
  have e1 := keyStat_sum1 r.key ii
  have e2 := keyStat_sum2 r.key ii
  have hpos := keyNum_nonneg r.key 3
  rw [h.sum1, h.rx, hrx] at e1
  rw [h.sum2, h.tx, hrx, htx] at e2
  have hsame : ((acc.rxBase + acc.rx : Nat) : Int) + (0 : Nat) -
        (if keyNum r.key 3 ≤ (0 : Nat) then keyNum r.key 3 else 0) = (acc.rxBase + acc.rx : Nat) ∧
      ((acc.txBase + acc.tx : Nat) : Int) + (0 : Nat) -
        (if keyNum r.key 3 ≤ (0 : Nat) then keyNum r.key 5 else 0) =
          (acc.txBase + acc.tx : Nat) := by
    by_cases hk : keyNum r.key 3 ≤ (0 : Nat)
    · rw [if_pos hk, if_pos hk]
      omega
    · rw [if_neg hk, if_neg hk]
      omega
  rw [hsame.1, toUInt64_eq (Int.natCast_nonneg _) (by exact_mod_cast h.rxBound)] at e1
  rw [hsame.2, toUInt64_eq (Int.natCast_nonneg _) (by exact_mod_cast h.txBound)] at e2
  exact updated_accounted e1 e2 h.rxBound h.txBound (by omega) (by omega) fun hf => (nomatch hf)

theorem boot_accounted {acc : Account} {r : InstanceRow} (h : Accounted acc r) :
    Accounted { rxBase := acc.rxBase + acc.rx, txBase := acc.txBase + acc.tx } r :=
  ⟨h.rx, h.tx, h.rxBound, h.txBound, h.sum1, h.sum2, fun hf => (nomatch hf)⟩

theorem Accounted.congr {acc : Account} {r r' : InstanceRow} (h : Accounted acc r)
    (heq : r'.traffic = r.traffic) : Accounted acc r' := by
  obtain ⟨hkey, hrest⟩ := Prod.mk.inj heq
  obtain ⟨hrx, htx⟩ := Prod.mk.inj hrest
  constructor
  · rw [hrx, h.rx]
  · rw [htx, h.tx]
  · exact h.rxBound
  · exact h.txBound
  · rw [hkey, hrx, h.sum1]
  · rw [hkey, htx, h.sum2]
  · rw [hkey]
    exact h.last

/-- The row of an instance whose traffic was left alone. -/
theorem traffic_row {c c' : Clc} {id : Int} {r : InstanceRow} (h : c.db.instancesById id = [r])
    (hsame : c'.traffic id = c.traffic id) :
    ∃ r', c'.db.instancesById id = [r'] ∧ r'.traffic = r.traffic := by
  rw [Clc.traffic, Clc.traffic, h] at hsame
  obtain ⟨r', hr', heq⟩ := List.map_eq_singleton_iff.mp hsame
  exact ⟨r', hr', heq⟩

theorem assignNode_traffic (r r' : InstanceRow) (nodeId : Int) :
    ((assignNode r nodeId).set r').traffic = r'.traffic := by
  unfold assignNode
  repeat' split
  all_goals rfl

theorem assignNode_short (r : InstanceRow) {nodeId : Int} (h : nodeId < 10 ^ 8) :
    (assignNode r nodeId).text.length < 20 := by
  unfold assignNode
  split
  · decide
  · split
    · decide
    · split
      · decide
      · rename_i h0 _ _
        have hlen : (dec nodeId).length ≤ 8 := by
          rw [dec, if_neg h0]
          exact length_decNat (by decide) (by omega)
        have h1 : (cstr "node_id = ").length = 10 := by decide
        have h2 : (cstr ",").length = 1 := by decide
        simp only [List.length_append, h1, h2]
        omega

theorem dbExecText_traffic (env : Env) (c : Clc) (sql : Bytes) {id : Int} {texts : List Bytes}
    {f : Db → Db} (hq : quotable texts = true)
    (hf : ((f c.db).instancesById id).map InstanceRow.traffic = c.traffic id) :
    (dbExecText env c sql texts f).1.traffic id = c.traffic id := by
  rw [dbExecText]
  split
  · rfl
  · rw [dbExec]
    split
    · exact hf
    · rfl

theorem updateInstance_traffic {db : Db} {id : Int} {p : InstanceRow → Bool}
    {f : InstanceRow → InstanceRow} (hid : ∀ x, (f x).id = x.id)
    (hf : ∀ x, (f x).traffic = x.traffic) :
    ((db.updateInstance p f).instancesById id).map InstanceRow.traffic =
      (db.instancesById id).map InstanceRow.traffic := by
  unfold Db.instancesById Db.updateInstance
  rw [List.filter_map, List.map_map, update_comp_id p hid]
  refine List.map_congr_left fun x _ => ?_
  simp only [Function.comp_apply]
  split
  · exact hf x
  · rfl

/-- A call without `ii`, which `__job_start_instance` makes to write the node, is one of the events
that leave the traffic alone. -/
theorem dbInstanceUpdateStatus_null (env : Env) (c : Clc) (id : Int) {nodeId : Int}
    (h : nodeId < 10 ^ 8) : (dbInstanceUpdateStatus env c id none nodeId).1.traffic id =
      c.traffic id := by
  unfold dbInstanceUpdateStatus
  split
  · rfl
  · rfl
  · rfl
  · rename_i r hsel
    have hip : (assignIp r none).text.length < 100 := Nat.zero_lt_succ _
    have hstatus : (assignStatus r none).text.length < 20 := Nat.zero_lt_succ _
    have hkey : (assignKey r none).text.length < 256 := Nat.zero_lt_succ _
    dsimp only
    split
    · rfl
    · rw [if_pos ⟨hip, hstatus, assignNode_short r h, hkey⟩]
      refine dbExecText_traffic env c.called _ rfl ?_
      exact updateInstance_traffic (assignNode_id r · nodeId) (assignNode_traffic r · nodeId)

/-- The row of the instance says what was reported. -/
def Metered.Exact (id : Int) (s : Metered) : Prop :=
  ∃ r, s.clc.db.instancesById id = [r] ∧ Accounted s.acc r

/-- **One event** within the rules: the row stays exact and no total decreases. -/
theorem next_exact {env : Env} {id : Int} {s t : Metered} {ev : TrafficEvent} (h : s.Exact id)
    (hthrough : Through env id s ev) (htold : ToldApart id s ev)
    (hnext : s.next env id ev = some (.ok t)) :
    t.Exact id ∧ s.acc.rxBase + s.acc.rx ≤ t.acc.rxBase + t.acc.rx ∧
      s.acc.txBase + s.acc.tx ≤ t.acc.txBase + t.acc.tx := by
  obtain ⟨r, hr, hacc⟩ := h
  cases ev with
  | report ii =>
    rw [Metered.next] at hnext
    split at hnext
    · rename_i hle
      cases hnext
      obtain ⟨⟨r', hgoes⟩, hb1, hb2⟩ := hthrough
      obtain rfl : r' = r := List.singleton_inj.mp (hgoes.row.symm.trans hr)
      refine ⟨⟨_, dbInstanceUpdateStatus_written hgoes, ?_⟩, ?_, ?_⟩
      · exact report_accounted hacc hle.1 hb1 hb2 (htold r' hr)
      · exact Nat.add_le_add_left hle.1 _
      · exact Nat.add_le_add_left hle.2 _
    · cases hnext
  | call ii nodeId =>
    rw [Metered.next] at hnext
    split at hnext
    · rename_i hzero
      cases hnext
      obtain ⟨r', hgoes⟩ := hthrough
      obtain rfl : r' = r := List.singleton_inj.mp (hgoes.row.symm.trans hr)
      exact ⟨⟨_, dbInstanceUpdateStatus_written hgoes,
        call_accounted hacc hzero.1 hzero.2 (htold r' hr)⟩, Nat.le_refl _, Nat.le_refl _⟩
    · cases hnext
  | boot =>
    cases hnext
    exact ⟨⟨r, hr, boot_accounted hacc⟩, Nat.le_refl _, Nat.le_refl _⟩
  | around clc =>
    rw [Metered.next] at hnext
    split at hnext
    · rename_i hsame
      cases hnext
      obtain ⟨r', hr', heq⟩ := traffic_row hr hsame
      exact ⟨⟨r', hr', hacc.congr heq⟩, Nat.le_refl _, Nat.le_refl _⟩
    · cases hnext

theorem untouched_exact {id : Int} {s : Metered} (h : Untouched id s) : s.Exact id := by
  obtain ⟨hacc, r, hr, hrx, htx, hkey⟩ := h
  refine ⟨r, hr, ?_⟩
  rw [hacc]
  exact ⟨hrx, htx, by decide, by decide, (hkey 2 (by decide)).trans hrx.symm,
    (hkey 4 (by decide)).trans htx.symm, fun hf => (nomatch hf)⟩

/-- **Traffic accounting.** In every run whose statements go through and whose calls and reboots can
be told apart, the totals in the row are those that were reported, and they never decrease. -/
theorem traffic_exact {env : Env} {id : Int} {s : Metered}
    (h : Machine.Reach (Metered.next env id)
      (fun s ev => Through env id s ev ∧ ToldApart id s ev) (Untouched id) s) :
    (∃ r, s.clc.db.instancesById id = [r] ∧ r.rx = (s.acc.rxBase + s.acc.rx : Nat) ∧
      r.tx = (s.acc.txBase + s.acc.tx : Nat)) ∧
    ∀ ev t r r', Through env id s ev → ToldApart id s ev → s.next env id ev = some (.ok t) →
      s.clc.db.instancesById id = [r] → t.clc.db.instancesById id = [r'] →
        r.rx ≤ r'.rx ∧ r.tx ≤ r'.tx := by
  have hex : s.Exact id := Machine.Reach.inv h (fun _ h0 => untouched_exact h0)
    fun u ev t hu hq hn => (next_exact hu hq.1 hq.2 hn).1
  have hsame : ∀ {u : Metered} {r : InstanceRow}, u.Exact id → u.clc.db.instancesById id = [r] →
      r.rx = (u.acc.rxBase + u.acc.rx : Nat) ∧ r.tx = (u.acc.txBase + u.acc.tx : Nat) := by
    rintro u r ⟨r', hr', hacc⟩ hr
    obtain rfl : r' = r := List.singleton_inj.mp (hr'.symm.trans hr)
    exact ⟨hacc.rx, hacc.tx⟩
  constructor
  · obtain ⟨r, hr, hacc⟩ := hex
    exact ⟨r, hr, hacc.rx, hacc.tx⟩
  · intro ev t r r' hthrough htold hn hr hr'
    obtain ⟨hex', h1, h2⟩ := next_exact hex hthrough htold hn
    obtain ⟨e1, e2⟩ := hsame hex hr
    obtain ⟨e1', e2'⟩ := hsame hex' hr'
    rw [e1, e2, e1', e2']
    exact ⟨by exact_mod_cast h1, by exact_mod_cast h2⟩

/-- A report of instance 7. -/
def InstanceInfo.traffic (rx tx : Nat) : InstanceInfo :=
  { id := 7, status := DomainS.running, rxBytes := rx, txBytes := tx }

/-- The row of instance 7, and the CLC before anything was reported of it. -/
def InstanceRow.seven : InstanceRow :=
  { id := 7, id_pos := seven_pos, nodeId := some 1, status := some DomainS.running }

def Metered.seven : Metered := { clc := .oneNode [] }

theorem keyNum_none (i : Nat) : keyNum none i = 0 := by
  match i with
  | 0 => rfl
  | 1 => rfl
  | 2 => rfl
  | 3 => rfl
  | 4 => rfl
  | 5 => rfl
  | n + 6 => rfl

theorem seven_untouched : Untouched 7 .seven :=
  ⟨rfl, .seven, rfl, rfl, rfl, fun i _ => keyNum_none i⟩

theorem seven_goes : Goes Env.plain Metered.seven.clc 7 (.traffic 100 50) (-1) .seven :=
  ⟨rfl, by decide, ⟨by decide, by decide⟩, rfl, rfl, by decide, by decide, by decide, by decide,
    by decide⟩

/-- The CLC after the first report. -/
def Metered.sevenOnce : Metered where
  clc := (dbInstanceUpdateStatus Env.plain Metered.seven.clc 7 (some (.traffic 100 50)) (-1)).1
  acc := { rx := 100, tx := 50, reported := true }

theorem seven_once_row : Metered.sevenOnce.clc.db.instancesById 7 =
    [InstanceRow.seven.updated (.traffic 100 50) (-1)] := by
  have h := dbInstanceUpdateStatus_written seven_goes
  rw [Metered.sevenOnce]
  with_reducible exact h

theorem seven_goes_on : Goes Env.plain Metered.sevenOnce.clc 7 (.traffic 150 60) (-1)
    (InstanceRow.seven.updated (.traffic 100 50) (-1)) := by
  refine ⟨seven_once_row, ?_, ⟨by decide, by decide⟩, rfl, rfl, ?_, ?_, ?_, ?_, ?_⟩
  all_goals decide

/-- Two reports of one boot. -/
theorem traffic_exact_two : ∃ s, Machine.exec (Metered.next Env.plain 7)
    [.report (.traffic 100 50), .report (.traffic 150 60)] .seven = some s ∧
    ∃ r, s.clc.db.instancesById 7 = [r] ∧ r.rx = 150 ∧ r.tx = 60 := by
  have h0 : Machine.Reach (Metered.next Env.plain 7) (fun s ev => Through Env.plain 7 s ev ∧
      ToldApart 7 s ev) (Untouched 7) .seven := .of_init seven_untouched
  have hfirst : ToldApart 7 .seven (.report (.traffic 100 50)) := by
    intro r hr
    obtain rfl : InstanceRow.seven = r := List.singleton_inj.mp hr
    exact .inr ⟨rfl, rfl, .inr ⟨keyNum_none 3, keyNum_none 5⟩⟩
  have hsecond : ToldApart 7 .sevenOnce (.report (.traffic 150 60)) := fun r _ => .inl rfl
  have hgo : Through Env.plain 7 .seven (.report (.traffic 100 50)) :=
    ⟨⟨_, seven_goes⟩, by decide, by decide⟩
  have hgo' : Through Env.plain 7 .sevenOnce (.report (.traffic 150 60)) :=
    ⟨⟨_, seven_goes_on⟩, by decide, by decide⟩
  have hnext : Metered.next Env.plain 7 .seven (.report (.traffic 100 50)) =
      some (.ok .sevenOnce) := rfl
  have h1 := h0.step _ ⟨hgo, hfirst⟩ hnext
  have h2 := h1.step _ ⟨hgo', hsecond⟩ rfl
  refine ⟨_, ?_, (traffic_exact h2).1⟩
  rw [Machine.exec_cons hnext]
  rfl

/-- A status that is written between two reports of one boot: the second report is counted in full.
-/
theorem traffic_double_counted : ¬ ∀ s, Machine.Reach (Metered.next Env.plain 7) Machine.Always
    (Untouched 7) s → ∃ r, s.clc.db.instancesById 7 = [r] ∧
      r.rx = (s.acc.rxBase + s.acc.rx : Nat) := by
  intro hall
  have hrun : (Machine.exec (Metered.next Env.plain 7) [.report (.traffic 100 50),
      .call (.traffic 0 0) (-1), .report (.traffic 150 60)] .seven).map (fun s =>
        ((s.clc.db.instancesById 7).map InstanceRow.rx, s.acc.rxBase + s.acc.rx)) =
      some ([250], 150) := by
    decide +kernel
  obtain ⟨s, hs, heq⟩ := Option.map_eq_some_iff.mp hrun
  obtain ⟨hrx, hacc⟩ := Prod.mk.inj heq
  obtain ⟨r, hr, hrx'⟩ := hall s ((Machine.Reach.of_init seven_untouched).of_exec
    (fun _ _ _ => trivial) hs)
  rw [hr] at hrx
  have : r.rx = 250 := List.singleton_inj.mp hrx
  omega

end LuoYun

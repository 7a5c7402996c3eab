import LuoYun.Proof.RunInv

/-!
# The order of the statuses of a connection

A connection should be authenticated before it is registered, and registered before its OS manager
runs or serves. Every handler asks for the status it builds on, except `eh_process_osm_report`: it
writes RUNNING or SERVING into the status of any connection. In runs in which such a report comes
after an accepted register request the order holds (`status_order`), and one report on a new
connection is enough to break it (`status_order_broken`).

A run is followed up to the first fault, such as `wrongType`.
-/

namespace LuoYun

/-- The status is no further than what has happened on the connection. -/
structure InOrder (s : Slot) : Prop where
  authenticated : Flag.authenticated ≤ s.ent.status → s.hist.verified = true
  registered : Flag.registered ≤ s.ent.status → s.hist.verified = true ∧ s.hist.registered = true

/-- A report of the state of an application comes after an accepted register request. -/
def ReportInTurn (c : Clc) (i : Nat) (type size : Int) : Prop :=
  type = PktType.osmReport → size = 4 → ∀ v, PayloadInt c i v → LyS.appRunning ≤ v →
    v ≤ LyS.appFailed → (c.hist i).registered = true

/-- The rules of a run whose reports come in turn. -/
def orderedRules : Rules where
  wild := True
  web := True
  live := False
  ordered := True
  strict := False
  quiet := False

theorem ReportInTurn.packetOk {env : Env} {c : Clc} {i : Nat} {type size : Int}
    (h : ReportInTurn c i type size) : PacketOk orderedRules env c i type size where
  text := .inl trivial
  bounded := .inl trivial
  live := fun _ hl => hl.elim
  typed := fun _ => trivial
  writes := fun _ => trivial
  web := fun _ => ⟨trivial, id⟩
  query := fun _ => id
  report := fun ht => ⟨fun hs v hv h1 h2 => ⟨fun _ => h ht hs v hv h1 h2, fun hst => hst.elim⟩, id⟩
  reply := fun _ hs => hs.elim
  register := fun _ hs => hs.elim
  quiet := fun hq => hq.elim
  xml := fun hq => hq.elim
  unverified := fun hq => hq.elim
  registers := nodeRegistersOk_free env id id c type
  nodeAuth := fun _ ht => ht.elim
  osmTyped := fun ht => ht.elim

/-- The invariant behind `InOrder`: nothing is registered on an unverified connection either. -/
structure InOrder' (s : Slot) : Prop extends InOrder s where
  first : s.hist.registered = true → s.hist.verified = true

theorem InOrder'.of_low {s : Slot} (hlow : s.ent.status < Flag.authenticated)
    (hfirst : s.hist.registered = true → s.hist.verified = true) : InOrder' s where
  authenticated := fun h => absurd h (by omega)
  registered := fun h => by
    have : Flag.authenticated ≤ s.ent.status := Int.le_trans (by decide) h
    omega
  first := hfirst

/-- A change that leaves the status and the history alone. -/
theorem InOrder'.of_eq {s s' : Slot} (h : InOrder' s) (hst : s'.ent.status = s.ent.status)
    (hhist : s'.hist.verified = s.hist.verified ∧ s'.hist.registered = s.hist.registered) :
    InOrder' s' where
  authenticated := by rw [hst, hhist.1]; exact h.authenticated
  registered := by rw [hst, hhist.1, hhist.2]; exact h.registered
  first := by rw [hhist.1, hhist.2]; exact h.first

theorem inOrder_act {s s' : Slot} (h : InOrder' s)
    (ha : SlotAct orderedRules s s') : InOrder' s' := by
  cases ha with
  | release e hist => exact .of_low (by rw [status_released]; decide) h.first
  | init e hist type _ _ _ => exact h.of_eq (status_inited e type) ⟨rfl, rfl⟩
  | online e hist d _ =>
    refine .of_low ?_ h.first
    rw [status_claiming, status_withStatus _ (by decide) (by decide)]
    decide
  | verified e hist _ _ =>
    have hreg : Flag.registered ≤ e.status → hist.registered = true :=
      fun hst => (h.registered hst).2
    refine ⟨⟨fun _ => rfl, fun hst => ⟨rfl, ?_⟩⟩, fun _ => rfl⟩
    dsimp only at hst
    split at hst
    · exact hreg hst
    · rw [status_withStatus _ (by decide) (by decide)] at hst
      exact absurd hst (by decide)
  | enable e hist d b _ _ _ _ => exact h.of_eq (status_withEnabled e b) ⟨rfl, rfl⟩
  | disable e hist => exact h.of_eq (status_withEnabled e false) ⟨rfl, rfl⟩
  | registerNode e hist nd _ _ hlo _ =>
    have hv := h.authenticated hlo
    exact ⟨⟨fun _ => hv, fun _ => ⟨hv, rfl⟩⟩, fun _ => hv⟩
  | registerOsm e hist tag _ hlo _ _ =>
    have hv := h.authenticated hlo
    exact ⟨⟨fun _ => hv, fun _ => ⟨hv, rfl⟩⟩, fun _ => hv⟩
  | report e hist status _ hr _ _ =>
    have hreg := hr trivial
    have hv := h.first hreg
    exact ⟨⟨fun _ => hv, fun _ => ⟨hv, hreg⟩⟩, fun _ => hv⟩
  | _ => exact h.of_eq rfl ⟨rfl, rfl⟩

theorem inOrder_kept : Kept orderedRules fun c => ∀ j, InOrder' (c.slot j) := by
  refine kept_slots ?_ ?_ fun s s' => inOrder_act
  · intro e fd i p n _ _ _
    exact .of_low (by show ((0 : BitVec 8) &&& Flag.statusMask).toNat < Flag.authenticated; decide)
      nofun
  · intro e hist p h
    exact h.of_eq rfl ⟨rfl, rfl⟩

theorem inOrder_boot {w : World} (h : Boot w) (j : Nat) : InOrder' (w.clc.slot j) := by
  rcases boot_slot h j with hs | ⟨fd, p, -, hs⟩ <;> rw [hs]
  · exact .of_low (by decide) nofun
  · exact .of_low (by show ((0 : BitVec 8) &&& Flag.statusMask).toNat < Flag.authenticated; decide)
      nofun

/-- **The status of every connection is in order**, in every state of every run in which the
reports come in turn. -/
theorem status_order (env : Env) (w : World)
    (h : Reachable env (OnPacket ReportInTurn) w) (j : Nat) :
    InOrder (w.clc.slot j) :=
  ((reachable_inv inOrder_kept id id (fun _ => inOrder_boot)
    (fun _ _ _ _ _ _ hp => hp.packetOk) h).1 j).toInOrder

/-- An instance that has the key. -/
def oneInstance : Db where
  instances := [{ id := 1, id_pos := Int.one_pos, key := some (cstr "luoyun") }]

/-- Its OS manager authenticates, registers, and reports that the application runs. -/
def authRegisterReport : List Event :=
  [.accept 4 fun _ => 0,
    .recv 1 (packet PktType.osmAuthRequest (le32 1 ++ List.replicate luoyunAuthDataLen 0) ++
      packet PktType.osmAuthReply (le32 1 ++
        xorFrom (fun n => keystreamLuoyun.getD n 0) 0
          (strncpy luoyunAuthDataLen (Env.keyed.uuid 0).text)) ++
      packet PktType.osmRegisterRequest (cstr "1 7 10.0.0.1") ++
      packet PktType.osmReport (le32 LyS.appRunning)),
    .round, .round, .round, .round, .round]

/-- A report comes from a connection that has registered. -/
def turnTest (c : Clc) (i : Nat) (type _size : Int) : Bool :=
  type != PktType.osmReport || (c.hist i).registered

theorem turnTest_inTurn (c : Clc) (i : Nat) (type size : Int) (h : turnTest c i type size = true) :
    ReportInTurn c i type size := by
  intro ht _ v _ _ _
  simpa [turnTest, ht] using h

theorem status_order_serving :
    ∃ w, Machine.exec (World.next .keyed) authRegisterReport (World.start oneInstance []) = some w ∧
      (w.clc.slot 1).ent.status = Flag.serving ∧ InOrder (w.clc.slot 1) := by
  have hrun : (Machine.execIf (World.next .keyed) (World.passes turnTest) authRegisterReport
      (World.start oneInstance [])).map (fun w => (w.clc.slot 1).ent.status) =
        some Flag.serving := by
    decide +kernel
  obtain ⟨w, hw, hst⟩ := Option.map_eq_some_iff.mp hrun
  refine ⟨w, Machine.exec_of_execIf hw, hst, status_order .keyed w ?_ 1⟩
  exact .of_execIf (.of_init (start_boot oneInstance []))
    (fun _ _ => onPacket_of_passes turnTest_inTurn) hw

/-- A new connection whose first packet is a report. -/
def reportFirst : List Event :=
  [.accept 4 fun _ => 0, .recv 1 (packet PktType.osmReport (le32 LyS.appRunning)), .round]

/-- It is serving, and nobody has been verified. -/
theorem status_order_broken :
    ¬ ∀ (env : Env) (w : World), Reachable env Machine.Always w → ∀ j, InOrder (w.clc.slot j) := by
  intro h
  have hrun : (Machine.exec (World.next .plain) reportFirst (World.start {} [])).map (fun w =>
      ((w.clc.slot 1).ent.status, (w.clc.slot 1).hist.verified)) = some (Flag.serving, false) := by
    decide +kernel
  obtain ⟨w, hw, hs⟩ := Option.map_eq_some_iff.mp hrun
  have hin := h .plain w (.of_exec (.of_init (start_boot {} [])) (fun _ _ _ => trivial) hw) 1
  obtain ⟨hst, hv⟩ := Prod.mk.inj hs
  have := hin.authenticated (by rw [hst]; decide)
  rw [hv] at this
  cases this

end LuoYun

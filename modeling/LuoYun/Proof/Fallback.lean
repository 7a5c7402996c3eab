import LuoYun.Proof.Admission

/-!
# The node that stands in

A destroy or a query job is meant to go to any node when the node of its instance is not there.
`__job_control_instance_simple` asks `ly_entity_head` for one and gets the *entity* id of the first
node on the list; it goes on with that number as if it were the *database* id of a node. The request
gets out only if some node happens to have it, and that node is registered.
-/

namespace LuoYun

/-! ## What sends nothing -/

theorem dbExec_sent (env : Env) (c : Clc) (f : Db → Db) :
    (dbExec env c f).1.io.sent = c.io.sent := by
  unfold dbExec
  split <;> rfl

theorem dbExecText_sent (env : Env) (c : Clc) (sql : Bytes) (texts : List Bytes) (f : Db → Db) :
    (dbExecText env c sql texts f).1.io.sent = c.io.sent := by
  unfold dbExecText
  split
  · rfl
  · split
    · exact dbExec_sent env c f
    · rfl

theorem dbInstanceUpdateStatus_sent (env : Env) (c : Clc) (id : Int)
    (ii : Option InstanceInfo) (nodeId : Int) :
    (dbInstanceUpdateStatus env c id ii nodeId).1.io.sent = c.io.sent := by
  unfold dbInstanceUpdateStatus
  split
  · rfl
  · rfl
  · rfl
  · dsimp only
    split
    · rfl
    · split
      · exact dbExecText_sent ..
      · rfl

theorem releaseOsm_sent (c : Clc) (insId : Int) : (releaseOsm c insId).io.sent = c.io.sent := by
  unfold releaseOsm
  dsimp only
  split <;> rfl

theorem jobBusyRemove_sent (c : Clc) (job : LYJobInfo) :
    (jobBusyRemove c job).io.sent = c.io.sent := by
  unfold jobBusyRemove
  split
  · dsimp only
    split <;> rfl
  · rfl

theorem jobRemove_sent (c : Clc) (job : LYJobInfo) : (jobRemove c job).io.sent = c.io.sent :=
  jobBusyRemove_sent c job

/-- The end of a job that has not timed out sends nothing. -/
theorem jobEnd_sent {env : Env} {c : Clc} {job : LYJobInfo} {status : Int}
    (h : jobIsTimeout status = false) :
    (jobEnd env c job status).1.io.sent = c.io.sent := by
  unfold jobEnd
  rw [if_neg (by rw [h]; decide)]
  split
  · rfl
  · split
    · exact (dbInstanceUpdateStatus_sent ..).trans (releaseOsm_sent c job.jTargetId)
    · split
      · exact dbExec_sent ..
      · rfl

theorem jobUpdateStatus_sent {env : Env} {c : Clc} {id status : Int} {r : Clc × Int}
    (hs : jobIsTimeout status = false) (h : jobUpdateStatus env c id status = .ok r) :
    r.1.io.sent = c.io.sent := by
  unfold jobUpdateStatus at h
  split at h
  · obtain rfl := Except.ok.inj h
    rfl
  · dsimp only at h
    split at h
    · cases h
    · rename_i job hjob
      have hdb : (dbJobUpdateStatus env (jobStamp env c id status) job).1.io.sent = c.io.sent :=
        dbExec_sent env (jobStamp env c id status) _
      split at h
      · obtain rfl := Except.ok.inj h
        exact hdb
      · split at h
        · have hst := dbInstanceUpdateStatus_sent env
            (dbJobUpdateStatus env (jobStamp env c id status) job).1
            job.jTargetId (some { ip := some (cstr "0.0.0.0"), status := DomainS.start })
            (lyEntityDbId (dbJobUpdateStatus env (jobStamp env c id status) job).1.store job.jEntId)
          split at h
          · obtain rfl := Except.ok.inj h
            exact hst.trans hdb
          · obtain rfl := Except.ok.inj h
            exact (jobBusyRemove_sent _ job).trans (hst.trans hdb)
        · split at h
          · split at h
            · obtain rfl := Except.ok.inj h
              exact (jobRemove_sent _ job).trans hdb
            · obtain rfl := Except.ok.inj h
              exact (jobRemove_sent _ job).trans ((jobEnd_sent hs).trans hdb)
          · obtain rfl := Except.ok.inj h
            exact hdb

theorem jobFail_sent {env : Env} {c c' : Clc} {id status : Int} (hs : jobIsTimeout status = false)
    (h : jobFail env c id status = .ok c') : c'.io.sent = c.io.sent := by
  unfold jobFail at h
  split at h
  · cases h
  · rename_i r hr
    obtain rfl := Except.ok.inj h
    exact jobUpdateStatus_sent hs hr

/-! ## The request -/

/-- The request of a simple control job, as far as it goes into the text. -/
def simpleRequest (env : Env) (job : LYJobInfo) : NodeCtrlInstance :=
  { reqId := job.jId, reqAction := job.jAction, insId := job.jTargetId,
    insDomain := some (insDomain env job.jTargetId) }

/-- The row of the instance of the job, the way `db_node_instance_control_get` finds it. -/
def instanceRows (env : Env) (c : Clc) (job : LYJobInfo) : List InstanceRow :=
  (c.db.instancesById job.jTargetId).filter fun r => (env.appliance r.applianceId).isSome

/-- The node that is recorded for the instance is missing or not registered. -/
def NodeAway (s : EntityStore) (row : InstanceRow) : Prop :=
  row.nodeId.getD 0 ≤ 0 ∨ lyEntityIsRegistered s
    (lyEntityFindByDb s .node (row.nodeId.getD 0)) = false

/-- A request went out to a registered node. -/
def SentToRegistered (c c' : Clc) : Prop :=
  ∃ i ∈ c.store.nodeList, lyEntityIsRegistered c.store i = true ∧ ∃ data,
    c'.io.sent = c.io.sent ++ [⟨(c.store.ents i).fd, PktType.clcInstanceControlRequest, data⟩]

theorem not_sentToRegistered {c c' : Clc} (h : c'.io.sent = c.io.sent) :
    ¬ SentToRegistered c c' := by
  rintro ⟨i, -, -, data, hsent⟩
  rw [h] at hsent
  have := congrArg List.length hsent
  simp at this

variable {env : Env} {c c' : Clc} {job : LYJobInfo} {row : InstanceRow}

theorem jobUpdateStatus_running_works (hw : env.Works) {id : Int} {r : Clc × Int}
    (h : jobUpdateStatus env c id LyS.running = .ok r) :
    r.2 = 0 ∧ r.1.db.instances = c.db.instances := by
  rw [jobUpdateStatus, if_neg (by decide)] at h
  dsimp only at h
  split at h
  · cases h
  · rename_i job hjob
    have hexec : (dbJobUpdateStatus env (jobStamp env c id LyS.running) job).2 = 0 ∧
        (dbJobUpdateStatus env (jobStamp env c id LyS.running) job).1.db.instances =
          c.db.instances := by
      rw [dbJobUpdateStatus, dbExec, if_pos (hw.ok _ _)]
      exact ⟨rfl, rfl⟩
    rw [if_neg (by rw [hexec.1]; decide), if_neg (by decide), if_neg (by decide)] at h
    obtain rfl := Except.ok.inj h
    exact ⟨rfl, hexec.2⟩

/-- What is read of the instance. -/
theorem controlGet_row (hw : env.Works) {r : Clc} (hrow : instanceRows env c job = [row])
    (hdb : r.db.instances = c.db.instances) :
    ∃ ci, dbNodeInstanceControlGet env r { reqId := job.jId, insId := job.jTargetId } =
        (r.called, some (ci, row.nodeId.getD 0)) ∧
      lyxmlDataInstanceOther { ci with reqAction := job.jAction } =
        lyxmlDataInstanceOther (simpleRequest env job) := by
  have hrows : dbSelect env r (fun db => (db.instancesById job.jTargetId).filter fun x =>
      (env.appliance x.applianceId).isSome) = some [row] := by
    rw [dbSelect, if_pos (hw.ok _ _), ← hrow, instanceRows, Db.instancesById, hdb]
    rfl
  unfold dbNodeInstanceControlGet
  dsimp only
  rw [hrows]
  exact ⟨_, rfl, rfl⟩

theorem pickNode_away {s : EntityStore} (hany : env.cfg.nodeSelect = nodeSelectAny)
    (hact : job.jAction = LyA.nodeDestroyInstance ∨ job.jAction = LyA.nodeQueryInstance)
    (haway : NodeAway s row) : pickNode env s job.jAction (row.nodeId.getD 0) =
      lyEntityHead s .node := by
  rw [pickNode, if_pos ⟨hany, hact⟩]
  split
  · rfl
  · rename_i hpos
    rw [if_neg]
    rw [haway.resolve_left hpos]
    decide

theorem isOnline_of_registered {s : EntityStore} {ent : Int}
    (h : lyEntityIsRegistered s ent = true) :
    lyEntityIsOnline s ent = true := by
  unfold lyEntityIsRegistered lyEntityIsOnline lyEntityIs at *
  split
  · rename_i hslot
    rw [hslot] at h
    cases h
  · rename_i i hslot
    rw [hslot] at h
    have h3 : Flag.registered ≤ (s.ents i).status := of_decide_eq_true h
    unfold Flag.registered at h3
    refine decide_eq_true ?_
    unfold Flag.online
    omega

/-- A request to a registered node goes out, and one to any other fails the job. -/
theorem jobSendSimple_sent (hw : env.Works) {id nodeId : Int} {ci : NodeCtrlInstance} {c1 : Clc}
    (hstore : c1.store = c.store) (hsent : c1.io.sent = c.io.sent)
    (hid : ∀ i ∈ c.store.nodeList, (c.store.ents i).id = i ∧ i < lyEntityMax)
    (hfd : ∀ i ∈ c.store.nodeList, lyEntityIsRegistered c.store i = true → 0 ≤ (c.store.ents i).fd)
    (hxml : (lyxmlDataInstanceOther ci).isSome) (h : jobSendSimple env c1 id ci nodeId = .ok c') :
    SentToRegistered c c' ↔ lyEntityIsRegistered c.store (lyEntityFindByDb c.store .node nodeId) =
      true := by
  unfold jobSendSimple at h
  rw [hstore] at h
  dsimp only at h
  split at h
  · rename_i hoff
    refine iff_of_false (not_sentToRegistered ((jobFail_sent (by decide) h).trans hsent))
      fun hreg => ?_
    rw [isOnline_of_registered hreg] at hoff
    cases hoff
  split at h
  · rename_i hunreg
    refine iff_of_false (not_sentToRegistered ((jobFail_sent (by decide) h).trans hsent))
      fun hreg => ?_
    rw [hreg] at hunreg
    cases hunreg
  rename_i hreg
  have hreg : lyEntityIsRegistered c.store (lyEntityFindByDb c.store .node nodeId) =
      true := by simpa using hreg
  refine iff_of_true ?_ hreg
  -- the id belongs to a node on the list
  obtain ⟨i, hi, hfind⟩ : ∃ i ∈ c.store.nodeList, lyEntityFindByDb c.store .node nodeId = i := by
    unfold lyEntityFindByDb at hreg ⊢
    split at hreg
    · cases hreg
    · rename_i hpos
      rw [if_neg hpos]
      split at hreg
      · cases hreg
      · rename_i j hj
        have hmem : j ∈ c.store.nodeList := List.mem_of_find?_eq_some hj
        exact ⟨j, hmem, (hid j hmem).1⟩
  rw [hfind] at hreg h
  obtain ⟨xml, hx⟩ := Option.isSome_iff_exists.mp hxml
  rw [hx] at h
  dsimp only at h
  have hne : ¬ (xml = []) ∧ xml.length < luoyunXmlDataMax := by
    unfold lyxmlDataInstanceOther xmlFits at hx
    split at hx
    · cases hx
    · rename_i hbad
      obtain rfl := Option.some.inj hx
      exact ⟨fun he => hbad (.inl he), Nat.lt_of_not_le fun hle => hbad (.inr hle)⟩
  have hfdi : lyEntityFd (setJobEnt c1 id i).store i = (c.store.ents i).fd := by
    rw [show (setJobEnt c1 id i).store = c.store from hstore, lyEntityFd,
      slot?_natCast (hid i hi).2]
  have hframe : lyPacketFrame (c.store.ents i).fd PktType.clcInstanceControlRequest xml = .ok
      (le32 PktType.clcInstanceControlRequest ++ le32 xml.length ++ xml) := by
    have hlen := hne.2
    unfold luoyunXmlDataMax at hlen
    rw [lyPacketFrame, if_neg, if_neg]
    · unfold luoyunPacketSizeMax sizeofLYPacketHeader
      omega
    · rintro (hneg | hneg | hnil)
      · have := hfd i hi hreg
        omega
      · exact absurd hneg (by decide)
      · exact hne.1 hnil
  rw [hfdi, lyPacketSend, hframe] at h
  dsimp only at h
  rw [hw.sendmsg] at h
  obtain rfl := Except.ok.inj h
  exact ⟨i, hi, hreg, xml, congrArg (· ++ _) hsent⟩

/-- **The node that stands in gets the request exactly when the entity id of the first node on the
list is the database id of a registered one.** -/
theorem fallback_sends_iff (hw : env.Works) (hany : env.cfg.nodeSelect = nodeSelectAny)
    (hact : job.jAction = LyA.nodeDestroyInstance ∨ job.jAction = LyA.nodeQueryInstance)
    (hrow : instanceRows env c job = [row]) (haway : NodeAway c.store row)
    (hid : ∀ i ∈ c.store.nodeList, (c.store.ents i).id = i ∧ i < lyEntityMax)
    (hfd : ∀ i ∈ c.store.nodeList, lyEntityIsRegistered c.store i = true → 0 ≤ (c.store.ents i).fd)
    (hxml : (lyxmlDataInstanceOther (simpleRequest env job)).isSome)
    (h : jobControlInstanceSimple env c job = .ok c') :
    SentToRegistered c c' ↔
      lyEntityIsRegistered c.store (lyEntityFindByDb c.store .node (lyEntityHead c.store .node)) =
        true := by
  unfold jobControlInstanceSimple at h
  split at h
  · cases h
  rename_i r hr
  obtain ⟨hret, hdb⟩ := jobUpdateStatus_running_works hw hr
  have hstore := jobUpdateStatus_running hr
  have hsent : r.1.io.sent = c.io.sent := jobUpdateStatus_sent (by decide) hr
  rw [if_neg (by rw [hret]; decide)] at h
  obtain ⟨ci, hget, hreq⟩ := controlGet_row hw hrow hdb
  rw [hget] at h
  dsimp only at h
  rw [Clc.called_store, hstore, pickNode_away hany hact haway] at h
  split at h
  · -- no node has a database id: the job is finished without a request
    rename_i hnone
    have hfind : lyEntityFindByDb c.store .node (lyEntityHead c.store .node) = -1 := by
      rw [lyEntityFindByDb, if_pos hnone]
    rw [hfind]
    refine iff_of_false (not_sentToRegistered ((jobFail_sent (by decide) h).trans ?_))
      (by simp [lyEntityIsRegistered, lyEntityIs, slot?])
    split
    · exact (dbInstanceUpdateStatus_sent ..).trans hsent
    · exact hsent
  · refine jobSendSimple_sent hw ?_ ?_ hid hfd ?_ h
    · exact hstore
    · exact hsent
    · rw [hreq]
      exact hxml

/-- Instance 7, which has run on no node and is to be deleted. -/
def InstanceRow.homeless : InstanceRow :=
  { id := 7, id_pos := seven_pos, status := some DomainS.delete }

/-- A registered node in slot `i` with database id 1, that instance, and a job to destroy it. -/
def Clc.homeless (i : Nat) : Clc where
  store := .ofNodes [(i, 1, .roomy 0 4096)]
  db := { instances := [.homeless] }
  jobs := [.onSeven 1 LyA.nodeDestroyInstance]

theorem stocked_works : Env.stocked.Works := ⟨fun _ _ => rfl, fun _ => rfl⟩

/-- The node is in slot 3: no node has database id 3, and the job fails with a registered node in
sight. -/
theorem fallback_misses : ¬ ∀ (env : Env) (c c' : Clc) (job : LYJobInfo) (row : InstanceRow),
    env.Works → env.cfg.nodeSelect = nodeSelectAny →
    (job.jAction = LyA.nodeDestroyInstance ∨ job.jAction = LyA.nodeQueryInstance) →
    instanceRows env c job = [row] → NodeAway c.store row →
    (∃ i ∈ c.store.nodeList, lyEntityIsRegistered c.store i = true) →
    jobControlInstanceSimple env c job = .ok c' → SentToRegistered c c' := by
  intro hall
  have hrun : (jobControlInstanceSimple Env.stocked (.homeless 3)
      (.onSeven 1 LyA.nodeDestroyInstance)).toOption.map (fun c' => c'.io.sent) = some [] := by
    rfl
  cases hok : jobControlInstanceSimple Env.stocked (.homeless 3)
    (.onSeven 1 LyA.nodeDestroyInstance) with
  | error e =>
    rw [hok] at hrun
    cases hrun
  | ok c' =>
    rw [hok] at hrun
    refine not_sentToRegistered (c := .homeless 3) (Option.some.inj hrun) ?_
    exact hall Env.stocked (.homeless 3) c' (.onSeven 1 LyA.nodeDestroyInstance)
      .homeless stocked_works rfl
      (.inl rfl) rfl (.inl (by decide)) ⟨3, by decide, by decide⟩ hok

/-- The node is in slot 1, and its database id is 1 too. -/
theorem fallback_sends_one : ∃ c',
    jobControlInstanceSimple Env.stocked (.homeless 1) (.onSeven 1 LyA.nodeDestroyInstance) =
      .ok c' ∧
      SentToRegistered (.homeless 1) c' := by
  have hrun : (jobControlInstanceSimple Env.stocked (.homeless 1)
      (.onSeven 1 LyA.nodeDestroyInstance)).toOption.isSome = true := by
    decide +kernel
  cases hok : jobControlInstanceSimple Env.stocked (.homeless 1)
    (.onSeven 1 LyA.nodeDestroyInstance) with
  | error e =>
    rw [hok] at hrun
    cases hrun
  | ok c' =>
    have haway : NodeAway (Clc.homeless 1).store .homeless := .inl (by decide)
    exact ⟨c', rfl, (fallback_sends_iff stocked_works rfl (.inl rfl) rfl haway (by decide)
      (by decide) (by decide +kernel) hok).mpr (by decide)⟩

end LuoYun

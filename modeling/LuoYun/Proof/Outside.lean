import LuoYun.Clc.Events

/-!
# Calls that leave the program's own state alone

Sending a packet, running a statement and reading the clock change the database and what is on
the wire, and nothing of what the CLC keeps in memory: not the entity store, not the job queue.
`Outside c c'` says so of two states, once for all of these calls; what they do to the database
is a matter of other modules.
-/

namespace LuoYun

/-- Only the database and the outside world differ. -/
structure Outside (c c' : Clc) : Prop where
  store : c'.store = c.store
  jobs : c'.jobs = c.jobs
  hist : c'.hist = c.hist
  pending : c'.jobInsPendingNr = c.jobInsPendingNr

namespace Outside

variable {c c' c'' : Clc}

theorem refl (c : Clc) : Outside c c := ⟨rfl, rfl, rfl, rfl⟩

theorem trans (h : Outside c c') (h' : Outside c' c'') : Outside c c'' :=
  ⟨h'.store.trans h.store, h'.jobs.trans h.jobs, h'.hist.trans h.hist, h'.pending.trans h.pending⟩

theorem called (c : Clc) : Outside c c.called := ⟨rfl, rfl, rfl, rfl⟩

end Outside

/-! ## The calls themselves -/

theorem lyPacketSend_outside (env : Env) (c : Clc) (fd type : Int) (data : Bytes) :
    Outside c (lyPacketSend env c fd type data).1 := by
  unfold lyPacketSend
  split <;> exact ⟨rfl, rfl, rfl, rfl⟩

theorem dbExec_outside (env : Env) (c : Clc) (f : Db → Db) : Outside c (dbExec env c f).1 := by
  unfold dbExec
  split <;> exact ⟨rfl, rfl, rfl, rfl⟩

theorem dbExecText_outside (env : Env) (c : Clc) (sql : Bytes) (texts : List Bytes) (f : Db → Db) :
    Outside c (dbExecText env c sql texts f).1 := by
  unfold dbExecText
  split
  · exact .refl c
  · split
    · exact dbExec_outside env c f
    · exact ⟨rfl, rfl, rfl, rfl⟩

/-! ## The functions of `postgres.c` -/

theorem dbNodeFind_outside (env : Env) (c : Clc) (key : NodeKey) :
    Outside c (dbNodeFind env c key).1 := by
  unfold dbNodeFind
  split
  · split <;> exact .called c
  · split
    · exact .refl c
    · split
      · split <;> exact .called c
      · dsimp only
        split <;> exact ⟨rfl, rfl, rfl, rfl⟩

theorem dbNodeUpdateSecret_outside (env : Env) (c : Clc) (id : Int) (secret : Option Bytes) :
    Outside c (dbNodeUpdateSecret env c id secret).1 := by
  unfold dbNodeUpdateSecret
  split
  · exact .refl c
  · exact dbExecText_outside ..

theorem dbNodeUpdate_outside (env : Env) (c : Clc) (id : Int) (nf : NodeInfo) :
    Outside c (dbNodeUpdate env c id nf).1 :=
  dbExecText_outside ..

theorem dbNodeEnable_outside (env : Env) (c : Clc) (id : Int) (enable : Bool) :
    Outside c (dbNodeEnable env c id enable).1 :=
  dbExec_outside ..

theorem dbNodeUpdateStatus_outside (env : Env) (c : Clc) (id status : Int) :
    Outside c (dbNodeUpdateStatus env c id status).1 :=
  dbExec_outside ..

theorem nodeInsertedRows_outside (env : Env) (c : Clc) (ip : Bytes) :
    Outside c (nodeInsertedRows env c ip).1 := by
  unfold nodeInsertedRows
  split
  · exact .called c
  · exact ⟨rfl, rfl, rfl, rfl⟩

theorem dbNodeInsert_outside {env : Env} {c : Clc} {nf : NodeInfo} {r : Clc × Int}
    (h : dbNodeInsert env c nf = .ok r) : Outside c r.1 := by
  unfold dbNodeInsert at h
  dsimp only at h
  have hexec := dbExecText_outside env c (sqlNodeInsert nf)
    [orNull nf.hostName, orNull nf.cpuModel, orNull nf.hostIp] fun db =>
      { db with nodes := db.nodes ++ [newNodeRow db.nodeIdSeq nf], nodeIdSeq := db.nodeIdSeq + 1 }
  generalize dbExecText env c (sqlNodeInsert nf) _ _ = q at h hexec
  have hrows := hexec.trans (nodeInsertedRows_outside env q.1 (orNull nf.hostIp))
  split at h
  · obtain rfl := Except.ok.inj h
    exact hexec
  · split at h
    · obtain rfl := Except.ok.inj h
      exact hexec
    · split at h
      · obtain rfl := Except.ok.inj h
        exact hrows
      · cases h
      · obtain rfl := Except.ok.inj h
        exact hrows

theorem dbJobGet_outside (env : Env) (c : Clc) (id : Int) : Outside c (dbJobGet env c id).1 := by
  unfold dbJobGet
  split <;> exact .called c

theorem dbJobUpdateStatus_outside (env : Env) (c : Clc) (job : LYJobInfo) :
    Outside c (dbJobUpdateStatus env c job).1 :=
  dbExec_outside ..

theorem dbInstanceUpdateSecret_outside (env : Env) (c : Clc) (id : Int) (secret : Bytes) :
    Outside c (dbInstanceUpdateSecret env c id secret).1 := by
  unfold dbInstanceUpdateSecret
  split
  · exact .called c
  · exact .called c
  · dsimp only
    split
    · exact .called c
    · exact (Outside.called c).trans (dbExecText_outside ..)

theorem dbInstanceUpdateStatus_outside (env : Env) (c : Clc) (id : Int) (ii : Option InstanceInfo)
    (nodeId : Int) : Outside c (dbInstanceUpdateStatus env c id ii nodeId).1 := by
  unfold dbInstanceUpdateStatus
  split
  · exact .called c
  · exact .called c
  · exact .called c
  · dsimp only
    split
    · exact .called c
    · split
      · exact (Outside.called c).trans (dbExecText_outside ..)
      · exact ⟨rfl, rfl, rfl, rfl⟩

theorem dbInstanceDelete_outside (env : Env) (c : Clc) (id : Int) :
    Outside c (dbInstanceDelete env c id).1 :=
  dbExec_outside ..

theorem dbInstanceGetNode_outside (env : Env) (c : Clc) (id : Int) :
    Outside c (dbInstanceGetNode env c id).1 := by
  unfold dbInstanceGetNode
  split <;> exact .called c

theorem dbNodeInstanceControlGet_outside (env : Env) (c : Clc) (ci : NodeCtrlInstance) :
    Outside c (dbNodeInstanceControlGet env c ci).1 := by
  unfold dbNodeInstanceControlGet
  split <;> exact .called c

theorem jobInternalQueryInstance_outside (env : Env) (c : Clc) (id : Int) :
    Outside c (jobInternalQueryInstance env c id).1 := by
  have hget := dbInstanceGetNode_outside env c id
  unfold jobInternalQueryInstance
  split
  · exact .refl c
  · dsimp only
    split
    · exact hget
    · split
      · exact hget
      · split
        · exact hget
        · split
          · exact hget
          · exact hget.trans (lyPacketSend_outside ..)

theorem renewSecret_outside (env : Env) (c : Clc) (ci : NodeCtrlInstance) :
    Outside c (renewSecret env c ci).1 := by
  unfold renewSecret
  split
  · dsimp only
    split <;> exact (Outside.called c).trans (dbInstanceUpdateSecret_outside ..)
  · exact .refl c

theorem jobRefuse_outside (env : Env) (c : Clc) (job : LYJobInfo) (status : Int) :
    Outside c (jobRefuse env c job status) :=
  (Outside.called c).trans ((Outside.called _).trans (dbJobUpdateStatus_outside ..))

theorem instanceInfoUpdate_outside (env : Env) (c : Clc) (root : XmlNode) :
    Outside c (instanceInfoUpdate env c root).1 := by
  unfold instanceInfoUpdate
  split
  · exact dbInstanceUpdateStatus_outside ..
  · exact .refl c

end LuoYun

import LuoYun.Clc.Postgres

/-!
# `lyjob.c` and `node.c`: the job queue

A job is a request of the web: run, stop or destroy an instance, enable a node. It is inserted
by `__process_web_job` if `job_check` lets it pass, sent to a node or carried out by
`job_dispatch`, and taken off the queue when `job_update_status` gives it a final status.

The queue is a list in insertion order and a job is addressed by its id, which `job_exist`
keeps unique. `job_remove` frees the job, so a function that goes on using one that is no
longer in the queue ends in `Fault.useAfterFree`.
-/

namespace LuoYun

/-! ## The queue -/

/-- `job_find`. -/
def jobFind (c : Clc) (id : Int) : Option LYJobInfo := c.jobs.find? fun j => j.jId == id

/-- `job_exist`. -/
def jobExist (c : Clc) (id : Int) : Bool := c.jobs.any fun j => id == j.jId

/-- Write to the job with this id. -/
def setJob (c : Clc) (id : Int) (f : LYJobInfo → LYJobInfo) : Clc :=
  { c with jobs := c.jobs.map fun j => if j.jId = id then f j else j }

/-- `job->j_ent_id = ent_id`. -/
def setJobEnt (c : Clc) (id ent : Int) : Clc :=
  setJob c id fun j => { j with jEntId := ent, jConn := (c.hist ent.toNat).serial }

/-- `job_insert`. -/
def jobInsert (c : Clc) (job : LYJobInfo) : Clc :=
  { c with jobs := c.jobs ++ [{ job with jPendingNr := -1 }] }

/-- `nd->ins_job_busy_nr--` if it is positive, on whatever the entity holds: the first `int` of
an `OSMInfo` is its tag. -/
def busyDec : EntityData → EntityData
  | .null => .null
  | .node nd =>
    if 0 < nd.insJobBusyNr then .node { nd with insJobBusyNr := nd.insJobBusyNr - 1 } else .node nd
  | .osm oi => if 0 < oi.tag then .osm { oi with tag := oi.tag - 1 } else .osm oi

/-- `job_busy_remove`. -/
def jobBusyRemove (c : Clc) (job : LYJobInfo) : Clc :=
  if job.jPendingNr = 0 then
    let c := setJob c job.jId fun j => { j with jPendingNr := -1 }
    match slot? job.jEntId with
    | none => c
    | some i => c.modifyEnt i fun e => { e with entity := busyDec e.entity }
  else c

/-- `job_remove`. -/
def jobRemove (c : Clc) (job : LYJobInfo) : Clc :=
  let c := jobBusyRemove c job
  { c with jobs := c.jobs.filter fun j => j.jId ≠ job.jId }

/-! ## `job_update_status` -/

/-- `job_internal_query_instance`. -/
def jobInternalQueryInstance (env : Env) (c : Clc) (id : Int) : Clc × Int :=
  if id ≤ 0 then (c, -1)
  else
    let r := dbInstanceGetNode env c id
    if r.2 ≤ 0 then (r.1, -1)
    else
      let ent := lyEntityFindByDb r.1.store .node r.2
      if ent < 0 ∨ lyEntityIsRegistered r.1.store ent = false then (r.1, -1)
      else
        let fd := lyEntityFd r.1.store ent
        if fd < 0 then (r.1, -1)
        else match lyxmlDataInstanceOther { reqAction := LyA.nodeQueryInstance, insId := id,
                                            insDomain := some (insDomain env id) } with
        | none => (r.1, -1)
        | some xml =>
          let r := lyPacketSend env r.1 fd PktType.clcInstanceControlRequest xml
          (r.1, if r.2 < 0 then -1 else 0)

/-- Release the OS manager of an instance, if it is connected. -/
def releaseOsm (c : Clc) (insId : Int) : Clc :=
  let ent := lyEntityFindByDb c.store .osm insId
  if 0 < ent then c.withStore (lyEntityRelease c.store ent).1 else c

/-- The status and the times that `job_update_status` writes into the job. -/
def jobStamp (env : Env) (c : Clc) (id status : Int) : Clc :=
  let now := env.time c.io.tick
  (setJob c id fun j => { j with
    jStatus := status
    jStarted := if jobIsStarted status then now else j.jStarted
    jEnded := if jobIsFinished status || jobIsTimeout status || jobIsCancelled status then now
      else j.jEnded
    jStarting := j.jStarting && status != LyS.waitingStartingOsm }).called

/-- What follows from a final status for the instance of the job. -/
def jobEnd (env : Env) (c : Clc) (job : LYJobInfo) (status : Int) : Clc × Int :=
  if jobIsTimeout status then
    let c := releaseOsm c job.jTargetId
    let r := dbInstanceUpdateStatus env c job.jTargetId (some { status := DomainS.needQuery }) (-1)
    ((jobInternalQueryInstance env r.1 job.jTargetId).1, r.2)
  else if (job.jAction = LyA.nodeRunInstance ∨ job.jAction = LyA.nodeFullrebootInstance) ∧
      status = LyS.finishedSuccess then (c, 0)
  else if job.jAction = LyA.nodeStopInstance ∧
      (status = LyS.finishedSuccess ∨ status = LyS.finishedInstanceNotRunning) then
    let c := releaseOsm c job.jTargetId
    dbInstanceUpdateStatus env c job.jTargetId
      (some { ip := some (cstr "0.0.0.0"), status := DomainS.stop }) (-1)
  else if job.jAction = LyA.nodeDestroyInstance ∧ status = LyS.finishedSuccess then
    dbInstanceDelete env c job.jTargetId
  else (c, 0)

/-- `job_update_status`. -/
def jobUpdateStatus (env : Env) (c : Clc) (id status : Int) : Res (Clc × Int) :=
  if jobIsInitiated status then .ok (c, 0)
  else
    let c := jobStamp env c id status
    match jobFind c id with
    | none => .error .useAfterFree
    | some job =>
      let r := dbJobUpdateStatus env c job
      if r.2 < 0 then .ok (r.1, -1)
      else if status = LyS.waitingStartingOsm then
        let r := dbInstanceUpdateStatus env r.1 job.jTargetId
          (some { ip := some (cstr "0.0.0.0"), status := DomainS.start })
          (lyEntityDbId r.1.store job.jEntId)
        if r.2 < 0 then .ok (r.1, -1) else .ok (jobBusyRemove r.1 job, 0)
      else if jobIsFinished status || jobIsTimeout status || jobIsCancelled status then
        if jobIsCancelled status ∨ job.jTargetType ≠ jobTargetInstance then
          .ok (jobRemove r.1 job, 0)
        else
          let r := jobEnd env r.1 job status
          .ok (jobRemove r.1 job, if r.2 < 0 then r.2 else 0)
      else .ok (r.1, 0)

/-! ## `job_check` -/

/-- The jobs that aim at the same target. -/
def sameTarget (job j : LYJobInfo) : Bool :=
  j.jTargetType == job.jTargetType && j.jTargetId == job.jTargetId

/-- The loop of `job_check` for the remaining control actions: it stops at the first job that
is busy and cancels the others on its way. -/
def checkOther (env : Env) (job : LYJobInfo) : Clc → List LYJobInfo → Res (Clc × Int)
  | c, [] => .ok (c, 0)
  | c, j :: js =>
    if !sameTarget job j || j.jAction == LyA.nodeQueryInstance then checkOther env job c js
    else if j.jAction = job.jAction ∨ jobIsRunning j.jStatus then .ok (c, LyS.cancelTargetBusy)
    else match jobUpdateStatus env c j.jId LyS.cancelActionReplaced with
    | .error e => .error e
    | .ok r => checkOther env job r.1 js

/-- The loop of `job_check` for a destroy job. -/
def checkDestroy (env : Env) (job : LYJobInfo) : Clc → List LYJobInfo → Res (Clc × Int)
  | c, [] => .ok (c, 0)
  | c, j :: js =>
    if !sameTarget job j then checkDestroy env job c js
    else if j.jAction = job.jAction then .ok (c, LyS.cancelTargetBusy)
    else if j.jAction ≠ LyA.nodeStopInstance then
      match jobUpdateStatus env c j.jId LyS.cancelActionReplaced with
      | .error e => .error e
      | .ok r => checkDestroy env job r.1 js
    else checkDestroy env job c js

/-- `job_check`. -/
def jobCheck (env : Env) (c : Clc) (job : LYJobInfo) : Res (Clc × Int) :=
  if job.jAction = LyA.nodeQueryInstance ∨ job.jAction = LyA.nodeQuery ∨
      job.jAction = LyA.osmQuery then .ok (c, 0)
  else if c.jobs.any fun j => sameTarget job j && j.jAction == LyA.nodeDestroyInstance then
    .ok (c, LyS.cancelTargetBusy)
  else if job.jAction = LyA.clcEnableNode ∨ job.jAction = LyA.clcDisableNode then
    if c.jobs.any fun j => sameTarget job j &&
        (j.jAction == LyA.clcEnableNode || j.jAction == LyA.clcDisableNode) then
      .ok (c, LyS.cancelTargetBusy)
    else .ok (c, 0)
  else if job.jAction = LyA.nodeRunInstance then
    if c.jobs.any fun j => sameTarget job j && j.jAction != LyA.nodeQueryInstance then
      .ok (c, LyS.cancelTargetBusy)
    else .ok (c, 0)
  else if job.jAction = LyA.nodeFullrebootInstance then
    if c.jobs.any fun j => sameTarget job j && j.jAction == job.jAction then
      .ok (c, LyS.cancelTargetBusy)
    else .ok (c, 0)
  else if job.jAction = LyA.nodeDestroyInstance then checkDestroy env job c c.jobs
  else if job.jTargetType = jobTargetInstance then checkOther env job c c.jobs
  else .ok (c, 0)

/-- `job_clean_on_entity`. Like every walk over the queue it keeps a pointer `tmp` to the next
job; to follow it after that job was freed ends in `Fault.useAfterFree`. -/
def jobCleanOnEntity (env : Env) (ent status : Int) (c : Clc) : Res Clc :=
  go (c.jobs.map LYJobInfo.jId) c
where
  go : List Int → Clc → Res Clc
    | [], c => .ok c
    | id :: ids, c =>
      match jobFind c id with
      | none => go ids c
      | some job =>
        if job.jEntId = ent then
          let tmp := ids.find? (jobExist c)
          match jobUpdateStatus env c id status with
          | .error e => .error e
          | .ok r => if tmp.all (jobExist r.1) then go ids r.1 else .error .useAfterFree
        else go ids c

/-! ## `node_schedule` -/

/-- `NODE_SCHEDULE_NODE_STROKE`. -/
def nodeScheduleNodeStroke : Int := -3
/-- `NODE_SCHEDULE_NODE_BUSY`. -/
def nodeScheduleNodeBusy : Int := -2
/-- `NODE_SCHEDULE_NODE_UNAVAIL`. -/
def nodeScheduleNodeUnavail : Int := -1

/-- No processor or no memory is left on the node. -/
def noResource (nf : NodeInfo) : Bool :=
  decide (nf.cpuVlimit ≤ nf.cpuCommit) || decide (nf.memVlimit ≤ nf.memCommit)

/-- `node_schedule` for the node the instance ran on last. -/
def nodeScheduleLast (env : Env) (s : EntityStore) (nodeId : Int) : Res Int :=
  let ent := lyEntityFindByDb s .node nodeId
  if lyEntityIsRegistered s ent = false ∨ lyEntityIsEnabled s ent = false then
    .ok nodeScheduleNodeUnavail
  else match lyEntityData s ent with
  | .null => .ok nodeScheduleNodeUnavail
  | .osm _ => .error .wrongType
  | .node nd =>
    if env.cfg.nodeInsJobBusyLimit ≤ nd.insJobBusyNr then .ok nodeScheduleNodeStroke
    else if nd.node.status = NodeStatus.busy ∨ nd.node.status = NodeStatus.error then
      .ok nodeScheduleNodeBusy
    else if noResource nd.node then .ok nodeScheduleNodeBusy
    else .ok ent

/-- The loop of `node_schedule` over the node list: the node so far and its free memory. An
entity in slot 0 is where `ly_entity_data_next` would start all over again. -/
def nodeScheduleAny (env : Env) (s : EntityStore) : List Nat → Int → Int → Res Int
  | [], ent, _ => .ok ent
  | i :: rest, ent, memMax =>
    match (s.ents i).entity with
    | .null => .ok ent
    | .osm _ => .error .wrongType
    | .node nd =>
      let usable := lyEntityIsRegistered s (s.ents i).id && lyEntityIsEnabled s (s.ents i).id
      let ent := if usable ∧ ent = nodeScheduleNodeUnavail then nodeScheduleNodeBusy else ent
      let nf := nd.node
      let free := toInt32 (nf.memVlimit - nf.memCommit)
      let next : Int × Int :=
        if !usable || decide (nf.storageFree ≤ toUInt32 env.cfg.nodeStorageLow) ||
            noResource nf then
          (ent, memMax)
        else if env.cfg.nodeInsJobBusyLimit ≤ nd.insJobBusyNr then
          (if ent = nodeScheduleNodeBusy then nodeScheduleNodeStroke else ent, memMax)
        else if memMax < free then ((s.ents i).id, free)
        else (ent, memMax)
      if i = 0 then .error .diverge else nodeScheduleAny env s rest next.1 next.2

/-- `node_schedule`. -/
def nodeSchedule (env : Env) (s : EntityStore) (nodeId : Int) : Res Int :=
  if env.cfg.nodeSelect = nodeSelectLastOnly ∧ 0 < nodeId then nodeScheduleLast env s nodeId
  else nodeScheduleAny env s s.nodeList nodeScheduleNodeUnavail 0

end LuoYun

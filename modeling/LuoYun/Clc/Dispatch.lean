import LuoYun.Clc.Job

/-!
# `lyjob.c`: dispatching the queue

`job_dispatch` walks the queue and runs every job that is due: a run or full-reboot job goes
through `__job_start_instance` and its waiting states, the other instance jobs through
`__job_control_instance_simple`, and the node jobs are carried out here. The walk keeps a
pointer to the next job across each run (`list_for_each_entry_safe`); a run that frees that
job ends in `Fault.useAfterFree`.
-/

namespace LuoYun

/-! ## Starting an instance -/

/-- `goto failed`: give the job its final status. -/
def jobFail (env : Env) (c : Clc) (id status : Int) : Res Clc :=
  match jobUpdateStatus env c id status with
  | .error e => .error e
  | .ok r => .ok r.1

/-- Why no node could be found for the instance. -/
def unavailStatus (s : EntityStore) (nodeId : Int) : Int :=
  if nodeId = 0 then LyS.finishedFailureNodeNotAvail
  else
    let ent := lyEntityFindByDb s .node nodeId
    if lyEntityIsOnline s ent = false then LyS.finishedFailureNodeNotOnline
    else if lyEntityIsRegistered s ent = false then LyS.finishedFailureNodeNotRegistered
    else if lyEntityIsEnabled s ent = false then LyS.finishedFailureNodeNotEnabled
    else LyS.finishedFailureNodeNotAvail

/-- The secret of the OS manager is made anew for a new instance: `none` when that fails. -/
def renewSecret (env : Env) (c : Clc) (ci : NodeCtrlInstance) : Clc × Option NodeCtrlInstance :=
  if ci.insStatus = DomainS.new ∨ ci.osmSecret = none then
    let secret := (env.uuid c.io.tick).text
    let r := dbInstanceUpdateSecret env c.called ci.osmTag secret
    if r.2 < 0 then (r.1, none) else (r.1, some { ci with osmSecret := some secret })
  else (c, some ci)

/-- The resources that are held back on the node once the request is out. -/
def holdResource (nd : LYNodeData) (ci : NodeCtrlInstance) : LYNodeData where
  insJobBusyNr := nd.insJobBusyNr + 1
  node := { nd.node with
    cpuCommit := toUInt32 (nd.node.cpuCommit + ci.insVcpu)
    memCommit := toUInt32 (nd.node.memCommit + ci.insMem) }

/-- The end of `__job_start_instance`: send the request to the node in slot `i`. -/
def jobSendRun (env : Env) (c : Clc) (id : Int) (ci : NodeCtrlInstance) (i : Nat) : Res Clc :=
  let c := setJobEnt c id i
  match (c.store.ents i).entity with
  | .null => jobFail env c id LyS.finishedFailure
  | .osm _ => .error .wrongType
  | .node nd =>
    match renewSecret env c ci with
    | (c, none) => jobFail env c id LyS.finishedFailure
    | (c, some ci) =>
      let r := dbInstanceUpdateStatus env c ci.insId none (lyEntityDbId c.store i)
      if r.2 < 0 then jobFail env r.1 id LyS.finishedFailure
      else match lyxmlDataInstanceRun ci with
      | none => jobFail env r.1 id LyS.finishedFailure
      | some xml =>
        let q := lyPacketSend env r.1 (lyEntityFd r.1.store i) PktType.clcInstanceControlRequest xml
        if q.2 < 0 then jobFail env q.1 id LyS.finishedFailure
        else
          -- the node is charged with the instance also when nothing has gone out
          let out := env.sendmsg r.1.io.tick == .all
          let c := q.1.modifyEnt i fun e => { e with entity := .node (holdResource nd ci) }
          .ok (setJob c id fun j => { j with jSent := true, jStarting := j.jStarting || out })

/-- `__job_start_instance` on a job that is waiting for its OS manager. -/
def jobWait (env : Env) (c : Clc) (job : LYJobInfo) : Res Clc :=
  let ent := lyEntityFindByDb c.store .osm job.jTargetId
  if job.jStatus = LyS.waitingStartingOsm then
    if lyEntityIsOnline c.store ent then jobFail env c job.jId LyS.waitingSycingOsm else .ok c
  else if job.jStatus = LyS.waitingSycingOsm then
    if lyEntityIsRegistered c.store ent then jobFail env c job.jId LyS.waitingStartingService
    else if lyEntityIsOnline c.store ent = false then jobFail env c job.jId LyS.finishedFailure
    else .ok c
  else if lyEntityIsRunning c.store ent then jobFail env c job.jId LyS.finishedSuccess
  else if lyEntityIsOnline c.store ent = false then jobFail env c job.jId LyS.finishedFailure
  else .ok c

/-- The states of a run job in which `__job_start_instance` only waits. -/
def jobIsWaitingOsm (status : Int) : Bool :=
  status == LyS.waitingStartingOsm || status == LyS.waitingSycingOsm ||
    status == LyS.waitingStartingService

/-- `__job_start_instance`. -/
def jobStartInstance (env : Env) (c : Clc) (job : LYJobInfo) : Res Clc :=
  if jobIsWaitingOsm job.jStatus then jobWait env c job
  else match jobUpdateStatus env c job.jId LyS.running with
  | .error e => .error e
  | .ok r =>
    if r.2 < 0 then .ok r.1
    else
      let c := setJob r.1 job.jId fun j => { j with jPendingNr := 0 }
      match dbNodeInstanceControlGet env c { reqId := job.jId, insId := job.jTargetId } with
      | (c, none) => jobFail env c job.jId LyS.finishedFailure
      | (c, some (ci, nodeId)) =>
        let ci := { ci with reqAction := job.jAction }
        match nodeSchedule env c.store nodeId with
        | .error e => .error e
        | .ok ent =>
          if ent = nodeScheduleNodeBusy then jobFail env c job.jId LyS.finishedFailureNodeBusy
          else if ent = nodeScheduleNodeStroke then
            let nr := c.jobInsPendingNr + 1
            let c := setJob { c with jobInsPendingNr := nr } job.jId fun j =>
              { j with jPendingNr := nr }
            jobFail env c job.jId LyS.pendingNodeStroke
          else match slot? ent with
          | none => jobFail env c job.jId (unavailStatus c.store nodeId)
          | some i => jobSendRun env c job.jId ci i

/-! ## The other instance jobs -/

/-- Which node a job goes to when any node will do. -/
def pickNode (env : Env) (s : EntityStore) (action nodeId : Int) : Int :=
  if env.cfg.nodeSelect = nodeSelectAny ∧
      (action = LyA.nodeDestroyInstance ∨ action = LyA.nodeQueryInstance) then
    if nodeId ≤ 0 then lyEntityHead s .node
    else if lyEntityIsRegistered s (lyEntityFindByDb s .node nodeId) then nodeId
    else lyEntityHead s .node
  else nodeId

/-- The end of `__job_control_instance_simple`: send the request to a node. -/
def jobSendSimple (env : Env) (c : Clc) (id : Int) (ci : NodeCtrlInstance)
    (nodeId : Int) : Res Clc :=
  let ent := lyEntityFindByDb c.store .node nodeId
  if lyEntityIsOnline c.store ent = false then jobFail env c id LyS.finishedFailure
  else if lyEntityIsRegistered c.store ent = false then jobFail env c id LyS.finishedFailure
  else
    let c := setJobEnt c id ent
    match lyxmlDataInstanceOther ci with
    | none => jobFail env c id LyS.finishedFailure
    | some xml =>
      let r := lyPacketSend env c (lyEntityFd c.store ent) PktType.clcInstanceControlRequest xml
      if r.2 < 0 then jobFail env r.1 id LyS.finishedFailure
      else .ok (setJob r.1 id fun j => { j with jSent := true })

/-- `__job_control_instance_simple`. -/
def jobControlInstanceSimple (env : Env) (c : Clc) (job : LYJobInfo) : Res Clc :=
  match jobUpdateStatus env c job.jId LyS.running with
  | .error e => .error e
  | .ok r =>
    if r.2 < 0 then .ok r.1
    else match dbNodeInstanceControlGet env r.1 { reqId := job.jId, insId := job.jTargetId } with
    | (c, none) => jobFail env c job.jId LyS.finishedFailure
    | (c, some (ci, nodeId)) =>
      let ci := { ci with reqAction := job.jAction }
      let nodeId := pickNode env c.store job.jAction nodeId
      if nodeId ≤ 0 then
        let c := if job.jAction = LyA.nodeQueryInstance then
            (dbInstanceUpdateStatus env c job.jTargetId
              (some { ip := some (cstr "0.0.0.0"), status := DomainS.notExist }) nodeId).1
          else c
        jobFail env c job.jId LyS.finishedSuccess
      else jobSendSimple env c job.jId ci nodeId

/-! ## Node and OS manager jobs -/

/-- The family `__job_query_node` and `__job_query_osm`: ask the entity that has database id
`target` among those of this type, if it is there. -/
def jobQuery (env : Env) (c : Clc) (job : LYJobInfo) (type : EntityType) (pktType : Int)
    (request : Option Bytes) : Res Clc :=
  match jobUpdateStatus env c job.jId LyS.running with
  | .error e => .error e
  | .ok r =>
    if r.2 < 0 then .ok r.1
    else
      let ent := lyEntityFindByDb r.1.store type job.jTargetId
      if lyEntityIsOnline r.1.store ent = false then jobFail env r.1 job.jId LyS.finishedSuccess
      else if lyEntityIsRegistered r.1.store ent = false then
        jobFail env r.1 job.jId LyS.finishedSuccess
      else
        let c := setJobEnt r.1 job.jId ent
        match request with
        | none => jobFail env c job.jId LyS.finishedFailure
        | some data =>
          let r := lyPacketSend env c (lyEntityFd c.store ent) pktType data
          if r.2 < 0 then jobFail env r.1 job.jId LyS.finishedFailure else .ok r.1

/-- `__job_query_node`. -/
def jobQueryNode (env : Env) (c : Clc) (job : LYJobInfo) : Res Clc :=
  jobQuery env c job .node PktType.clcNodeControlRequest (lyxmlDataNodeInfo job.jId)

/-- `__job_query_osm`. -/
def jobQueryOsm (env : Env) (c : Clc) (job : LYJobInfo) : Res Clc :=
  jobQuery env c job .osm PktType.clcOsmQueryRequest (some (le32 job.jId))

/-- `__job_node_enable`. -/
def jobNodeEnable (env : Env) (c : Clc) (job : LYJobInfo) : Res Clc :=
  let ent := lyEntityFindByDb c.store .node job.jTargetId
  if lyEntityIsOnline c.store ent = false then jobFail env c job.jId LyS.finishedFailure
  else
    let r := dbNodeEnable env c job.jTargetId true
    if r.2 < 0 then jobFail env r.1 job.jId LyS.finishedFailure
    else
      let r := lyPacketSend env r.1 (lyEntityFd r.1.store ent) PktType.joinRequest (cstr "join")
      jobFail env r.1 job.jId (if r.2 < 0 then LyS.finishedFailure else LyS.finishedSuccess)

/-- `__job_node_disable`. -/
def jobNodeDisable (env : Env) (c : Clc) (job : LYJobInfo) : Res Clc :=
  let r := dbNodeEnable env c job.jTargetId false
  if r.2 < 0 then jobFail env r.1 job.jId LyS.finishedFailure
  else
    let ent := lyEntityFindByDb r.1.store .node job.jTargetId
    if lyEntityIsRegistered r.1.store ent then
      match jobCleanOnEntity env ent LyS.finishedFailureNodeNotEnabled r.1 with
      | .error e => .error e
      | .ok c =>
        jobFail env (c.withStore (lyEntityEnable c.store ent (-1) false).1)
          job.jId LyS.finishedSuccess
    else if lyEntityIsOnline r.1.store ent then
      jobFail env (r.1.withStore (lyEntityEnable r.1.store ent (-1) false).1) job.jId
        LyS.finishedSuccess
    else jobFail env r.1 job.jId LyS.finishedSuccess

/-- `__job_node_config`. -/
def jobNodeConfig (env : Env) (c : Clc) (job : LYJobInfo) : Res Clc :=
  let ent := lyEntityFindByDb c.store .node job.jTargetId
  if lyEntityIsOnline c.store ent = false then jobFail env c job.jId LyS.finishedSuccess
  else match slot? ent with
  | none => jobFail env c job.jId LyS.finishedFailure
  | some i =>
    match (c.store.ents i).entity with
    | .null => jobFail env c job.jId LyS.finishedFailure
    | .osm _ => .error .wrongType
    | .node nd =>
      match dbNodeFind env c (.byId (c.store.ents i).dbId) with
      | (c, found, db) =>
        if found = 1 then
          let nd := nd.withVlimit db.cpuVlimit db.memVlimit
          jobFail env (c.modifyEnt i fun e => { e with entity := .node nd })
            job.jId LyS.finishedSuccess
        else jobFail env c job.jId LyS.finishedFailure

/-! ## The dispatch -/

/-- `__job_run`. -/
def jobRun (env : Env) (c : Clc) (job : LYJobInfo) : Res Clc :=
  if job.jAction = LyA.clcEnableNode then jobNodeEnable env c job
  else if job.jAction = LyA.clcDisableNode then jobNodeDisable env c job
  else if job.jAction = LyA.clcConfigNode then jobNodeConfig env c job
  else if job.jAction = LyA.nodeRunInstance then jobStartInstance env c job
  else if job.jAction = LyA.nodeFullrebootInstance then jobStartInstance env c job
  else if job.jAction = LyA.nodeStopInstance ∨ job.jAction = LyA.nodeSuspendInstance ∨
      job.jAction = LyA.nodeAcpirebootInstance ∨ job.jAction = LyA.nodeDestroyInstance ∨
      job.jAction = LyA.nodeQueryInstance then jobControlInstanceSimple env c job
  else if job.jAction = LyA.nodeQuery then jobQueryNode env c job
  else if job.jAction = LyA.nodeSaveInstance then .ok c
  else if job.jAction = LyA.osmQuery then jobQueryOsm env c job
  else jobFail env c job.jId LyS.finishedFailure

/-- How long a job of this target may take. -/
def jobTimeout (env : Env) (job : LYJobInfo) : Int :=
  if job.jTargetType = jobTargetInstance then env.cfg.jobTimeoutInstance
  else if job.jTargetType = jobTargetNode then env.cfg.jobTimeoutNode
  else env.cfg.jobTimeoutOther

/-- `time(&job->j_last_run); __job_run(job);` -/
def jobRunNow (env : Env) (c : Clc) (job : LYJobInfo) : Res Clc :=
  let now := env.time c.io.tick
  jobRun env (setJob c.called job.jId fun j => { j with jLastRun := now })
    { job with jLastRun := now }

/-- The body of the loop of `job_dispatch`; `CLC_JOB_DISPATCH_INTERVAL` is 2 seconds. -/
def jobDispatchOne (env : Env) (now : Int) (c : Clc) (job : LYJobInfo) : Res Clc :=
  if jobIsInitiated job.jStatus then jobRunNow env c job
  else if jobIsRunning job.jStatus || jobIsWaiting job.jStatus || jobIsPending job.jStatus then
    if jobIsPending job.jStatus then
      if 4 < now - job.jLastRun then jobRunNow env c job else .ok c
    else if jobTimeout env job < now - job.jStarted then jobFail env c job.jId LyS.timeout
    else if jobIsWaiting job.jStatus then jobRun env c job
    else .ok c
  else jobFail env c job.jId LyS.unknown

/-- The walk of `job_dispatch` over the jobs that were in the queue when it began. -/
def jobDispatchLoop (env : Env) (now : Int) : List Int → Clc → Res Clc
  | [], c => .ok c
  | id :: ids, c =>
    match jobFind c id with
    | none => jobDispatchLoop env now ids c
    | some job =>
      -- `safe` is the next job that is in the queue before this one is run
      let safe := ids.find? (jobExist c)
      match jobDispatchOne env now c job with
      | .error e => .error e
      | .ok c' =>
        if safe.all (jobExist c') then jobDispatchLoop env now ids c' else .error .useAfterFree

/-- `job_dispatch`. -/
def jobDispatch (env : Env) (c : Clc) : Res Clc :=
  let now := env.time c.io.tick
  jobDispatchLoop env now (c.jobs.map LYJobInfo.jId) { c.called with jobInsPendingNr := 0 }

end LuoYun

import LuoYun.Clc.Queue

/-!
# Table `job`: the restart of the CLC and the view of the web

Table `job` is what the CLC and the web share. The CLC reads it when it starts (`job_init`) and
writes the status of a job into it (`job_update_status`); the web creates the rows and shows the
user which jobs are completed (`Job.completed` of `models.py`).
-/

namespace LuoYun

/-- `Job.completed` of the web. -/
def jobCompleted (status : Int) : Bool :=
  (decide (300 ≤ status) && decide (status < 400)) || decide (600 ≤ status)

/-- The job that `db_job_get_all` makes of a row. -/
def JobRow.job (r : JobRow) : LYJobInfo where
  jId := r.id
  jStatus := r.status
  jCreated := r.created
  jStarted := r.started
  jTargetType := r.targetType
  jTargetId := r.targetId
  jAction := r.action

/-- `db_job_get_all`. -/
def dbJobGetAll (env : Env) (c : Clc) : Clc × Int :=
  match dbSelect env c fun db => db.jobs.filter fun r =>
      decide (LyS.pending ≤ r.status) && decide (r.status < LyS.pendingLastStatus) with
  | none => (c.called, -1)
  | some rows => (rows.foldl (fun c r => jobInsert c r.job) c.called, rows.length)

/-- `db_instance_init_status`. -/
def dbInstanceInitStatus (env : Env) (c : Clc) : Clc × Int :=
  dbExec env c fun db => db.updateInstance
    (fun r => r.status.any fun s => decide (DomainS.start ≤ s) && decide (s ≤ DomainS.serving))
    fun r => { r with status := some DomainS.needQuery }

/-- `db_node_init_status`. -/
def dbNodeInitStatus (env : Env) (c : Clc) : Clc × Int :=
  dbExec env c fun db => { db with nodes := db.nodes.map fun r =>
    if NodeStatus.initialized ≤ r.status ∧ r.status ≤ NodeStatus.registered then
      { r with status := NodeStatus.offline }
    else r }

/-- `job_init`. -/
def jobInit (env : Env) (c : Clc) : Clc × Int :=
  let r := dbJobGetAll env { c with jobs := [] }
  if r.2 < 0 then ({ r.1 with jobs := [] }, -1)
  else ((dbNodeInitStatus env (dbInstanceInitStatus env r.1).1).1, 0)

end LuoYun

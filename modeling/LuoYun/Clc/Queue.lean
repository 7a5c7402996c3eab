import LuoYun.Clc.World

/-!
# The job queue by itself

The queue driven by what writes to it: a job comes from the web, a dispatch pass is made, a node
answers, the connection of a node ends. Everything else the CLC does is an `around`, after which
the entities, the tables and the outside world may be anything.
-/

namespace LuoYun

/-- What may happen to the queue. -/
inductive QueueEvent where
  /-- The web asks for the job with this id. -/
  | web (jobId : Int)
  /-- A dispatch pass. -/
  | dispatch
  /-- A node replies with this status for this job. -/
  | reply (id status : Int)
  /-- The connection of the node in this slot has ended. -/
  | gone (ent : Int)
  /-- Something that leaves the queue alone. -/
  | around (store : EntityStore) (db : Db) (io : Io) (hist : Nat → ConnHist)

/-- What an event does. -/
def Clc.queueNext (env : Env) (c : Clc) : QueueEvent → Option (Res Clc)
  | .web jobId => some ((webJob env c jobId).map Prod.fst)
  | .dispatch => some (jobDispatch env c)
  | .reply id status => some ((nodeResponseJob env c id status).map Prod.fst)
  | .gone ent => some (jobCleanOnEntity env ent LyS.finishedFailureNodeNotOnline c)
  | .around store db io hist => some (.ok { c with store, db, io, hist })

/-- The states of runs from the empty queue whose events satisfy `Q`, up to the first fault. -/
def QueueReachable (env : Env) (Q : Clc → QueueEvent → Prop) : Clc → Prop :=
  Machine.Reach (Clc.queueNext env) Q fun c => c.jobs = []

/-- Every command to the database succeeds. -/
def Env.DbWrites (env : Env) : Prop := ∀ tick, env.ok .dbExec tick = true

/-- The actions of a query. -/
def isQuery (action : Int) : Bool :=
  action == LyA.nodeQueryInstance || action == LyA.nodeQuery || action == LyA.osmQuery

/-- The actions that control an instance. -/
def isControl (action : Int) : Bool :=
  action == LyA.nodeRunInstance || action == LyA.nodeFullrebootInstance ||
    action == LyA.nodeStopInstance || action == LyA.nodeSuspendInstance ||
    action == LyA.nodeAcpirebootInstance || action == LyA.nodeDestroyInstance

/-- The jobs that aim at this target. -/
def Clc.jobsOn (c : Clc) (targetType targetId : Int) : List LYJobInfo :=
  c.jobs.filter fun j => j.jTargetType == targetType && j.jTargetId == targetId

/-! ## A small installation -/

/-- Plain surroundings in which every appliance is in the database. -/
def Env.stocked : Env := { Env.plain with appliance := fun _ => some (cstr "debian", cstr "0") }

/-- A node that has registered on descriptor 5 and is enabled. -/
def LYEntity.registeredNode : LYEntity where
  fd := 5
  id := 1
  type := .node
  flag := 11
  dbId := 1
  entity := .node { node := { memVlimit := 4096, cpuVlimit := 4, storageFree := 100 } }

theorem seven_pos : (0 : Int) < 7 := by decide

/-- The CLC with that node, on which instance 7 runs, and these jobs in the database. -/
def Clc.oneNode (jobs : List JobRow) : Clc where
  store :=
    { ents := fun i => if i = 1 then .registeredNode else {}
      nodeList := [1] }
  db :=
    { instances :=
        [{ id := 7, id_pos := by decide, nodeId := some 1, status := some DomainS.running }]
      jobs }

/-- A job of the web on instance 7. -/
def JobRow.onSeven (id action : Int) : JobRow :=
  { id, action, status := LyS.initiated, targetType := jobTargetInstance, targetId := 7 }

/-- A concrete run from the empty queue. -/
theorem queueReachable_of_exec {env : Env} {c c' : Clc} (h : c.jobs = []) (evs : List QueueEvent)
    (he : Machine.exec (Clc.queueNext env) evs c = some c') :
    QueueReachable env Machine.Always c' :=
  Machine.Reach.of_exec (.of_init h : QueueReachable env Machine.Always c) (fun _ _ _ => trivial) he

end LuoYun

import LuoYun.Lib.Table
import LuoYun.Web.Instance
import Mathlib.Algebra.BigOperators.Group.List.Basic

/-!
# The quota of a user

`LifeControl.run` and `stop`, `run_job`, `ResourceEdit`, and the totals and sums of
`app/account/models.py` they ask for. The web interface only writes a job. It is the control server
that dispatches the job, a node that starts the virtual machine, and the control server again that
reports what has become of both, each at a time of its own.

What a virtual machine is started with is the `libvirt_conf` that `run` has rendered, as the control
server finds it in the database when it dispatches the job.

`site.py` forks several processes, and nothing is locked while a request is served: it is one
statement of SQL after the other, and anything may happen between two of them. A request that is
being served is the place it has come to, with what it has read so far (`QuotaRequest`). Its session
does not read a row again that it has, and writes only the columns whose values are not those read.
-/

namespace LuoYun.Web

/-- What is limited: `Resource.T_CPU` and `Resource.T_MEMORY`. -/
inductive ResourceType where
  | cpu
  | memory
  deriving DecidableEq, Repr

/-- An amount of each. -/
structure Amount where
  cpus : Int
  memory : Int
  deriving DecidableEq, Repr

def Amount.get (a : Amount) : ResourceType → Int
  | .cpu => a.cpus
  | .memory => a.memory

def Amount.add (a b : Amount) : Amount := ⟨a.cpus + b.cpus, a.memory + b.memory⟩

@[simp] theorem Amount.get_add (a b : Amount) (t : ResourceType) :
    (a.add b).get t = a.get t + b.get t := by
  cases t <;> rfl

/-- What becomes of the two columns when `new` is assigned to a row that was read as `old`: one that
has the same value in both is not written. -/
def Amount.assign (old new cur : Amount) : Amount where
  cpus := if new.cpus = old.cpus then cur.cpus else new.cpus
  memory := if new.memory = old.memory then cur.memory else new.memory

theorem Amount.get_assign (old new cur : Amount) (t : ResourceType) :
    (old.assign new cur).get t = if new.get t = old.get t then cur.get t else new.get t := by
  cases t <;> rfl

/-- What `ResourceForm` takes for an amount. -/
structure FormAmount extends Amount where
  cpus_min : 1 ≤ cpus
  memory_min : 64 ≤ memory
  deriving DecidableEq, Repr

/-- `Resource`: what a user has for some time in addition. Both dates are there: with one missing
`get_resource_total` reports no total but raises. -/
structure Resource where
  type : ResourceType
  size : Int
  effectDate : Int
  expiredDate : Int
  deriving DecidableEq, Repr

/-- `UserProfile`. -/
structure UserProfile where
  userId : Int
  static : Amount
  resources : List Resource := []
  deriving DecidableEq, Repr

/-- `UserProfile.get_resource_total`. -/
def UserProfile.getResourceTotal (p : UserProfile) (now : Int) (t : ResourceType) : Int :=
  p.static.get t + ((p.resources.filter fun r =>
    r.effectDate < now ∧ now < r.expiredDate ∧ r.type = t).map Resource.size).sum

/-- The total of each. -/
def UserProfile.total (p : UserProfile) (now : Int) : Amount :=
  ⟨p.getResourceTotal now .cpu, p.getResourceTotal now .memory⟩

/-- `Instance`, with the virtual machine that belongs to it. -/
structure QuotaInstance extends InstanceRef where
  /-- `cpus` and `memory`. -/
  config : Amount
  /-- What `libvirt_conf` asks for. -/
  libvirtConf : Option Amount := none
  /-- What the control server has asked the node to start. -/
  requested : Option Amount := none
  /-- What the virtual machine was started with, as long as it is active. -/
  active : Option Amount := none
  deriving DecidableEq, Repr

/-- `Job`, with an instance as its target. -/
structure InstanceJob where
  id : Int
  targetId : Int
  action : Int
  status : Int
  created : Int
  deriving DecidableEq, Repr

/-- `JOB_ACTION['RUN_INSTANCE']`. -/
def runInstanceA : Int := 201

/-- `JOB_ACTION['STOP_INSTANCE']`. -/
def stopInstanceA : Int := 202

/-- `JOB_S_INITIATED`. -/
def jobInitiatedS : Int := 100

/-- `JOB_S_FAILED`. -/
def jobFailedS : Int := 311

/-- `Job.completed`. -/
def jobCompleted (status : Int) : Bool := (300 ≤ status ∧ status < 400) ∨ 600 ≤ status

/-- `Job.canstop`. -/
def jobCanstop (status : Int) : Bool := 300 ≤ status

/-- The tables, and the time. The last job is the first of the list. -/
structure QuotaDb where
  instances : List QuotaInstance := []
  jobs : List InstanceJob := []
  profiles : List UserProfile := []
  /-- `job_id_seq`. -/
  seq : Int := 1
  now : Int := 0
  deriving DecidableEq, Repr

namespace QuotaDb

/-- `get_instance_lastjob`. -/
def lastJob (db : QuotaDb) (inst : Int) : Option InstanceJob := db.jobs.find? (·.targetId = inst)

/-- The last job of the instance is not finished. -/
def waiting (db : QuotaDb) (inst : Int) : Bool :=
  (db.lastJob inst).any fun j => !jobCompleted j.status

/-- `get_instance`. -/
def getInstance (db : QuotaDb) (user : Int) (admin : Bool) (inst : Int) : Option QuotaInstance :=
  (db.instances.find? (·.id = inst)).filter fun i =>
    i.status ≠ deletedS ∧ (user = i.userId ∨ admin = true)

def profile (db : QuotaDb) (user : Int) : Option UserProfile := db.profiles.find? (·.userId = user)

/-- What an instance adds to the sum over the instances of a user with the property `p`. -/
def share (user : Int) (t : ResourceType) (p : QuotaInstance → Bool) (i : QuotaInstance) : Int :=
  if i.userId = user ∧ p i = true then i.config.get t else 0

/-- What the instances of a user with the property `p` have of a resource. -/
def sumOf (db : QuotaDb) (user : Int) (t : ResourceType) (p : QuotaInstance → Bool) : Int :=
  (db.instances.map (share user t p)).sum

/-- `UserProfile.get_resource_used`. -/
def getResourceUsed (db : QuotaDb) (user : Int) (t : ResourceType) : Int :=
  db.sumOf user t fun i => isRunning i.status

/-- `cpu_wait` and `mem_wait` of `LifeControl.run`. -/
def resourceWait (db : QuotaDb) (user : Int) (t : ResourceType) : Int :=
  db.sumOf user t fun i => db.waiting i.id

/-- Change the instance with this id. -/
def setInstance (db : QuotaDb) (inst : Int) (f : QuotaInstance → QuotaInstance) : QuotaDb :=
  { db with instances := Table.update (·.id) inst f db.instances }

/-- `run_job` refuses a job behind this one: it is not finished, or failed, and younger than 60
seconds. -/
def refuses (db : QuotaDb) (j : InstanceJob) (action : Int) : Bool :=
  ((jobCompleted j.status = false ∧ ¬ (action = stopInstanceA ∧ jobCanstop j.status = true)) ∨
    j.status = jobFailedS) ∧ db.now < j.created + 60

/-- A new job at the end of `run_job`. If the control server cannot be notified, the job gets the
status `JOB_S_FAILED` later. -/
def addJob (db : QuotaDb) (inst action : Int) : QuotaDb :=
  { db with
    jobs := ⟨db.seq, inst, action, jobInitiatedS, db.now⟩ :: db.jobs
    seq := db.seq + 1 }

/-- The test of `LifeControl.run`. -/
def enoughLeft (need total used wait : Int) : Bool := need ≤ total - used - wait

/-- What the database, as it is, says to be left is enough for the instance. -/
def enough (db : QuotaDb) (p : UserProfile) (i : QuotaInstance) (t : ResourceType) : Bool :=
  enoughLeft (i.config.get t) (p.getResourceTotal db.now t) (db.getResourceUsed i.userId t)
    (db.resourceWait i.userId t)

/-- `UserProfile.cpu_remain` and `memory_remain`. -/
def resourceRemain (total used : Int) : Int := if used < total then total - used else 0

/-- What `ResourceForm.validate_cpus` and `validate_memory` allow. -/
def available (i : QuotaInstance) (total used own : Int) : Int :=
  if isRunning i.status then resourceRemain total used + own else resourceRemain total used

end QuotaDb

/-! ## A request that is being served -/

/-- Where a request stands, with what it has read. -/
inductive QuotaRequest where
  /-- `LifeControl.post` with the action `run`. -/
  | run (user : Int) (admin : Bool) (inst : Int)
  /-- The instance is found. -/
  | runFound (i : QuotaInstance)
  /-- `IL` is read; the loop has come to `xi`, and of `rest` the last jobs are still to be read. -/
  | runWaits (i xi : QuotaInstance) (rest : List QuotaInstance) (wait : Amount)
  /-- `resource_total` is read as well. -/
  | runTotal (i xi : QuotaInstance) (wait total : Amount)
  /-- There is enough left for the instance, and it does not run. -/
  | runAdmitted (i : QuotaInstance)
  /-- `run_job` begins. -/
  | runJob (inst action : Int)
  /-- The last job does not stand in the way. -/
  | newJob (inst action : Int)
  /-- `LifeControl.post` with the action `stop`. -/
  | stop (user : Int) (admin : Bool) (inst : Int)
  /-- `ResourceEdit.post`. -/
  | edit (user inst : Int) (a : Amount)
  | editFound (i : QuotaInstance) (a : FormAmount)
  /-- The resources of the user are read. -/
  | editTotal (i : QuotaInstance) (a : FormAmount) (total : Amount)
  /-- The form is valid. -/
  | editValid (i : QuotaInstance) (a : FormAmount)
  deriving DecidableEq, Repr

namespace QuotaDb

/-- The rows of the instances of a user, of which the session has some. -/
def instancesOf (db : QuotaDb) (user : Int) (held : List QuotaInstance) : List QuotaInstance :=
  (db.instances.filter fun x => x.userId = user).map fun x =>
    (held.find? fun y => y.id = x.id).getD x

/-- `get_resource_used` on these rows. -/
def usedIn (l : List QuotaInstance) : Amount :=
  l.foldr (fun x a => if isRunning x.status then x.config.add a else a) ⟨0, 0⟩

/-- `run` writes `libvirt_conf`: what it asks for has changed, or, with `redraw`, the rest of it. -/
def renders (redraw : Bool) (i : QuotaInstance) : Bool := redraw || i.libvirtConf != some i.config

/-- The next statement of a request. `none` is the end of it, whatever the answer. -/
def serve (db : QuotaDb) (redraw : Bool) : QuotaRequest → QuotaDb × Option QuotaRequest
  | .run user admin inst => (db, (db.getInstance user admin inst).map .runFound)
  | .runFound i => (db, some (.runWaits i i (db.instancesOf i.userId [i]) ⟨0, 0⟩))
  | .runWaits i _ (xi :: rest) wait =>
    (db, some (.runWaits i xi rest (if db.waiting xi.id then wait.add xi.config else wait)))
  | .runWaits i xi [] wait =>
    (db, (db.profile i.userId).map fun p => .runTotal i xi wait (p.total db.now))
  | .runTotal i xi wait total =>
    let used := usedIn (db.instancesOf i.userId [i, xi])
    if ¬ (enoughLeft i.config.cpus total.cpus used.cpus wait.cpus = true ∧
        enoughLeft i.config.memory total.memory used.memory wait.memory = true) then (db, none)
    else if isRunning i.status then (db, none)
    else (db, some (.runAdmitted i))
  | .runAdmitted i =>
    (if renders redraw i then db.setInstance i.id fun x => { x with libvirtConf := some i.config }
      else db, some (.runJob i.id runInstanceA))
  | .runJob inst action =>
    (db, if (db.lastJob inst).any fun j => db.refuses j action then none
      else some (.newJob inst action))
  | .newJob inst action => (db.addJob inst action, none)
  | .stop user admin inst =>
    (db, (db.getInstance user admin inst).bind fun i =>
      if ¬ isRunning i.status then none else some (.runJob i.id stopInstanceA))
  | .edit user inst a =>
    (db, (db.getInstance user false inst).bind fun i =>
      if h : 1 ≤ a.cpus ∧ 64 ≤ a.memory then some (.editFound i ⟨a, h.1, h.2⟩) else none)
  | .editFound i a => (db, (db.profile i.userId).map fun p => .editTotal i a (p.total db.now))
  | .editTotal i a total =>
    let used := usedIn (db.instancesOf i.userId [i])
    (db, if a.cpus ≤ available i total.cpus used.cpus i.config.cpus ∧
        a.memory ≤ available i total.memory used.memory i.config.memory then some (.editValid i a)
      else none)
  | .editValid i a =>
    (db.setInstance i.id fun x => { x with config := i.config.assign a.toAmount x.config }, none)

/-! ## The control server and the node -/

/-- The control server dispatches a job: for a run job it asks a node to start what `libvirt_conf`
asks for, or what the instance is configured for if there is none. -/
def dispatch (db : QuotaDb) (job : Int) : QuotaDb :=
  match db.jobs.find? (·.id = job) with
  | none => db
  | some j =>
    if j.action = runInstanceA then
      db.setInstance j.targetId fun i => { i with requested := some (i.libvirtConf.getD i.config) }
    else db

/-- The node starts the virtual machine, unless it is active. -/
def started (i : QuotaInstance) : QuotaInstance :=
  { i with active := i.active.or i.requested, requested := none }

end QuotaDb

/-- The tables, and the requests that are being served. -/
structure QuotaSystem where
  db : QuotaDb
  requests : List QuotaRequest := []
  deriving DecidableEq, Repr

/-- What can happen. -/
inductive QuotaEvent where
  /-- A request comes in: `LifeControl.run`, `LifeControl.stop`, `ResourceEdit.post`. -/
  | run (user : Int) (admin : Bool) (inst : Int)
  | stop (user : Int) (admin : Bool) (inst : Int)
  | resourceEdit (user inst : Int) (a : Amount)
  /-- The `k`-th request that is being served gets one statement further. If that renders
  `libvirt_conf`, `redraw` says that the rest of it has changed. -/
  | serve (k : Nat) (redraw : Bool)
  /-- The control server, or `run_job` that could not notify it, sets the status of a job. -/
  | jobStatus (job status : Int)
  /-- The control server sets the status of an instance. -/
  | instanceStatus (inst status : Int)
  | dispatch (job : Int)
  /-- The node starts what it was asked to. -/
  | vmStart (inst : Int)
  /-- The request to start is lost or refused. -/
  | vmRefused (inst : Int)
  | vmEnd (inst : Int)
  /-- Time passes. -/
  | tick (now : Int)
  /-- The resources of a user are changed by the administrator. -/
  | resources (user : Int) (static : Amount) (l : List Resource)

namespace QuotaSystem

/-- A request comes in. -/
def accept (s : QuotaSystem) (r : QuotaRequest) : QuotaSystem :=
  { s with requests := s.requests ++ [r] }

/-- The tables change on their own. -/
def change (s : QuotaSystem) (f : QuotaDb → QuotaDb) : QuotaSystem := { s with db := f s.db }

/-- The `k`-th request gets one statement further. -/
def serve (s : QuotaSystem) (k : Nat) (redraw : Bool) : QuotaSystem :=
  match s.requests[k]? with
  | none => s
  | some r =>
    match s.db.serve redraw r with
    | (db, some r') => ⟨db, s.requests.set k r'⟩
    | (db, none) => ⟨db, s.requests.eraseIdx k⟩

/-- What becomes of the tables and the requests. -/
def after (s : QuotaSystem) : QuotaEvent → QuotaSystem
  | .run user admin inst => s.accept (.run user admin inst)
  | .stop user admin inst => s.accept (.stop user admin inst)
  | .resourceEdit user inst a => s.accept (.edit user inst a)
  | .serve k redraw => s.serve k redraw
  | .jobStatus job status =>
    s.change fun db =>
      { db with jobs := Table.update (·.id) job (fun j => { j with status := status }) db.jobs }
  | .instanceStatus inst status => s.change fun db => db.setInstance inst fun i =>
    { i with status := status }
  | .dispatch job => s.change fun db => db.dispatch job
  | .vmStart inst => s.change fun db => db.setInstance inst QuotaDb.started
  | .vmRefused inst => s.change fun db => db.setInstance inst fun i => { i with requested := none }
  | .vmEnd inst => s.change fun db => db.setInstance inst fun i => { i with active := none }
  | .tick now => s.change fun db => { db with now := now }
  | .resources user static l => s.change fun db =>
    { db with
      profiles := Table.update (·.userId) user
        (fun p => { p with static := static, resources := l })
        db.profiles }

def next (s : QuotaSystem) (ev : QuotaEvent) : Option (Except Empty QuotaSystem) :=
  some (.ok (s.after ev))

end QuotaSystem

end LuoYun.Web

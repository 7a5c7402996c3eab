import LuoYun.Clc.Entity
import LuoYun.Util.Xml

/-!
# The state of the CLC

`Clc` is what the CLC's handlers read and write: the entity store, the job queue, the tables
of the database, and what has gone out on the sockets. `Env` is everything around it that the
code calls and does not contain: PostgreSQL and the network (which may fail at any call),
libxml2, libgcrypt, uuids, the clock, and the configuration file.

Some parts of the state are not in the C program. `Io.tick` counts the calls that left the
program, so that `Env` can answer each of them differently. `hist` remembers for every slot
what has happened on the connection in it since it was accepted, `accepted` counts the
connections, and `staleReads` the reads of a job that had been freed, as far as nothing depends
on what was read; nothing looks at these three but the theorems.

A statement is text, and some statements carry text that came from a peer. As long as that
text has no quote in it the statement does to the tables what it says. Otherwise it may do
anything (`injectExec`, `injectNodes`).
-/

namespace LuoYun

/-! ## The database -/

/-- A row of table `node`; a `NULL` is `none`. The ids come from a sequence that starts at 1. -/
structure NodeRow where
  id : Int
  id_pos : 0 < id
  status : Int := 0
  ip : Option Bytes := none
  key : Option Bytes := none
  vcpus : Int := 0
  vmemory : Int := 0
  isenable : Bool := false
  hostname : Option Bytes := none
  arch : Int := 0
  memory : Int := 0
  cpus : Int := 0
  cpuModel : Option Bytes := none
  cpuMhz : Int := 0
  deriving DecidableEq

/-- A row of table `instance`, with what the CLC reads and writes of it. -/
structure InstanceRow where
  id : Int
  id_pos : 0 < id
  key : Option Bytes := none
  ip : Option Bytes := none
  nodeId : Option Int := none
  status : Option Int := none
  vdiPort : Int := 0
  rx : Int := 0
  tx : Int := 0
  name : Option Bytes := none
  cpus : Int := 0
  memory : Int := 0
  extendsize : Int := 0
  applianceId : Int := 0
  secretConfig : Option Bytes := none
  config : Option Bytes := none
  deriving DecidableEq

/-- A row of table `job`. -/
structure JobRow where
  id : Int
  status : Int := 0
  created : Int := 0
  started : Int := 0
  ended : Int := 0
  targetType : Int := 0
  targetId : Int := 0
  action : Int := 0
  deriving DecidableEq, Repr

/-- The tables. -/
structure Db where
  nodes : List NodeRow := []
  instances : List InstanceRow := []
  jobs : List JobRow := []
  /-- The last value of `node_id_seq`. -/
  nodeIdSeq : Nat := 0
  deriving DecidableEq

/-! ## The job queue -/

/-- `LYJobInfo`. Three fields are not in the source: `jSent` is set when `ly_packet_send` has
reported that the request of the job is out, `jConn` is the connection that `jEntId` stood for when
it was written, and `jStarting` says that a request to start has gone out and the job has not been
in status `LY_S_WAITING_STARTING_OSM` since. -/
structure LYJobInfo where
  jId : Int := 0
  jStatus : Int := 0
  jCreated : Int := 0
  jStarted : Int := 0
  jEnded : Int := 0
  jLastRun : Int := 0
  jTargetType : Int := 0
  jTargetId : Int := 0
  jAction : Int := 0
  jEntId : Int := 0
  jPendingNr : Int := 0
  jSent : Bool := false
  jConn : Nat := 0
  jStarting : Bool := false
  deriving DecidableEq, Repr

/-! ## The surroundings -/

/-- The calls of the database, which may fail. -/
inductive Call where
  | dbExec | dbSelect
  deriving DecidableEq, Repr

/-- `NODE_SELECT_LAST_ONLY`. -/
def nodeSelectLastOnly : Int := 2
/-- `NODE_SELECT_ANY`. -/
def nodeSelectAny : Int := 1

/-- The parts of `CLCConfig` the handlers use, and the addresses `ly_is_clc_ip` knows. -/
structure CLCConfig where
  nodeSelect : Int := nodeSelectAny
  nodeStorageLow : Int := 0
  nodeCpuFactor : Int := 4
  nodeMemFactor : Int := 2
  jobTimeoutInstance : Int := 120
  jobTimeoutNode : Int := 30
  jobTimeoutOther : Int := 30
  nodeInsJobBusyLimit : Int := 4
  vmNamePrefix : Option Bytes := none
  clcIp : List Bytes := []
  deriving DecidableEq, Repr

/-- Everything the CLC calls and does not contain. -/
structure Env where
  cfg : CLCConfig
  /-- Does this call succeed, at this point of the run? -/
  ok : Call → Nat → Bool
  sendmsg : Nat → SendResult
  uuid : Nat → Uuid
  time : Nat → Int
  cipher : Cipher
  readDoc : XmlReader
  /-- Name and checksum of an appliance. -/
  appliance : Int → Option (Bytes × Bytes)
  /-- A command whose text a peer has broken out of. -/
  injectExec : Bytes → Db → Db × Bool
  /-- A query on table `node` whose text a peer has broken out of. -/
  injectNodes : Bytes → Db → Db × Option (List NodeRow)

/-! ## The state -/

/-- A packet that was sent. -/
structure Sent where
  fd : Int
  type : Int
  data : Bytes
  deriving DecidableEq, Repr

/-- The outside world as the program has driven it so far. -/
structure Io where
  tick : Nat := 0
  sent : List Sent := []
  deriving DecidableEq, Repr

/-- What has happened on a connection since it was accepted. -/
structure ConnHist where
  /-- The number of the connection, in the order of their acceptance. -/
  serial : Nat := 0
  /-- `lyauth_verify` has returned 1. -/
  verified : Bool := false
  /-- A register request was accepted. -/
  registered : Bool := false
  /-- The tag whose row the secret in use was read from. -/
  secretTag : Option Int := none
  /-- The value of `secretTag` at the last successful `lyauth_verify`. -/
  verifiedTag : Option Int := none
  deriving DecidableEq, Repr

/-- The state of the CLC. -/
structure Clc where
  store : EntityStore := {}
  jobs : List LYJobInfo := []
  /-- `g_job_ins_pending_nr`. -/
  jobInsPendingNr : Int := 0
  db : Db := {}
  io : Io := {}
  hist : Nat → ConnHist := fun _ => {}
  accepted : Nat := 0
  staleReads : Nat := 0

namespace Clc

/-- One more call has left the program. -/
def called (c : Clc) : Clc := { c with io := { c.io with tick := c.io.tick + 1 } }

/-- Write the entity store. -/
def withStore (c : Clc) (s : EntityStore) : Clc := { c with store := s }

/-- Change the entity in slot `i`. -/
def modifyEnt (c : Clc) (i : Nat) (f : LYEntity → LYEntity) : Clc :=
  { c with store := c.store.modify i f }

/-- Change what is remembered about the connection in slot `i`. -/
def note (c : Clc) (i : Nat) (f : ConnHist → ConnHist) : Clc :=
  { c with hist := fun j => if j = i then f (c.hist j) else c.hist j }

@[simp] theorem called_store (c : Clc) : c.called.store = c.store := rfl
@[simp] theorem called_jobs (c : Clc) : c.called.jobs = c.jobs := rfl
@[simp] theorem called_db (c : Clc) : c.called.db = c.db := rfl
@[simp] theorem called_hist (c : Clc) : c.called.hist = c.hist := rfl
@[simp] theorem withStore_store (c : Clc) (s : EntityStore) : (c.withStore s).store = s := rfl
@[simp] theorem withStore_jobs (c : Clc) (s : EntityStore) : (c.withStore s).jobs = c.jobs := rfl
@[simp] theorem withStore_db (c : Clc) (s : EntityStore) : (c.withStore s).db = c.db := rfl
@[simp] theorem withStore_hist (c : Clc) (s : EntityStore) : (c.withStore s).hist = c.hist := rfl
@[simp] theorem modifyEnt_jobs (c : Clc) (i : Nat) (f : LYEntity → LYEntity) :
    (c.modifyEnt i f).jobs = c.jobs := rfl
@[simp] theorem modifyEnt_db (c : Clc) (i : Nat) (f : LYEntity → LYEntity) :
    (c.modifyEnt i f).db = c.db := rfl
@[simp] theorem modifyEnt_hist (c : Clc) (i : Nat) (f : LYEntity → LYEntity) :
    (c.modifyEnt i f).hist = c.hist := rfl
@[simp] theorem note_store (c : Clc) (i : Nat) (f : ConnHist → ConnHist) :
    (c.note i f).store = c.store := rfl
@[simp] theorem note_jobs (c : Clc) (i : Nat) (f : ConnHist → ConnHist) :
    (c.note i f).jobs = c.jobs := rfl
@[simp] theorem note_db (c : Clc) (i : Nat) (f : ConnHist → ConnHist) :
    (c.note i f).db = c.db := rfl

end Clc

/-- `ly_packet_send`. Only a packet that goes out whole counts as sent. -/
def lyPacketSend (env : Env) (c : Clc) (fd type : Int) (data : Bytes) : Clc × Int :=
  match lyPacketFrame fd type data with
  | .error e => (c, e)
  | .ok _ =>
    let out := if env.sendmsg c.io.tick = .all then [⟨fd, type, data⟩] else []
    ({ c with io := { tick := c.io.tick + 1, sent := c.io.sent ++ out } },
      (env.sendmsg c.io.tick).code)

/-- `LINE_MAX`, the size of the buffers the statements are written into. -/
def lineMax : Nat := 2048

/-- None of these texts ends the literal it stands in. -/
def quotable (texts : List Bytes) : Bool := texts.all fun t => !t.contains 39

/-- `__db_exec` for a statement whose effect is `f`. -/
def dbExec (env : Env) (c : Clc) (f : Db → Db) : Clc × Int :=
  if env.ok .dbExec c.io.tick then ({ c.called with db := f c.db }, 0) else (c.called, -1)

/-- `__db_exec` for a statement whose text carries `texts`. -/
def dbExecText (env : Env) (c : Clc) (sql : Bytes) (texts : List Bytes) (f : Db → Db) : Clc × Int :=
  if lineMax ≤ sql.length then (c, -1)
  else if quotable texts then dbExec env c f
  else
    let r := env.injectExec sql c.db
    ({ c.called with db := r.1 }, if r.2 then 0 else -1)

/-- `__db_select` for a query whose answer is `rows`; the state afterwards is `c.called`. -/
def dbSelect {α : Type} (env : Env) (c : Clc) (rows : Db → List α) : Option (List α) :=
  if env.ok .dbSelect c.io.tick then some (rows c.db) else none

end LuoYun

import LuoYun.Clc.State
import Mathlib.Data.List.Sort

/-!
# `postgres.c`: the statements of the CLC

Each function here is one function of `postgres.c`: the queries it sends, what it makes of the
answers, and what its commands do to the tables. A function that only reads still takes and
returns the state, because a query is a call that may fail.

The text of a statement is written out where it can matter: where it carries text that may be
too long for the `LINE_MAX` buffer or may have a quote in it.
-/

namespace LuoYun

/-! ## Table `node` -/

/-- `DB_NODE_FIND_BY_IP` and `DB_NODE_FIND_BY_ID`. -/
inductive NodeKey where
  | byIp (ip : Bytes)
  | byId (id : Int)

/-- `DBNodeRegInfo`. -/
structure DBNodeRegInfo where
  id : Int := 0
  status : Int := 0
  ip : Option Bytes := none
  secret : Option Bytes := none
  enabled : Bool := false
  cpuVlimit : Int := 0
  memVlimit : Int := 0

/-- `if (s && strlen(s)) … = strdup(s)`. -/
def nonEmpty (s : Option Bytes) : Option Bytes :=
  match s with
  | some [] => none
  | s => s

/-- Comparison of byte strings; it stands for the collation of the database. -/
def bytesLe : Bytes → Bytes → Bool
  | [], _ => true
  | _ :: _, [] => false
  | a :: as, b :: bs => decide (a < b) || (a == b && bytesLe as bs)

/-- `ORDER BY key DESC`, which puts `NULL` first. -/
def keyBefore (a b : NodeRow) : Bool :=
  match a.key, b.key with
  | none, _ => true
  | some _, none => false
  | some x, some y => bytesLe y x

/-- The rows with this id. -/
def Db.nodesById (db : Db) (id : Int) : List NodeRow := db.nodes.filter fun r => r.id == id

/-- The rows with this address. -/
def Db.nodesByIp (db : Db) (ip : Bytes) : List NodeRow := db.nodes.filter fun r => r.ip == some ip

/-- The text of the query of `db_node_find` by address. -/
def sqlNodeFindByIp (ip : Bytes) : Bytes :=
  cstr "SELECT id, status, ip, key, vcpus, vmemory, isenable from node where ip = '" ++ ip ++
    cstr "' order by key DESC;"

/-- What `db_node_find` makes of the rows. -/
def nodeFindResult (rows : List NodeRow) : Int × DBNodeRegInfo :=
  match rows with
  | [] => (0, {})
  | [r] => (1, ⟨r.id, r.status, nonEmpty r.ip, nonEmpty r.key, r.isenable, r.vcpus, r.vmemory⟩)
  | r :: r' :: rest =>
    -- a second row with a key does not count
    (if nonEmpty r'.key = none then (rest.length + 2 : Nat) else 1,
      ⟨r.id, r.status, nonEmpty r.ip, nonEmpty r.key, r.isenable, r.vcpus, r.vmemory⟩)

/-- `db_node_find`. -/
def dbNodeFind (env : Env) (c : Clc) (key : NodeKey) : Clc × Int × DBNodeRegInfo :=
  match key with
  | .byId id =>
    match dbSelect env c fun db => (db.nodesById id).insertionSort (keyBefore · ·) with
    | none => (c.called, -1, {})
    | some rows => (c.called, nodeFindResult rows)
  | .byIp ip =>
    if lineMax ≤ (sqlNodeFindByIp ip).length then (c, -1, {})
    else if quotable [ip] then
      match dbSelect env c fun db => (db.nodesByIp ip).insertionSort (keyBefore · ·) with
      | none => (c.called, -1, {})
      | some rows => (c.called, nodeFindResult rows)
    else
      let r := env.injectNodes (sqlNodeFindByIp ip) c.db
      match r.2 with
      | none => ({ c.called with db := r.1 }, -1, {})
      | some rows => ({ c.called with db := r.1 }, nodeFindResult rows)

/-- `db_node_find_secret` by id: the return value, and the secret if one was stored. -/
def dbNodeFindSecret (env : Env) (c : Clc) (id : Int) : Clc × Int × Option Bytes :=
  match dbSelect env c fun db => db.nodesById id with
  | none => (c.called, -1, none)
  | some [] => (c.called, 0, none)
  | some [r] => (c.called, if r.id ≤ 0 then -1 else r.id, nonEmpty r.key)
  | some (_ :: _ :: _) => (c.called, -1, none)

/-- Change the rows of table `node` with this id. -/
def Db.updateNode (db : Db) (id : Int) (f : NodeRow → NodeRow) : Db :=
  { db with nodes := db.nodes.map fun r => if r.id = id then f r else r }

/-- `db_node_update_secret` by id. -/
def dbNodeUpdateSecret (env : Env) (c : Clc) (id : Int) (secret : Option Bytes) : Clc × Int :=
  match secret with
  | none => (c, -1)
  | some s =>
    dbExecText env c
      (cstr "UPDATE node SET key = '" ++ s ++
        cstr "', updated = 'now' WHERE id= " ++ dec id ++ cstr ";")
      [s] fun db => db.updateNode id fun r => { r with key := some s }

/-- `%s` of a `NULL` pointer. -/
def orNull (s : Option Bytes) : Bytes := s.getD (cstr "(null)")

/-- The text of the command of `db_node_update`. -/
def sqlNodeUpdate (id : Int) (nf : NodeInfo) : Bytes :=
  cstr "UPDATE node SET memory = " ++ decU nf.memMax ++
    cstr ", hostname = '" ++ orNull nf.hostName ++
    cstr "', arch = " ++ decU nf.cpuArch ++ cstr ", cpus = " ++ decU nf.cpuMax ++
    cstr ", cpu_model = '" ++ orNull nf.cpuModel ++ cstr "', cpu_mhz = " ++ decU nf.cpuMhz ++
    cstr ", status = " ++ decU nf.status ++ cstr ", ip = '" ++ orNull nf.hostIp ++
    cstr "', updated = 'now' WHERE id = " ++ dec id ++ cstr ";"

/-- What `db_node_update` writes into a row. -/
def NodeRow.withInfo (r : NodeRow) (nf : NodeInfo) : NodeRow :=
  { r with
    memory := toInt32 nf.memMax
    hostname := some (orNull nf.hostName)
    arch := toInt32 nf.cpuArch
    cpus := toInt32 nf.cpuMax
    cpuModel := some (orNull nf.cpuModel)
    cpuMhz := toInt32 nf.cpuMhz
    status := toInt32 nf.status
    ip := some (orNull nf.hostIp) }

/-- `db_node_update` by id. -/
def dbNodeUpdate (env : Env) (c : Clc) (id : Int) (nf : NodeInfo) : Clc × Int :=
  dbExecText env c (sqlNodeUpdate id nf)
    [orNull nf.hostName, orNull nf.cpuModel, orNull nf.hostIp] fun db =>
      db.updateNode id fun r => r.withInfo nf

/-- `db_node_enable`. -/
def dbNodeEnable (env : Env) (c : Clc) (id : Int) (enable : Bool) : Clc × Int :=
  dbExec env c fun db => db.updateNode id fun r => { r with isenable := enable }

/-- `db_node_update_status` by id. -/
def dbNodeUpdateStatus (env : Env) (c : Clc) (id status : Int) : Clc × Int :=
  dbExec env c fun db => db.updateNode id fun r => { r with status }

/-- The row `db_node_insert` adds. -/
def newNodeRow (seq : Nat) (nf : NodeInfo) : NodeRow where
  id := seq + 1
  id_pos := by omega
  status := toInt32 nf.status
  ip := some (orNull nf.hostIp)
  vcpus := toInt32 nf.cpuVlimit
  vmemory := toInt32 nf.memVlimit
  hostname := some (orNull nf.hostName)
  arch := toInt32 nf.cpuArch
  memory := toInt32 nf.memMax
  cpus := toInt32 nf.cpuMax
  cpuModel := some (orNull nf.cpuModel)
  cpuMhz := toInt32 nf.cpuMhz

/-- The greatest id of some rows: `order by id DESC`. -/
def greatestId : List NodeRow → Option Int
  | [] => none
  | r :: rest => some ((greatestId rest).elim r.id (max r.id))

/-- The text of the command of `db_node_insert`. -/
def sqlNodeInsert (nf : NodeInfo) : Bytes :=
  cstr "INSERT INTO node (id, hostname, ip, arch, memory, status, cpus, cpu_model, vcpus, " ++
    cstr "vmemory, cpu_mhz, created, updated) VALUES (nextval('node_id_seq'), '" ++
    orNull nf.hostName ++ cstr "', '" ++ orNull nf.hostIp ++ cstr "', " ++
      decU nf.cpuArch ++ cstr ", " ++
    decU nf.memMax ++ cstr ", " ++ decU nf.status ++ cstr ", " ++ decU nf.cpuMax ++ cstr ", '" ++
    orNull nf.cpuModel ++ cstr "', " ++ decU nf.cpuVlimit ++ cstr ", " ++ decU nf.memVlimit ++
    cstr ", " ++ decU nf.cpuMhz ++ cstr ", 'now', 'now');"

/-- The text of the query of `db_node_insert`. -/
def sqlNodeInsertedId (ip : Bytes) : Bytes :=
  cstr "SELECT id from node where ip = '" ++ ip ++ cstr "' order by id DESC; "

/-- The query of `db_node_insert`: the rows that have the address now. -/
def nodeInsertedRows (env : Env) (c : Clc) (ip : Bytes) : Clc × Option (List NodeRow) :=
  if quotable [ip] then (c.called, dbSelect env c fun db => db.nodesByIp ip)
  else
    let q := env.injectNodes (sqlNodeInsertedId ip) c.db
    ({ c.called with db := q.1 }, q.2)

/-- `db_node_insert`: the id found for the address afterwards. -/
def dbNodeInsert (env : Env) (c : Clc) (nf : NodeInfo) : Res (Clc × Int) :=
  let ip := orNull nf.hostIp
  let r := dbExecText env c (sqlNodeInsert nf)
    [orNull nf.hostName, orNull nf.cpuModel, ip] fun db =>
    { db with nodes := db.nodes ++ [newNodeRow db.nodeIdSeq nf], nodeIdSeq := db.nodeIdSeq + 1 }
  if r.2 < 0 then .ok (r.1, -1)
  else if lineMax ≤ (sqlNodeInsertedId ip).length then .ok (r.1, -1)
  else
    let q := nodeInsertedRows env r.1 ip
    match q.2.map greatestId with
    | none => .ok (q.1, -1)
    | some none => .error .nullDeref
    | some (some id) => .ok (q.1, id)

/-! ## Table `job` -/

/-- `db_job_get`: `none` is `-1`. -/
def dbJobGet (env : Env) (c : Clc) (id : Int) : Clc × Option LYJobInfo :=
  match dbSelect env c fun db => db.jobs.filter fun r => r.id == id with
  | some [r] =>
    (c.called, some { jId := id, jStatus := r.status, jCreated := r.created, jStarted := r.started,
                      jEnded := r.ended, jTargetType := r.targetType, jTargetId := r.targetId,
                      jAction := r.action })
  | _ => (c.called, none)

/-- `db_job_update_status`. -/
def dbJobUpdateStatus (env : Env) (c : Clc) (job : LYJobInfo) : Clc × Int :=
  dbExec env c fun db => { db with jobs := db.jobs.map fun r =>
    if r.status ≠ job.jStatus ∧ r.id = job.jId then
      { r with status := job.jStatus, started := job.jStarted, ended := job.jEnded }
    else r }

/-! ## Table `instance` -/

/-- The rows with this id. -/
def Db.instancesById (db : Db) (id : Int) : List InstanceRow :=
  db.instances.filter fun r => r.id == id

/-- Change the rows of table `instance` that satisfy `p`. -/
def Db.updateInstance (db : Db) (p : InstanceRow → Bool) (f : InstanceRow → InstanceRow) : Db :=
  { db with instances := db.instances.map fun r => if p r then f r else r }

/-- The part of a key before the first colon: the secret. -/
def keySecret (key : Bytes) : Bytes := key.takeWhile (· ≠ 58)

/-- `db_instance_find_secret`. -/
def dbInstanceFindSecret (env : Env) (c : Clc) (id : Int) : Clc × Int × Option Bytes :=
  match dbSelect env c fun db => db.instancesById id with
  | none => (c.called, -1, none)
  | some [] => (c.called, 0, none)
  | some [r] => (c.called, 1, (nonEmpty r.key).map keySecret)
  | some (_ :: _ :: _) => (c.called, -1, none)

/-- `db_instance_update_secret`. -/
def dbInstanceUpdateSecret (env : Env) (c : Clc) (id : Int) (secret : Bytes) : Clc × Int :=
  match dbSelect env c fun db => db.instancesById id with
  | none => (c.called, -1)
  | some (_ :: _ :: _) => (c.called, -1)
  | some rows =>
    let old := (rows.head?.bind fun r => nonEmpty r.key)
    if old.map keySecret = some secret then (c.called, 0)
    else
      -- what stands behind the first colon of the old key is kept
      let key := match old.map fun k => k.dropWhile (· ≠ 58) with
        | some (_ :: rest) => secret ++ cstr ":" ++ rest
        | _ => secret
      dbExecText env c.called
        (cstr "UPDATE instance SET key = '" ++ key ++
          cstr "', updated = 'now' WHERE id= " ++ dec id ++
          cstr ";")
        [key] fun db => db.updateInstance (·.id == id) fun r => { r with key := some key }

/-- The first `n` fields of a key, `NULL` where the text has run out. -/
def keyFields : Nat → Option Bytes → List (Option Bytes)
  | 0, _ => []
  | n + 1, none => none :: keyFields n none
  | n + 1, some [] => none :: keyFields n (some [])
  | n + 1, some s =>
    some (s.takeWhile (· ≠ 58)) :: keyFields n
      (match s.dropWhile (· ≠ 58) with
       | [] => none
       | _ :: rest => some rest)

/-- The counters and the port that go into the key and their own columns. -/
structure KeyStat where
  secret : Bytes
  gport : Int
  sum1 : Int
  sum2 : Int

/-- The accounting of `db_instance_update_status`. -/
def keyStat (key : Option Bytes) (ii : InstanceInfo) : KeyStat :=
  let ptr (i : Nat) : Option Bytes := ((keyFields 6 (nonEmpty key))[i]?).join
  let num (i : Nat) : Int := toUInt64 (((ptr i).map atol).getD 0)
  let since (i : Nat) : Int := if num 3 ≤ ii.rxBytes then num i else 0
  { secret := (ptr 0).getD []
    gport := if ii.gport = -1 then ((ptr 1).map atoi).getD 0 else ii.gport
    sum1 := toUInt64 (num 2 + ii.rxBytes - since 3)
    sum2 := toUInt64 (num 4 + ii.txBytes - since 5) }

/-- The new key. -/
def keyText (k : KeyStat) (ii : InstanceInfo) : Bytes :=
  k.secret ++ cstr ":" ++ dec k.gport ++ cstr ":" ++ decL k.sum1 ++ cstr ":" ++ decL ii.rxBytes ++
    cstr ":" ++ decL k.sum2 ++ cstr ":" ++ decL ii.txBytes

/-- The assignments of `db_instance_update_status`, each with its text and its effect. -/
structure Assign where
  text : Bytes := []
  set : InstanceRow → InstanceRow := id

/-- The new address, when there is one and it differs. -/
def assignIp (r : InstanceRow) (ii : Option InstanceInfo) : Assign :=
  match ii.bind InstanceInfo.ip with
  | none => {}
  | some ip =>
    if ip.headD 0 = 0 ∨ ip.headD 0 = 32 ∨ nonEmpty r.ip = some ip then {}
    else ⟨cstr "ip = '" ++ ip ++ cstr "',", fun r => { r with ip := some ip }⟩

/-- The new node, when there is one and it differs. -/
def assignNode (r : InstanceRow) (nodeId : Int) : Assign :=
  if nodeId < 0 then {}
  else if nodeId = 0 then ⟨cstr "node_id = NULL,", fun r => { r with nodeId := none }⟩
  else if r.nodeId = some nodeId then {}
  else ⟨cstr "node_id = " ++ dec nodeId ++ cstr ",", fun r => { r with nodeId := some nodeId }⟩

/-- The new status, when there is one and it differs. -/
def assignStatus (r : InstanceRow) (ii : Option InstanceInfo) : Assign :=
  match ii with
  | none => {}
  | some ii =>
    if ii.status = DomainS.unknown ∨ r.status = some ii.status then {}
    else ⟨cstr "status = " ++ dec ii.status ++ cstr ",",
      fun r => { r with status := some ii.status }⟩

/-- The new key with the port and the counters. -/
def assignKey (r : InstanceRow) (ii : Option InstanceInfo) : Assign :=
  match ii with
  | none => {}
  | some ii =>
    let k := keyStat r.key ii
    ⟨cstr "key = '" ++ keyText k ii ++ cstr "', vdi_port = " ++ dec k.gport ++ cstr ", rx = " ++
        decL k.sum1 ++ cstr ", tx = " ++ decL k.sum2,
      fun r =>
        { r with key := some (keyText k ii), vdiPort := k.gport, rx := k.sum1, tx := k.sum2 }⟩

/-- `db_instance_update_status`. -/
def dbInstanceUpdateStatus (env : Env) (c : Clc) (id : Int) (ii : Option InstanceInfo)
    (nodeId : Int) : Clc × Int :=
  match dbSelect env c fun db => db.instancesById id with
  | none => (c.called, -1)
  | some [] => (c.called, 0)
  | some (_ :: _ :: _) => (c.called, -1)
  | some [r] =>
    let ip := assignIp r ii
    let status := assignStatus r ii
    let node := assignNode r nodeId
    let key := assignKey r ii
    if ip.text = [] ∧ status.text = [] ∧ node.text = [] ∧ key.text = [] then (c.called, 0)
    else
      let sql := cstr "UPDATE instance SET " ++ ip.text.take 99 ++
        cstr " " ++ status.text.take 19 ++
        cstr " " ++ node.text.take 19 ++ cstr " " ++ key.text.take 255 ++ cstr " " ++
        (if ip.text = [] ∧ status.text = [] ∧ node.text = [] then []
         else if key.text = [] then cstr " updated = 'now' " else cstr ", updated = 'now' ") ++
        cstr " WHERE status != 100 and id = " ++ dec id ++ cstr ";"
      -- an assignment that was cut off leaves a statement that says something else
      if ip.text.length < 100 ∧ status.text.length < 20 ∧ node.text.length < 20
          ∧ key.text.length < 256 then
        let secret := ii.elim [] fun _ => keySecret (r.key.getD [])
        dbExecText env c.called sql [(ii.bind InstanceInfo.ip).getD [], secret] fun db =>
          db.updateInstance (fun r => r.id == id && r.status.any (· ≠ DomainS.delete)) fun r =>
            key.set (node.set (status.set (ip.set r)))
      else
        let q := env.injectExec sql c.db
        ({ c.called.called with db := q.1 }, if q.2 then 0 else -1)

/-- `db_instance_delete`. -/
def dbInstanceDelete (env : Env) (c : Clc) (id : Int) : Clc × Int :=
  dbExec env c fun db =>
    { db with
      instances := db.instances.filter fun r =>
        !(r.id == id && r.status == some DomainS.delete) }

/-- `db_instance_get_node`. -/
def dbInstanceGetNode (env : Env) (c : Clc) (id : Int) : Clc × Int :=
  match dbSelect env c fun db => db.instancesById id with
  | none => (c.called, -1)
  | some [] => (c.called, 0)
  | some (r :: _) => (c.called, r.nodeId.getD 0)

/-- The name of an instance's domain, cut off at 19 characters. -/
def insDomain (env : Env) (id : Int) : Bytes :=
  (env.cfg.vmNamePrefix.getD (cstr "i-") ++ dec id).take 19

/-- `strtok(str, ":")` on the key: leading colons are skipped. -/
def strtokColon (s : Bytes) : Option Bytes :=
  match s.dropWhile (· = 58) with
  | [] => none
  | t => some (t.takeWhile (· ≠ 58))

/-- `db_node_instance_control_get`: `none` is `-1`. The query joins the instance with its
appliance. -/
def dbNodeInstanceControlGet (env : Env) (c : Clc) (ci : NodeCtrlInstance) :
    Clc × Option (NodeCtrlInstance × Int) :=
  match dbSelect env c fun db => (db.instancesById ci.insId).filter fun r =>
      (env.appliance r.applianceId).isSome with
  | some [r] =>
    let app := (env.appliance r.applianceId).getD ([], [])
    (c.called, some ({ ci with
      insName := nonEmpty r.name
      insVcpu := r.cpus
      insMem := toInt32 ((if 131072 < r.memory then 131072 else r.memory) * 1024)
      insIp := nonEmpty r.ip
      appId := r.applianceId
      appName := nonEmpty (some app.1)
      appChecksum := some (app.2.take 32)
      insStatus := r.status.getD 0
      osmSecret := (nonEmpty r.key).bind strtokColon
      osmTag := ci.insId
      insExtsize := r.extendsize
      insJson := nonEmpty r.secretConfig
      osmJson := nonEmpty r.config
      insDomain := some (insDomain env ci.insId) }, r.nodeId.getD 0))
  | _ => (c.called, none)

end LuoYun

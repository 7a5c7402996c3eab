import LuoYun.Clc.Job

/-!
# `ev_node.c`: packets from compute nodes

A node announces itself with a register request, proves with two authentication packets that
it knows the secret of its tag, and from then on answers requests and sends reports. The
handlers work on the entity in slot `i`; they find the packet in that entity's buffer, and the
authentication handlers encrypt and decrypt it in place.
-/

namespace LuoYun

/-! ## The packet being handled -/

/-- The packet buffer of the entity in slot `i`. -/
def Clc.mem (c : Clc) (i : Nat) : Res Mem :=
  match (c.store.ents i).pkt.bind LYPacketRecv.pktBuf with
  | none => .error .nullDeref
  | some m => .ok m

/-- Write the packet buffer of the entity in slot `i`. -/
def Clc.setMem (c : Clc) (i : Nat) (m : Mem) : Clc :=
  c.modifyEnt i fun e => { e with pkt := e.pkt.map fun p => { p with pktBuf := some m } }

/-- Release the entity in slot `i`. -/
def Clc.release (c : Clc) (i : Nat) : Clc := c.withStore (lyEntityRelease c.store i).1

/-- Release the entity in slot `i` in `__node_xml_register`, which at its end prints `nf->status`
from the node data that is freed by then. -/
def Clc.releaseOwn (c : Clc) (i : Nat) : Clc :=
  if (c.store.ents i).id < 0 then c
  else
    let s := (lyEntityRelease c.store i).1
    c.withStore { s with misreads := s.misreads + 1 }

/-- `ly_entity_update` on the entity in slot `i`. -/
def Clc.update (c : Clc) (i : Nat) (dbId status : Int) : Clc :=
  c.withStore (lyEntityUpdate c.store i dbId status).1

/-- Write the node data of the entity in slot `i`. -/
def Clc.setNode (c : Clc) (i : Nat) (nd : LYNodeData) : Clc :=
  c.modifyEnt i fun e => { e with entity := .node nd }

/-- Write the OS manager data of the entity in slot `i`. -/
def Clc.setOsm (c : Clc) (i : Nat) (oi : OSMInfo) : Clc :=
  c.modifyEnt i fun e => { e with entity := .osm oi }

/-- Keep a secret that goes with `tag`; the connection then has that secret for good. -/
def Clc.keepSecret (c : Clc) (i : Nat) (tag : Int) : Option Bytes → Clc
  | none => c
  | some s => (c.modifyEnt i fun e => { e with auth := { e.auth with secret := some s } }).note i
      fun h => { h with secretTag := some tag }

@[simp] theorem setNode_entity (c : Clc) (i : Nat) (nd : LYNodeData) :
    ((c.setNode i nd).store.ents i).entity = .node nd := by
  simp [Clc.setNode, Clc.modifyEnt]

@[simp] theorem setNode_status (c : Clc) (i : Nat) (nd : LYNodeData) :
    ((c.setNode i nd).store.ents i).status = (c.store.ents i).status := by
  simp [Clc.setNode, Clc.modifyEnt, LYEntity.status]

@[simp] theorem setNode_auth (c : Clc) (i : Nat) (nd : LYNodeData) :
    ((c.setNode i nd).store.ents i).auth = (c.store.ents i).auth := by
  simp [Clc.setNode, Clc.modifyEnt]

/-! ## Reading a document into `NodeInfo` -/

/-- An element that has to be there, and the field its text goes into. -/
structure Field where
  path : List Bytes
  set : Bytes → NodeInfo → NodeInfo

/-- Read the fields in order, up to the first that is missing: the result is written as far as
it got. -/
def readFields (root : XmlNode) : List Field → NodeInfo → NodeInfo × Bool
  | [], nf => (nf, true)
  | f :: fs, nf =>
    match root.xpathText f.path with
    | none => (nf, false)
    | some s => readFields root fs (f.set s nf)

/-- A path under `/luoyun/request/parameters`. -/
def inRequest (path : List String) : List Bytes :=
  (["request", "parameters"] ++ path).map cstr

/-- A path under `/luoyun/response/data`. -/
def inData (path : List String) : List Bytes := (["response", "data"] ++ path).map cstr

/-- A path under `/luoyun/report/resource`. -/
def inReport (path : List String) : List Bytes := (["report", "resource"] ++ path).map cstr

/-- The fields `__node_xml_register` reads, except for the tag. -/
def registerFields (cfg : CLCConfig) : List Field :=
  [⟨inRequest ["status"], fun s nf => { nf with status := atou s }⟩,
   ⟨inRequest ["hypervisor"], fun s nf => { nf with hypervisor := atou s }⟩,
   ⟨inRequest ["host", "name"], fun s nf => { nf with hostName := some s }⟩,
   ⟨inRequest ["host", "ip"], fun s nf => { nf with hostIp := some s }⟩,
   ⟨inRequest ["cpu", "arch"], fun s nf => { nf with cpuArch := atou s }⟩,
   ⟨inRequest ["cpu", "model"], fun s nf => { nf with cpuModel := some s }⟩,
   ⟨inRequest ["cpu", "mhz"], fun s nf => { nf with cpuMhz := atou s }⟩,
   ⟨inRequest ["cpu", "max"], fun s nf =>
      { nf with cpuMax := atou s, cpuVlimit := toUInt32 (atou s * cfg.nodeCpuFactor) }⟩,
   ⟨inRequest ["cpu", "commit"], fun s nf => { nf with cpuCommit := atou s }⟩,
   ⟨inRequest ["memory", "total"], fun s nf =>
      { nf with memMax := atou s, memVlimit := toUInt32 (atou s * cfg.nodeMemFactor) }⟩,
   ⟨inRequest ["memory", "free"], fun s nf => { nf with memFree := atou s }⟩,
   ⟨inRequest ["memory", "commit"], fun s nf => { nf with memCommit := atou s }⟩,
   ⟨inRequest ["storage", "total"], fun s nf => { nf with storageTotal := atou s }⟩,
   ⟨inRequest ["storage", "free"], fun s nf => { nf with storageFree := atou s }⟩,
   ⟨inRequest ["load", "average"], fun s nf => { nf with loadAverage := atou s }⟩]

/-- The fields `__node_info_update` reads. -/
def nodeInfoFields : List Field :=
  [⟨inData ["status"], fun s nf => { nf with status := atou s }⟩,
   ⟨inData ["cpu", "commit"], fun s nf => { nf with cpuCommit := atou s }⟩,
   ⟨inData ["memory", "free"], fun s nf => { nf with memFree := atou s }⟩,
   ⟨inData ["storage", "free"], fun s nf => { nf with storageFree := atou s }⟩,
   ⟨inData ["memory", "commit"], fun s nf => { nf with memCommit := atou s }⟩,
   ⟨inData ["load", "average"], fun s nf => { nf with loadAverage := atou s }⟩]

/-- The fields `__node_resource_update` reads. -/
def resourceFields : List Field :=
  [⟨inReport ["cpu", "commit"], fun s nf => { nf with cpuCommit := atou s }⟩,
   ⟨inReport ["memory", "free"], fun s nf => { nf with memFree := atou s }⟩,
   ⟨inReport ["memory", "commit"], fun s nf => { nf with memCommit := atou s }⟩,
   ⟨inReport ["storage", "free"], fun s nf => { nf with storageFree := atou s }⟩,
   ⟨inReport ["load", "average"], fun s nf => { nf with loadAverage := atou s }⟩]

/-! ## Registration -/

/-- `__node_register_auth`: the tag is in the database and the connection is authenticated. -/
def nodeRegisterAuth (env : Env) (c : Clc) (i : Nat) (nd : LYNodeData) : Res (Clc × Int) :=
  if nd.node.hostTag ≤ 0 then .ok (c, -1)
  else match dbNodeFind env c (.byId nd.node.hostTag) with
  | (c, found, db) =>
    if found = 1 then
      if lyEntityIsAuthenticated c.store i = false then .ok (c, -1)
      else if db.ip = none then .error .nullDeref
      else
        let c := c.setNode i (nd.withVlimit db.cpuVlimit db.memVlimit)
        .ok (c.withStore (lyEntityEnable c.store i db.id db.enabled).1, LyS.registeringDoneSuccess)
    else if found = 0 then .ok (c, LyS.registeringReinit)
    else .ok (c, -1)

/-- `__node_xml_register` for a node that names a tag. -/
def nodeRegisterTagged (env : Env) (c : Clc) (i : Nat) (nd : LYNodeData) (tag : Int) :
    Res (Clc × Int) :=
  if 0 < nd.node.hostTag ∧ tag ≠ nd.node.hostTag then .ok (c, -1)
  else
    let nd := nd.withTag tag
    match nodeRegisterAuth env (c.setNode i nd) i nd with
    | .error e => .error e
    | .ok (c, ret) =>
      if ret = LyS.registeringDoneSuccess then
        let r := dbNodeUpdateSecret env c tag (c.store.ents i).auth.secret
        if r.2 < 0 then .ok (r.1, -1)
        else
          let r := dbNodeUpdateStatus env r.1 tag NodeStatus.registered
          if r.2 < 0 then .ok (r.1, -1)
          else .ok ((r.1.update i tag Flag.registered).note i fun h =>
            { h with registered := true }, ret)
      else .ok (c, ret)

/-- The row of a new node: the one its address has, or a new one. `none` is the `-1` of
`goto new_done`. -/
def nodeNewRow (env : Env) (c : Clc) (nf : NodeInfo) (found : Int) (db : DBNodeRegInfo) :
    Res (Clc × Option DBNodeRegInfo) :=
  if found = 0 ∨ db.secret ≠ none then
    match dbNodeInsert env c nf with
    | .error e => .error e
    | .ok (c, id) =>
      if id < 0 then .ok (c, none)
      else if (nf.hostIp.any fun ip => env.cfg.clcIp.contains ip) then
        let r := dbNodeEnable env c id true
        if r.2 ≠ 0 then .ok (r.1, none)
        else match dbNodeFind env r.1 (.byId id) with
        | (c, found, db) => if found = 1 then .ok (c, some db) else .ok (c, none)
      else .ok (c, some { id })
  else .ok (c, some db)

/-- The end of `__node_xml_register` for a new node, once its row is known. -/
def nodeNewOnline (env : Env) (c : Clc) (i : Nat) (nd : LYNodeData) (db : DBNodeRegInfo) :
    Clc × Int :=
  let c := c.update i db.id Flag.online
  if db.enabled ∧ (c.store.ents i).auth.secret ≠ none then (c, -1)
  else
    let r : Clc × LYNodeData × Int :=
      if db.enabled then
        (c.called.keepSecret i db.id (some (env.uuid c.io.tick).text),
          (nd.withTag db.id).withStatus NodeStatus.online, LyS.registeringConfig)
      else (c, nd.withStatus NodeStatus.online, LyS.registeringInit)
    let q := dbNodeUpdate env (r.1.setNode i r.2.1) db.id r.2.1.node
    (q.1, if q.2 < 0 then -1 else r.2.2)

/-- `__node_xml_register` for a node without a tag. -/
def nodeRegisterNew (env : Env) (c : Clc) (i : Nat) (nd : LYNodeData) : Res (Clc × Int) :=
  match dbNodeFind env c (.byIp (nd.node.hostIp.getD [])) with
  | (c, found, db) =>
    if found < 0 ∨ 1 < found then .ok (c, -1)
    else
      -- a new node starts from UNINITIALIZED, whatever it says
      let nd := if found = 0 ∨ db.secret ≠ none then nd.withStatus NodeStatus.uninitialized else nd
      match nodeNewRow env (c.setNode i nd) nd.node found db with
      | .error e => .error e
      | .ok (c, none) => .ok (c, -1)
      | .ok (c, some db) => .ok (nodeNewOnline env c i nd db)

/-- `__node_xml_register`. -/
def nodeXmlRegister (env : Env) (c : Clc) (root : XmlNode) (i : Nat) : Res (Clc × Int) :=
  if lyEntityIsRegistered c.store i then .ok (c, -1)
  else match (c.store.ents i).entity with
  | .null => .ok (c, -1)
  | .osm _ => .error .wrongType
  | .node nd =>
    let r := readFields root (registerFields env.cfg) nd.node
    let nd := { nd with node := r.1 }
    let c := c.setNode i nd
    if r.2 = false then .ok (c, -1)
    else if NodeStatus.registered ≤ nd.node.status then .ok (c.releaseOwn i, 0)
    else match lyEntityNodeActive c.store (nd.node.hostIp.getD []) with
    | .error e => .error e
    | .ok true => .ok (c.releaseOwn i, 0)
    | .ok false =>
      let tag := ((root.xpathText (inRequest ["host", "tag"])).map atoi).getD (-1)
      if 0 < tag then nodeRegisterTagged env c i nd tag else nodeRegisterNew env c i nd

/-- `__process_node_xml_request`. A failed registration is answered as well. -/
def processNodeXmlRequest (env : Env) (c : Clc) (root node : XmlNode) (i : Nat) : Res (Clc × Int) :=
  match node.prop (cstr "action") with
  | none => .error .nullDeref
  | some action =>
    if atoi action ≠ LyA.clcRegisterNode then .ok (c, -1)
    else match node.prop (cstr "id") with
    | none => .ok (c, -1)
    | some id =>
      match nodeXmlRegister env c root i with
      | .error e => .error e
      | .ok (c, ret) =>
        if ret = 0 then .ok (c, 0)
        else match (c.store.ents i).entity with
        | .null => .ok (c, -1)
        | .osm _ => .error .wrongType
        | .node nd =>
          let secret := if ret = LyS.registeringConfig then
              (((c.store.ents i).auth.secret).getD []).take luoyunAuthDataLen
            else []
          let tag := if 0 < nd.node.hostTag then nd.node.hostTag else 0
          match lyxmlDataReplyAuthInfo (atoi id) ret tag secret with
          | none => .error .nullDeref
          | some response =>
            .ok (lyPacketSend env c (c.store.ents i).fd PktType.nodeRegisterReply response)

/-! ## Responses and reports -/

/-- `sscanf(str, "%ld %ld %ld %ld", …)` into the counters of `InstanceInfo`. -/
def scanNetstat (s : Bytes) (ii : InstanceInfo) : InstanceInfo :=
  match scanLong s with
  | none => ii
  | some (a, s) =>
    let ii := { ii with rxBytes := (toUInt64 a).toNat }
    match scanLong s with
    | none => ii
    | some (b, s) =>
      let ii := { ii with rxPkts := (toUInt64 b).toNat }
      match scanLong s with
      | none => ii
      | some (a, s) =>
        let ii := { ii with txBytes := (toUInt64 a).toNat }
        match scanLong s with
        | none => ii
        | some (b, _) => { ii with txPkts := (toUInt64 b).toNat }

/-- `__instance_info_update`. -/
def instanceInfoUpdate (env : Env) (c : Clc) (root : XmlNode) : Clc × Int :=
  match root.xpathText (inData ["id"]), root.xpathText (inData ["status"]),
      root.xpathText (inData ["gport"]), root.xpathText (inData ["netstat0"]) with
  | some id, some status, some gport, some netstat =>
    let ii := scanNetstat netstat { id := atoi id, status := atoi status, gport := atoi gport,
                                    ip := root.xpathText (inData ["ip"]) }
    -- the status of a registered instance is not taken from the node
    let ii := if lyEntityIsRegistered c.store (lyEntityFindByDb c.store .osm ii.id) then
        { ii with status := DomainS.unknown }
      else ii
    let r := dbInstanceUpdateStatus env c ii.id (some ii) (-1)
    (r.1, if r.2 < 0 then -1 else 0)
  | _, _, _, _ => (c, -1)

/-- `__node_info_update`. It never fails; what it does to the job status is lost. -/
def nodeInfoUpdate (env : Env) (c : Clc) (root : XmlNode) (i : Nat) : Res Clc :=
  if lyEntityIsOnline c.store i = false then .ok c
  else match (c.store.ents i).entity with
  | .null => .ok c
  | .osm _ => .error .wrongType
  | .node nd =>
    let r := readFields root nodeInfoFields nd.node
    let c := c.setNode i { nd with node := r.1 }
    if r.2 then .ok (dbNodeUpdate env c (c.store.ents i).dbId r.1).1 else .ok c

/-- The `type` of the last `data` element that has one. -/
def responseDataType (node : XmlNode) : Int :=
  node.children.foldl (fun t n =>
    if n.named (cstr "data") then ((n.prop (cstr "type")).map atoi).getD t else t) (-1)

/-- The second half of `__process_node_xml_response`: the data of a response. -/
def nodeResponseData (env : Env) (c : Clc) (root : XmlNode) (i : Nat) (dataType : Int) :
    Res (Clc × Int) :=
  if (c.store.ents i).type = .node ∧ dataType = dataInstanceInfo then
    let r := instanceInfoUpdate env c root
    .ok (r.1, if r.2 ≠ 0 then -1 else 0)
  else if (c.store.ents i).type = .node ∧ dataType = dataNodeInfo then
    match nodeInfoUpdate env c root i with
    | .error e => .error e
    | .ok c => .ok (c, 0)
  else .ok (c, 0)

/-- `job->j_action` is read again after `job_update_status`, which may have freed the job. The
condition it stands in is false in that case, whatever is read: a status that frees a job is not
`LY_S_RUNNING_STOPPED`. -/
def Clc.readAgain (c : Clc) (id : Int) : Clc :=
  if jobExist c id then c else { c with staleReads := c.staleReads + 1 }

/-- The first half of `__process_node_xml_response`: the status of a job. `none` goes on with
the data. -/
def nodeResponseJob (env : Env) (c : Clc) (id status : Int) : Res (Clc × Option Int) :=
  if id = 0 then .ok (c, none)
  else match jobFind c id with
  | none => .ok (c, some 0)
  | some job =>
    match jobUpdateStatus env c id status with
    | .error e => .error e
    | .ok r =>
      if r.2 ≠ 0 then .ok (r.1, some (-1))
      else
        let c := r.1.readAgain id
        if (job.jAction = LyA.nodeStopInstance ∨ job.jAction = LyA.nodeFullrebootInstance ∨
            job.jAction = LyA.nodeAcpirebootInstance) ∧ status = LyS.runningStopped then
          .ok (releaseOsm c job.jTargetId, none)
        else .ok (c, none)

/-- `__process_node_xml_response`. -/
def processNodeXmlResponse (env : Env) (c : Clc) (root node : XmlNode)
    (i : Nat) : Res (Clc × Int) :=
  match node.prop (cstr "id"), node.prop (cstr "status") with
  | some id, some status =>
    match nodeResponseJob env c (atoi id) (atoi status) with
    | .error e => .error e
    | .ok (c, some ret) => .ok (c, ret)
    | .ok (c, none) => nodeResponseData env c root i (responseDataType node)
  | _, _ => .ok (c, -1)

/-- `__node_resource_update`; its return value is not looked at. -/
def nodeResourceUpdate (c : Clc) (root : XmlNode) (i : Nat) : Res Clc :=
  match (c.store.ents i).entity with
  | .null => .ok c
  | .osm _ => .error .wrongType
  | .node nd => .ok (c.setNode i { nd with node := (readFields root resourceFields nd.node).1 })

/-- The end of `__process_node_xml_report`: with a status in the report, the one in the node data is
read for a log message, whatever the type of the entity. -/
def nodeReportEnd (c : Clc) (i : Nat) (status : Int) : Res (Clc × Int) :=
  match (c.store.ents i).entity with
  | .osm _ => if status ≠ -1 then .error .wrongType else .ok (c, 0)
  | _ => .ok (c, 0)

/-- The loop of `__process_node_xml_report` over the children, with the status it has found so far.
-/
def nodeReportLoop (root : XmlNode) (i : Nat) : List XmlNode → Int → Clc → Res (Clc × Int)
  | [], status, c => nodeReportEnd c i status
  | n :: ns, status, c =>
    if n.named (cstr "status") then
      match n.children.head?.bind XmlNode.textContent with
      | some text => nodeReportLoop root i ns (atoi text) c
      | none => .ok (c, -1)
    else if n.named (cstr "resource") then
      match nodeResourceUpdate c root i with
      | .error e => .error e
      | .ok c => nodeReportLoop root i ns status c
    else nodeReportLoop root i ns status c

/-- `__process_node_xml_report`. -/
def processNodeXmlReport (c : Clc) (root node : XmlNode) (i : Nat) : Res (Clc × Int) :=
  nodeReportLoop root i node.children (-1) c

/-- One child of the root element in `eh_process_node_xml`. -/
def nodeXmlElement (env : Env) (root : XmlNode) (i : Nat) (c : Clc) (node : XmlNode) (ret : Int) :
    Res (Clc × Int) :=
  if node.named (cstr "response") then processNodeXmlResponse env c root node i
  else if node.named (cstr "request") then processNodeXmlRequest env c root node i
  else if node.named (cstr "report") then processNodeXmlReport c root node i
  else .ok (c, ret)

/-- The loop of `eh_process_node_xml`: it ends early at a negative result. -/
def nodeXmlLoop (env : Env) (root : XmlNode) (i : Nat) : List XmlNode → Clc → Int → Res (Clc × Int)
  | [], c, ret => .ok (c, ret)
  | n :: ns, c, ret =>
    match nodeXmlElement env root i c n ret with
    | .error e => .error e
    | .ok (c, ret) => if ret < 0 then .ok (c, ret) else nodeXmlLoop env root i ns c ret

/-- `LYXML_ROOT`. -/
def lyxmlRoot : Bytes := cstr "luoyun"

/-- `eh_process_node_xml`. -/
def ehProcessNodeXml (env : Env) (c : Clc) (i : Nat) : Res (Clc × Int) := do
  let m ← c.mem i
  let xml ← m.loadStr sizeofLYPacketHeader
  match env.readDoc xml with
  | none => .ok (c, -1)
  | some root =>
    if root.named lyxmlRoot then nodeXmlLoop env root i root.children c 0 else .ok (c, -1)

/-! ## Authentication -/

/-- The offset of `ai->data` in the packet buffer. -/
def authDataOff : Nat := sizeofLYPacketHeader + 4

/-- The reply branch of `eh_process_node_auth` and `eh_process_osm_auth`, which is the same in
both: verify the answer to the challenge of this connection. -/
def authVerify (env : Env) (c : Clc) (i : Nat) : Res (Clc × Int) := do
  let m ← c.mem i
  let data ← m.load authDataOff luoyunAuthDataLen
  let r := lyauthVerify env.cipher (c.store.ents i).auth data
  let m ← m.store authDataOff r.2
  let c := c.setMem i m
  if r.1 < 0 then .ok (c, -1)
  else if r.1 = 0 then .ok (c, 1)
  else
    let c := c.note i fun h => { h with verified := true, verifiedTag := h.secretTag }
    if lyEntityIsAuthenticated c.store i then .ok (c, 0)
    else .ok (c.update i (-1) Flag.authenticated, 0)

/-- The second half of the request branch, which is the same in both: answer the peer's
challenge, send one's own, and take the tag `tag` for the identity of the connection. -/
def authAnswer (env : Env) (c : Clc) (i : Nat) (replyType requestType tag : Int) :
    Res (Clc × Int) := do
  let m ← c.mem i
  let data ← m.load authDataOff luoyunAuthDataLen
  match lyauthAnswer env.cipher (c.store.ents i).auth data with
  | none => .ok (c, -1)
  | some answer =>
    let m ← m.store authDataOff answer
    let c := c.setMem i m
    let fd := (c.store.ents i).fd
    let ai ← m.load sizeofLYPacketHeader sizeofAuthInfo
    let r := lyPacketSend env c fd replyType ai
    if r.2 < 0 then .ok (r.1, -1)
    else
      let challenge := env.uuid r.1.io.tick
      let c := r.1.called.modifyEnt i fun e =>
        { e with auth := { e.auth with challenge := some challenge } }
      let m ← m.store authDataOff (strncpy luoyunAuthDataLen challenge.text)
      let c := c.setMem i m
      let ai ← m.load sizeofLYPacketHeader sizeofAuthInfo
      let r := lyPacketSend env c fd requestType ai
      if r.2 < 0 then .ok (r.1, -1) else .ok (r.1.update i tag Flag.online, 0)

/-- The tag in the authentication packet. -/
def authTag (c : Clc) (i : Nat) : Res Int := do
  let m ← c.mem i
  let b ← m.load sizeofLYPacketHeader 4
  .ok (int32Of b)

/-- `get secret` in `eh_process_node_auth`: `none` is the `-1`. -/
def nodeAuthSecret (env : Env) (c : Clc) (i : Nat) (nd : LYNodeData) (tag : Int) :
    Clc × Option LYNodeData :=
  if (c.store.ents i).auth.secret ≠ none then (c, some nd)
  else match dbNodeFindSecret env c tag with
  | (c, ret, secret) =>
    let c := c.keepSecret i tag secret
    if ret ≤ 0 then (c, none)
    else
      (c.setNode i (nd.withTag tag), some (nd.withTag tag))

/-- The request branch of `eh_process_node_auth`. -/
def nodeAuthRequest (env : Env) (c : Clc) (i : Nat) : Res (Clc × Int) :=
  match authTag c i with
  | .error e => .error e
  | .ok tag =>
    match (c.store.ents i).entity with
    | .null => .ok (c, -1)
    | .osm _ => .error .wrongType
    | .node nd =>
      match nodeAuthSecret env c i nd tag with
      | (c, none) => .ok (c, -1)
      | (c, some nd) =>
        let r := dbNodeUpdateStatus env c tag NodeStatus.authenticating
        if r.2 < 0 then .ok (r.1, -1)
        else authAnswer env r.1 i PktType.nodeAuthReply PktType.nodeAuthRequest nd.node.hostTag

/-- `eh_process_node_auth`. -/
def ehProcessNodeAuth (env : Env) (c : Clc) (isReply : Bool) (i : Nat) : Res (Clc × Int) :=
  if isReply then authVerify env c i else nodeAuthRequest env c i

end LuoYun

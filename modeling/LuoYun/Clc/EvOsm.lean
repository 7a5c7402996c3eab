import LuoYun.Clc.EvNode

/-!
# `ev_osm.c`: packets from OS managers

The OS manager runs inside an instance. It authenticates like a node, registers with a line of
text (tag, status, address), and reports the state of the application it watches.
-/

namespace LuoYun

/-- A `%s` conversion into `char ip[MAX_IP_LEN]`. -/
def scanIp (s : Bytes) : Option (Res Bytes) :=
  (scanWord s).map fun r => if maxIpLen ≤ r.1.length then .error .stack else .ok r.1

/-- `eh_process_osm_query`. -/
def ehProcessOsmQuery (env : Env) (c : Clc) (i : Nat) : Res (Clc × Int) := do
  let m ← c.mem i
  let buf ← m.loadStr sizeofLYPacketHeader
  match scanInt buf with
  | none => .ok (c, 1)
  | some (jobId, s) =>
    match scanInt s with
    | none => .ok (c, 1)
    | some (_, s) =>
      match scanInt s with
      | none => .ok (c, 1)
      | some (_, s) =>
        match scanIp s with
        | none => .ok (c, 1)
        | some (.error e) => .error e
        | some (.ok _) =>
          match jobFind c jobId with
          | none => .ok (c, 0)
          | some _ =>
            match jobUpdateStatus env c jobId LyS.finishedSuccess with
            | .error e => .error e
            | .ok r => .ok (r.1, if r.2 ≠ 0 then -1 else 0)

/-- The two status branches of `eh_process_osm_report`: write the row and the entity. -/
def osmReportStatus (env : Env) (c : Clc) (i : Nat) (domain flag : Int) : Clc × Int :=
  let r := dbInstanceUpdateStatus env c (c.store.ents i).dbId
    (some { status := domain, gport := -1 }) (-1)
  if r.2 < 0 then (r.1, -1) else (r.1.update i (-1) flag, 0)

/-- `eh_process_osm_report`. -/
def ehProcessOsmReport (env : Env) (c : Clc) (size : Int) (i : Nat) : Res (Clc × Int) := do
  if size ≠ 4 then .ok (c, -1)
  else
    let m ← c.mem i
    let b ← m.load sizeofLYPacketHeader 4
    let status := int32Of b
    if status = LyS.appRunning then
      if lyEntityIsServing c.store i then .ok (c, 0)
      else .ok (osmReportStatus env c i DomainS.serving Flag.serving)
    else if LyS.appRunning < status ∧ status ≤ LyS.appFailed then
      if lyEntityIsRunning c.store i = false ∨ lyEntityIsServing c.store i then
        .ok (osmReportStatus env c i DomainS.running Flag.running)
      else .ok (c, 0)
    else .ok (c, 0)

/-- What `sscanf(buf, "%d %d %s", &oi->tag, &oi->status, ip)` writes: the data as far as it got,
and the address if all three conversions were made. -/
def scanRegister (buf : Bytes) (oi : OSMInfo) : OSMInfo × Option (Res Bytes) :=
  match scanInt buf with
  | none => (oi, none)
  | some (tag, s) =>
    match scanInt s with
    | none => ({ oi with tag }, none)
    | some (status, s) => ({ oi with tag, status }, scanIp s)

/-- The end of `eh_process_osm_register`, once the reply is out and the result is success. -/
def osmRegistered (env : Env) (c : Clc) (i : Nat) (oi : OSMInfo) (ip : Bytes) : Clc × Int :=
  let r := dbInstanceUpdateStatus env c oi.tag
    (some { status := DomainS.running, ip := some ip, gport := -1 }) (-1)
  if r.2 < 0 then (r.1, -1)
  else ((r.1.update i oi.tag Flag.registered).note i fun h => { h with registered := true }, 0)

/-- `eh_process_osm_register`. -/
def ehProcessOsmRegister (env : Env) (c : Clc) (i : Nat) : Res (Clc × Int) := do
  let m ← c.mem i
  let buf ← m.loadStr sizeofLYPacketHeader
  if lyEntityIsRegistered c.store i then .ok (c, -1)
  else match (c.store.ents i).entity with
  | .null => .ok (c, -1)
  | .node _ => .error .wrongType
  | .osm oi =>
    match scanRegister buf oi with
    | (oi, none) => .ok (c.setOsm i oi, 1)
    | (_, some (.error e)) => .error e
    | (oi, some (.ok ip)) =>
      let oi := { oi with ip := some ip }
      let c := c.setOsm i oi
      let result := if lyEntityIsAuthenticated c.store i = false ∨ oi.status ≠ osmStatusUnregistered
        then LyS.registeringDoneFail else LyS.registeringDoneSuccess
      let r := lyPacketSend env c (c.store.ents i).fd PktType.osmRegisterReply (le32 result)
      if r.2 < 0 then .ok (r.1, -1)
      else if result ≠ LyS.registeringDoneSuccess then .ok (r.1, 0)
      else .ok (osmRegistered env r.1 i oi ip)

/-- `get secret` in `eh_process_osm_auth`: `none` is the `-1`. -/
def osmAuthSecret (env : Env) (c : Clc) (i : Nat) (oi : OSMInfo) (tag : Int) :
    Clc × Option OSMInfo :=
  if (c.store.ents i).auth.secret ≠ none then (c, some oi)
  else match dbInstanceFindSecret env c tag with
  | (c, ret, secret) =>
    let c := c.keepSecret i tag secret
    if ret ≤ 0 then (c, none)
    else
      (c.setOsm i { oi with tag }, some { oi with tag })

/-- The request branch of `eh_process_osm_auth`. -/
def osmAuthRequest (env : Env) (c : Clc) (i : Nat) : Res (Clc × Int) :=
  match authTag c i with
  | .error e => .error e
  | .ok tag =>
    match (c.store.ents i).entity with
    | .null => .ok (c, -1)
    | .node _ => .error .wrongType
    | .osm oi =>
      match osmAuthSecret env c i oi tag with
      | (c, none) => .ok (c, -1)
      | (c, some oi) => authAnswer env c i PktType.osmAuthReply PktType.osmAuthRequest oi.tag

/-- `eh_process_osm_auth`. -/
def ehProcessOsmAuth (env : Env) (c : Clc) (isReply : Bool) (i : Nat) : Res (Clc × Int) :=
  if isReply then authVerify env c i else osmAuthRequest env c i

end LuoYun

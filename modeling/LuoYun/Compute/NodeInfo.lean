import LuoYun.Base

/-!
# What a compute node reports of itself

`ly_node_info_update` brings the `NodeInfo` of the node up to date before it goes out in a report:
memory, storage and load of the host, the status, and what the running domains have been given
(`libvirt_node_info_update`). The controller takes `cpu_commit` and `mem_commit` from the report for
what is in use on the node.

libvirt is a parameter: `Hypervisor` holds the answers that its calls give during one update.
-/

namespace LuoYun

/-- The two fields of `virDomainInfo` that are read. -/
structure VirDomainInfo where
  nrVirtCpu : UInt16
  maxMem : UInt64
  deriving DecidableEq, Repr

/-- The answers of libvirt, and of `malloc`, during one update. `none` is an error. -/
structure Hypervisor where
  /-- `g_conn` is not `NULL`. -/
  conn : Bool := true
  /-- `virConnectNumOfDomains`. -/
  numOfDomains : Option Nat
  malloc : Bool := true
  /-- The ids that `virConnectListDomains` writes. -/
  listDomains : Option (List Int)
  /-- There is room for as many ids as domains were counted. -/
  room : ∀ n ids, numOfDomains = some n → listDomains = some ids → ids.length ≤ n
  /-- `virDomainLookupByID` and `virDomainGetInfo`. -/
  info : Int → Option VirDomainInfo

/-- The loop over the active domains: `cpu_commit` is an `int`, `mem_commit` is unsigned. -/
def commitLoop (hv : Hypervisor) : List Int → Int → Nat → Option (Int × Nat)
  | [], cpu, mem => some (cpu, mem)
  | id :: ids, cpu, mem =>
    -- domain 0 is the host
    if id = 0 then commitLoop hv ids cpu mem
    else match hv.info id with
    | none => none
    | some di => commitLoop hv ids (toInt32 (cpu + di.nrVirtCpu.toNat))
        (toUInt32 (mem + di.maxMem.toNat))

/-- `libvirt_node_info_update`. -/
def libvirtNodeInfoUpdate (hv : Hypervisor) (ni : NodeInfo) : NodeInfo × Int :=
  if hv.conn = false then (ni, -1)
  else match hv.numOfDomains with
  | none => (ni, -1)
  | some 0 => (ni, 0)
  | some (_ + 1) =>
    if hv.malloc = false then (ni, -1)
    else match hv.listDomains with
    | none => (ni, -1)
    | some [] => (ni, 0)
    | some (id :: ids) =>
      match commitLoop hv (id :: ids) 0 0 with
      | none => (ni, -1)
      | some (cpu, mem) =>
        ({ ni with cpuCommit := toUInt32 cpu, memCommit := mem }, (id :: ids).length)

/-- `LY_NODE_LOAD_MAX`. -/
def lyNodeLoadMax : Int := 2000

/-- What the host says: `g_c->node_ip`, `g_c->state` and the answers of `lyutil_free_memory`,
`lyutil_free_storage`, `lyutil_load_average` and `ly_handler_busy`. -/
structure HostState where
  nodeIp : Option Bytes := none
  state : Int
  freeMemory : Nat
  freeStorage : Nat
  loadAverage : Int
  handlerBusy : Bool := false

/-- The status that is reported. -/
def reportedStatus (host : HostState) : Int :=
  if NodeStatus.online ≤ host.state ∧ host.state ≠ NodeStatus.error ∧
      host.state ≠ NodeStatus.check then
    if lyNodeLoadMax < host.loadAverage ∨ host.handlerBusy then NodeStatus.busy
    else NodeStatus.ready
  else host.state

/-- `ly_node_info_update`. -/
def lyNodeInfoUpdate (hv : Hypervisor) (host : HostState) (nf : NodeInfo) : NodeInfo × Int :=
  let nf := if host.nodeIp = none then nf else { nf with hostIp := host.nodeIp }
  let nf := { nf with memFree := host.freeMemory }
  if host.freeMemory = 0 then (nf, -1)
  else
    let nf := { nf with storageFree := host.freeStorage }
    if host.freeStorage = 0 then (nf, -1)
    else if host.loadAverage < 0 then (nf, -1)
    else
      let nf := { nf with loadAverage := host.loadAverage, status := reportedStatus host }
      let r := libvirtNodeInfoUpdate hv nf
      (r.1, if r.2 < 0 then -1 else 0)

end LuoYun

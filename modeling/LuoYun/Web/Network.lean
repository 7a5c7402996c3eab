import LuoYun.Lib.Table
import LuoYun.Web.Instance

/-!
# Networks and port mappings of the web interface

`app/network/models.py`, the network and port mapping requests of `app/myun/instance/views.py`, the
part of `InstanceDelete` that frees the addresses of an instance, and `tool/firewall.py`, which
forwards the ports of the gateway with rules in the `PREROUTING` chain.

The chain is a list of rules on which every command succeeds. Each request commits all it changes,
so there is one state of the database. The rows of a table stand in the order of their ids, as the
relationships read them. Ids come from sequences that begin at 1 and the form asks for a port of at
least 20, so a column is false in Python exactly when it is `NULL`.
-/

namespace LuoYun.Web

/-- `IPPool`: an address, and the instance it is assigned to. -/
structure IPPool where
  id : Int
  ip : Bytes
  networkId : Int
  instanceId : Option Int := none
  deriving DecidableEq, Repr

/-- `Gateway`. -/
structure Gateway where
  id : Int
  ip : Bytes
  deriving DecidableEq, Repr

/-- `PortMapping`: a port of a gateway, and the port of an instance it is bound to. -/
structure PortMapping where
  id : Int
  gatewayPort : Int
  gatewayId : Int
  ipPort : Option Int := none
  ipId : Option Int := none
  deriving DecidableEq, Repr

/-- A rule of the chain, as `Prerouting.get_parser` reads it: `-d`, `--dport` and
`--to-destination`. -/
structure Rule where
  d : Option Bytes
  dport : Option Int
  destination : Option (Bytes × Int)
  deriving DecidableEq, Repr

/-! ## `Prerouting` -/

/-- `Prerouting.exists`. -/
def ruleExists (chain : List Rule) (ip : Bytes) (port : Int) : Bool :=
  chain.any fun r => r.destination = some (ip, port)

/-- `Prerouting.add`: `iptables -I` puts the rule in front. -/
def ruleAdd (chain : List Rule) (externalIp : Bytes) (externalPort : Int) (innerIp : Bytes)
    (innerPort : Int) : List Rule :=
  if ruleExists chain innerIp innerPort then chain
  else ⟨some externalIp, some externalPort, some (innerIp, innerPort)⟩ :: chain

/-- `Prerouting.delete_by_destination`: the first rule to this destination. -/
def deleteByDestination (chain : List Rule) (ip : Bytes) (port : Int) : List Rule :=
  chain.eraseP fun r => r.destination = some (ip, port)

/-! ## The requests -/

/-- The tables, and the chain. -/
structure NetDb where
  networks : List Int := []
  ips : List IPPool := []
  gateways : List Gateway := []
  mappings : List PortMapping := []
  instances : List InstanceRef := []
  chain : List Rule := []
  deriving DecidableEq, Repr

namespace NetDb

/-- The addresses of an instance. -/
def ipsOf (db : NetDb) (inst : Int) : List IPPool := db.ips.filter (·.instanceId = some inst)

/-- `NetworkAdd.max_network`. -/
def maxNetwork : Nat := 1

/-- `NetworkPool.get_free_ip`. -/
def getFreeIp (db : NetDb) (network : Int) : Option IPPool :=
  db.ips.find? fun x => x.networkId = network ∧ x.instanceId = none

/-- Assign the addresses with this id. -/
def assign (db : NetDb) (ip : Int) (inst : Option Int) : NetDb :=
  { db with ips := Table.update IPPool.id ip (fun x => { x with instanceId := inst }) db.ips }

/-- Bind the port mapping with this id, or free it. -/
def bind (db : NetDb) (mapping : Int) (dest : Option (Int × Int)) : NetDb :=
  { db with
    mappings := Table.update PortMapping.id mapping
      (fun m => { m with ipId := dest.map Prod.fst, ipPort := dest.map Prod.snd }) db.mappings }

/-- `NetworkAdd.post`. -/
def networkAdd (db : NetDb) (user inst network : Int) : NetDb :=
  match myInstance db.instances user inst with
  | none => db
  | some i =>
    if maxNetwork ≤ (db.ipsOf i.id).length ∨ ¬ network ∈ db.networks then db
    else match db.getFreeIp network with
    | none => db
    | some x => db.assign x.id (some i.id)

/-- `NetworkActionHandler.initialize`: an address of an instance of the user. -/
def myIp (db : NetDb) (user ip : Int) : Option IPPool :=
  (db.ips.find? (·.id = ip)).filter fun x =>
    ((x.instanceId.bind fun i => db.instances.find? (·.id = i)).any fun i => i.userId = user)

/-- `NetworkDelete.get`. -/
def networkDelete (db : NetDb) (user ip : Int) : NetDb :=
  match db.myIp user ip with
  | none => db
  | some x => db.assign x.id none

/-- The port mappings of a user. -/
def usedPort (db : NetDb) (user : Int) : Nat :=
  (((db.instances.filter (·.userId = user)).flatMap fun i => db.ipsOf i.id).map fun x =>
    (db.mappings.filter (·.ipId = some x.id)).length).sum

/-- `PortMappingForm.validate`: the address. -/
def formIp (db : NetDb) (inst ip port : Int) : Option IPPool :=
  (db.ips.find? (·.id = ip)).filter fun x => x.instanceId = some inst ∧ 20 ≤ port ∧ port ≤ 65535 ∧
    ¬ (db.mappings.any fun m => m.ipId = some ip ∧ m.ipPort = some port) = true

/-- `Gateway.get_free_port`. -/
def getFreePort (db : NetDb) (gateway : Int) : Option PortMapping :=
  db.mappings.find? fun m => m.gatewayId = gateway ∧ ¬ (m.ipPort.isSome ∨ m.ipId.isSome)

/-- `PortMappingAdd.post`, where `total` is the number of ports the user may have. -/
def portMappingAdd (db : NetDb) (user inst ip port total : Int) : NetDb :=
  match db.gateways.head?, myInstance db.instances user inst with
  | some gateway, some i =>
    if ¬ (db.usedPort user : Int) < total then db
    else match db.formIp i.id ip port, db.getFreePort gateway.id with
    | some x, some m =>
      { db.bind m.id (some (x.id, port)) with
        chain := ruleAdd db.chain gateway.ip m.gatewayPort x.ip port }
    | _, _ => db
  | _, _ => db

/-- `PortMappingDelete.get`. -/
def portMappingDelete (db : NetDb) (user inst mapping : Int) : NetDb :=
  match myInstance db.instances user inst, db.mappings.find? (·.id = mapping) with
  | some i, some m =>
    match m.ipId.bind fun ip => (db.ipsOf i.id).find? (·.id = ip), m.ipPort with
    | some x, some port =>
      { db.bind m.id none with chain := deleteByDestination db.chain x.ip port }
    | _, _ => db
  | _, _ => db

/-- A port mapping is freed if it is bound to one of these addresses. -/
def freeMapping (ips : List IPPool) (m : PortMapping) : PortMapping :=
  if m.ipId.any fun ip => ips.any (·.id = ip) then { m with ipId := none, ipPort := none } else m

/-- An address is freed if the instance has it. -/
def freeIp (inst : Int) (x : IPPool) : IPPool :=
  if x.instanceId = some inst then { x with instanceId := none } else x

/-- `InstanceDelete.post`, as far as addresses and port mappings are concerned. -/
def instanceDelete (db : NetDb) (user : Int) (admin : Bool) (inst : Int) : NetDb :=
  match instanceById db.instances user admin inst with
  | none => db
  | some i =>
    if isRunning i.status then db
    else
      { db with
        instances := Table.update InstanceRef.id i.id (fun j => { j with status := deletedS })
          db.instances
        mappings := db.mappings.map (freeMapping (db.ipsOf i.id))
        ips := db.ips.map (freeIp i.id) }

end NetDb

/-- The requests. -/
inductive NetRequest where
  | networkAdd (user inst network : Int)
  | networkDelete (user ip : Int)
  | portMappingAdd (user inst ip port total : Int)
  | portMappingDelete (user inst mapping : Int)
  | instanceDelete (user : Int) (admin : Bool) (inst : Int)

/-- What a request does. -/
def NetDb.next (db : NetDb) : NetRequest → Option (Except Empty NetDb)
  | .networkAdd user inst network => some (.ok (db.networkAdd user inst network))
  | .networkDelete user ip => some (.ok (db.networkDelete user ip))
  | .portMappingAdd user inst ip port total =>
    some (.ok (db.portMappingAdd user inst ip port total))
  | .portMappingDelete user inst mapping => some (.ok (db.portMappingDelete user inst mapping))
  | .instanceDelete user admin inst => some (.ok (db.instanceDelete user admin inst))

end LuoYun.Web

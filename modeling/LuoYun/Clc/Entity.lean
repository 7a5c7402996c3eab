import LuoYun.Util.Packet
import LuoYun.Util.Auth

/-!
# `entity.c`: the entity store of the CLC

Every connection of the CLC has a slot in `g_entity_store`, an array of `LY_ENTITY_MAX`
entities. The slot number is the entity's id; a free slot has id `-1`. Nodes and OS managers
are also linked into `g_node_list` and `g_instance_list`.

The two intrusive lists are lists of slot numbers, front first: `list_add` puts a slot at the
front and `list_del` takes it out of whichever list it is in. The private data of an entity
(`ent->entity`) is tagged with the layout it was allocated for, so that a handler that reads
it through the other layout is visible as a `Fault.wrongType`.
-/

namespace LuoYun

/-- `LY_ENTITY_MAX`. -/
def lyEntityMax : Nat := 1024

/-- `LYNodeData`. -/
structure LYNodeData where
  insJobBusyNr : Int := 0
  node : NodeInfo := {}
  deriving DecidableEq, Repr

/-- The node data with another tag. -/
def LYNodeData.withTag (nd : LYNodeData) (tag : Int) : LYNodeData :=
  { nd with node := { nd.node with hostTag := tag } }

/-- The node data with another status. -/
def LYNodeData.withStatus (nd : LYNodeData) (status : Int) : LYNodeData :=
  { nd with node := { nd.node with status } }

/-- The node data with the limits of its row. -/
def LYNodeData.withVlimit (nd : LYNodeData) (cpu mem : Int) : LYNodeData :=
  { nd with node := { nd.node with cpuVlimit := toUInt32 cpu, memVlimit := toUInt32 mem } }

/-- The private data of an entity. -/
inductive EntityData where
  | null
  | node (nd : LYNodeData)
  | osm (oi : OSMInfo)
  deriving DecidableEq, Repr

/-- `LYEntity`. -/
structure LYEntity where
  fd : Int := -1
  auth : AuthConfig := {}
  pkt : Option LYPacketRecv := none
  id : Int := -1
  type : EntityType := .unknown
  flag : BitVec 8 := 0
  dbId : Int := -1
  entity : EntityData := .null

/-! ## The status in the flag byte -/

namespace Flag

/-- `LY_ENTITY_FLAG_STATUS_MASK`. -/
def statusMask : BitVec 8 := 7
def offline : Int := 0
def online : Int := 1
def authenticated : Int := 2
def registered : Int := 3
def running : Int := 4
def serving : Int := 5
/-- `LY_ENTITY_FLAG_NODE_ENABLED`. -/
def nodeEnabled : BitVec 8 := 8

end Flag

/-- The status kept in the low bits of `flag`. -/
def LYEntity.status (e : LYEntity) : Int := (e.flag &&& Flag.statusMask).toNat

/-- Put a status into the flag byte. -/
def LYEntity.withStatus (e : LYEntity) (status : Int) : LYEntity :=
  { e with flag := (e.flag &&& ~~~Flag.statusMask) ||| (BitVec.ofInt 8 status &&& Flag.statusMask) }

/-- Set or clear the enabled bit. -/
def LYEntity.withEnabled (e : LYEntity) (enable : Bool) : LYEntity :=
  { e with flag := if enable then e.flag ||| Flag.nodeEnabled else e.flag &&& ~~~Flag.nodeEnabled }

/-! ## The store -/

/-- `g_entity_store` with the two lists and the slot of the listening socket, and what has gone
wrong with the data of nodes when it was released. -/
structure EntityStore where
  ents : Nat → LYEntity := fun _ => {}
  nodeList : List Nat := []
  instanceList : List Nat := []
  entityClc : Int := 0
  /-- A number has been passed to `free`. -/
  strayFree : Bool := false
  /-- How often node data was read through another layout, or after it was freed. -/
  misreads : Nat := 0

namespace EntityStore

/-- Write slot `i`. -/
def set (s : EntityStore) (i : Nat) (e : LYEntity) : EntityStore :=
  { s with ents := fun j => if j = i then e else s.ents j }

/-- Change slot `i`. -/
def modify (s : EntityStore) (i : Nat) (f : LYEntity → LYEntity) : EntityStore :=
  s.set i (f (s.ents i))

/-- The list that entities of this type are linked into. -/
def list (s : EntityStore) : EntityType → List Nat
  | .node => s.nodeList
  | .osm => s.instanceList
  | _ => []

/-- `list_del(&ent->list)`. -/
def listDel (s : EntityStore) (i : Nat) : EntityStore :=
  { s with
    nodeList := s.nodeList.filter (· ≠ i)
    instanceList := s.instanceList.filter (· ≠ i) }

end EntityStore

/-- The range check on an entity id that every function of the store starts with. -/
def slot? (id : Int) : Option Nat :=
  if id < 0 ∨ (lyEntityMax : Int) ≤ id then none else some id.toNat

/-- The first free slot. -/
def freeSlot (s : EntityStore) : Option Nat :=
  (List.range lyEntityMax).find? fun i => (s.ents i).id == -1

/-- The packet buffer of a new connection: a new one, or the one the slot already has. -/
def LYEntity.freshPkt (e : LYEntity) (m : Mem) : LYPacketRecv :=
  match e.pkt with
  | none => lyPacketInit m
  | some p => lyPacketReinit p m

/-- `ly_entity_new`; `m` is what `malloc` leaves in a new packet buffer. -/
def lyEntityNew (s : EntityStore) (fd : Int) (m : Mem) : EntityStore × Int :=
  if fd < 0 then (s, -255)
  else match freeSlot s with
  | none => (s, -1)
  | some i =>
    let ent := s.ents i
    if ent.entity ≠ .null ∨ ent.auth.challenge ≠ none ∨ ent.auth.secret ≠ none then (s, -1)
    else
      (s.set i { ent with
        pkt := some (ent.freshPkt m)
        dbId := -1
        type := .unknown
        flag := 0
        fd
        id := i }, i)

/-- `ly_entity_init`. -/
def lyEntityInit (s : EntityStore) (id : Int) (type : EntityType) : EntityStore × Int :=
  match slot? id with
  | none => (s, -1)
  | some i =>
    if (s.ents i).type ≠ .unknown then (s, 0)
    else match type with
    | .node =>
      let s := s.modify i fun e => { e with type := .node, entity := .node {} }
      ({ s with nodeList := i :: s.nodeList }, 0)
    | .osm =>
      let s := s.modify i fun e => { e with type := .osm, entity := .osm {} }
      ({ s with instanceList := i :: s.instanceList }, 0)
    | .clc => ({ s.modify i fun e => { e with type := .clc } with entityClc := id }, 0)
    | type => (s.modify i fun e => { e with type }, 0)

/-- `ly_entity_fd`. -/
def lyEntityFd (s : EntityStore) (id : Int) : Int :=
  match slot? id with
  | none => -1
  | some i => (s.ents i).fd

/-- `ly_entity_db_id`. -/
def lyEntityDbId (s : EntityStore) (id : Int) : Int :=
  match slot? id with
  | none => -1
  | some i => (s.ents i).dbId

/-- `ly_entity_data`. -/
def lyEntityData (s : EntityStore) (id : Int) : EntityData :=
  match slot? id with
  | none => .null
  | some i => (s.ents i).entity

/-- The family `ly_entity_is_online` … `ly_entity_is_serving`: the status is at least `least`. -/
def lyEntityIs (least : Int) (s : EntityStore) (id : Int) : Bool :=
  match slot? id with
  | none => false
  | some i => decide (least ≤ (s.ents i).status)

/-- `ly_entity_is_online`. -/
def lyEntityIsOnline : EntityStore → Int → Bool := lyEntityIs Flag.online
/-- `ly_entity_is_authenticated`. -/
def lyEntityIsAuthenticated : EntityStore → Int → Bool := lyEntityIs Flag.authenticated
/-- `ly_entity_is_registered`. -/
def lyEntityIsRegistered : EntityStore → Int → Bool := lyEntityIs Flag.registered
/-- `ly_entity_is_running`. -/
def lyEntityIsRunning : EntityStore → Int → Bool := lyEntityIs Flag.running
/-- `ly_entity_is_serving`. -/
def lyEntityIsServing : EntityStore → Int → Bool := lyEntityIs Flag.serving

/-- `ly_entity_is_enabled`. -/
def lyEntityIsEnabled (s : EntityStore) (id : Int) : Bool :=
  match slot? id with
  | none => false
  | some i => (s.ents i).flag &&& Flag.nodeEnabled != 0

/-- `ly_entity_find_by_db`. -/
def lyEntityFindByDb (s : EntityStore) (type : EntityType) (dbId : Int) : Int :=
  if dbId ≤ 0 then -1
  else match (s.list type).find? fun i => (s.ents i).dbId == dbId with
  | none => -1
  | some i => (s.ents i).id

/-- `ly_entity_head`. -/
def lyEntityHead (s : EntityStore) (type : EntityType) : Int :=
  match (s.list type).find? fun i => decide (0 < (s.ents i).dbId) with
  | none => -1
  | some i => (s.ents i).id

/-- The node data that `ly_entity_release` cleans up. -/
def LYEntity.cleansNode (e : LYEntity) : Option LYNodeData :=
  match e.type, e.entity with
  | .node, .node nd => some nd
  | _, _ => none

/-- `luoyun_node_info_cleanup(ent->entity)`. The `LYNodeData` is taken for a `NodeInfo`: what is
freed as `cpu_model` is the number `cpu_arch`, unless it is zero; the two texts after it are freed
under other names, and `host_ip` is lost. -/
def EntityStore.cleanup (s : EntityStore) (i : Nat) : EntityStore :=
  { s with
    strayFree := s.strayFree || (s.ents i).cleansNode.any fun nd => nd.node.cpuArch != 0
    misreads := s.misreads + if (s.ents i).cleansNode.isSome then 1 else 0 }

/-- What `ly_entity_release` leaves in a slot. The packet buffer stays allocated for the next
connection in it. -/
def LYEntity.released (e : LYEntity) : LYEntity :=
  { e with
    fd := -1
    entity := .null
    id := -1
    dbId := -1
    type := .unknown
    flag := 0
    auth := {} }

/-- `ly_entity_release`. -/
def lyEntityRelease (s : EntityStore) (id : Int) : EntityStore × Int :=
  match slot? id with
  | none => (s, -1)
  | some i =>
    if (s.ents i).id < 0 then (s, 0)
    else (((s.cleanup i).listDel i).modify i LYEntity.released, 0)

/-- The second half of `ly_entity_update` and `ly_entity_enable`: give the entity in slot `i`
the database id `dbId` and release any other entity of its type that holds it. -/
def claimDbId (s : EntityStore) (i : Nat) (dbId : Int) : EntityStore :=
  if dbId < 0 then s
  else
    let old := lyEntityFindByDb s (s.ents i).type dbId
    let s := if 0 ≤ old ∧ old ≠ i then (lyEntityRelease s old).1 else s
    s.modify i fun e => { e with dbId }

/-- `ly_entity_update`. -/
def lyEntityUpdate (s : EntityStore) (id dbId status : Int) : EntityStore × Int :=
  match slot? id with
  | none => (s, -1)
  | some i =>
    let s := if 0 ≤ status then s.modify i fun e => e.withStatus status else s
    (claimDbId s i dbId, 0)

/-- `ly_entity_enable`. -/
def lyEntityEnable (s : EntityStore) (id dbId : Int) (enable : Bool) : EntityStore × Int :=
  match slot? id with
  | none => (s, -1)
  | some i => (claimDbId (s.modify i fun e => e.withEnabled enable) i dbId, 0)

/-- The node data of an entity on `g_node_list`, read through `LYNodeData`. -/
def nodeData (e : LYEntity) : Res LYNodeData :=
  match e.entity with
  | .null => .error .nullDeref
  | .node nd => .ok nd
  | .osm _ => .error .wrongType

/-- `ly_entity_node_active`: some registered node has this IP. -/
def lyEntityNodeActive (s : EntityStore) (ip : Bytes) : Res Bool :=
  go s.nodeList
where
  go : List Nat → Res Bool
    | [] => .ok false
    | i :: rest =>
      if lyEntityIsRegistered s (s.ents i).id then
        match nodeData (s.ents i) with
        | .error e => .error e
        | .ok nd => if nd.node.hostIp = some ip then .ok true else go rest
      else go rest

/-! ## Reading the store back -/

namespace EntityStore

@[simp] theorem set_ents_self (s : EntityStore) (i : Nat) (e : LYEntity) :
    (s.set i e).ents i = e := by
  simp [set]

theorem set_ents_ne (s : EntityStore) {i j : Nat} (e : LYEntity) (h : j ≠ i) :
    (s.set i e).ents j = s.ents j := by
  simp [set, h]

@[simp] theorem set_nodeList (s : EntityStore) (i : Nat) (e : LYEntity) :
    (s.set i e).nodeList = s.nodeList := rfl

@[simp] theorem set_instanceList (s : EntityStore) (i : Nat) (e : LYEntity) :
    (s.set i e).instanceList = s.instanceList := rfl

@[simp] theorem modify_ents_self (s : EntityStore) (i : Nat) (f : LYEntity → LYEntity) :
    (s.modify i f).ents i = f (s.ents i) := by
  simp [modify]

theorem modify_ents_ne (s : EntityStore) {i j : Nat} (f : LYEntity → LYEntity) (h : j ≠ i) :
    (s.modify i f).ents j = s.ents j :=
  set_ents_ne s _ h

@[simp] theorem modify_nodeList (s : EntityStore) (i : Nat) (f : LYEntity → LYEntity) :
    (s.modify i f).nodeList = s.nodeList := rfl

@[simp] theorem modify_instanceList (s : EntityStore) (i : Nat) (f : LYEntity → LYEntity) :
    (s.modify i f).instanceList = s.instanceList := rfl

end EntityStore

theorem slot?_eq_some {id : Int} {i : Nat} : slot? id = some i ↔ id = i ∧ i < lyEntityMax := by
  unfold slot?
  split
  · simp only [reduceCtorEq, false_iff, not_and]
    omega
  · simp only [Option.some.injEq]
    omega

theorem slot?_natCast {i : Nat} (h : i < lyEntityMax) : slot? (i : Int) = some i :=
  slot?_eq_some.mpr ⟨rfl, h⟩

end LuoYun

import LuoYun.Clc.Job
import LuoYun.Lib.Loop

/-!
# `node_schedule` as the loop it is

`nodeSchedule` goes through the node list from front to back. The source has no such list to go
through: it asks `ly_entity_data_next` for the entity behind the one whose id it got last, and an
id that is not positive means the first. Here is that loop, round by round; whether it comes to an
end at all is then a question about the ids.
-/

namespace LuoYun

/-- `ly_entity_data_next`: the id and the data of the entity behind `id`, or `NULL`. The link of a
slot that is on no list leads nowhere. -/
def lyEntityDataNext (s : EntityStore) (type : EntityType) (id : Int) : Res (Int × EntityData) :=
  match s.list type with
  | [] => .ok (id, .null)
  | first :: rest =>
    if id ≤ 0 ∨ (lyEntityMax : Int) ≤ id then .ok ((s.ents first).id, (s.ents first).entity)
    else match (first :: rest).dropWhile fun j : Nat => decide ((j : Int) ≠ id) with
    | [] => .error .useAfterFree
    | [_] => .ok (id, .null)
    | _ :: next :: _ => .ok ((s.ents next).id, (s.ents next).entity)

/-- The variables of the loop of `node_schedule`. -/
structure ScheduleState where
  entCurr : Int := -1
  entId : Int := nodeScheduleNodeUnavail
  memAvailMax : Int := 0
  deriving DecidableEq, Repr

/-- A node that is registered and enabled has been seen: UNAVAIL becomes BUSY. -/
def scheduleSeen (entId : Int) : Int :=
  if entId = nodeScheduleNodeUnavail then nodeScheduleNodeBusy else entId

/-- A node that has room is stroking: BUSY becomes STROKE. -/
def scheduleStroking (entId : Int) : Int :=
  if entId = nodeScheduleNodeBusy then nodeScheduleNodeStroke else entId

/-- What the loop does with a node that is registered and enabled. -/
def scheduleVisit (env : Env) (nd : LYNodeData) (st : ScheduleState) : ScheduleState :=
  let nf := nd.node
  if nf.storageFree ≤ toUInt32 env.cfg.nodeStorageLow then st
  else if noResource nf then st
  else if env.cfg.nodeInsJobBusyLimit ≤ nd.insJobBusyNr then
    { st with entId := scheduleStroking st.entId }
  else
    let memAvail := toInt32 (nf.memVlimit - nf.memCommit)
    if st.memAvailMax < memAvail then
      { st with memAvailMax := memAvail, entId := st.entCurr }
    else st

/-- One round of the loop of `node_schedule`. -/
def scheduleRound (env : Env) (s : EntityStore) (st : ScheduleState) : Res (ScheduleState ⊕ Int) :=
  match lyEntityDataNext s .node st.entCurr with
  | .error e => .error e
  | .ok (_, .null) => .ok (.inr st.entId)
  | .ok (cur, data) =>
    let st := { st with entCurr := cur }
    if lyEntityIsRegistered s cur = false ∨ lyEntityIsEnabled s cur = false then .ok (.inl st)
    else
      let st := { st with entId := scheduleSeen st.entId }
      match data with
      | .node nd => .ok (.inl (scheduleVisit env nd st))
      | _ => .error .wrongType

/-- `node_schedule` with at most `n` rounds of its loop. -/
def nodeScheduleRun (env : Env) (s : EntityStore) (nodeId : Int) (n : Nat) : Option (Res Int) :=
  if env.cfg.nodeSelect = nodeSelectLastOnly ∧ 0 < nodeId then some (nodeScheduleLast env s nodeId)
  else Loop.run (scheduleRound env s) n {}

end LuoYun

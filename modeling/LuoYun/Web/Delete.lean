import LuoYun.Lib.Session
import LuoYun.Web.Network
import LuoYun.Web.Quota
import LuoYun.Web.Storage

/-!
# `InstanceDelete`: what happens if the job cannot be started

An instance is marked as deleted and gives up what it has, each time with a commit, and only then
does `run_job` find out whether the control server can be asked to remove its files. The clock does
not move while it does so.

What `unbinding_domain` changes, a file of nginx and the configuration of the instance, is left out.
-/

namespace LuoYun.Web

/-- `Instance`. -/
structure NamedInstance extends InstanceRef where
  name : Bytes
  deriving DecidableEq, Repr

/-- `UserDomain`. -/
structure UserDomain where
  id : Int
  domain : Bytes
  instanceId : Option Int := none
  deriving DecidableEq, Repr

/-- The tables. The last job is the first of the list. -/
structure DeleteDb where
  instances : List NamedInstance := []
  ips : List IPPool := []
  mappings : List PortMapping := []
  domains : List UserDomain := []
  storages : List Storage := []
  jobs : List InstanceJob := []
  /-- `job_id_seq`. -/
  seq : Int := 1
  deriving DecidableEq, Repr

/-- Who asks for what, when, and whether the control server can be reached. -/
structure DeleteRequest where
  user : Int
  admin : Bool := false
  inst : Int
  now : Int
  notify : Bool
  deriving DecidableEq, Repr

/-- Why `run_job` fails. -/
inductive JobError where
  /-- `Previous task is not finished !` -/
  | notFinished
  /-- `Previous task was failed, wait a moment please.` -/
  | previousFailed
  /-- `Connect to control server failed: %s` -/
  | noConnection
  deriving DecidableEq, Repr

/-- What the request answers. -/
inductive DeleteReply where
  /-- `Give me instance id please` -/
  | noId
  /-- `Can not find instance %s` -/
  | notFound
  /-- `Instance %s was deleted` -/
  | wasDeleted
  /-- `No permission for instance %s` -/
  | noPermission
  /-- `Instance %s is running, can not delete it.` -/
  | running
  /-- `run_job` has failed. -/
  | jobFailed (e : JobError)
  /-- `Task starts successfully.` -/
  | started
  deriving DecidableEq, Repr

/-- The `code` of the answer. -/
def DeleteReply.code : DeleteReply → Int
  | .started => 0
  | _ => 1

/-- `JOB_ACTION['DESTROY_INSTANCE']`. -/
def destroyInstanceA : Int := 206

namespace DeleteDb

/-- `get_instance_byid`. -/
def getInstanceById (db : DeleteDb) (r : DeleteRequest) : Except DeleteReply NamedInstance :=
  if r.inst = 0 then .error .noId
  else match db.instances.find? (·.id = r.inst) with
  | none => .error .notFound
  | some i =>
    if i.status = deletedS then .error .wasDeleted
    else if r.user ≠ i.userId ∧ ¬ r.admin then .error .noPermission
    else .ok i

/-- The last job, if it is younger than 60 seconds, does not let a new one start. -/
def lastJobError (now action : Int) (j : InstanceJob) : Option JobError :=
  if jobCompleted j.status = false ∧ ¬ (action = stopInstanceA ∧ jobCanstop j.status = true) ∧
      now < j.created + 60 then some .notFinished
  else if j.status = jobFailedS ∧ now < j.created + 60 then some .previousFailed
  else none

/-- `run_job`. -/
def runJob (inst action : Int) (r : DeleteRequest) (s : Session DeleteDb) :
    Session DeleteDb × Option JobError :=
  match (s.work.jobs.find? (·.targetId = inst)).bind (lastJobError r.now action) with
  | some e => (s, some e)
  | none =>
    let job := s.work.seq
    let s := (s.modify fun db =>
      { db with
        jobs := ⟨job, inst, action, jobInitiatedS, r.now⟩ :: db.jobs
        seq := job + 1 }).commit
    if r.notify then (s, none)
    else
      ((s.modify fun db =>
        { db with
          jobs := Table.update InstanceJob.id job (fun j => { j with status := jobFailedS })
            db.jobs }).commit, some .noConnection)

/-- The name of an instance that was deleted. -/
def deletedName (inst : Int) : Bytes := cstr "_deleted_" ++ dec inst ++ cstr "_"

/-- The instance is marked as deleted. -/
def mark (inst : Int) (db : DeleteDb) : DeleteDb :=
  { db with
    instances := Table.update (·.id) inst
      (fun i => { i with status := deletedS, name := deletedName i.id }) db.instances }

/-- The instance gives up its addresses and their ports, its domains and its storages. -/
def release (inst : Int) (db : DeleteDb) : DeleteDb :=
  { db with
    mappings := db.mappings.map (NetDb.freeMapping (db.ips.filter (·.instanceId = some inst)))
    ips := db.ips.map (NetDb.freeIp inst)
    domains := db.domains.filter fun d => d.instanceId ≠ some inst
    storages := db.storages.filter fun x => x.instanceId ≠ some inst }

/-- `InstanceDelete.post`. -/
def instanceDelete (r : DeleteRequest) (s : Session DeleteDb) : Session DeleteDb × DeleteReply :=
  match s.work.getInstanceById r with
  | .error reply => (s, reply)
  | .ok i =>
    if isRunning i.status then (s, .running)
    else
      -- `unbinding_domain` commits too
      let s := (s.commit.modify (mark i.id)).commit
      let s := (s.modify (release i.id)).commit
      match runJob i.id destroyInstanceA r s with
      | (s, some e) => (s, .jobFailed e)
      | (s, none) => (s, .started)

/-- What a request makes of the database. -/
def afterDelete (db : DeleteDb) (r : DeleteRequest) : DeleteDb :=
  Session.request (fun s => (instanceDelete r s).1) db

/-- What a request answers. -/
def deleteReply (db : DeleteDb) (r : DeleteRequest) : DeleteReply :=
  (instanceDelete r (Session.opened db)).2

/-! ## Half a deletion -/

/-- The control server can be asked: the last job does not stand in the way, and there is a
connection. -/
def JobStarts (db : DeleteDb) (r : DeleteRequest) : Prop :=
  (∀ j, db.jobs.find? (·.targetId = r.inst) = some j →
    lastJobError r.now destroyInstanceA j = none) ∧
    r.notify = true

/-- What an instance has is as it was. -/
structure Untouched (db db' : DeleteDb) : Prop where
  instances : db'.instances = db.instances
  ips : db'.ips = db.ips
  mappings : db'.mappings = db.mappings
  domains : db'.domains = db.domains
  storages : db'.storages = db.storages

/-- A deletion that reports that the job has failed changes nothing. -/
def AllOrNothing (db : DeleteDb) (r : DeleteRequest) : Prop :=
  ∀ e, db.deleteReply r = .jobFailed e → Untouched db (db.afterDelete r)

variable {db : DeleteDb} {r : DeleteRequest} {i : NamedInstance}

theorem getInstanceById_ok (h : db.getInstanceById r = .ok i) :
    i ∈ db.instances ∧ i.id = r.inst ∧ i.status ≠ deletedS := by
  unfold getInstanceById at h
  split at h
  · cases h
  · cases hf : db.instances.find? (·.id = r.inst) with
    | none =>
      simp only [hf] at h
      cases h
    | some j =>
      simp only [hf] at h
      split at h
      · cases h
      · rename_i hs
        split at h
        · cases h
        · cases h
          exact ⟨List.mem_of_find?_eq_some hf, by simpa using List.find?_some hf, hs⟩

theorem getInstanceById_error {reply : DeleteReply}
    (h : db.getInstanceById r = .error reply) (e : JobError) :
    reply ≠ .jobFailed e := by
  unfold getInstanceById at h
  split at h
  · cases h
    exact nofun
  · cases hf : db.instances.find? (·.id = r.inst) with
    | none =>
      simp only [hf] at h
      cases h
      exact nofun
    | some j =>
      simp only [hf] at h
      split at h
      · cases h
        exact nofun
      · split at h
        · cases h
          exact nofun
        · cases h

/-- `run_job` touches the jobs only. -/
theorem runJob_instances (inst action : Int) (s : Session DeleteDb)
    (hs : s.persisted = s.work) :
    (runJob inst action r s).1.persisted.instances = s.work.instances := by
  unfold runJob
  split
  · rw [hs]
  · dsimp only
    split <;> rfl

theorem runJob_none (inst action : Int) (s : Session DeleteDb) :
    (runJob inst action r s).2 = none ↔
      (∀ j, s.work.jobs.find? (·.targetId = inst) = some j → lastJobError r.now action j = none) ∧
        r.notify = true := by
  unfold runJob
  cases hj : s.work.jobs.find? (·.targetId = inst) with
  | none => cases r.notify <;> simp
  | some j =>
    rw [Option.bind_some]
    cases he : lastJobError r.now action j with
    | none => cases r.notify <;> simp [he]
    | some e => simp [he]

/-- The session with which `run_job` is called. -/
def released (db : DeleteDb) (inst : Int) : Session DeleteDb :=
  ((((Session.opened db).commit.modify (mark inst)).commit).modify (release inst)).commit

theorem instanceDelete_released (h : db.getInstanceById r = .ok i)
    (hrun : isRunning i.status = false) :
    instanceDelete r (Session.opened db) =
      match runJob i.id destroyInstanceA r (db.released i.id) with
      | (s, some e) => (s, .jobFailed e)
      | (s, none) => (s, .started) := by
  rw [instanceDelete, Session.opened_work, h]
  dsimp only
  rw [if_neg (by rw [hrun]; decide)]
  rfl

/-- An instance that was marked is not what it was. -/
theorem mark_ne (hi : i ∈ db.instances) (hs : i.status ≠ deletedS) :
    (mark i.id db).instances ≠ db.instances := by
  intro h
  have hmarked : ∀ j ∈ db.instances, j.id = i.id → j.status = deletedS := by
    intro j hj hid
    rw [← h] at hj
    obtain ⟨k, hk, rfl⟩ := List.mem_map.mp hj
    by_cases hki : k.id = i.id
    · rw [if_pos hki]
    · rw [if_neg hki] at hid
      exact absurd hid hki
  exact hs (hmarked i hi rfl)

/-- **A deletion is all or nothing exactly if the job can be started**, or if the request does not
come that far. Where the job fails, the instance is marked as deleted all the same. -/
theorem allOrNothing_iff (db : DeleteDb) (r : DeleteRequest) :
    db.AllOrNothing r ↔
      ∀ i, db.getInstanceById r = .ok i → isRunning i.status = false → db.JobStarts r := by
  constructor
  · intro h i hi hrun
    obtain ⟨hmem, hid, hs⟩ := getInstanceById_ok hi
    have hdel := instanceDelete_released hi hrun
    have hnone := runJob_none (r := r) i.id destroyInstanceA (db.released i.id)
    cases hj : runJob i.id destroyInstanceA r (db.released i.id) with
    | mk s e =>
      rw [hj] at hdel hnone
      cases e with
      | none =>
        have hstarts := hnone.mp rfl
        rw [hid] at hstarts
        exact hstarts
      | some e =>
        have hreply : db.deleteReply r = .jobFailed e := by rw [deleteReply, hdel]
        have hsame := (h e hreply).instances
        have hafter : (db.afterDelete r).instances = (mark i.id db).instances := by
          have hrunJob := runJob_instances (r := r) i.id destroyInstanceA (db.released i.id) rfl
          rw [hj] at hrunJob
          rw [afterDelete, Session.request_eq, hdel]
          exact hrunJob
        exact absurd (hafter.symm.trans hsame) (mark_ne hmem hs)
  · intro h e he
    exfalso
    rw [deleteReply] at he
    cases hi : db.getInstanceById r with
    | error reply =>
      rw [instanceDelete, Session.opened_work, hi] at he
      exact getInstanceById_error hi e he
    | ok i =>
      cases hrun : isRunning i.status with
      | true =>
        rw [instanceDelete, Session.opened_work, hi] at he
        dsimp only at he
        rw [if_pos hrun] at he
        cases he
      | false =>
        have hstarts := h i hi hrun
        have hnone := (runJob_none (r := r) i.id destroyInstanceA (db.released i.id)).mpr
          (by rw [(getInstanceById_ok hi).2.1]; exact hstarts)
        rw [instanceDelete_released hi hrun] at he
        cases hj : runJob i.id destroyInstanceA r (db.released i.id) with
        | mk s e' =>
          rw [hj] at hnone he
          cases hnone
          cases he

/-- An instance that is stopped, with an address, a port of a gateway, a domain and a storage. Its
last job is not finished and 30 seconds old. -/
def busyDb : DeleteDb where
  instances := [⟨⟨7, 1, 2⟩, cstr "vm"⟩]
  ips := [⟨3, cstr "10.0.0.3", 1, some 7⟩]
  mappings := [⟨4, 10000, 1, some 22, some 3⟩]
  domains := [⟨5, cstr "vm.example", some 7⟩]
  storages := [⟨6, 10, some 1, some 7⟩]
  jobs := [⟨1, 7, runInstanceA, 200, 100⟩]
  seq := 2

/-- The job is refused, and the instance is gone; when the request is repeated, it was deleted. -/
theorem allOrNothing_fails :
    busyDb.deleteReply ⟨1, false, 7, 130, true⟩ = .jobFailed .notFinished ∧
    ¬ busyDb.AllOrNothing ⟨1, false, 7, 130, true⟩ ∧
    (busyDb.afterDelete ⟨1, false, 7, 130, true⟩).instances =
      [⟨⟨7, 1, deletedS⟩, cstr "_deleted_7_"⟩] ∧
    (busyDb.afterDelete ⟨1, false, 7, 130, true⟩).storages = [] ∧
    (busyDb.afterDelete ⟨1, false, 7, 130, true⟩).deleteReply ⟨1, false, 7, 1000, true⟩ =
      .wasDeleted := by
  refine ⟨by decide, ?_, by decide, by decide, by decide⟩
  intro h
  exact absurd (h .notFinished (by decide)).storages (by decide)

end DeleteDb

end LuoYun.Web

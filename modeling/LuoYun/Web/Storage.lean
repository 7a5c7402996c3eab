import LuoYun.Lib.Session
import LuoYun.Lib.Table
import LuoYun.Web.Instance

/-!
# Storages and storage pools of the web interface

`app/storage/models.py`, the storage requests of `app/myun/instance/views.py` and the part of
`InstanceDelete` that removes the storages of an instance. A pool keeps the sum of the sizes of its
storages in `used`; the requests recompute it with `update_used` once they have committed.
-/

namespace LuoYun.Web

/-- `StoragePool`. -/
structure StoragePool where
  id : Int
  total : Int := 0
  used : Int := 0
  deriving DecidableEq, Repr

/-- `StoragePool.remain`. -/
def StoragePool.remain (p : StoragePool) : Int := p.total - p.used

/-- `Storage`. -/
structure Storage where
  id : Int
  size : Int := 0
  poolId : Option Int := none
  instanceId : Option Int := none
  deriving DecidableEq, Repr

/-- The three tables. -/
structure StorageDb where
  pools : List StoragePool := []
  storages : List Storage := []
  instances : List InstanceRef := []
  /-- `storage_id_seq`. -/
  seq : Int := 0
  deriving DecidableEq, Repr

namespace StorageDb

/-- What a storage adds to a pool. -/
def share (pool : Int) (s : Storage) : Int := if s.poolId = some pool then s.size else 0

/-- The sum of the sizes of the storages of a pool. -/
def poolSum (pool : Int) (l : List Storage) : Int := (l.map (share pool)).sum

/-- `StoragePool.update_used`. -/
def updateUsed (db : StorageDb) (pool : Int) : StorageDb :=
  { db with
    pools := Table.update StoragePool.id pool (fun p => { p with used := poolSum pool db.storages })
      db.pools }

/-- `StorageForm.validate`, where `remain` is the `storage_remain` of the user: the pool selected
by a form that passes. -/
def formPool (db : StorageDb) (pool size remain : Int) : Option StoragePool :=
  (db.pools.find? (·.id = pool)).filter fun p => ¬ p.remain < size ∧ 1 ≤ size ∧ ¬ remain < size

/-- `StorageActionHandler.initialize`: a storage of an instance of the user. -/
def myStorage (db : StorageDb) (user storage : Int) : Option Storage :=
  (db.storages.find? (·.id = storage)).filter fun s =>
    ((s.instanceId.bind fun i => db.instances.find? (·.id = i)).any fun i => i.userId = user)

end StorageDb

open StorageDb

/-- `StorageAdd.max_storage`. -/
def maxStorage : Nat := 1

/-- The size that `Storage.__init__` takes. -/
def initSize (pool : StoragePool) (size : Int) : Int :=
  if size < pool.remain then size else pool.remain

/-- `StorageAdd.post`. -/
def storageAdd (user inst pool size remain : Int) (s : Session StorageDb) : Session StorageDb :=
  match myInstance s.work.instances user inst with
  | none => s
  | some i =>
    if maxStorage ≤ (s.work.storages.filter (·.instanceId = some i.id)).length then s
    else match s.work.formPool pool size remain with
    | none => s
    | some p =>
      let s := s.modify fun db =>
        { db with
          storages := db.storages ++ [⟨db.seq, initSize p size, some p.id, some i.id⟩]
          seq := db.seq + 1 }
      s.commit.modify fun db => db.updateUsed p.id

/-- `StorageEdit.post`. -/
def storageEdit (user storage pool size remain : Int) (s : Session StorageDb) : Session StorageDb :=
  match s.work.myStorage user storage with
  | none => s
  | some x =>
    match s.work.formPool pool size remain with
    | none => s
    | some p =>
      if size < x.size then s
      else
        let s := s.modify fun db =>
          { db with
            storages := Table.update Storage.id x.id
              (fun y => { y with size := size, poolId := some p.id }) db.storages }
        s.commit.modify fun db => db.updateUsed p.id

/-- `StorageDelete.get`. -/
def storageDelete (user storage : Int) (s : Session StorageDb) : Session StorageDb :=
  match s.work.myStorage user storage with
  | none => s
  | some x =>
    let s := s.modify fun db => { db with storages := Table.erase Storage.id x.id db.storages }
    s.commit.modify fun db => x.poolId.elim db db.updateUsed

/-- `InstanceDelete.post`, as far as storages are concerned. -/
def instanceDelete (user : Int) (admin : Bool) (inst : Int) (s : Session StorageDb) :
    Session StorageDb :=
  match instanceById s.work.instances user admin inst with
  | none => s
  | some i =>
    if isRunning i.status then s
    else
      let s := s.modify fun db =>
        { db with
          instances := Table.update InstanceRef.id i.id (fun j => { j with status := deletedS })
            db.instances }
      (s.commit.modify fun db =>
        { db with storages := db.storages.filter fun y => y.instanceId ≠ some i.id }).commit

/-- The requests. -/
inductive StorageRequest where
  | add (user inst pool size remain : Int)
  | edit (user storage pool size remain : Int)
  | delete (user storage : Int)
  | instanceDelete (user : Int) (admin : Bool) (inst : Int)

/-- What the handler of a request does. -/
def StorageRequest.handler : StorageRequest → Session StorageDb → Session StorageDb
  | .add user inst pool size remain => storageAdd user inst pool size remain
  | .edit user storage pool size remain => storageEdit user storage pool size remain
  | .delete user storage => storageDelete user storage
  | .instanceDelete user admin inst => Web.instanceDelete user admin inst

/-- What a completed request makes of the database. -/
def StorageDb.next (db : StorageDb) (r : StorageRequest) : Option (Except Empty StorageDb) :=
  some (.ok (Session.request r.handler db))

end LuoYun.Web

import LuoYun.Clc.World

/-!
# Jobs and the entities they were sent to

A job that has been sent keeps the slot of the entity it was sent to in `j_ent_id`, and a node
counts the start requests that are out in `ins_job_busy_nr`. Here the CLC is driven by the calls
that write to either side of these links: jobs come from the web, a dispatch pass visits them, nodes
answer; connections are accepted, take a type, register and are released. Everything else is an
`around`.
-/

namespace LuoYun

/-- Data as in `new`, but of the kind of `old` and with its count. -/
def EntityData.relink : EntityData → EntityData → EntityData
  | .node nd, .node old => .node { nd with insJobBusyNr := old.insJobBusyNr }
  | .osm oi, .osm _ => .osm oi
  | _, old => old

/-- An entity as `e`, with the links of `old`. -/
def LYEntity.relink (e old : LYEntity) : LYEntity :=
  { e with id := old.id, type := old.type, entity := e.entity.relink old.entity }

/-- What may happen to the links. -/
inductive LinkEvent where
  /-- The web asks for the job with this id. -/
  | web (jobId : Int)
  /-- A dispatch pass begins. -/
  | pass
  /-- The pass that began at `now` comes to this job. -/
  | visit (now id : Int)
  /-- A node replies with this status for this job. -/
  | reply (id status : Int)
  /-- An OS manager answers the query of this job. -/
  | answer (id : Int)
  /-- A connection is accepted. -/
  | accept (fd : Int) (m : Mem)
  /-- `ly_entity_init`. -/
  | init (i : Nat) (type : EntityType)
  /-- `ly_entity_update`. -/
  | update (i : Nat) (dbId status : Int)
  /-- `ly_entity_enable`. -/
  | enable (i : Nat) (dbId : Int) (enable : Bool)
  /-- The peer has closed the connection in slot `i`. -/
  | closed (i : Nat)
  /-- The connection in slot `i` is released for another reason: a hang-up, a full buffer, a packet
  that is not understood, a registration that is turned down. -/
  | drop (i : Nat)
  /-- Something that leaves the links alone. -/
  | around (ents : Nat → LYEntity) (hist : Nat → ConnHist) (db : Db) (io : Io)

/-- What the rest of the CLC and of the system may do to the state. -/
def Clc.around (c : Clc) (ents : Nat → LYEntity) (hist : Nat → ConnHist)
    (db : Db) (io : Io) : Clc :=
  { c with
    store := { c.store with ents := fun k => (ents k).relink (c.store.ents k) }
    hist := fun k => { hist k with serial := (c.hist k).serial }
    db, io }

/-- What an event does. -/
def Clc.linkNext (env : Env) (c : Clc) : LinkEvent → Option (Res Clc)
  | .web jobId => some ((webJob env c jobId).map Prod.fst)
  | .pass => some (.ok { c.called with jobInsPendingNr := 0 })
  | .visit now id => (jobFind c id).map fun job => jobDispatchOne env now c job
  | .reply id status => some ((nodeResponseJob env c id status).map Prod.fst)
  | .answer id =>
    if jobExist c id then some ((jobUpdateStatus env c id LyS.finishedSuccess).map Prod.fst)
      else none
  | .accept fd m => some (.ok (epollWorkRecv c fd m))
  | .init i type => if i < lyEntityMax then some (.ok (c.init i type)) else none
  | .update i dbId status => if i < lyEntityMax then some (.ok (c.update i dbId status)) else none
  | .enable i dbId enable =>
    if i < lyEntityMax then some (.ok (c.withStore (lyEntityEnable c.store i dbId enable).1))
      else none
  | .closed i =>
    if Readable (c.store.ents i) then some
      ((entityClosed env c i).map fun r => r.1.release i) else none
  | .drop i => some (.ok (c.release i))
  | .around ents hist db io => some (.ok (c.around ents hist db io))

/-- The CLC as it enters its loop: only the listening socket has a slot, and no job was touched
since it was read from the database. -/
structure LinkBoot (c : Clc) : Prop where
  store : ∃ fd m, 0 ≤ fd ∧ c.store = .listening fd m
  jobs : ∀ j ∈ c.jobs, j.jEntId = 0 ∧ j.jPendingNr = -1 ∧ j.jStarting = false
  ids : (c.jobs.map LYJobInfo.jId).Nodup
  hist : c.hist = fun _ => {}
  accepted : c.accepted = 0
  pending : c.jobInsPendingNr = 0

/-- The states of runs whose events satisfy `Q`, up to the first fault. -/
def LinkReachable (env : Env) (Q : Clc → LinkEvent → Prop) : Clc → Prop :=
  Machine.Reach (Clc.linkNext env) Q LinkBoot

/-- **A dispatch pass** is a `pass` and a visit to each job that is still queued when its turn
comes. -/
theorem dispatch_visits {env : Env} {c c' : Clc} (h : LinkReachable env Machine.Always c)
    (hd : jobDispatch env c = .ok c') : LinkReachable env Machine.Always c' := by
  have hloop : ∀ (now : Int) (ids : List Int) (a : Clc), LinkReachable env Machine.Always a →
      jobDispatchLoop env now ids a = .ok c' → LinkReachable env Machine.Always c' := by
    intro now ids
    induction ids with
    | nil =>
      intro a ha hl
      cases hl
      exact ha
    | cons id ids ih =>
      intro a ha hl
      rw [jobDispatchLoop] at hl
      split at hl
      · exact ih a ha hl
      · rename_i job hjob
        dsimp only at hl
        split at hl
        · cases hl
        · rename_i b hb
          split at hl
          · refine ih b (ha.step (.visit now id) trivial ?_) hl
            rw [Clc.linkNext, hjob, Option.map_some, hb]
          · cases hl
  exact hloop _ _ _ (h.step .pass trivial rfl) hd

end LuoYun

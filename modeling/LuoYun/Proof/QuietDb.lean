import LuoYun.Proof.Outside

/-!
# What a connection without a secret does to the database

A peer that has not authenticated makes the CLC write to table `node` in two places. An
authentication request sets the status of the row it names, and a register request without a
tag inserts a row or rewrites one that has no secret. `QuietDb` says that everything else is
left alone: jobs, instances, and the rows of nodes that have a secret.

That the new row is not mistaken for an old one rests on the ids: they are unique and none is
ahead of the sequence (`DbWf`).
-/

namespace LuoYun

/-- The row has a secret. -/
def NodeRow.Tagged (r : NodeRow) : Prop := nonEmpty r.key ≠ none

/-- The ids of table `node` are unique and come from the sequence. -/
structure DbWf (db : Db) : Prop where
  nodup : (db.nodes.map NodeRow.id).Nodup
  le : ∀ r ∈ db.nodes, r.id ≤ db.nodeIdSeq

/-- The row is the same, up to the status that an authentication request sets. -/
def NodeRow.Kept (r r' : NodeRow) : Prop :=
  r' = r ∨ r' = { r with status := NodeStatus.authenticating }

/-- Jobs, instances and the nodes that have a secret are left alone. -/
structure QuietDb (db db' : Db) : Prop where
  instances : db'.instances = db.instances
  jobs : db'.jobs = db.jobs
  wf : DbWf db → DbWf db'
  tagged : DbWf db → ∀ r ∈ db.nodes, r.Tagged → ∃ r' ∈ db'.nodes, r.Kept r'

theorem QuietDb.refl (db : Db) : QuietDb db db :=
  ⟨rfl, rfl, id, fun _ r hr _ => ⟨r, hr, .inl rfl⟩⟩

theorem QuietDb.of_eq {db db' : Db} (h : db' = db) : QuietDb db db' := h ▸ .refl db

theorem NodeRow.Kept.tagged {r r' : NodeRow} (h : r.Kept r') (ht : r.Tagged) : r'.Tagged := by
  rcases h with rfl | rfl <;> exact ht

theorem NodeRow.Kept.trans {r r' r'' : NodeRow} (h : r.Kept r') (h' : r'.Kept r'') :
    r.Kept r'' := by
  rcases h with rfl | rfl
  · exact h'
  · rcases h' with rfl | rfl <;> exact .inr rfl

theorem QuietDb.trans {db db' db'' : Db} (h : QuietDb db db') (h' : QuietDb db' db'') :
    QuietDb db db'' where
  instances := h'.instances.trans h.instances
  jobs := h'.jobs.trans h.jobs
  wf := fun hwf => h'.wf (h.wf hwf)
  tagged := by
    intro hwf r hr ht
    obtain ⟨r', hr', hk⟩ := h.tagged hwf r hr ht
    obtain ⟨r'', hr'', hk'⟩ := h'.tagged (h.wf hwf) r' hr' (hk.tagged ht)
    exact ⟨r'', hr'', hk.trans hk'⟩


/-! ## Single statements -/

/-- No row with this id has a secret. -/
def Untagged (db : Db) (d : Int) : Prop := ∀ r ∈ db.nodes, r.id = d → ¬ r.Tagged

theorem mem_updateNode {db : Db} {d : Int} {f : NodeRow → NodeRow} {r : NodeRow} :
    r ∈ (db.updateNode d f).nodes ↔ ∃ r₀ ∈ db.nodes, (if r₀.id = d then f r₀ else r₀) = r :=
  List.mem_map

theorem dbWf_updateNode {db : Db} {d : Int} {f : NodeRow → NodeRow} (hid : ∀ r, (f r).id = r.id)
    (h : DbWf db) : DbWf (db.updateNode d f) where
  nodup := by
    have hmap : (db.updateNode d f).nodes.map NodeRow.id = db.nodes.map NodeRow.id := by
      simp only [Db.updateNode, List.map_map]
      apply List.map_congr_left
      intro r _
      simp only [Function.comp_apply]
      split
      · exact hid r
      · rfl
    rw [hmap]
    exact h.nodup
  le := by
    intro r hr
    obtain ⟨r₀, hr₀, rfl⟩ := mem_updateNode.mp hr
    split
    · rw [hid]
      exact h.le r₀ hr₀
    · exact h.le r₀ hr₀

/-- Any write to rows that have no secret. -/
theorem quietDb_updateNode {db : Db} {d : Int} {f : NodeRow → NodeRow} (hid : ∀ r, (f r).id = r.id)
    (hu : Untagged db d) : QuietDb db (db.updateNode d f) where
  instances := rfl
  jobs := rfl
  wf := dbWf_updateNode hid
  tagged := by
    intro _ r hr ht
    refine ⟨r, mem_updateNode.mpr ⟨r, hr, ?_⟩, .inl rfl⟩
    exact if_neg fun h => hu r hr h ht

/-- The status that an authentication request sets, in whatever row it names. -/
theorem quietDb_authenticating (db : Db) (d : Int) :
    QuietDb db (db.updateNode d fun r => { r with status := NodeStatus.authenticating }) where
  instances := rfl
  jobs := rfl
  wf := dbWf_updateNode fun _ => rfl
  tagged := by
    intro _ r hr _
    refine ⟨_, mem_updateNode.mpr ⟨r, hr, rfl⟩, ?_⟩
    split
    · exact .inr rfl
    · exact .inl rfl

theorem untagged_updateNode {db : Db} {d : Int} {f : NodeRow → NodeRow}
    (hkey : ∀ r, (f r).key = r.key) (hu : Untagged db d) : Untagged (db.updateNode d f) d := by
  intro r hr hd
  obtain ⟨r₀, hr₀, rfl⟩ := mem_updateNode.mp hr
  split at hd
  · rename_i h
    rw [if_pos h, NodeRow.Tagged, hkey]
    exact hu r₀ hr₀ h
  · rename_i h
    exact absurd hd h

/-- The table after `db_node_insert`. -/
def Db.insertNode (db : Db) (nf : NodeInfo) : Db :=
  { db with nodes := db.nodes ++ [newNodeRow db.nodeIdSeq nf], nodeIdSeq := db.nodeIdSeq + 1 }

theorem quietDb_insertNode (db : Db) (nf : NodeInfo) : QuietDb db (db.insertNode nf) where
  instances := rfl
  jobs := rfl
  wf := by
    intro h
    refine ⟨?_, ?_⟩
    · simp only [Db.insertNode, List.map_append, List.map_cons, List.map_nil]
      refine List.nodup_append.mpr ⟨h.nodup, List.nodup_singleton _, ?_⟩
      intro a ha b hb
      obtain ⟨r, hr, rfl⟩ := List.mem_map.mp ha
      rw [List.mem_singleton.mp hb]
      have h1 := h.le r hr
      have h2 : (newNodeRow db.nodeIdSeq nf).id = db.nodeIdSeq + 1 := rfl
      omega
    · intro r hr
      have h2 : (newNodeRow db.nodeIdSeq nf).id = db.nodeIdSeq + 1 := rfl
      rcases List.mem_append.mp hr with hr | hr
      · have h1 := h.le r hr
        simp only [Db.insertNode]
        omega
      · rw [List.mem_singleton.mp hr, h2]
        simp [Db.insertNode]
  tagged := fun _ r hr _ => ⟨r, List.mem_append_left _ hr, .inl rfl⟩

theorem untagged_insertNode {db : Db} {nf : NodeInfo} (h : DbWf db) {d : Int}
    (hd : db.nodeIdSeq + 1 ≤ d) : Untagged (db.insertNode nf) d := by
  intro r hr hrd
  rcases List.mem_append.mp hr with hr | hr
  · have := h.le r hr
    omega
  · rw [List.mem_singleton.mp hr]
    exact fun hc => hc rfl

theorem le_greatestId {rows : List NodeRow} {r : NodeRow} (hr : r ∈ rows) :
    ∃ m, greatestId rows = some m ∧ r.id ≤ m := by
  induction rows with
  | nil => exact absurd hr List.not_mem_nil
  | cons a rows ih =>
    rcases List.mem_cons.mp hr with rfl | hr
    · cases h : greatestId rows with
      | none => exact ⟨r.id, by simp [greatestId, h], Int.le_refl _⟩
      | some m => exact ⟨max r.id m, by simp [greatestId, h], Int.le_max_left _ _⟩
    · obtain ⟨m, hm, hle⟩ := ih hr
      exact ⟨max a.id m, by simp [greatestId, hm], Int.le_trans hle (Int.le_max_right _ _)⟩

theorem greatestId_pos {rows : List NodeRow} {m : Int} (h : greatestId rows = some m) : 0 < m := by
  induction rows generalizing m with
  | nil => exact absurd h (by simp [greatestId])
  | cons a rows ih =>
    have ha := a.id_pos
    cases hg : greatestId rows with
    | none =>
      simp only [greatestId, hg, Option.elim_none, Option.some.injEq] at h
      omega
    | some k =>
      simp only [greatestId, hg, Option.elim_some, Option.some.injEq] at h
      omega

/-! ## The functions of `postgres.c` -/

/-- A query by id reads and does not write. -/
theorem dbNodeFind_byId_db (env : Env) (c : Clc) (id : Int) :
    (dbNodeFind env c (.byId id)).1.db = c.db := by
  unfold dbNodeFind
  dsimp only
  split <;> rfl

theorem dbNodeFind_byIp_db {env : Env} {c : Clc} {ip : Bytes} (h : quotable [ip] = true) :
    (dbNodeFind env c (.byIp ip)).1.db = c.db := by
  unfold dbNodeFind
  dsimp only
  split
  · rfl
  · split <;> rfl

theorem lyPacketSend_db (env : Env) (c : Clc) (fd type : Int) (data : Bytes) :
    (lyPacketSend env c fd type data).1.db = c.db := by
  unfold lyPacketSend
  split <;> rfl

theorem dbExec_quiet {env : Env} {c : Clc} {f : Db → Db} (h : QuietDb c.db (f c.db)) :
    QuietDb c.db (dbExec env c f).1.db := by
  unfold dbExec
  split
  · exact h
  · exact .refl _

theorem dbExecText_quiet (env : Env) {c : Clc} (sql : Bytes) {texts : List Bytes} {f : Db → Db}
    (ht : quotable texts = true) (h : QuietDb c.db (f c.db)) :
    QuietDb c.db (dbExecText env c sql texts f).1.db := by
  unfold dbExecText
  split
  · exact .refl _
  · exact dbExec_quiet h

/-- A command that has succeeded has done what it says. -/
theorem dbExecText_done (env : Env) {c : Clc} (sql : Bytes) {texts : List Bytes} {f : Db → Db}
    (ht : quotable texts = true) (h : ¬ (dbExecText env c sql texts f).2 < 0) :
    (dbExecText env c sql texts f).1.db = f c.db := by
  have hexec : ¬ (dbExec env c f).2 < 0 → (dbExec env c f).1.db = f c.db := by
    unfold dbExec
    split
    · exact fun _ => rfl
    · exact fun h => absurd (show (-1 : Int) < 0 by decide) h
  unfold dbExecText at h ⊢
  by_cases hlen : lineMax ≤ sql.length
  · rw [if_pos hlen] at h
    exact absurd (show (-1 : Int) < 0 by decide) h
  · rw [if_neg hlen, if_pos ht] at h ⊢
    exact hexec h

theorem dbNodeUpdate_quiet {env : Env} {c : Clc} {id : Int} {nf : NodeInfo}
    (hqt : quotable [orNull nf.hostName, orNull nf.cpuModel, orNull nf.hostIp] = true)
    (hu : Untagged c.db id) : QuietDb c.db (dbNodeUpdate env c id nf).1.db := by
  unfold dbNodeUpdate
  generalize sqlNodeUpdate id nf = sql
  exact dbExecText_quiet env sql (f := fun db => db.updateNode id fun r => r.withInfo nf) hqt
    (quietDb_updateNode (fun _ => rfl) hu)

/-- What `db_node_find` reports of a row it has found. -/
theorem nodeFindResult_row (rows : List NodeRow) (h : (nodeFindResult rows).1 ≠ 0) :
    ∃ r ∈ rows, (nodeFindResult rows).2.id = r.id ∧
      (nodeFindResult rows).2.secret = nonEmpty r.key ∧
      (nodeFindResult rows).2.enabled = r.isenable := by
  unfold nodeFindResult at h ⊢
  split at h
  · exact absurd rfl h
  · exact ⟨_, List.mem_singleton.mpr rfl, rfl, rfl, rfl⟩
  · exact ⟨_, List.mem_cons_self, rfl, rfl, rfl⟩

/-- `db_node_find` fails, or reports of some rows: rows of the table, as long as the address
has no quote in it, and for a query by id rows with that id. -/
theorem dbNodeFind_cases (env : Env) (c : Clc) (key : NodeKey) :
    (dbNodeFind env c key).2.1 = -1 ∨
      ∃ rows, (dbNodeFind env c key).2 = nodeFindResult rows ∧
        (∀ id, key = .byId id → ∀ r ∈ rows, r.id = id) ∧
        (∀ ip, key = .byIp ip → quotable [ip] = true → ∀ r ∈ rows, r ∈ c.db.nodes) := by
  have hsel : ∀ {f : Db → List NodeRow} {rows}, dbSelect env c f = some rows → rows = f c.db := by
    intro f rows h
    unfold dbSelect at h
    split at h
    · exact (Option.some.inj h).symm
    · cases h
  cases key with
  | byId id =>
    unfold dbNodeFind
    dsimp only
    split
    · exact .inl rfl
    · rename_i rows hrows
      refine .inr ⟨rows, rfl, fun id' h r hr => ?_, fun ip h => by cases h⟩
      obtain rfl := NodeKey.byId.inj h
      rw [hsel hrows] at hr
      simpa using (List.mem_filter.mp ((List.mem_insertionSort _).mp hr)).2
  | byIp ip =>
    unfold dbNodeFind
    dsimp only
    split
    · exact .inl rfl
    · split
      · split
        · exact .inl rfl
        · rename_i rows hrows
          refine .inr ⟨rows, rfl, (fun id h => by cases h), fun _ _ _ r hr => ?_⟩
          rw [hsel hrows] at hr
          exact (List.mem_filter.mp ((List.mem_insertionSort _).mp hr)).1
      · rename_i hqt
        split
        · exact .inl rfl
        · refine .inr ⟨_, rfl, (fun id h => by cases h), fun ip' h hq => ?_⟩
          obtain rfl := NodeKey.byIp.inj h
          exact absurd hq hqt

theorem dbNodeFind_id_pos {env : Env} {c : Clc} {key : NodeKey}
    (h : 0 < (dbNodeFind env c key).2.1) : 0 < (dbNodeFind env c key).2.2.id := by
  rcases dbNodeFind_cases env c key with h1 | ⟨rows, h1, -⟩
  · omega
  · rw [h1] at h ⊢
    obtain ⟨r, -, hid, -⟩ := nodeFindResult_row rows (by omega)
    rw [hid]
    exact r.id_pos

/-- The row found for an address and taken over by a new node has no secret. -/
theorem dbNodeFind_byIp_untagged (env : Env) {c : Clc} {ip : Bytes} (hqt : quotable [ip] = true)
    (hwf : DbWf c.db) (hf : 0 < (dbNodeFind env c (.byIp ip)).2.1)
    (hs : (dbNodeFind env c (.byIp ip)).2.2.secret = none) :
    Untagged c.db (dbNodeFind env c (.byIp ip)).2.2.id := by
  rcases dbNodeFind_cases env c (.byIp ip) with h1 | ⟨rows, h1, -, hmem⟩
  · omega
  · rw [h1] at hf hs ⊢
    obtain ⟨r, hr, hid, hsec, -⟩ := nodeFindResult_row rows (by omega)
    intro r' hr' hid' ht
    have heq : r' = r :=
      List.inj_on_of_nodup_map hwf.nodup hr' (hmem ip rfl hqt r hr) (hid'.trans hid)
    subst heq
    exact ht (hsec ▸ hs)

theorem dbNodeFind_byId_id {env : Env} {c : Clc} {id : Int}
    (h : 0 < (dbNodeFind env c (.byId id)).2.1) : (dbNodeFind env c (.byId id)).2.2.id = id := by
  rcases dbNodeFind_cases env c (.byId id) with h1 | ⟨rows, h1, hrows, -⟩
  · omega
  · rw [h1] at h ⊢
    obtain ⟨r, hr, hid, -⟩ := nodeFindResult_row rows (by omega)
    rw [hid]
    exact hrows id rfl r hr

/-- `db_node_insert` returns the id of the row it has inserted. -/
theorem dbNodeInsert_quiet {env : Env} {c : Clc} {nf : NodeInfo} {r : Clc × Int}
    (hqt : quotable [orNull nf.hostName, orNull nf.cpuModel, orNull nf.hostIp] = true)
    (h : dbNodeInsert env c nf = .ok r) :
    QuietDb c.db r.1.db ∧ (DbWf c.db → 0 < r.2 → Untagged r.1.db r.2) := by
  have hip : quotable [orNull nf.hostIp] = true := by
    simp only [quotable, List.all_cons, Bool.and_eq_true] at hqt ⊢
    exact hqt.2.2
  unfold dbNodeInsert at h
  dsimp only at h
  have hquiet := dbExecText_quiet env (c := c) (sqlNodeInsert nf)
    (f := fun db => db.insertNode nf) hqt (quietDb_insertNode c.db nf)
  have hdone := dbExecText_done env (c := c) (sqlNodeInsert nf)
    (f := fun db => db.insertNode nf) hqt
  have hf : (fun db : Db => ({ db with
      nodes := db.nodes ++ [newNodeRow db.nodeIdSeq nf], nodeIdSeq := db.nodeIdSeq + 1 } : Db))
      = fun db => db.insertNode nf := rfl
  rw [hf] at h
  generalize dbExecText env c (sqlNodeInsert nf) _ _ = q at h hquiet hdone
  split at h
  · obtain rfl := Except.ok.inj h
    exact ⟨hquiet, fun _ hc => by simp at hc⟩
  · rename_i hpos
    split at h
    · obtain rfl := Except.ok.inj h
      exact ⟨hquiet, fun _ hc => by simp at hc⟩
    · have hrows : nodeInsertedRows env q.1 (orNull nf.hostIp) =
          (q.1.called, dbSelect env q.1 fun db => db.nodesByIp (orNull nf.hostIp)) := by
        rw [nodeInsertedRows, if_pos hip]
      rw [hrows] at h
      dsimp only at h
      split at h
      · obtain rfl := Except.ok.inj h
        exact ⟨hquiet, fun _ hc => by simp at hc⟩
      · cases h
      · rename_i id hid
        obtain rfl := Except.ok.inj h
        refine ⟨hquiet, fun hwf _ => ?_⟩
        have hdb : q.1.db = c.db.insertNode nf := hdone hpos
        show Untagged q.1.db id
        rw [hdb]
        refine untagged_insertNode hwf ?_
        -- the new row is among those found, so the greatest id is at least its own
        unfold dbSelect at hid
        split at hid
        · rw [hdb] at hid
          have hnew : newNodeRow c.db.nodeIdSeq nf ∈
              (c.db.insertNode nf).nodesByIp (orNull nf.hostIp) := by
            refine List.mem_filter.mpr ⟨List.mem_append_right _ (List.mem_singleton.mpr rfl), ?_⟩
            simp [newNodeRow]
          obtain ⟨m, hm, hle⟩ := le_greatestId hnew
          rw [Option.map_some, hm] at hid
          have hmid : m = id := Option.some.inj (Option.some.inj hid)
          rw [hmid] at hle
          exact hle
        · cases hid

theorem dbNodeInsert_id {env : Env} {c : Clc} {nf : NodeInfo} {r : Clc × Int}
    (h : dbNodeInsert env c nf = .ok r) : r.2 = -1 ∨ 0 < r.2 := by
  unfold dbNodeInsert at h
  dsimp only at h
  generalize dbExecText env c (sqlNodeInsert nf) _ _ = q at h
  split at h
  · obtain rfl := Except.ok.inj h
    exact .inl rfl
  · split at h
    · obtain rfl := Except.ok.inj h
      exact .inl rfl
    · split at h
      · obtain rfl := Except.ok.inj h
        exact .inl rfl
      · cases h
      · rename_i id hid
        obtain rfl := Except.ok.inj h
        obtain ⟨rows, -, hrows⟩ := Option.map_eq_some_iff.mp hid
        exact .inr (greatestId_pos hrows)

theorem mem_of_dbSelect {α : Type} {env : Env} {c : Clc} {f : Db → List α} {r : α}
    (h : dbSelect env c f = some [r]) : r ∈ f c.db := by
  unfold dbSelect at h
  split at h
  · rw [Option.some.inj h]
    exact List.mem_singleton.mpr rfl
  · cases h

/-- A secret is found only in a row, and the rows have positive ids. -/
theorem dbNodeFindSecret_spec (env : Env) (c : Clc) (id : Int) :
    (dbNodeFindSecret env c id).1 = c.called ∧
      ((dbNodeFindSecret env c id).2.2 ≠ none → 0 < (dbNodeFindSecret env c id).2.1) ∧
      (0 < (dbNodeFindSecret env c id).2.1 → 0 < id) := by
  unfold dbNodeFindSecret
  split
  · simp
  · simp
  · rename_i r hr
    have hpos := r.id_pos
    have hid : r.id = id := by
      simpa using (List.mem_filter.mp (mem_of_dbSelect hr)).2
    dsimp only
    rw [if_neg (by omega)]
    exact ⟨rfl, fun _ => hpos, fun _ => hid ▸ hpos⟩
  · simp

theorem dbInstanceFindSecret_spec (env : Env) (c : Clc) (id : Int) :
    (dbInstanceFindSecret env c id).1 = c.called ∧
      ((dbInstanceFindSecret env c id).2.2 ≠ none → 0 < (dbInstanceFindSecret env c id).2.1) ∧
      (0 < (dbInstanceFindSecret env c id).2.1 → 0 < id) := by
  unfold dbInstanceFindSecret
  split
  · simp
  · simp
  · rename_i r hr
    have hpos := r.id_pos
    have hid : r.id = id := by
      simpa using (List.mem_filter.mp (mem_of_dbSelect hr)).2
    exact ⟨rfl, fun _ => Int.one_pos, fun _ => hid ▸ hpos⟩
  · simp

end LuoYun

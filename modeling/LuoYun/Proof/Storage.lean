import LuoYun.Lib.Machine
import LuoYun.Web.Storage
import Mathlib.Algebra.BigOperators.Group.List.Basic

/-!
# The accounts of a storage pool

`update_used` runs after the commit, and nothing commits again before the session is removed. So
the `used` of a pool that persists is never changed by any request. It is right as long as the sizes
it stands for are not changed either, and wrong from the first request on that changes them.
-/

namespace LuoYun.Web

open StorageDb

/-- Every pool has the sum of the sizes of its storages in `used`, and no more than its total. -/
structure Balanced (db : StorageDb) : Prop where
  used : ∀ p ∈ db.pools, p.used = poolSum p.id db.storages
  le : ∀ p ∈ db.pools, p.used ≤ p.total
  /-- The primary key. -/
  ids : (db.storages.map Storage.id).Nodup

/-! ## Sums -/

theorem poolSum_append (pool : Int) (a b : List Storage) :
    poolSum pool (a ++ b) = poolSum pool a + poolSum pool b := by
  rw [poolSum, poolSum, poolSum, List.map_append, List.sum_append]

theorem poolSum_cons (pool : Int) (x : Storage) (l : List Storage) :
    poolSum pool (x :: l) = share pool x + poolSum pool l := by
  rw [poolSum, poolSum, List.map_cons, List.sum_cons]

theorem poolSum_filter (pool : Int) (p : Storage → Bool) (l : List Storage) :
    poolSum pool l = poolSum pool (l.filter p) + poolSum pool (l.filter fun x => !p x) := by
  induction l with
  | nil => rfl
  | cons x l ih =>
    by_cases hp : p x = true
    · rw [List.filter_cons_of_pos hp, List.filter_cons_of_neg (by simpa using hp), poolSum_cons,
        poolSum_cons, ih]
      omega
    · rw [List.filter_cons_of_neg hp, List.filter_cons_of_pos (by simpa using hp), poolSum_cons,
        poolSum_cons, ih]
      omega

theorem poolSum_erase {l : List Storage} {x : Storage}
    (hids : (l.map Storage.id).Nodup) (hx : x ∈ l)
    (pool : Int) : poolSum pool (Table.erase Storage.id x.id l) =
      poolSum pool l - share pool x := by
  obtain ⟨a, b, hab⟩ := Table.exists_around hids hx
  rw [Table.erase_around hab, hab.eq, poolSum_append, poolSum_append, poolSum_cons]
  omega

theorem poolSum_update {l : List Storage} {x : Storage}
    (hids : (l.map Storage.id).Nodup) (hx : x ∈ l) (f : Storage → Storage) (pool : Int) :
    poolSum pool (Table.update Storage.id x.id f l) =
      poolSum pool l - share pool x + share pool (f x) := by
  obtain ⟨a, b, hab⟩ := Table.exists_around hids hx
  rw [Table.update_around hab, hab.eq, poolSum_append, poolSum_append, poolSum_cons, poolSum_cons]
  omega

/-! ## What a request leaves behind -/

/-- The request leaves the sizes in every pool as they are. -/
def Steady (db : StorageDb) : StorageRequest → Prop
  | .add user inst pool size remain => ∀ i, myInstance db.instances user inst = some i →
      maxStorage ≤ (db.storages.filter (·.instanceId = some i.id)).length ∨
        db.formPool pool size remain = none
  | .edit user storage pool size remain => ∀ x p, db.myStorage user storage = some x →
      db.formPool pool size remain = some p → size < x.size ∨ size = x.size ∧ x.poolId = some p.id
  | .delete user storage => ∀ x, db.myStorage user storage = some x →
      ∀ p ∈ db.pools, share p.id x = 0
  | .instanceDelete user admin inst => ∀ i, instanceById db.instances user admin inst = some i →
      isRunning i.status = true ∨
        ∀ p ∈ db.pools, poolSum p.id (db.storages.filter (·.instanceId = some i.id)) = 0

theorem myStorage_mem {db : StorageDb} {user storage : Int} {x : Storage}
    (h : db.myStorage user storage = some x) : x ∈ db.storages :=
  List.mem_of_find?_eq_some (Option.filter_eq_some_iff.mp h).1

theorem formPool_spec {db : StorageDb} {pool size remain : Int} {p : StoragePool}
    (h : db.formPool pool size remain = some p) : p ∈ db.pools ∧ size ≤ p.remain ∧ 1 ≤ size := by
  obtain ⟨hfind, hok⟩ := Option.filter_eq_some_iff.mp h
  have hok' : ¬ p.remain < size ∧ 1 ≤ size ∧ ¬ remain < size := by simpa using hok
  exact ⟨List.mem_of_find?_eq_some hfind, by omega, hok'.2.1⟩

/-- A form that has passed leaves `Storage.__init__` no choice. -/
theorem initSize_eq {p : StoragePool} {size : Int} (h : size ≤ p.remain) :
    initSize p size = size := by
  unfold initSize
  split
  · rfl
  · omega

/-- The pools and their `used` are what they were. -/
theorem balanced_iff {db db' : StorageDb} (h : Balanced db) (hpools : db'.pools = db.pools)
    (hids : (db'.storages.map Storage.id).Nodup) :
    Balanced db' ↔ ∀ p ∈ db.pools, poolSum p.id db'.storages = poolSum p.id db.storages := by
  constructor
  · intro h' p hp
    rw [← h'.used p (hpools ▸ hp), ← h.used p hp]
  · intro hsum
    refine ⟨?_, ?_, hids⟩
    · intro p hp
      rw [hpools] at hp
      rw [h.used p hp, hsum p hp]
    · intro p hp
      rw [hpools] at hp
      exact h.le p hp

theorem add_balanced {db : StorageDb} {user inst pool size remain : Int} (h : Balanced db) :
    Balanced (Session.request (storageAdd user inst pool size remain) db) ↔
      Steady db (.add user inst pool size remain) := by
  rw [Session.request_eq, storageAdd, Session.opened_work]
  cases hi : myInstance db.instances user inst with
  | none => exact ⟨fun _ i hi' => absurd (hi.symm.trans hi') (by simp), fun _ => h⟩
  | some i =>
    dsimp only
    by_cases hmax : maxStorage ≤ (db.storages.filter (·.instanceId = some i.id)).length
    · rw [if_pos hmax]
      refine ⟨fun _ j hj => ?_, fun _ => h⟩
      obtain rfl := Option.some.inj (hi.symm.trans hj)
      exact .inl hmax
    · rw [if_neg hmax]
      cases hp : db.formPool pool size remain with
      | none => exact ⟨fun _ _ _ => .inr hp, fun _ => h⟩
      | some p =>
        -- the new storage is not in `used`
        refine ⟨fun h' => ?_, fun hs => ?_⟩
        · obtain ⟨hmem, hle, hpos⟩ := formPool_spec hp
          have hused := h'.used p hmem
          rw [h.used p hmem, Session.modify_persisted, Session.commit_persisted,
            Session.modify_work, Session.opened_work, poolSum_append, poolSum_cons,
            initSize_eq hle] at hused
          have hshare : share p.id ⟨db.seq, size, some p.id, some i.id⟩ = size := if_pos rfl
          have hnil : poolSum p.id [] = 0 := rfl
          omega
        · rcases hs i hi with hm | hn
          · exact absurd hm hmax
          · exact absurd (hp.symm.trans hn) (by simp)

theorem edit_balanced {db : StorageDb} {user storage pool size remain : Int} (h : Balanced db) :
    Balanced (Session.request (storageEdit user storage pool size remain) db) ↔
      Steady db (.edit user storage pool size remain) := by
  rw [Session.request_eq, storageEdit, Session.opened_work]
  cases hx : db.myStorage user storage with
  | none => exact ⟨fun _ x _ hx' => absurd (hx.symm.trans hx') (by simp), fun _ => h⟩
  | some x =>
    dsimp only
    cases hp : db.formPool pool size remain with
    | none => exact ⟨fun _ _ p _ hp' => absurd (hp.symm.trans hp') (by simp), fun _ => h⟩
    | some p =>
      dsimp only
      by_cases hdown : size < x.size
      · rw [if_pos hdown]
        refine ⟨fun _ y q hy hq => ?_, fun _ => h⟩
        obtain rfl := Option.some.inj (hx.symm.trans hy)
        exact .inl hdown
      · rw [if_neg hdown]
        obtain ⟨hmem, hle, hpos⟩ := formPool_spec hp
        have hin := myStorage_mem hx
        rw [Session.modify_persisted, Session.commit_persisted, Session.modify_work,
          Session.opened_work]
        refine (balanced_iff h ?_ ?_).trans ?_
        · rfl
        · dsimp only
          rw [Table.map_key_update (by intro; rfl)]
          exact h.ids
        · dsimp only
          refine ⟨fun hsum y q hy hq => ?_, fun hs q hq => ?_⟩
          · obtain rfl := Option.some.inj (hx.symm.trans hy)
            obtain rfl := Option.some.inj (hp.symm.trans hq)
            have hpool := hsum p hmem
            rw [poolSum_update h.ids hin] at hpool
            have hnew : share p.id { x with size := size, poolId := some p.id } = size := if_pos rfl
            rw [hnew] at hpool
            unfold share at hpool
            split at hpool
            · rename_i hsame
              exact .inr ⟨by omega, hsame⟩
            · omega
          · obtain hlt | ⟨hsize, hpool⟩ := hs x p hx hp
            · exact absurd hlt hdown
            · rw [poolSum_update h.ids hin]
              have hnew : share q.id { x with size := size, poolId := some p.id } =
                share q.id x := by
                unfold share
                dsimp only
                rw [hpool, hsize]
              omega

theorem delete_balanced {db : StorageDb} {user storage : Int} (h : Balanced db) :
    Balanced (Session.request (storageDelete user storage) db) ↔
      Steady db (.delete user storage) := by
  rw [Session.request_eq, storageDelete, Session.opened_work]
  cases hx : db.myStorage user storage with
  | none => exact ⟨fun _ x hx' => absurd (hx.symm.trans hx') (by simp), fun _ => h⟩
  | some x =>
    dsimp only
    have hin := myStorage_mem hx
    rw [Session.modify_persisted, Session.commit_persisted, Session.modify_work,
      Session.opened_work]
    refine (balanced_iff h ?_ ?_).trans ?_
    · rfl
    · exact h.ids.sublist (List.filter_sublist.map _)
    · dsimp only
      refine ⟨fun hsum y hy p hp => ?_, fun hs p hp => ?_⟩
      · obtain rfl := Option.some.inj (hx.symm.trans hy)
        have hpool := hsum p hp
        rw [poolSum_erase h.ids hin] at hpool
        omega
      · have hzero := hs x hx p hp
        rw [poolSum_erase h.ids hin, hzero]
        omega

theorem instanceDelete_balanced {db : StorageDb} {user : Int} {admin : Bool} {inst : Int}
    (h : Balanced db) : Balanced (Session.request (instanceDelete user admin inst) db) ↔
      Steady db (.instanceDelete user admin inst) := by
  rw [Session.request_eq, instanceDelete, Session.opened_work]
  cases hi : instanceById db.instances user admin inst with
  | none => exact ⟨fun _ i hi' => absurd (hi.symm.trans hi') (by simp), fun _ => h⟩
  | some i =>
    dsimp only
    by_cases hrun : isRunning i.status = true
    · rw [if_pos hrun]
      refine ⟨fun _ j hj => ?_, fun _ => h⟩
      obtain rfl := Option.some.inj (hi.symm.trans hj)
      exact .inl hrun
    · rw [if_neg hrun]
      have hcut : ∀ pool, poolSum pool db.storages =
          poolSum pool (db.storages.filter (·.instanceId = some i.id)) +
            poolSum pool (db.storages.filter fun y => y.instanceId ≠ some i.id) := by
        intro pool
        rw [poolSum_filter pool (fun y => decide (y.instanceId = some i.id)) db.storages]
        congr 2
        refine List.filter_congr fun y _ => ?_
        simp
      rw [Session.commit_persisted, Session.modify_work, Session.commit_work, Session.modify_work,
        Session.opened_work]
      refine (balanced_iff h ?_ ?_).trans ?_
      · rfl
      · exact h.ids.sublist (List.filter_sublist.map _)
      · dsimp only
        refine ⟨fun hsum j hj => ?_, fun hs p hp => ?_⟩
        · obtain rfl := Option.some.inj (hi.symm.trans hj)
          refine .inr fun p hp => ?_
          have hpool := hsum p hp
          have hall := hcut p.id
          omega
        · have hall := hcut p.id
          have hzero := (hs i hi).resolve_left hrun p hp
          omega

/-- **The accounts stay right exactly as long as no request changes a size.** -/
theorem pool_accounting {db : StorageDb} (h : Machine.Reach StorageDb.next Steady Balanced db) :
    Balanced db ∧ ∀ r : StorageRequest, Balanced (Session.request r.handler db) ↔ Steady db r := by
  have hstep : ∀ (db : StorageDb), Balanced db → ∀ r : StorageRequest,
      Balanced (Session.request r.handler db) ↔ Steady db r := by
    intro db hdb r
    cases r with
    | add user inst pool size remain => exact add_balanced hdb
    | edit user storage pool size remain => exact edit_balanced hdb
    | delete user storage => exact delete_balanced hdb
    | instanceDelete user admin inst => exact instanceDelete_balanced hdb
  have hdb : Balanced db := by
    refine h.inv (fun _ h0 => h0) ?_
    intro s r t hs hq hn
    obtain rfl := Except.ok.inj (Option.some.inj hn)
    exact (hstep s hs r).mpr hq
  exact ⟨hdb, hstep db hdb⟩

/-- A pool of 100 GB and an instance that has 10 of them. -/
def StorageDb.tenUsed : StorageDb where
  pools := [⟨1, 100, 10⟩]
  storages := [⟨1, 10, some 1, some 7⟩]
  instances := [⟨7, 3, 2⟩]
  seq := 2

theorem tenUsed_balanced : Balanced .tenUsed := by
  refine ⟨?_, ?_, by decide⟩
  · intro p hp
    obtain rfl := List.mem_singleton.mp hp
    rfl
  · intro p hp
    obtain rfl := List.mem_singleton.mp hp
    decide

/-- An edit that keeps the size is accepted. -/
theorem pool_accounting_kept :
    Balanced (Session.request (StorageRequest.edit 3 1 1 10 50).handler .tenUsed) := by
  refine ((pool_accounting (.of_init tenUsed_balanced)).2 (.edit 3 1 1 10 50)).mpr ?_
  intro x p hx hp
  obtain rfl : x = ⟨1, 10, some 1, some 7⟩ := by
    have hfound : StorageDb.tenUsed.myStorage 3 1 = some ⟨1, 10, some 1, some 7⟩ := by decide
    exact Option.some.inj (hx.symm.trans hfound)
  obtain rfl : p = ⟨1, 100, 10⟩ := by
    have hfound : StorageDb.tenUsed.formPool 1 10 50 = some ⟨1, 100, 10⟩ := by decide
    exact Option.some.inj (hp.symm.trans hfound)
  exact .inr ⟨rfl, rfl⟩

/-- A pool of 100 GB and an instance without storage. -/
def StorageDb.noneUsed : StorageDb where
  pools := [⟨1, 100, 0⟩]
  instances := [⟨7, 3, 2⟩]
  seq := 1

/-- The first storage of 10 GB is not in `used`. -/
theorem pool_used_stale :
    ¬ ∀ db, Machine.Reach StorageDb.next Machine.Always Balanced db → Balanced db := by
  intro hall
  have h0 : Balanced .noneUsed := by
    refine ⟨?_, ?_, by decide⟩
    · intro p hp
      obtain rfl := List.mem_singleton.mp hp
      rfl
    · intro p hp
      obtain rfl := List.mem_singleton.mp hp
      decide
  have hrun : Machine.exec StorageDb.next [.add 3 7 1 10 50] .noneUsed = some
      ⟨[⟨1, 100, 0⟩], [⟨1, 10, some 1, some 7⟩], [⟨7, 3, 2⟩], 2⟩ := by
    decide
  have hbad := hall _ ((Machine.Reach.of_init h0).of_exec (fun _ _ _ => trivial) hrun)
  have hused := hbad.used ⟨1, 100, 0⟩ List.mem_cons_self
  revert hused
  decide

end LuoYun.Web

import LuoYun.Lib.Threads
import LuoYun.Proof.DomainCalls

/-!
# The locks of the control requests

A lock is a link: `link` is atomic and fails when the name is there. A thread keeps, as a ghost
value, the names it has made and not yet removed.

First each handler by itself (`LockSafe`): whatever its calls answer, it removes only names it has
made, it has removed them all when it returns, and it changes the files of an instance or of an
appliance only between the two. Then all threads together: a name is held by one of them at most,
because it is there as long as it is held.
-/

namespace LuoYun

/-- The lock of an instance, as `__domain_run` names it. -/
def insLock (cfg : NodeConfig) (id : Int) : Bytes := lockPath cfg.insDataDir (idstr id)

/-- The lock of an instance, as the other handlers name it. -/
def stopLock (cfg : NodeConfig) (id : Int) : Bytes := lockPath cfg.stopLockDir (idstr id)

/-- The lock of an appliance. -/
def appLock (cfg : NodeConfig) (app : Int) : Bytes := lockPath cfg.appDataDir (idstr app)

/-- The lock under which a path is changed. -/
def guardOf (cfg : NodeConfig) : NodePath → Bytes
  | .insDir id | .insFile id _ | .trash id _ => insLock cfg id
  | .appDir app | .appFile app => appLock cfg app

/-- The names that a thread holds after a call. -/
def watchLock (held : List Bytes) (op : NodeOp) (x : Int) : List Bytes :=
  match op with
  | .link _ l => if x = 0 then l :: held else held
  | .unlinkLock l => if x = 0 then held.erase l else held
  | _ => held

/-- The calls of `__file_lock_put` succeed. -/
def PutSucceeds (op : NodeOp) (x : Int) : Prop :=
  match op with
  | .accessPut _ | .unlinkLock _ => x = 0
  | _ => True

/-- What the answers to the lock calls are: `link` is 0 or -1. -/
def LockAnswer (op : NodeOp) (x : Int) : Prop :=
  PutSucceeds op x ∧ ∀ path l, op = .link path l → x = 0 ∨ x = -1

/-- The discipline: a name is removed by the one who made it, and files are changed under their
lock. -/
def lockMonitor (cfg : NodeConfig) : Monitor NodeOp Int (List Bytes) where
  ok := fun held op => (∀ l, op = .unlinkLock l → l ∈ held) ∧ ∀ p ∈ op.writes, guardOf cfg p ∈ held
  next := fun held op x held' => LockAnswer op x ∧ held' = watchLock held op x

/-- A program keeps to the discipline and has given everything back when it returns. -/
def LockSafe (cfg : NodeConfig) {α : Type} (p : NodeProg α) : Prop :=
  Safe (lockMonitor cfg) (fun held _ => held = []) p []

/-- The two ways to build the directory give one text. -/
theorem stopLockDir_eq (cfg : NodeConfig) : cfg.stopLockDir = cfg.insDataDir := by
  have htext : cstr "/" ++ cstr "instances" = cstr "/instances" := by decide
  rw [NodeConfig.stopLockDir, NodeConfig.insDataDir, List.append_assoc, htext]

theorem stopLock_eq (cfg : NodeConfig) (id : Int) : stopLock cfg id = insLock cfg id := by
  rw [stopLock, insLock, stopLockDir_eq]

/-! ## Calls that take no lock -/

def NodeOp.lockFree : NodeOp → Bool
  | .link .. | .unlinkLock _ | .accessPut _ => false
  | _ => true

/-- Not a lock call, and it changes none but these paths. -/
def Guarded (paths : List NodePath) (op : NodeOp) : Prop :=
  op.lockFree = true ∧ ∀ p ∈ op.writes, p ∈ paths

theorem Within.guarded {paths : List NodePath} {op : NodeOp} (h : Within paths op) :
    Guarded paths op := by
  refine ⟨?_, h.2⟩
  have hplain := h.1
  cases op <;> first | rfl | cases hplain

theorem Guarded.mono {paths paths' : List NodePath} {op : NodeOp} (h : Guarded paths op)
    (hsub : ∀ p ∈ paths, p ∈ paths') : Guarded paths' op :=
  ⟨h.1, fun p hp => hsub p (h.2 p hp)⟩

section

variable (ci : NodeRequest)

theorem appNew_guarded : (appNew ci).All (Guarded [.appFile ci.appId]) := by
  simp [appNew, sendResponse, Guarded, NodeOp.lockFree, NodeOp.writes]

theorem appDownload_guarded : (appDownload ci).All (Guarded [.appFile ci.appId]) := by
  simp only [appDownload, Prog.bind_eq, Prog.pure_eq]
  refine ((sendResponse_within _).mono fun _ h => (h.mono nofun).guarded).bind fun _ => ?_
  refine ((lyutilDownload_within ci.appId).mono fun _ h => h.guarded).bind fun _ => ?_
  simp [sendResponse, Guarded, NodeOp.lockFree, NodeOp.writes]

theorem makeAppDir_guarded (app : Int) : (makeAppDir app).All (Guarded [.appDir app]) := by
  simp [makeAppDir, Guarded, NodeOp.lockFree, NodeOp.writes]

theorem appPrepare_guarded :
    (appPrepare ci).All (Guarded [.appDir ci.appId, .appFile ci.appId]) := by
  have hfile : ∀ op, Guarded [.appFile ci.appId] op →
      Guarded [.appDir ci.appId, .appFile ci.appId] op :=
    fun op h => h.mono (by simp)
  simp only [appPrepare, Prog.bind_eq, Prog.pure_eq]
  refine ((makeAppDir_guarded ci.appId).mono fun op h => h.mono (by simp)).bind fun b => ?_
  split
  · trivial
  · refine ((appNew_guarded ci).mono hfile).bind fun b => ?_
    split
    · refine ((appDownload_guarded ci).mono hfile).bind fun b => ?_
      simp
    · trivial

theorem insExtract_guarded : (insExtract ci).All (Guarded (insPaths ci.insId)) := by
  simp [insExtract, sendResponse, Guarded, NodeOp.lockFree, NodeOp.writes, insPaths]

theorem insStage_guarded (cfg : NodeConfig) :
    (insStage cfg ci).All (Guarded (insPaths ci.insId)) := by
  have hstart := (startInstance_within cfg ci).mono fun _ h => h.guarded
  simp only [insStage, Prog.bind_eq, Prog.pure_eq, Prog.ask_bind]
  refine ((insPrepare_within ci).mono fun _ h => h.guarded).bind fun b => ?_
  split
  · trivial
  · refine Prog.All.call ⟨rfl, nofun⟩ fun x => ?_
    split
    · refine (insExtract_guarded ci).bind fun b => ?_
      split
      · trivial
      · refine hstart.bind fun ret => ?_
        split
        · exact ((domainInstanceClean_within ci.insId false).mono fun _ h => h.guarded).bind
            fun _ => trivial
        · trivial
    · exact hstart

end

/-! ## The waiting loop -/

/-- The loop ends by itself: more fuel is not used. -/
theorem linkLoop_fuel (path l : Bytes) (fuel : Nat) (warn cnt : Int)
    (hwarn : 0 ≤ warn) (hcnt : 0 < cnt)
    (hfuel : 30 * (cnt - 1) + warn < fuel) :
    linkLoop path l (fuel + 1) warn cnt = linkLoop path l fuel warn cnt := by
  induction fuel generalizing warn cnt with
  | zero => omega
  | succ fuel ih =>
    conv_lhs => unfold linkLoop
    conv_rhs => unfold linkLoop
    simp only [Prog.bind_eq, Prog.pure_eq, Prog.ask_bind]
    refine congrArg (Prog.call _) (funext fun x => ?_)
    split
    · rfl
    · refine congrArg (Prog.call _) (funext fun _ => ?_)
      by_cases hw : warn = 0
      · subst hw
        simp only [if_pos]
        split
        · rfl
        · exact ih _ _ (by omega) (by omega) (by omega)
      · simp only [if_neg hw]
        split
        · rfl
        · exact ih _ _ (by omega) hcnt (by omega)

/-! ## Taking and giving back -/

section

variable {cfg : NodeConfig} {held : List Bytes}

theorem watchLock_lockFree {op : NodeOp} (x : Int) (h : op.lockFree = true) :
    watchLock held op x = held := by
  cases op <;> first | rfl | cases h

/-- A part that takes no lock, under the lock of whatever it changes. -/
theorem guarded_safe {α : Type} {p : NodeProg α} {paths : List NodePath}
    (hp : p.All (Guarded paths)) (hheld : ∀ q ∈ paths, guardOf cfg q ∈ held) :
    Safe (lockMonitor cfg) (fun held' _ => held' = held) p held := by
  refine Safe.of_all (P := Guarded paths) (I := fun held' => held' = held) ?_ ?_ hp rfl
  · rintro held' op rfl ⟨hfree, hwrites⟩
    refine ⟨?_, fun q hq => hheld q (hwrites q hq)⟩
    rintro l rfl
    cases hfree
  · rintro held' op x held'' rfl ⟨hfree, -⟩ ⟨-, rfl⟩
    exact watchLock_lockFree x hfree

theorem within_safe {α : Type} {p : NodeProg α} {paths : List NodePath} (hp : p.All (Within paths))
    (hheld : ∀ q ∈ paths, guardOf cfg q ∈ held) :
    Safe (lockMonitor cfg) (fun held' _ => held' = held) p held :=
  guarded_safe (hp.mono fun _ h => h.guarded) hheld

theorem linkLoop_safe (path l : Bytes) (fuel : Nat) (warn cnt : Int) :
    Safe (lockMonitor cfg) (fun held' r => (0 ≤ r → held' = l :: held) ∧ (r < 0 → held' = held))
      (linkLoop path l fuel warn cnt) held := by
  induction fuel generalizing warn cnt with
  | zero => exact ⟨by omega, fun _ => rfl⟩
  | succ fuel ih =>
    unfold linkLoop
    simp only [Prog.bind_eq, Prog.pure_eq, Prog.ask_bind]
    refine Safe.call ⟨nofun, nofun⟩ fun x held' hx => ?_
    obtain ⟨⟨-, hans⟩, rfl⟩ := hx
    rcases hans path l rfl with rfl | rfl
    · exact ⟨fun _ => rfl, fun h => absurd h (by omega)⟩
    · rw [if_neg (by omega)]
      refine Safe.call ⟨nofun, nofun⟩ fun y held'' hy => ?_
      obtain ⟨-, rfl⟩ := hy
      generalize (if warn = 0 then cnt - 1 else cnt) = cnt'
      split
      · exact ⟨by omega, fun _ => rfl⟩
      · exact ih _ _

theorem fileLockGet_safe (dir ext : Bytes) :
    Safe (lockMonitor cfg) (fun held' r => (0 ≤ r → held' = lockPath dir ext :: held ∧
        (lockPath dir ext).length < pathMax) ∧
          (r < 0 → held' = held)) (fileLockGet dir ext) held := by
  simp only [fileLockGet, Prog.bind_eq, Prog.pure_eq, Prog.ask_bind]
  refine Safe.call ⟨nofun, nofun⟩ fun x held' hx => ?_
  obtain ⟨-, rfl⟩ := hx
  split
  · exact ⟨by omega, fun _ => rfl⟩
  · split
    · exact ⟨by omega, fun _ => rfl⟩
    · refine Safe.call ⟨nofun, nofun⟩ fun y held'' hy => ?_
      obtain ⟨-, rfl⟩ := hy
      split
      · exact ⟨by omega, fun _ => rfl⟩
      · split
        · exact ⟨by omega, fun _ => rfl⟩
        next hlen =>
          refine (linkLoop_safe _ _ 601 30 20).mono fun held3 r hr => ?_
          exact ⟨fun h => ⟨hr.1 h, by omega⟩, hr.2⟩

theorem fileLockPut_safe (dir ext : Bytes) (hlen : (lockPath dir ext).length < pathMax) :
    Safe (lockMonitor cfg) (fun held' _ => held' = held) (fileLockPut dir ext)
      (lockPath dir ext :: held) := by
  simp only [fileLockPut, Prog.bind_eq, Prog.pure_eq, Prog.ask_bind]
  refine Safe.call ⟨nofun, nofun⟩ fun x held' hx => ?_
  obtain ⟨⟨hput, -⟩, rfl⟩ := hx
  obtain rfl : x = 0 := hput
  rw [if_neg (by omega), if_neg (by omega)]
  refine Safe.call ⟨?_, nofun⟩ fun y held'' hy => ?_
  · rintro l hl
    cases hl
    exact List.mem_cons_self
  · obtain ⟨⟨hput, -⟩, rfl⟩ := hy
    obtain rfl : y = 0 := hput
    rw [if_neg (by omega)]
    simp [watchLock]

theorem insPaths_guard {id : Int} (hheld : insLock cfg id ∈ held) :
    ∀ q ∈ insPaths id, guardOf cfg q ∈ held := by
  intro q hq
  simp only [insPaths, List.mem_cons, List.not_mem_nil, or_false] at hq
  rcases hq with rfl | rfl | rfl | rfl | rfl | rfl | rfl | rfl | rfl | rfl | rfl <;> exact hheld

/-! ## The handlers -/

theorem appSection_safe (ci : NodeRequest) :
    Safe (lockMonitor cfg) (fun held' _ => held' = held) (appSection cfg ci) held := by
  simp only [appSection, Prog.bind_eq, Prog.pure_eq]
  refine (within_safe (sendResponse_within _) nofun).bind fun held1 _ h1 => ?_
  subst h1
  refine (fileLockGet_safe cfg.appDataDir (idstr ci.appId)).bind fun held2 r hr => ?_
  split
  next hneg => exact hr.2 hneg
  next hpos =>
    obtain ⟨rfl, hlen⟩ := hr.1 (by omega)
    have hguard : ∀ q ∈ [NodePath.appDir ci.appId, .appFile ci.appId],
        guardOf cfg q ∈ appLock cfg ci.appId :: held1 := by
      intro q hq
      simp only [List.mem_cons, List.not_mem_nil, or_false] at hq
      rcases hq with rfl | rfl <;> exact List.mem_cons_self
    refine (guarded_safe (appPrepare_guarded ci) hguard).bind fun held3 failed h3 => ?_
    subst h3
    split
    · exact (fileLockPut_safe _ _ hlen).bind fun _ _ h => h
    · refine (fileLockPut_safe _ _ hlen).bind fun held4 r h4 => ?_
      split <;> exact h4

theorem appStage_safe (ci : NodeRequest) :
    Safe (lockMonitor cfg) (fun held' _ => held' = held) (appStage cfg ci) held := by
  have hneeded : (appNeeded ci).All (Within []) := by
    simp [appNeeded, Within, NodeOp.plain, NodeOp.writes]
  simp only [appStage, Prog.bind_eq, Prog.pure_eq]
  refine (within_safe hneeded fun _ hp => absurd hp List.not_mem_nil).bind fun held1 b h1 => ?_
  subst h1
  split
  · exact appSection_safe ci
  · rfl

theorem domainRunLocked_safe (ci : NodeRequest) (hheld : insLock cfg ci.insId ∈ held) :
    Safe (lockMonitor cfg) (fun held' _ => held' = held) (domainRunLocked cfg ci) held := by
  simp only [domainRunLocked, Prog.bind_eq, Prog.pure_eq, Prog.ask_bind]
  refine Safe.call ⟨nofun, nofun⟩ fun x held1 hx => ?_
  obtain ⟨-, rfl⟩ := hx
  split
  · rfl
  · refine (appStage_safe ci).bind fun held2 failed h2 => ?_
    subst h2
    split
    · rfl
    · exact guarded_safe (insStage_guarded ci cfg) (insPaths_guard hheld)

/-- **A run** gives back every lock it took. -/
theorem domainRun_lockSafe (ci : NodeRequest) : LockSafe cfg (domainRun cfg ci) := by
  unfold LockSafe
  simp only [domainRun, Prog.bind_eq, Prog.pure_eq]
  refine (within_safe (domainRunDataCheck_within cfg ci) nofun).bind fun held1 checked h1 => ?_
  subst h1
  split
  · rfl
  next ci =>
    refine (within_safe (sendResponse_within _) nofun).bind fun held2 _ h2 => ?_
    subst h2
    refine (fileLockGet_safe cfg.insDataDir (idstr ci.insId)).bind fun held3 r hr => ?_
    split
    next hneg => exact hr.2 hneg
    next hpos =>
      obtain ⟨rfl, hlen⟩ := hr.1 (by omega)
      refine (domainRunLocked_safe ci List.mem_cons_self).bind fun held4 ret h4 => ?_
      subst h4
      exact (fileLockPut_safe _ _ hlen).bind fun _ _ h => h

/-- The lock around the other handlers. -/
theorem withInsLock_safe {id : Int} {locked : NodeProg Int}
    (hlocked : locked.All (Within (insPaths id))) :
    Safe (lockMonitor cfg) (fun held' _ => held' = held) (withInsLock cfg id locked) held := by
  simp only [withInsLock, Prog.bind_eq, Prog.pure_eq]
  refine (fileLockGet_safe cfg.stopLockDir (idstr id)).bind fun held1 r hr => ?_
  split
  next hneg => exact hr.2 hneg
  next hpos =>
    obtain ⟨rfl, hlen⟩ := hr.1 (by omega)
    have hheld : insLock cfg id ∈ lockPath cfg.stopLockDir (idstr id) :: held := by
      rw [← stopLock_eq]
      exact List.mem_cons_self
    refine (within_safe hlocked (insPaths_guard hheld)).bind fun held2 ret h2 => ?_
    subst h2
    exact (fileLockPut_safe _ _ hlen).bind fun _ _ h => h

theorem domainStop_lockSafe (ci : NodeRequest) : LockSafe cfg (domainStop cfg ci) := by
  unfold LockSafe
  simp only [domainStop, Prog.bind_eq, Prog.pure_eq, Prog.ask_bind]
  split
  · rfl
  · refine (within_safe (sendResponse_within _) nofun).bind fun held1 _ h1 => ?_
    subst h1
    have hlocked : (domainStopLocked ci.insId).All (Within (insPaths ci.insId)) :=
      (domainStopLocked_within ci.insId).mono fun _ h => h.mono nofun
    refine (withInsLock_safe hlocked).bind fun held2 ret h2 => ?_
    subst h2
    split
    · refine Safe.call ⟨nofun, nofun⟩ fun x held3 hx => ?_
      exact hx.2
    · rfl

theorem domainAcpireboot_lockSafe (ci : NodeRequest) : LockSafe cfg (domainAcpireboot cfg ci) := by
  unfold LockSafe
  simp only [domainAcpireboot, Prog.bind_eq, Prog.pure_eq]
  split
  · rfl
  · refine (within_safe (sendResponse_within _) nofun).bind fun held1 _ h1 => ?_
    subst h1
    exact withInsLock_safe ((domainAcpirebootLocked_within ci.insId).mono fun _ h => h.mono nofun)

theorem domainDestroy_lockSafe (ci : NodeRequest) : LockSafe cfg (domainDestroy cfg ci) := by
  unfold LockSafe
  simp only [domainDestroy, Prog.pure_eq]
  split
  · rfl
  · split
    · rfl
    · exact withInsLock_safe (domainDestroyLocked_within ci.insId)

theorem domainFullreboot_lockSafe (ci : NodeRequest) : LockSafe cfg (domainFullreboot cfg ci) := by
  unfold LockSafe
  simp only [domainFullreboot, Prog.bind_eq, Prog.pure_eq]
  refine Safe.bind (domainStop_lockSafe ci) fun held1 ret h1 => ?_
  subst h1
  split
  · refine (within_safe (sendResponse_within _) nofun).bind fun held2 _ h2 => ?_
    subst h2
    exact domainRun_lockSafe ci
  · rfl

/-- Every request. -/
theorem instanceControlFunc_lockSafe (ci : NodeRequest) :
    LockSafe cfg (instanceControlFunc cfg ci) := by
  have hreply : ∀ (p : NodeProg Int), LockSafe cfg p →
      Safe (lockMonitor cfg) (fun held _ => held = [])
      (p.bind fun ret => controlReply ci ret) [] := by
    intro p hp
    refine Safe.bind hp fun held1 ret h1 => ?_
    subst h1
    exact within_safe (controlReply_within ci ret) nofun
  unfold LockSafe
  simp only [instanceControlFunc, Prog.bind_eq, Prog.pure_eq]
  split
  · exact hreply _ (domainRun_lockSafe ci)
  split
  · exact hreply _ (domainStop_lockSafe ci)
  split
  · exact hreply _ (domainAcpireboot_lockSafe ci)
  split
  · exact hreply _ (domainFullreboot_lockSafe ci)
  split
  · exact hreply _ (domainDestroy_lockSafe ci)
  split
  · exact (within_safe (domainQuery_within cfg ci) nofun).bind fun _ _ h => h
  · exact within_safe (controlReply_within ci (-1)) nofun

end

/-! ## All threads -/

/-- The threads of the node: one for every request, with the names of the locks it holds. -/
def controlThreads (cfg : NodeConfig) :
    Threads NodeOp Int Unit NodeRequest (List Bytes) NodeFs where
  body := instanceControlFunc cfg
  ghost := []
  does := NodeFs.does
  watch := fun _ => watchLock

abbrev NodePool := Pool NodeOp Int Unit NodeRequest (List Bytes) NodeFs

/-- The pools that are reached while the calls of `__file_lock_put` succeed. -/
def LockReach (cfg : NodeConfig) : NodePool → Prop :=
  (controlThreads cfg).Reach fun _ _ op x => PutSucceeds op x

/-- A thread holds a lock. -/
def Holds (P : NodePool) (i : Nat) (l : Bytes) : Prop := ∃ t, P.thread i = some t ∧ l ∈ t.ghost

/-- A thread is inside the locked section of an instance, whichever handler it runs. -/
def InsideInstance (cfg : NodeConfig) (P : NodePool) (i : Nat) (id : Int) : Prop :=
  Holds P i (insLock cfg id) ∨ Holds P i (stopLock cfg id)

/-- A thread is inside the section of an appliance. -/
def InsideAppliance (cfg : NodeConfig) (P : NodePool) (i : Nat) (app : Int) : Prop :=
  Holds P i (appLock cfg app)

/-- A name that is held is there, and is held once. -/
structure LockInv (P : NodePool) : Prop where
  there : ∀ {i t l}, P.thread i = some t → l ∈ t.ghost → P.shared.lock l = true
  nodup : ∀ {i t}, P.thread i = some t → t.ghost.Nodup
  once : ∀ {i j t t' l}, P.thread i = some t → P.thread j = some t' →
    l ∈ t.ghost → l ∈ t'.ghost → i = j

theorem lockFree_lock {s s' : NodeFs} {op : NodeOp} {x : Int} (h : s.does op x s')
    (hfree : op.lockFree = true) :
    s'.lock = s.lock := by
  cases op with
  | link | unlinkLock | accessPut => cases hfree
  | access q | stat q => obtain ⟨rfl, -⟩ := h; rfl
  | checksum app sum => obtain ⟨rfl, -⟩ := h; rfl
  | mkdir q | rmdir q | creat q | unlink q | toTrash id file =>
    rcases h with ⟨-, rfl⟩ | ⟨-, rfl⟩ <;> rfl
  | truncate q size => rcases h with ⟨-, f, -, rfl⟩ | ⟨-, rfl⟩ <;> rfl
  | downloadOpen app | download app | iniOpen ins | iniPrint ins | iniClose ins
  | decompress app ins =>
    obtain ⟨f, rfl⟩ := h
    rfl
  | system ins cmd =>
    cases cmd with
    | cpKernel | cpInitrd =>
      obtain ⟨f, rfl⟩ := h
      rfl
    | mount | umount => rw [show s' = s from h]
  | _ => rw [show s' = s from h]

namespace LockInv

variable {P : NodePool} {i : Nat} {t t' : Thread NodeOp Int Unit NodeRequest (List Bytes)}
    {s : NodeFs}

/-- A thread goes on with the same locks. -/
theorem keep (h : LockInv P) (hi : ∀ t0, P.thread i = some t0 → t.ghost = t0.ghost)
    (hnew : P.thread i = none →
    t.ghost = []) (hs : s.lock = P.shared.lock) : LockInv (P.set s i t) := by
  have hback : ∀ {j t'}, (P.set s i t).thread j = some t' → t'.ghost ≠ [] →
      ∃ t0, P.thread j = some t0 ∧ t'.ghost = t0.ghost := by
    intro j t' hj hne
    rcases Pool.set_cases hj with ⟨rfl, rfl⟩ | ⟨-, hj⟩
    · cases h0 : P.thread j with
      | none => exact absurd (hnew h0) hne
      | some t0 => exact ⟨t0, rfl, hi t0 h0⟩
    · exact ⟨t', hj, rfl⟩
  constructor
  · intro j t' l hj hl
    obtain ⟨t0, h0, hg⟩ := hback hj (List.ne_nil_of_mem hl)
    rw [Pool.set_shared, hs]
    exact h.there h0 (hg ▸ hl)
  · intro j t' hj
    by_cases hne : t'.ghost = []
    · rw [hne]
      exact List.nodup_nil
    · obtain ⟨t0, h0, hg⟩ := hback hj hne
      rw [hg]
      exact h.nodup h0
  · intro j j' t1 t2 l hj hj' hl hl'
    obtain ⟨t3, h3, hg3⟩ := hback hj (List.ne_nil_of_mem hl)
    obtain ⟨t4, h4, hg4⟩ := hback hj' (List.ne_nil_of_mem hl')
    exact h.once h3 h4 (hg3 ▸ hl) (hg4 ▸ hl')

/-- A thread takes a lock: the name was not there, so nobody holds it. -/
theorem take {l : Bytes} (h : LockInv P) (hi : P.thread i = some t') (hg : t.ghost = l :: t'.ghost)
    (hfree : P.shared.lock l = false) : LockInv (P.set (P.shared.setLock l true) i t) := by
  have hnone : ∀ {j t0}, P.thread j = some t0 → l ∉ t0.ghost := by
    intro j t0 hj hl
    have := h.there hj hl
    simp [hfree] at this
  constructor
  · intro j t1 k hj hk
    rw [Pool.set_shared]
    by_cases hkl : k = l
    · subst hkl
      simp
    · rw [NodeFs.setLock_ne _ _ hkl]
      rcases Pool.set_cases hj with ⟨-, rfl⟩ | ⟨-, hjP⟩
      · rw [hg] at hk
        exact h.there hi ((List.mem_cons.mp hk).resolve_left hkl)
      · exact h.there hjP hk
  · intro j t1 hj
    rcases Pool.set_cases hj with ⟨-, rfl⟩ | ⟨-, hjP⟩
    · rw [hg]
      exact List.nodup_cons.mpr ⟨hnone hi, h.nodup hi⟩
    · exact h.nodup hjP
  · intro j j' t1 t2 k hj hj' hk hk'
    rcases Pool.set_cases hj with ⟨rfl, rfl⟩ | ⟨hne, hjP⟩
    · rcases Pool.set_cases hj' with ⟨rfl, rfl⟩ | ⟨hne', hjP'⟩
      · rfl
      · rw [hg] at hk
        rcases List.mem_cons.mp hk with rfl | hk
        · exact absurd hk' (hnone hjP')
        · exact h.once hi hjP' hk hk'
    · rcases Pool.set_cases hj' with ⟨rfl, rfl⟩ | ⟨hne', hjP'⟩
      · rw [hg] at hk'
        rcases List.mem_cons.mp hk' with rfl | hk'
        · exact absurd hk (hnone hjP)
        · exact h.once hjP hi hk hk'
      · exact h.once hjP hjP' hk hk'

/-- A thread gives a lock back that it holds: nobody else holds it. -/
theorem give {l : Bytes} (h : LockInv P) (hi : P.thread i = some t')
    (hg : t.ghost = t'.ghost.erase l)
    (hl : l ∈ t'.ghost) : LockInv (P.set (P.shared.setLock l false) i t) := by
  have hsub : ∀ {k}, k ∈ t.ghost → k ∈ t'.ghost := fun hk => List.mem_of_mem_erase (hg ▸ hk)
  constructor
  · intro j t1 k hj hk
    rw [Pool.set_shared]
    rcases Pool.set_cases hj with ⟨-, rfl⟩ | ⟨hne, hjP⟩
    · have hkl : k ≠ l := by
        rintro rfl
        rw [hg] at hk
        exact absurd rfl ((h.nodup hi).mem_erase_iff.mp hk).1
      rw [NodeFs.setLock_ne _ _ hkl]
      exact h.there hi (hsub hk)
    · have hkl : k ≠ l := by
        rintro rfl
        exact hne (h.once hjP hi hk hl)
      rw [NodeFs.setLock_ne _ _ hkl]
      exact h.there hjP hk
  · intro j t1 hj
    rcases Pool.set_cases hj with ⟨-, rfl⟩ | ⟨-, hjP⟩
    · rw [hg]
      exact (h.nodup hi).erase l
    · exact h.nodup hjP
  · intro j j' t1 t2 k hj hj' hk hk'
    rcases Pool.set_cases hj with ⟨rfl, rfl⟩ | ⟨-, hjP⟩
    · rcases Pool.set_cases hj' with ⟨rfl, rfl⟩ | ⟨-, hjP'⟩
      · rfl
      · exact h.once hi hjP' (hsub hk) hk'
    · rcases Pool.set_cases hj' with ⟨rfl, rfl⟩ | ⟨-, hjP'⟩
      · exact h.once hjP hi hk (hsub hk')
      · exact h.once hjP hjP' hk hk'

end LockInv

/-- Each thread keeps to the discipline, whatever the others do. -/
theorem thread_lockSafe {cfg : NodeConfig} {P : NodePool} (hP : LockReach cfg P) {i : Nat}
    {t : Thread NodeOp Int Unit NodeRequest (List Bytes)} (hi : P.thread i = some t) :
    Safe (lockMonitor cfg) (fun held _ => held = []) t.prog t.ghost := by
  refine Threads.Reach.safe (m := fun _ => lockMonitor cfg) (Q := fun _ held _ => held = []) hP
    (fun ci => instanceControlFunc_lockSafe ci) ?_ hi
  intro P i r op k g x s _ hdoes hmeets
  refine ⟨⟨hmeets, ?_⟩, rfl⟩
  rintro path l rfl
  rcases hdoes with ⟨hx, -⟩ | ⟨hx, -⟩
  · exact .inl hx
  · exact .inr hx

/-- **The invariant** holds in every pool that is reached. -/
theorem lockInv_reach {cfg : NodeConfig} {P : NodePool} (hP : LockReach cfg P) : LockInv P := by
  induction hP with
  | start s => exact ⟨nofun, nofun, nofun⟩
  | spawn r hP hfree ih =>
    exact ih.keep (fun t0 h0 => by rw [hfree] at h0; cases h0) (fun _ => rfl) rfl
  | @call P i r op k g x s hP hi hdoes hmeets ih =>
    have hsafe := thread_lockSafe hP hi
    cases hop : op.lockFree with
    | true =>
      refine ih.keep (fun t0 h0 => ?_) (fun h0 => by rw [hi] at h0; cases h0)
        (lockFree_lock hdoes hop)
      obtain rfl := Option.some.inj (hi.symm.trans h0)
      exact watchLock_lockFree x hop
    | false =>
      cases op with
      | link path l =>
        rcases hdoes with ⟨rfl, hlock, rfl⟩ | ⟨rfl, rfl⟩
        · exact ih.take hi rfl hlock
        · refine ih.keep (fun t0 h0 => ?_) (fun h0 => by rw [hi] at h0; cases h0) rfl
          obtain rfl := Option.some.inj (hi.symm.trans h0)
          rfl
      | unlinkLock l =>
        obtain rfl : x = 0 := hmeets
        rcases hdoes with ⟨-, rfl⟩ | ⟨hx, -⟩
        · exact ih.give hi rfl (hsafe.1.1 l rfl)
        · cases hx
      | accessPut dir =>
        refine ih.keep (fun t0 h0 => ?_) (fun h0 => by rw [hi] at h0; cases h0)
          (by rw [show s = P.shared from hdoes])
        obtain rfl := Option.some.inj (hi.symm.trans h0)
        rfl
      | _ => cases hop

theorem holds_once {cfg : NodeConfig} {P : NodePool} (hP : LockReach cfg P) {i j : Nat} {l : Bytes}
    (hi : Holds P i l) (hj : Holds P j l) : i = j := by
  obtain ⟨t, hi, hl⟩ := hi
  obtain ⟨t', hj, hl'⟩ := hj
  exact (lockInv_reach hP).once hi hj hl hl'

/-- **The locks**: each handler gives back exactly what it took, and so no two threads are inside
the locked section of one instance, or inside the section of one appliance. -/
theorem lock_discipline (cfg : NodeConfig) :
    (∀ ci, LockSafe cfg (domainRun cfg ci) ∧ LockSafe cfg (domainStop cfg ci) ∧
      LockSafe cfg (domainAcpireboot cfg ci) ∧ LockSafe cfg (domainDestroy cfg ci)) ∧
    ∀ P, LockReach cfg P →
      (∀ id i j, InsideInstance cfg P i id → InsideInstance cfg P j id → i = j) ∧
      ∀ app i j, InsideAppliance cfg P i app → InsideAppliance cfg P j app → i = j := by
  refine ⟨fun ci => ⟨domainRun_lockSafe ci, domainStop_lockSafe ci, domainAcpireboot_lockSafe ci,
    domainDestroy_lockSafe ci⟩, fun P hP =>
      ⟨fun id i j hi hj => ?_, fun app i j hi hj => holds_once hP hi hj⟩⟩
  simp only [InsideInstance, stopLock_eq, or_self] at hi hj
  exact holds_once hP hi hj

/-- A request to stop instance 1. -/
def stopRequest : NodeRequest := { insId := 1, reqAction := LyA.nodeStopInstance }

/-- A node. -/
def lockConfig : NodeConfig where
  nodeDataDir := cstr "/var"
  jsonParse := fun _ => none

/-- The thread of the request after its first four calls. -/
def lockedPool : NodePool :=
  let t := (controlThreads lockConfig).advance NodeFs.answer 4
    (instanceControlFunc lockConfig stopRequest) [] {}
  (Pool.mk {} fun _ => none).set t.2.2 0 ⟨stopRequest, t.1, t.2.1⟩

theorem lockedPool_reach : LockReach lockConfig lockedPool := by
  have hspawn : LockReach lockConfig ((Pool.mk {} fun _ => none).set {} 0
      ⟨stopRequest, instanceControlFunc lockConfig stopRequest, []⟩) :=
        .spawn stopRequest (.start _) rfl
  have hput : ∀ (s : NodeFs) (op : NodeOp), PutSucceeds op (s.answer op).1 := by
    intro s op
    cases op <;> trivial
  have hreach := Threads.Reach.advance (c := fun _ _ _ => true) NodeFs.does_answer
    (fun P _ op _ _ _ _ => hput P.shared op) 4 hspawn Pool.set_self
      (fun j hj => Pool.set_ne hj) (rfl)
  rwa [Pool.set_set] at hreach

theorem lockedPool_holds : Holds lockedPool 0 (insLock lockConfig 1) :=
  ⟨_, rfl, by decide⟩

theorem lock_discipline_stop : LockReach lockConfig lockedPool ∧
    InsideInstance lockConfig lockedPool 0 1 ∧
    ∀ j, InsideInstance lockConfig lockedPool j 1 → 0 = j := by
  refine ⟨lockedPool_reach, .inl lockedPool_holds, fun j hj => ?_⟩
  exact ((lock_discipline lockConfig).2 lockedPool lockedPool_reach).1 1 0 j
    (.inl lockedPool_holds) hj

end LuoYun

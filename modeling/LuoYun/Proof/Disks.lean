import LuoYun.Proof.DataDisk
import LuoYun.Proof.Locks

/-!
# The disks of an instance that runs again

A disk is cut to its new size only if that is larger, but the comparison is made with an `int` of
gigabytes. Below 2^61 bytes the `int` is the size, and a disk that is below it stays below it: the
sizes that are asked for are `int`s of gigabytes themselves. So the disks of an instance that is not
new are never cut short, whichever call fails.

Every part of a run but the extension of the disks leaves them alone (`frame_safe`).
-/

namespace LuoYun

/-- The OS disk. -/
abbrev osPath (id : Int) : NodePath := .insFile id .os

/-- The file, if it is there, is one whose size in gigabytes is an `int`. -/
def Small (p : NodePath) (fs : NodeFs) : Prop := ∀ f, fs.entry p = some f → f.size < 2 ^ 61

/-- The file is still there and has its former bytes. -/
def KeptAt (p : NodePath) (fs fs' : NodeFs) : Prop :=
  ∀ f, fs.entry p = some f → ∃ f', fs'.entry p = some f' ∧ f.Kept f'

/-- `osm_json` lists no disk. -/
def ListsNoDisk (cfg : NodeConfig) (ci : NodeRequest) : Prop :=
  ∃ json members, ci.osmJson = some json ∧ cfg.jsonParse json = some (.object members) ∧
    ∀ e ∈ storageOf members, isDisk e = false

/-- The file is in the trash, with its former bytes. -/
def Trashed (id : Int) (fs fs' : NodeFs) : Prop :=
  ∀ f, fs.entry (dataPath id) = some f →
    fs'.entry (dataPath id) = none ∧ ∃ f', fs'.entry (.trash id .storage1) = some f' ∧ f.Kept f'

theorem KeptAt.refl (p : NodePath) (fs : NodeFs) : KeptAt p fs fs := fun f hf => ⟨f, hf, .refl f⟩

theorem KeptAt.trans {p : NodePath} {fs fs1 fs2 : NodeFs} (h : KeptAt p fs fs1)
    (h' : KeptAt p fs1 fs2) :
    KeptAt p fs fs2 := by
  intro f hf
  obtain ⟨f1, hf1, hk1⟩ := h f hf
  obtain ⟨f2, hf2, hk2⟩ := h' f1 hf1
  exact ⟨f2, hf2, hk1.trans hk2⟩

theorem KeptAt.of_eq {p : NodePath} {fs fs1 fs2 : NodeFs} (h : KeptAt p fs fs1)
    (heq : fs2.entry p = fs1.entry p) :
    KeptAt p fs fs2 := by
  intro f hf
  obtain ⟨f1, hf1, hk⟩ := h f hf
  exact ⟨f1, heq.trans hf1, hk⟩

theorem Small.of_eq {p : NodePath} {fs1 fs2 : NodeFs} (h : Small p fs1)
    (heq : fs2.entry p = fs1.entry p) :
    Small p fs2 := fun f hf => h f (heq.symm.trans hf)

/-- Nothing is lost where there is nothing. -/
theorem KeptAt.of_none {p : NodePath} {fs fs' : NodeFs} (h : fs.entry p = none) : KeptAt p fs fs' :=
  fun f hf => absurd (h.symm.trans hf).symm (Option.some_ne_none f)

theorem Small.of_none {p : NodePath} {fs : NodeFs} (h : fs.entry p = none) : Small p fs :=
  fun f hf => absurd (h.symm.trans hf).symm (Option.some_ne_none f)

/-! ## Calls that leave a path alone -/

/-- A call that changes none but these paths. -/
def TouchesOnly (paths : List NodePath) (op : NodeOp) : Prop := ∀ p ∈ op.writes, p ∈ paths

theorem TouchesOnly.mono {paths paths' : List NodePath} {op : NodeOp} (h : TouchesOnly paths op)
    (hsub : ∀ p ∈ paths, p ∈ paths') : TouchesOnly paths' op := fun p hp => hsub p (h p hp)

theorem TouchesOnly.of_nil {paths : List NodePath} {op : NodeOp} (h : op.writes = []) :
    TouchesOnly paths op :=
  fun _ hp => absurd (h ▸ hp) List.not_mem_nil

section

variable {α : Type} {p : NodeProg α} {paths : List NodePath}

/-- A path that a part does not touch. -/
theorem frame_safe (hp : p.All (TouchesOnly paths)) (fs : NodeFs) :
    Safe fsMonitor (fun fs' _ => ∀ q, q ∉ paths → fs'.entry q = fs.entry q) p fs := by
  refine Safe.of_all (P := TouchesOnly paths)
    (I := fun fs' : NodeFs => ∀ q, q ∉ paths → fs'.entry q = fs.entry q)
    (fun _ _ _ _ => trivial) ?_ hp fun _ _ => rfl
  intro fs1 op x fs2 h hop hdoes q hq
  exact (NodeFs.does_frame hdoes fun hw => hq (hop q hw)).trans (h q hq)

theorem within_touchesOnly (hp : p.All (Within paths)) : p.All (TouchesOnly paths) :=
  hp.mono fun _ h => h.2

theorem guarded_touchesOnly (hp : p.All (Guarded paths)) : p.All (TouchesOnly paths) :=
  hp.mono fun _ h => h.2

end

section

variable (cfg : NodeConfig) (ci : NodeRequest)

theorem linkLoop_touchesOnly (path l : Bytes) (fuel : Nat) (warn cnt : Int) :
    (linkLoop path l fuel warn cnt).All (TouchesOnly []) := by
  induction fuel generalizing warn cnt with
  | zero => trivial
  | succ fuel ih =>
    unfold linkLoop
    simp only [Prog.bind_eq, Prog.pure_eq, Prog.ask_bind, Prog.all_call, Prog.all_ite]
    exact ⟨.of_nil rfl, fun x =>
      ⟨fun _ => trivial, fun _ => ⟨.of_nil rfl, fun _ => ⟨fun _ => trivial, fun _ => ih _ _⟩⟩⟩⟩

theorem fileLockGet_touchesOnly (dir ext : Bytes) : (fileLockGet dir ext).All (TouchesOnly []) := by
  simp only [fileLockGet, Prog.bind_eq, Prog.pure_eq, Prog.ask_bind, Prog.all_call, Prog.all_ite,
    Prog.all_ret]
  exact ⟨.of_nil rfl, fun x => ⟨fun _ => trivial, fun _ => ⟨fun _ => trivial, fun _ => ⟨.of_nil rfl,
    fun y =>
      ⟨fun _ => trivial, fun _ => ⟨fun _ => trivial, fun _ => linkLoop_touchesOnly _ _ _ _ _⟩⟩⟩⟩⟩⟩

theorem fileLockPut_touchesOnly (dir ext : Bytes) : (fileLockPut dir ext).All (TouchesOnly []) := by
  simp [fileLockPut, TouchesOnly, NodeOp.writes]

theorem appStage_touchesOnly :
    (appStage cfg ci).All (TouchesOnly [.appDir ci.appId, .appFile ci.appId]) := by
  have hput : (fileLockPut cfg.appDataDir (idstr ci.appId)).All
      (TouchesOnly [.appDir ci.appId, .appFile ci.appId]) :=
    (fileLockPut_touchesOnly _ _).mono fun _ h => h.mono nofun
  have hsection : (appSection cfg ci).All (TouchesOnly [.appDir ci.appId, .appFile ci.appId]) := by
    simp only [appSection, Prog.bind_eq, Prog.pure_eq]
    refine ((within_touchesOnly (sendResponse_within _)).mono fun _ h => h.mono nofun).bind fun _ =>
      ?_
    refine ((fileLockGet_touchesOnly _ _).mono fun _ h => h.mono nofun).bind fun r => ?_
    split
    · trivial
    · refine (guarded_touchesOnly (appPrepare_guarded ci)).bind fun failed => ?_
      split
      · exact hput.bind fun _ => trivial
      · exact hput.bind fun r => by simp
  have hneeded : (appNeeded ci).All (TouchesOnly []) := by
    simp [appNeeded, TouchesOnly, NodeOp.writes]
  simp only [appStage, Prog.bind_eq, Prog.pure_eq]
  refine (hneeded.mono fun _ h => h.mono nofun).bind fun b => ?_
  split
  · exact hsection
  · trivial

theorem domainStop_touchesOnly : (domainStop cfg ci).All (TouchesOnly []) := by
  simp only [domainStop, withInsLock, Prog.bind_eq, Prog.pure_eq, Prog.ask_bind, Prog.all_ite]
  refine ⟨fun _ => trivial, fun _ => ?_⟩
  refine (within_touchesOnly (sendResponse_within _)).bind fun _ => ?_
  refine Prog.All.bind ?_ fun ret => by simp [TouchesOnly, NodeOp.writes]
  refine (fileLockGet_touchesOnly _ _).bind fun r => ?_
  split
  · trivial
  · refine (within_touchesOnly (domainStopLocked_within ci.insId)).bind fun ret => ?_
    exact (fileLockPut_touchesOnly _ _).bind fun _ => trivial

end

/-! ## Cutting a disk to a size -/

/-- Below 2^61 bytes the `int` is the size. -/
theorem sizeG_small {n : Nat} (h : n < 2 ^ 61) : sizeG n = n / 2 ^ 30 := by
  unfold sizeG
  exact toInt32_eq (by unfold IsInt32; omega)

/-- A small disk that is cut to a larger size keeps its bytes, and stays small. -/
theorem truncate_keeps {fs fs' : NodeFs} {p : NodePath} {n x : Int} {f : File}
    (hf : fs.entry p = some f) (hsmall : f.size < 2 ^ 61) (hlt : sizeG f.size < n) (hn : n < 2 ^ 31)
    (hdoes : fs.does (.truncate p (n * 2 ^ 30)) x fs') : Small p fs' ∧ KeptAt p fs fs' := by
  rcases hdoes with ⟨-, f', hf', rfl⟩ | ⟨-, rfl⟩
  · obtain rfl : f = f' := Option.some.inj (hf.symm.trans hf')
    rw [sizeG_small hsmall] at hlt
    have hle : f.size ≤ (n * 2 ^ 30).toNat := by omega
    constructor
    · intro g hg
      rw [NodeFs.put_entry_self] at hg
      obtain rfl := Option.some.inj hg
      have hsize : (f.resize (n * 2 ^ 30).toNat).size = (n * 2 ^ 30).toNat := rfl
      omega
    · intro g hg
      obtain rfl : f = g := Option.some.inj (hf.symm.trans hg)
      exact ⟨_, NodeFs.put_entry_self _ _ _, File.kept_resize hle⟩
  · refine ⟨?_, .refl p _⟩
    intro g hg
    obtain rfl : f = g := Option.some.inj (hf.symm.trans hg)
    exact hsmall

/-- The OS disk is extended. -/
theorem extendOs_keeps (id extsize : Int) {fs : NodeFs} (hsmall : Small (osPath id) fs) :
    Safe fsMonitor (fun fs' _ => Small (osPath id) fs' ∧ KeptAt (osPath id) fs fs')
      (extendOs id extsize) fs := by
  simp only [extendOs, Prog.bind_eq, Prog.pure_eq, Prog.ask_bind]
  split
  next hext =>
    refine Safe.call trivial fun x fs1 hx => ?_
    obtain ⟨rfl, hx⟩ := hx
    rcases hx with rfl | ⟨f, hf, rfl⟩
    · rw [if_pos (by omega)]
      exact ⟨hsmall, .refl _ _⟩
    · rw [if_neg (by omega)]
      have hlt := hsmall f hf
      -- the number must not be computed with
      generalize hg : sizeG f.size = g
      split
      next hgt =>
        refine Safe.call trivial fun y fs2 hy => ?_
        have hkeep := truncate_keeps hf hlt (hg ▸ hgt) (by omega) hy
        split <;> exact hkeep
      · exact ⟨hsmall, .refl _ _⟩
  · exact ⟨hsmall, .refl _ _⟩

/-- The data disk is made or extended. -/
theorem sizeDisk_keeps (id : Int) {n : Int} (hpos : 0 < n) (hn : n < 2 ^ 31) {fs : NodeFs}
    (hsmall : Small (dataPath id) fs) :
    Safe fsMonitor (fun fs' _ => Small (dataPath id) fs' ∧ KeptAt (dataPath id) fs fs')
      (sizeDisk id n) fs := by
  simp only [sizeDisk, Prog.bind_eq, Prog.pure_eq, Prog.ask_bind]
  refine Safe.call trivial fun x fs1 hx => ?_
  obtain ⟨rfl, hx⟩ := hx
  split
  · refine Safe.call trivial fun y fs2 hy => ?_
    obtain ⟨rfl, hy⟩ := hy
    rcases hy with rfl | ⟨f, hf, rfl⟩
    · rw [if_pos (by omega)]
      exact ⟨hsmall, .refl _ _⟩
    · rw [if_neg (by omega)]
      have hlt := hsmall f hf
      generalize hg : sizeG f.size = g
      split
      · exact ⟨hsmall, .refl _ _⟩
      next hgt =>
        refine Safe.call trivial fun z fs3 hz => ?_
        have hkeep := truncate_keeps hf hlt (hg ▸ Int.not_le.mp hgt) hn hz
        split <;> exact hkeep
  next hne =>
    have hnone : fs1.entry (dataPath id) = none := by
      cases h : fs1.entry (dataPath id) with
      | none => rfl
      | some f => exact absurd (hx.mpr (by rw [h]; rfl)) hne
    -- there is nothing to keep
    have hkept : ∀ fs', KeptAt (dataPath id) fs1 fs' := fun _ => .of_none hnone
    refine Safe.call trivial fun y fs2 hy => ?_
    rcases hy with ⟨hy, rfl⟩ | ⟨rfl, rfl⟩
    · rw [if_neg (by omega)]
      refine Safe.call trivial fun z fs3 hz => ?_
      have hzero : File.empty.size = 0 := rfl
      have hempty : File.empty.size < 2 ^ 61 := by omega
      have hsize : sizeG (File.empty.size : Int) < n := by
        rw [sizeG_small hempty]
        omega
      have hkeep := truncate_keeps (NodeFs.put_entry_self _ _ _) hempty hsize hn hz
      split <;> exact ⟨hkeep.1, hkept _⟩
    · rw [if_pos (by omega)]
      exact ⟨hsmall, hkept _⟩

/-! ## The document -/

theorem Trashed.of_kept {id : Int} {fs fs1 fs2 : NodeFs} (h : KeptAt (dataPath id) fs fs1)
    (h' : Trashed id fs1 fs2) : Trashed id fs fs2 := by
  intro f hf
  obtain ⟨f1, hf1, hk1⟩ := h f hf
  obtain ⟨hnone, f2, hf2, hk2⟩ := h' f1 hf1
  exact ⟨hnone, f2, hf2, hk1.trans hk2⟩

theorem diskEntry_lt {e : DiskMembers} {found b : Bool} {size s : Int}
    (h : diskEntry e found size = some (b, s)) (hsize : size < 2 ^ 31) : s < 2 ^ 31 := by
  obtain ⟨hnone, hsome⟩ := diskEntry_size h
  cases hf : sizeField e with
  | none =>
    rw [hnone hf]
    exact hsize
  | some n =>
    rw [(hsome n hf).2]
    unfold toInt32
    omega

/-- An entry after which no disk has been found. -/
theorem diskEntry_none {e : DiskMembers} {found : Bool} {size s : Int}
    (h : diskEntry e found size = some (false, s)) :
    found = false ∧ isDisk e = false := by
  cases found with
  | false => exact ⟨rfl, (diskEntry_isDisk h).symm⟩
  | true => exact absurd (diskEntry_found h) (by simp)

section

variable {cfg : NodeConfig} {id : Int} {fs : NodeFs}

theorem placeDisk_keeps (diskSize : Nat) {size : Int} (hsize : size < 2 ^ 31) (disk : List Bytes)
    (hsmall : Small (dataPath id) fs) :
    Safe fsMonitor (fun fs' _ => Small (dataPath id) fs' ∧ KeptAt (dataPath id) fs fs')
      (placeDisk cfg id diskSize size disk) fs := by
  simp only [placeDisk, Prog.bind_eq, Prog.pure_eq]
  split
  · exact ⟨hsmall, .refl _ _⟩
  next hpos =>
    split
    · exact ⟨hsmall, .refl _ _⟩
    · split
      · exact ⟨hsmall, .refl _ _⟩
      · refine (sizeDisk_keeps id (by omega) hsize hsmall).bind fun fs' r h => ?_
        split <;> exact h

/-- A storage array: the disk is kept, and if none has been found there is none. -/
theorem storageEntries_keeps (diskSize : Nat) (values : List Json) (found : Bool) {size : Int}
    (hsize : size < 2 ^ 31) (disk : List Bytes) (hsmall : Small (dataPath id) fs) :
    Safe fsMonitor (fun fs' r => (Small (dataPath id) fs' ∧ KeptAt (dataPath id) fs fs') ∧
        ∀ disk', r = some (false, disk') → found = false ∧ ∀ e ∈ entriesOf values, isDisk e = false)
      (storageEntries cfg id diskSize values found size disk) fs := by
  induction values generalizing found size disk fs with
  | nil =>
    refine ⟨⟨hsmall, .refl _ _⟩, fun disk' h => ?_⟩
    obtain ⟨rfl, -⟩ := Prod.mk.inj (Option.some.inj h)
    exact ⟨rfl, fun _ he => absurd he List.not_mem_nil⟩
  | cons v rest ih =>
    cases v with
    | object e =>
      have hcons : entriesOf (.object e :: rest) = e :: entriesOf rest := rfl
      rw [hcons]
      simp only [storageEntries, Prog.bind_eq, Prog.pure_eq]
      split
      · exact ⟨⟨hsmall, .refl _ _⟩, fun _ h => absurd h.symm (Option.some_ne_none _)⟩
      next found' s he =>
        have hs := diskEntry_lt he hsize
        cases found' with
        | false =>
          obtain ⟨rfl, hdisk⟩ := diskEntry_none he
          refine (ih false hs disk hsmall).mono fun fs' r h => ⟨h.1, fun disk' hr => ⟨rfl, ?_⟩⟩
          intro e' he'
          rcases List.mem_cons.mp he' with rfl | he'
          · exact hdisk
          · exact (h.2 disk' hr).2 e' he'
        | true =>
          refine (placeDisk_keeps diskSize hs disk hsmall).bind fun fs1 r h1 => ?_
          split
          · exact ⟨h1, fun _ h => absurd h.symm (Option.some_ne_none _)⟩
          · refine (ih true hs _ h1.1).mono fun fs' r h =>
              ⟨⟨h.1.1, h1.2.trans h.1.2⟩, fun disk' hr => ?_⟩
            exact absurd (h.2 disk' hr).1 (by simp)
    | _ => exact ⟨⟨hsmall, .refl _ _⟩, fun _ h => absurd h.symm (Option.some_ne_none _)⟩

/-- The whole document. -/
theorem jsonMembers_keeps (netSize diskSize : Nat) (members : List (Bytes × Json)) (found : Bool)
    (net disk : List Bytes) (hsmall : Small (dataPath id) fs) :
    Safe fsMonitor (fun fs' r => (Small (dataPath id) fs' ∧ KeptAt (dataPath id) fs fs') ∧
        ∀ net' disk', r = some (false, net', disk') → found = false ∧
          ∀ e ∈ storageOf members, isDisk e = false)
      (jsonMembers cfg id netSize diskSize members found net disk) fs := by
  induction members generalizing found net disk fs with
  | nil =>
    refine ⟨⟨hsmall, .refl _ _⟩, fun net' disk' h => ?_⟩
    obtain ⟨rfl, -⟩ := Prod.mk.inj (Option.some.inj h)
    exact ⟨rfl, fun _ he => absurd he List.not_mem_nil⟩
  | cons m rest ih =>
    obtain ⟨name, value⟩ := m
    simp only [jsonMembers, Prog.bind_eq, Prog.pure_eq]
    split
    next hnet =>
      have hskip : storageOf ((name, value) :: rest) = storageOf rest := by
        have hne : name ≠ cstr "storage" := by rw [hnet.1]; decide
        cases value <;> simp [storageOf, hne]
      rw [hskip]
      split
      · split
        · exact ⟨⟨hsmall, .refl _ _⟩, fun _ _ h => absurd h.symm (Option.some_ne_none _)⟩
        · exact ih _ _ _ hsmall
      · exact ⟨⟨hsmall, .refl _ _⟩, fun _ _ h => absurd h.symm (Option.some_ne_none _)⟩
    · split
      next hst =>
        split
        next values =>
          have hes : storageOf ((name, .array values) :: rest) =
              entriesOf values ++ storageOf rest := by
            simp [storageOf, hst]
          rw [hes]
          refine (storageEntries_keeps diskSize values found (by decide) disk hsmall).bind
            fun fs1 r h1 => ?_
          split
          · exact ⟨h1.1, fun _ _ h => absurd h.symm (Option.some_ne_none _)⟩
          next found' disk' =>
            refine (ih found' net disk' h1.1.1).mono fun fs' r h =>
              ⟨⟨h.1.1, h1.1.2.trans h.1.2⟩, ?_⟩
            intro net'' disk'' hr
            obtain ⟨rfl, hrest⟩ := h.2 net'' disk'' hr
            obtain ⟨hfound, harray⟩ := h1.2 disk' rfl
            refine ⟨hfound, fun e he => ?_⟩
            rcases List.mem_append.mp he with he | he
            · exact harray e he
            · exact hrest e he
        · exact ⟨⟨hsmall, .refl _ _⟩, fun _ _ h => absurd h.symm (Option.some_ne_none _)⟩
      next hst =>
        have hskip : storageOf ((name, value) :: rest) = storageOf rest := by
          cases value <;> simp [storageOf, hst]
        rw [hskip]
        exact ih _ _ _ hsmall

theorem trashDisk_keeps (hsmall : Small (dataPath id) fs) :
    Safe fsMonitor (fun fs' _ => Small (dataPath id) fs' ∧
      (KeptAt (dataPath id) fs fs' ∨ Trashed id fs fs'))
      (trashDisk cfg id) fs := by
  have hsame : Small (dataPath id) fs ∧ (KeptAt (dataPath id) fs fs ∨ Trashed id fs fs) :=
    ⟨hsmall, .inl (.refl _ _)⟩
  simp only [trashDisk, Prog.bind_eq, Prog.pure_eq, Prog.ask_bind]
  split
  · exact hsame
  · split
    · exact hsame
    · refine Safe.call trivial fun x fs1 hx => ?_
      obtain ⟨rfl, -⟩ := hx
      split
      · refine Safe.call trivial fun y fs2 hy => ?_
        have hdone : Small (dataPath id) fs2 ∧
            (KeptAt (dataPath id) fs1 fs2 ∨ Trashed id fs1 fs2) := by
          rcases hy with ⟨-, rfl⟩ | ⟨-, rfl⟩
          · have hgone : ((fs1.put (dataPath id) none).put (.trash id .storage1)
                (fs1.entry (dataPath id))).entry (dataPath id) = none := by
              rw [NodeFs.put_entry_ne _ _ (by simp), NodeFs.put_entry_self]
            have hempty : Small (dataPath id) _ := .of_none hgone
            refine ⟨hempty, .inr fun f hf => ⟨hgone, f, ?_, .refl f⟩⟩
            rw [NodeFs.put_entry_self, hf]
          · exact hsame
        split <;> exact hdone
      · exact hsame

/-- What a request does to the data disk. -/
def DataKept (cfg : NodeConfig) (ci : NodeRequest) (fs fs' : NodeFs) : Prop :=
  KeptAt (dataPath ci.insId) fs fs' ∨ ListsNoDisk cfg ci ∧ Trashed ci.insId fs fs'

theorem DataKept.of_eq {ci : NodeRequest} {fs1 fs2 : NodeFs} (h : DataKept cfg ci fs fs1)
    (hdata : fs2.entry (dataPath ci.insId) = fs1.entry (dataPath ci.insId))
    (htrash : fs2.entry (.trash ci.insId .storage1) = fs1.entry (.trash ci.insId .storage1)) :
    DataKept cfg ci fs fs2 := by
  rcases h with h | ⟨hlists, h⟩
  · exact .inl (h.of_eq hdata)
  · refine .inr ⟨hlists, fun f hf => ?_⟩
    obtain ⟨hnone, f', hf', hk⟩ := h f hf
    exact ⟨hdata.trans hnone, f', htrash.trans hf', hk⟩

/-- Both disks have come through. -/
structure DisksKept (cfg : NodeConfig) (ci : NodeRequest) (fs fs' : NodeFs) : Prop where
  osSmall : Small (osPath ci.insId) fs'
  dataSmall : Small (dataPath ci.insId) fs'
  os : KeptAt (osPath ci.insId) fs fs'
  data : DataKept cfg ci fs fs'

/-- The two disks and the place in the trash. -/
def diskPaths (id : Int) : List NodePath := [osPath id, dataPath id, .trash id .storage1]

/-- Nothing has happened to the disks. -/
def SameDisks (id : Int) (fs fs' : NodeFs) : Prop := ∀ q ∈ diskPaths id, fs'.entry q = fs.entry q

/-- A part that touches other paths. -/
theorem sameDisks_safe (id : Int) {α : Type} {p : NodeProg α} {paths : List NodePath}
    (hp : p.All (TouchesOnly paths)) (fs : NodeFs)
    (hout : ∀ q ∈ diskPaths id, q ∉ paths) :
    Safe fsMonitor (fun fs' _ => SameDisks id fs fs') p fs :=
  (frame_safe hp fs).mono fun _ _ heq q hq => heq q (hout q hq)

theorem SameDisks.trans {fs1 fs2 : NodeFs} (h : SameDisks id fs fs1) (h' : SameDisks id fs1 fs2) :
    SameDisks id fs fs2 := fun q hq => (h' q hq).trans (h q hq)

theorem SameDisks.os {fs1 : NodeFs} (h : SameDisks id fs fs1) :
    fs1.entry (osPath id) = fs.entry (osPath id) :=
  h _ (by simp [diskPaths])

theorem SameDisks.data {fs1 : NodeFs} (h : SameDisks id fs fs1) :
    fs1.entry (dataPath id) = fs.entry (dataPath id) :=
  h _ (by simp [diskPaths])

theorem DisksKept.then {ci : NodeRequest} {fs1 fs2 : NodeFs} (h : DisksKept cfg ci fs fs1)
    (h' : SameDisks ci.insId fs1 fs2) : DisksKept cfg ci fs fs2 where
  osSmall := h.osSmall.of_eq h'.os
  dataSmall := h.dataSmall.of_eq h'.data
  os := h.os.of_eq h'.os
  data := h.data.of_eq h'.data (h' _ (by simp [diskPaths]))

theorem DisksKept.after {ci : NodeRequest} {fs1 fs2 : NodeFs} (h : SameDisks ci.insId fs fs1)
    (h' : DisksKept cfg ci fs1 fs2) : DisksKept cfg ci fs fs2 where
  osSmall := h'.osSmall
  dataSmall := h'.dataSmall
  os := ((KeptAt.refl _ _).of_eq h.os).trans h'.os
  data := by
    have hkept : KeptAt (dataPath ci.insId) fs fs1 := (KeptAt.refl _ _).of_eq h.data
    rcases h'.data with hk | ⟨hlists, ht⟩
    · exact .inl (hkept.trans hk)
    · exact .inr ⟨hlists, ht.of_kept hkept⟩

theorem DisksKept.same {ci : NodeRequest} {fs1 : NodeFs} (hos : Small (osPath ci.insId) fs)
    (hdata : Small (dataPath ci.insId) fs) (h : SameDisks ci.insId fs fs1) :
    DisksKept cfg ci fs fs1 :=
  DisksKept.then ⟨hos, hdata, .refl _ _, .inl (.refl _ _)⟩ h

/-! ## A run -/

theorem domainXmlJson_keeps {ci : NodeRequest} {json : Bytes}
    (hjson : ci.osmJson = some json) (net : List Bytes)
    (netSize : Nat) (disk : List Bytes) (diskSize : Nat) (hsmall : Small (dataPath ci.insId) fs) :
    Safe fsMonitor (fun fs' _ => Small (dataPath ci.insId) fs' ∧ DataKept cfg ci fs fs')
      (domainXmlJson cfg ci.insId json net netSize disk diskSize) fs := by
  have hsame : Small (dataPath ci.insId) fs ∧ DataKept cfg ci fs fs := ⟨hsmall, .inl (.refl _ _)⟩
  simp only [domainXmlJson, Prog.bind_eq, Prog.pure_eq]
  split
  next members hparse =>
    refine (jsonMembers_keeps netSize diskSize members false net disk hsmall).bind fun fs1 r h1 =>
      ?_
    split
    · exact ⟨h1.1.1, .inl h1.1.2⟩
    next found net' disk' =>
      cases found with
      | true => exact ⟨h1.1.1, .inl h1.1.2⟩
      | false =>
        have hlists : ListsNoDisk cfg ci := ⟨json, members, hjson, hparse, (h1.2 net' disk' rfl).2⟩
        refine (trashDisk_keeps h1.1.1).bind fun fs2 r h2 => ?_
        have hdone : Small (dataPath ci.insId) fs2 ∧ DataKept cfg ci fs fs2 := by
          refine ⟨h2.1, ?_⟩
          rcases h2.2 with hk | ht
          · exact .inl (h1.1.2.trans hk)
          · exact .inr ⟨hlists, ht.of_kept h1.1.2⟩
        split <;> exact hdone
  · exact hsame

theorem domainXml_keeps {ci : NodeRequest} (hos : Small (osPath ci.insId) fs)
    (hdata : Small (dataPath ci.insId) fs) :
    Safe fsMonitor (fun fs' _ => DisksKept cfg ci fs fs')
      (domainXml cfg ci.toNodeCtrlInstance) fs := by
  have hsame : DisksKept cfg ci fs fs := ⟨hos, hdata, .refl _ _, .inl (.refl _ _)⟩
  have htext : ∀ fs1, DisksKept cfg ci fs fs1 →
      Safe fsMonitor (fun fs' _ => DisksKept cfg ci fs fs')
        (Prog.ask .xmlText : NodeProg Int) fs1 := by
    intro fs1 h
    refine Safe.call trivial fun x fs2 hx => ?_
    obtain rfl : fs2 = fs1 := hx
    exact h
  simp only [domainXml, Prog.bind_eq, Prog.pure_eq, Prog.ask_bind]
  split
  · exact hsame
  · refine Safe.call trivial fun template fs1 hx => ?_
    obtain rfl : fs1 = fs := hx
    split
    · exact hsame
    · -- the OS disk is extended, and nothing else is touched
      refine ((extendOs_keeps ci.insId ci.insExtsize hos).and
        (frame_safe (within_touchesOnly (extendOs_within ci.insId ci.insExtsize)) fs1)).bind
          fun fs2 r h2 => ?_
      have hdata2 : fs2.entry (dataPath ci.insId) = fs1.entry (dataPath ci.insId) :=
        h2.2 _ (by simp)
      have hkept2 : KeptAt (dataPath ci.insId) fs1 fs2 := (KeptAt.refl _ _).of_eq hdata2
      have hext : DisksKept cfg ci fs1 fs2 := ⟨h2.1.1, hdata.of_eq hdata2, h2.1.2, .inl hkept2⟩
      split
      · exact hext
      · split
        · exact htext fs2 hext
        next json hjson =>
          -- the document concerns the data disk only
          refine ((domainXmlJson_keeps hjson _ _ _ _ hext.dataSmall).and
            (frame_safe (within_touchesOnly (domainXmlJson_within cfg ci.insId json _ _ _ _))
              fs2)).bind fun fs3 r h3 => ?_
          have hos3 : fs3.entry (osPath ci.insId) = fs2.entry (osPath ci.insId) :=
            h3.2 _ (by simp [dataPaths])
          have hdoc : DisksKept cfg ci fs1 fs3 := by
            refine ⟨hext.osSmall.of_eq hos3, h3.1.1, hext.os.of_eq hos3, ?_⟩
            rcases h3.1.2 with hk | ⟨hlists, ht⟩
            · exact .inl (hkept2.trans hk)
            · exact .inr ⟨hlists, ht.of_kept hkept2⟩
          split
          · exact hdoc
          · exact htext fs3 hdoc

theorem startInstance_keeps {ci : NodeRequest} (hos : Small (osPath ci.insId) fs)
    (hdata : Small (dataPath ci.insId) fs) :
    Safe fsMonitor (fun fs' _ => DisksKept cfg ci fs fs') (startInstance cfg ci) fs := by
  simp only [startInstance, Prog.bind_eq, Prog.pure_eq]
  refine (sameDisks_safe ci.insId (within_touchesOnly (prepareImage_within cfg ci)) fs
    (by simp [diskPaths])).bind fun fs1 b h1 => ?_
  split
  · exact .same hos hdata h1
  · refine (sameDisks_safe ci.insId (within_touchesOnly (writeIni_within ci)) fs1
      (by simp [diskPaths])).bind fun fs2 b h2 => ?_
    have h12 : SameDisks ci.insId fs fs2 := h1.trans h2
    split
    · exact .same hos hdata h12
    · refine (domainXml_keeps (hos.of_eq h12.os) (hdata.of_eq h12.data)).bind fun fs3 r h3 => ?_
      have hkept : DisksKept cfg ci fs fs3 := .after h12 h3
      split
      · exact hkept
      · refine (sameDisks_safe ci.insId (within_touchesOnly (createDomain_within ci.insId)) fs3
          fun _ _ => List.not_mem_nil).mono fun fs4 r h4 => ?_
        exact hkept.then h4

/-- The instance has its disk: nothing is extracted, and so nothing is cleaned up. -/
theorem insStage_keeps {ci : NodeRequest} (hstatus : ci.insStatus ≠ DomainS.new)
    (hdisk : (fs.entry (osPath ci.insId)).isSome = true) (hos : Small (osPath ci.insId) fs)
    (hdata : Small (dataPath ci.insId) fs) :
    Safe fsMonitor (fun fs' _ => DisksKept cfg ci fs fs') (insStage cfg ci) fs := by
  simp only [insStage, insPrepare, if_neg hstatus, Prog.bind_eq, Prog.pure_eq, Prog.ask_bind]
  refine (sameDisks_safe ci.insId (within_touchesOnly (makeInsDir_within ci.insId)) fs
    (by simp [diskPaths])).bind fun fs1 b h1 => ?_
  split
  · exact .same hos hdata h1
  · refine Safe.call trivial fun x fs2 hx => ?_
    obtain ⟨rfl, hx⟩ := hx
    have hthere : x = 0 := hx.mpr (by rw [h1.os]; exact hdisk)
    rw [if_neg (by omega)]
    exact (startInstance_keeps (hos.of_eq h1.os) (hdata.of_eq h1.data)).mono fun fs3 r h3 =>
      .after h1 h3

theorem domainRunLocked_keeps {ci : NodeRequest} (hstatus : ci.insStatus ≠ DomainS.new)
    (hdisk : (fs.entry (osPath ci.insId)).isSome = true) (hos : Small (osPath ci.insId) fs)
    (hdata : Small (dataPath ci.insId) fs) :
    Safe fsMonitor (fun fs' _ => DisksKept cfg ci fs fs') (domainRunLocked cfg ci) fs := by
  simp only [domainRunLocked, Prog.bind_eq, Prog.pure_eq, Prog.ask_bind]
  refine Safe.call trivial fun x fs1 hx => ?_
  obtain rfl : fs1 = fs := hx
  split
  · exact .same hos hdata fun _ _ => rfl
  · refine (sameDisks_safe ci.insId (appStage_touchesOnly cfg ci) fs1 (by simp [diskPaths])).bind
      fun fs2 failed h2 => ?_
    split
    · exact .same hos hdata h2
    · refine (insStage_keeps hstatus (by rw [h2.os]; exact hdisk) (hos.of_eq h2.os)
        (hdata.of_eq h2.data)).mono fun fs3 r h3 => .after h2 h3

theorem DisksKept.congr {ci ci' : NodeRequest} {fs' : NodeFs} (h : DisksKept cfg ci' fs fs')
    (hid : ci'.insId = ci.insId) (hjson : ci'.osmJson = ci.osmJson) : DisksKept cfg ci fs fs' := by
  obtain ⟨h1, h2, h3, h4⟩ := h
  rw [hid] at h1 h2 h3
  refine ⟨h1, h2, h3, ?_⟩
  unfold DataKept ListsNoDisk at h4 ⊢
  rwa [hid, hjson] at h4

theorem domainRun_keeps {ci : NodeRequest} (hstatus : ci.insStatus ≠ DomainS.new)
    (hdisk : (fs.entry (osPath ci.insId)).isSome = true) (hos : Small (osPath ci.insId) fs)
    (hdata : Small (dataPath ci.insId) fs) :
    Safe fsMonitor (fun fs' _ => DisksKept cfg ci fs fs') (domainRun cfg ci) fs := by
  simp only [domainRun, Prog.bind_eq, Prog.pure_eq]
  refine ((sameDisks_safe ci.insId (within_touchesOnly (domainRunDataCheck_within cfg ci)) fs
    fun _ _ => List.not_mem_nil).returns (domainRunDataCheck_returns cfg ci)).bind
      fun fs1 checked h1 => ?_
  obtain ⟨h1, hchecked⟩ := h1
  split
  · exact .same hos hdata h1
  next ci' =>
    obtain ⟨hid, hst, hjson, -, -⟩ := hchecked ci' rfl
    refine Safe.mono ?_ fun fs' r (h : DisksKept cfg ci fs1 fs') => .after h1 h
    replace hdisk : (fs1.entry (osPath ci'.insId)).isSome = true := by rw [hid, h1.os]; exact hdisk
    replace hos : Small (osPath ci'.insId) fs1 := by rw [hid]; exact hos.of_eq h1.os
    replace hdata : Small (dataPath ci'.insId) fs1 := by rw [hid]; exact hdata.of_eq h1.data
    rw [← hst] at hstatus
    refine Safe.mono ?_ fun fs' r (h : DisksKept cfg ci' fs1 fs') => h.congr hid hjson
    refine (sameDisks_safe ci'.insId (within_touchesOnly (sendResponse_within _)) fs1
      fun _ _ => List.not_mem_nil).bind fun fs2 _ h2 => ?_
    refine (sameDisks_safe ci'.insId (fileLockGet_touchesOnly _ _) fs2
      fun _ _ => List.not_mem_nil).bind fun fs3 r h3 => ?_
    have h13 : SameDisks ci'.insId fs1 fs3 := h2.trans h3
    split
    · exact .same hos hdata h13
    · refine (domainRunLocked_keeps hstatus (by rw [h13.os]; exact hdisk) (hos.of_eq h13.os)
        (hdata.of_eq h13.data)).bind fun fs4 ret h4 => ?_
      refine (sameDisks_safe ci'.insId (fileLockPut_touchesOnly _ _) fs4
        fun _ _ => List.not_mem_nil).bind fun fs5 _ h5 => ?_
      exact (DisksKept.after h13 h4).then h5

theorem domainFullreboot_keeps {ci : NodeRequest} (hstatus : ci.insStatus ≠ DomainS.new)
    (hdisk : (fs.entry (osPath ci.insId)).isSome = true) (hos : Small (osPath ci.insId) fs)
    (hdata : Small (dataPath ci.insId) fs) :
    Safe fsMonitor (fun fs' _ => DisksKept cfg ci fs fs') (domainFullreboot cfg ci) fs := by
  simp only [domainFullreboot, Prog.bind_eq, Prog.pure_eq]
  refine (sameDisks_safe ci.insId (domainStop_touchesOnly cfg ci) fs
    fun _ _ => List.not_mem_nil).bind fun fs1 ret h1 => ?_
  split
  · refine (sameDisks_safe ci.insId (within_touchesOnly (sendResponse_within _)) fs1
      fun _ _ => List.not_mem_nil).bind fun fs2 _ h2 => ?_
    have h12 : SameDisks ci.insId fs fs2 := h1.trans h2
    exact (domainRun_keeps hstatus (by rw [h12.os]; exact hdisk) (hos.of_eq h12.os)
      (hdata.of_eq h12.data)).mono fun fs3 r h3 => .after h12 h3
  · exact .same hos hdata h1

end

/-! ## Sequences of runs -/

/-- A run or a full reboot of an instance that is not new, with any outcome of its calls. -/
structure Rerun (cfg : NodeConfig) (id : Int) (ci : NodeRequest) (fs fs' : NodeFs) : Prop where
  ins : ci.insId = id
  notNew : ci.insStatus ≠ DomainS.new
  runs : ∃ r, (domainRun cfg ci).Runs NodeFs.does fs fs' r ∨
    (domainFullreboot cfg ci).Runs NodeFs.does fs fs' r

/-- One after the other. -/
inductive Reruns (cfg : NodeConfig) (id : Int) (fs : NodeFs) :
    List NodeRequest → NodeFs → Prop where
  | nil : Reruns cfg id fs [] fs
  | snoc {cis : List NodeRequest} {ci : NodeRequest} {fs1 fs2 : NodeFs}
      (h : Reruns cfg id fs cis fs1)
      (hlast : Rerun cfg id ci fs1 fs2) : Reruns cfg id fs (cis ++ [ci]) fs2

section

variable {cfg : NodeConfig} {id : Int} {fs fs1 fs2 : NodeFs} {ci : NodeRequest}
    {cis : List NodeRequest}

theorem KeptAt.isSome {p : NodePath} (h : KeptAt p fs fs1) (hf : (fs.entry p).isSome = true) :
    (fs1.entry p).isSome = true := by
  obtain ⟨f, hf⟩ := Option.isSome_iff_exists.mp hf
  obtain ⟨f', hf', -⟩ := h f hf
  rw [hf']
  rfl

/-- One request. -/
theorem rerun_keeps (h : Rerun cfg id ci fs fs1) (hdisk : (fs.entry (osPath id)).isSome = true)
    (hos : Small (osPath id) fs) (hdata : Small (dataPath id) fs) : DisksKept cfg ci fs fs1 := by
  obtain ⟨rfl, hnew, r, hrun | hrun⟩ := h
  · exact (domainRun_keeps hnew hdisk hos hdata).of_runs hrun
  · exact (domainFullreboot_keeps hnew hdisk hos hdata).of_runs hrun

/-- Any number of requests: the disks stay small, and the data disk is kept unless a request lists
none. -/
theorem reruns_keep (h : Reruns cfg id fs cis fs1) (hdisk : (fs.entry (osPath id)).isSome = true)
    (hos : Small (osPath id) fs) (hdata : Small (dataPath id) fs) :
    Small (osPath id) fs1 ∧ Small (dataPath id) fs1 ∧ KeptAt (osPath id) fs fs1 ∧
      ((∀ c ∈ cis, ¬ ListsNoDisk cfg c) → KeptAt (dataPath id) fs fs1) := by
  induction h with
  | nil => exact ⟨hos, hdata, .refl _ _, fun _ => .refl _ _⟩
  | @snoc cis ci fs1 fs2 _ hlast ih =>
    obtain ⟨hos1, hdata1, hkept, hdatakept⟩ := ih
    have hstep := rerun_keeps hlast (hkept.isSome hdisk) hos1 hdata1
    obtain ⟨rfl, -, -⟩ := hlast
    refine ⟨hstep.osSmall, hstep.dataSmall, hkept.trans hstep.os, fun hlists => ?_⟩
    rcases hstep.data with hk | ⟨hno, -⟩
    · exact (hdatakept fun c hc => hlists c (List.mem_append_left _ hc)).trans hk
    · exact absurd hno (hlists ci (by simp))

/-- **The disks are kept**: of an instance whose disks are below 2^61 bytes at the beginning, each
run keeps the OS disk and its bytes, and the data disk as well or, if the document lists none, moves
it to the trash; over the whole sequence the OS disk never shrinks, nor does the data disk as long
as every document lists one. -/
theorem disks_kept (h : Reruns cfg id fs cis fs1) (hlast : Rerun cfg id ci fs1 fs2)
    (hdisk : (fs.entry (osPath id)).isSome = true) (hos : Small (osPath id) fs)
    (hdata : Small (dataPath id) fs) :
    KeptAt (osPath id) fs1 fs2 ∧ DataKept cfg ci fs1 fs2 ∧ KeptAt (osPath id) fs fs2 ∧
      ((∀ c ∈ cis ++ [ci], ¬ ListsNoDisk cfg c) → KeptAt (dataPath id) fs fs2) := by
  obtain ⟨hos1, hdata1, hkept, -⟩ := reruns_keep h hdisk hos hdata
  have hstep := rerun_keeps hlast (hkept.isSome hdisk) hos1 hdata1
  obtain ⟨-, -, hall, hdataall⟩ := reruns_keep (h.snoc hlast) hdisk hos hdata
  refine ⟨?_, hstep.data, hall, hdataall⟩
  have hosstep := hstep.os
  rwa [hlast.ins] at hosstep

end

/-- A request to run instance 1, which was stopped, with an OS disk of so many gigabytes. -/
def rerunRequest (extsize : Int) : NodeRequest :=
  { insId := 1
    insStatus := DomainS.stop
    insExtsize := extsize
    insMac := some (cstr "02:00:00:00:00:01")
    appId := 1
    appName := some (cstr "app")
    appChecksum := some []
    appUri := some (cstr "http://clc/dl/app") }

/-- The directory of an instance with an OS disk of this size, and its kernel. -/
def rerunFs (size : Nat) : NodeFs :=
  ((({} : NodeFs).put (.insDir 1) (some .empty)).put (.insFile 1 .kernel) (some .empty)).put
    (osPath 1)
    (some (File.empty.resize size))

/-- What a run leaves in which no call fails. -/
def rerunAfter (size : Nat) (extsize : Int) : NodeFs :=
  ((domainRun lockConfig (rerunRequest extsize)).exec NodeFs.answer (rerunFs size)).1

theorem rerun_exec (size : Nat) (extsize : Int) :
    Rerun lockConfig 1 (rerunRequest extsize) (rerunFs size) (rerunAfter size extsize) where
  ins := rfl
  notNew := show (2 : Int) ≠ 1 by decide
  runs := ⟨_, .inl (Prog.exec_runs NodeFs.does_answer _ _)⟩

theorem disks_kept_one : KeptAt (osPath 1) (rerunFs (2 ^ 30)) (rerunAfter (2 ^ 30) 2) := by
  have hsmall : Small (osPath 1) (rerunFs (2 ^ 30)) := by
    intro f hf
    obtain rfl := Option.some.inj ((NodeFs.put_entry_self _ _ _).symm.trans hf)
    have hsize : (File.empty.resize (2 ^ 30)).size = 2 ^ 30 := rfl
    omega
  have hnone : Small (dataPath 1) (rerunFs (2 ^ 30)) := .of_none rfl
  exact (disks_kept .nil (rerun_exec (2 ^ 30) 2) rfl hsmall hnone).1

theorem rerunAfter_size : ((rerunAfter (2 ^ 61) 1).entry (osPath 1)).map File.size =
    some (2 ^ 30) := by
  rfl

/-- A disk of 2^61 bytes is 2^31 gigabytes long, which is a negative `int`: asked for one gigabyte,
it is cut to one. -/
theorem disks_cut : Rerun lockConfig 1 (rerunRequest 1) (rerunFs (2 ^ 61)) (rerunAfter (2 ^ 61) 1) ∧
    ¬ KeptAt (osPath 1) (rerunFs (2 ^ 61)) (rerunAfter (2 ^ 61) 1) := by
  refine ⟨rerun_exec (2 ^ 61) 1, fun hkept => ?_⟩
  obtain ⟨f, hf, hle, -⟩ := hkept (File.empty.resize (2 ^ 61)) (NodeFs.put_entry_self _ _ _)
  have hsize : f.size = 2 ^ 30 := by
    have hcut := rerunAfter_size
    rw [hf] at hcut
    exact Option.some.inj hcut
  have hbefore : (File.empty.resize (2 ^ 61)).size = 2 ^ 61 := rfl
  omega

end LuoYun

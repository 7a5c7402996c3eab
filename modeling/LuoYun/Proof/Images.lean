import LuoYun.Proof.Disks

/-!
# The images that are extracted

`__domain_run` checks the appliance under its lock and extracts it later, without the lock. Two
things may come between. An instance that is not new and has a directory, but no disk in it, skips
the check. And another request may put a different file in the place of the checked one.

A thread remembers, as ghost values, whether it has entered the section of the appliance, which
check of its own still stands, and every content that it has checked. In the runs in which neither
of the two happens, whatever is extracted has been checked.
-/

namespace LuoYun

/-- What a thread has done about its appliance: it has entered the section, and the check that still
stands, with the appliance and the checksum. -/
structure AppMark where
  entered : Bool := false
  fresh : Option (Int × Bytes) := none

/-- The mark, and the contents for which a checksum has succeeded. -/
structure ImageGhost where
  mark : AppMark := {}
  verified : List (Bytes × File) := []

/-- A check stands until the thread changes the file itself, extracts it, or gives the instance
back. -/
def AppMark.after (cfg : NodeConfig) (m : AppMark) (op : NodeOp) (x : Int) : AppMark :=
  match op with
  | .checksum app sum => if x = 0 then { m with fresh := some (app, sum) } else m
  | .decompress .. => { m with fresh := none }
  | .accessPut dir => if dir = cfg.insDataDir then { m with fresh := none } else m
  | .accessDir dir => if dir = cfg.appDataDir then { m with entered := true } else m
  | _ =>
    match m.fresh with
    | some (app, _) => if .appFile app ∈ op.writes then { m with fresh := none } else m
    | none => m

/-- A checksum that succeeds is noted with the content it was computed of. -/
def watchImage (cfg : NodeConfig) (s : NodeFs) (g : ImageGhost) (op : NodeOp)
    (x : Int) : ImageGhost where
  mark := g.mark.after cfg op x
  verified :=
    match op with
    | .checksum app sum =>
      if x = 0 then ((s.entry (.appFile app)).map fun f => (sum, f)).toList ++ g.verified
      else g.verified
    | _ => g.verified

/-- The threads of the node, with what they know about the appliances. -/
def imageThreads (cfg : NodeConfig) : Threads NodeOp Int Unit NodeRequest ImageGhost NodeFs where
  body := instanceControlFunc cfg
  ghost := {}
  does := NodeFs.does
  watch := watchImage cfg

abbrev ImagePool := Pool NodeOp Int Unit NodeRequest ImageGhost NodeFs

/-- A thread that is about to extract the file of an appliance has checked that very content, in the
same call and with the checksum of its request. -/
def ImagesVerified (P : ImagePool) : Prop :=
  ∀ i t app ins f, P.thread i = some t → t.prog.nextCall = some (.decompress app ins) →
    P.shared.entry (.appFile app) = some f → (t.request.appChecksum.getD [], f) ∈ t.ghost.verified

/-- The request starts the instance. -/
def NodeRequest.IsRun (ci : NodeRequest) : Prop :=
  ci.reqAction = LyA.nodeRunInstance ∨ ci.reqAction = LyA.nodeFullrebootInstance

/-- The step keeps clear of the two gaps: a run that has not entered the section of the appliance
finds the disk in place when it looks, and no thread changes the file of an appliance while the
check of another one stands. -/
def CheckStands (P : ImagePool) (i : Nat) (op : NodeOp) : Prop :=
  (∀ t id, P.thread i = some t → t.request.IsRun → op = .access (osPath id) →
    t.ghost.mark.entered = false →
      (P.shared.entry (osPath id)).isSome = true) ∧
    ∀ j t app sum, j ≠ i → P.thread j = some t → t.ghost.mark.fresh = some (app, sum) →
      .appFile app ∉ op.writes

/-! ## Each thread by itself -/

/-- The check that a request needs. -/
def NodeRequest.key (ci : NodeRequest) : Int × Bytes := (ci.appId, ci.appChecksum.getD [])

/-- What a thread is extracting has a check that stands. -/
def imageMonitor (cfg : NodeConfig) (r : NodeRequest) : Monitor NodeOp Int ImageGhost where
  ok := fun g op => ∀ app ins, op = .decompress app ins → app = r.appId ∧ g.mark.fresh = some r.key
  next := fun g op x g' =>
    (r.IsRun → ∀ id, op = .access (osPath id) → g.mark.entered = false → x = 0) ∧
    g'.mark = g.mark.after cfg op x

theorem insDataDir_ne_appDataDir (cfg : NodeConfig) : cfg.insDataDir ≠ cfg.appDataDir := by
  intro h
  have hsuffix : cstr "/instances" = cstr "/appliances" := List.append_cancel_left h
  exact absurd hsuffix (by decide)

/-- A call that does nothing to a mark whose file is not among the paths. -/
def Markless (cfg : NodeConfig) (paths : List NodePath) (op : NodeOp) : Prop :=
  (match op with
    | .checksum .. | .decompress .. | .accessPut _ => False
    | .accessDir dir => dir ≠ cfg.appDataDir
    | _ => True) ∧ ∀ p ∈ op.writes, p ∈ paths

theorem Within.markless {cfg : NodeConfig} {paths : List NodePath} {op : NodeOp}
    (h : Within paths op) :
    Markless cfg paths op := by
  refine ⟨?_, h.2⟩
  have hplain := h.1
  cases op <;> trivial

theorem Markless.mono {cfg : NodeConfig} {paths paths' : List NodePath} {op : NodeOp}
    (h : Markless cfg paths op) (hsub : ∀ p ∈ paths, p ∈ paths') : Markless cfg paths' op :=
  ⟨h.1, fun p hp => hsub p (h.2 p hp)⟩

/-- The file of the check that stands is not among the paths. -/
def AppMark.Clear (m : AppMark) (paths : List NodePath) : Prop :=
  ∀ app sum, m.fresh = some (app, sum) → NodePath.appFile app ∉ paths

theorem AppMark.after_markless {cfg : NodeConfig} {m : AppMark}
    {paths : List NodePath} {op : NodeOp}
    (h : Markless cfg paths op) (hclear : m.Clear paths) (x : Int) : m.after cfg op x = m := by
  have hwrite : (match m.fresh with
      | some (app, _) => if .appFile app ∈ op.writes then { m with fresh := none } else m
      | none => m) = m := by
    split
    next app sum hfresh => rw [if_neg fun hw => hclear app sum hfresh (h.2 _ hw)]
    · rfl
  obtain ⟨hop, -⟩ := h
  cases op with
  | checksum | decompress | accessPut => exact absurd hop id
  | accessDir dir => exact if_neg hop
  | _ => exact hwrite

section

variable {cfg : NodeConfig} {r : NodeRequest} {g : ImageGhost} {α : Type} {p : NodeProg α}

/-- A part that leaves the mark as it is. -/
theorem markless_safe {paths : List NodePath} (hp : p.All (Markless cfg paths))
    (hclear : g.mark.Clear paths) :
    Safe (imageMonitor cfg r) (fun g' _ => g'.mark = g.mark) p g := by
  refine Safe.of_all (P := Markless cfg paths)
    (I := fun g' : ImageGhost => g'.mark = g.mark) ?_ ?_ hp rfl
  · rintro g' op - ⟨hop, -⟩ app ins rfl
    exact absurd hop id
  · rintro g' op x g'' hg' hop ⟨-, hmark⟩
    rw [hmark, AppMark.after_markless hop (hg' ▸ hclear), hg']

/-- `decompress`. -/
def NodeOp.extracts : NodeOp → Bool
  | .decompress .. => true
  | _ => false

/-- A call that does not extract. -/
def NoExtract (op : NodeOp) : Prop := ∀ app ins, op ≠ .decompress app ins

/-- A call that does not extract is always in order. -/
theorem call_safe {op : NodeOp} {next : Int → NodeProg α} {Q : ImageGhost → α → Prop}
    (hop : op.extracts = false)
    (h : ∀ x g', (imageMonitor cfg r).next g op x g' → Safe (imageMonitor cfg r) Q (next x) g') :
    Safe (imageMonitor cfg r) Q (.call op next) g := by
  refine Safe.call ?_ h
  rintro app ins rfl
  cases hop

/-- A part that extracts nothing. -/
theorem noExtract_safe (hp : p.All NoExtract) :
    Safe (imageMonitor cfg r) (fun _ _ => True) p g := by
  refine Safe.of_all (P := NoExtract) (I := fun _ => True) ?_
    (fun _ _ _ _ _ _ _ => trivial) hp trivial
  rintro g' op - hop app ins rfl
  exact absurd rfl (hop app ins)

theorem Within.noExtract {paths : List NodePath} {op : NodeOp}
    (h : Within paths op) : NoExtract op := by
  rintro app ins rfl
  exact absurd h.1 (by simp [NodeOp.plain])

theorem TouchesOnly.noExtract {op : NodeOp} (h : TouchesOnly [] op) : NoExtract op := by
  rintro app ins rfl
  exact absurd (h (osPath ins) (by simp [NodeOp.writes])) (by simp)

end

/-! ## The section of the appliance -/

section

variable {cfg : NodeConfig} {r ci : NodeRequest} {g : ImageGhost}

theorem linkLoop_markless (path l : Bytes) (fuel : Nat) (warn cnt : Int) :
    (linkLoop path l fuel warn cnt).All (Markless cfg []) := by
  induction fuel generalizing warn cnt with
  | zero => trivial
  | succ fuel ih =>
    unfold linkLoop
    simp only [Prog.bind_eq, Prog.pure_eq, Prog.ask_bind, Prog.all_call, Prog.all_ite]
    exact ⟨⟨trivial, TouchesOnly.of_nil rfl⟩, fun x =>
      ⟨fun _ => trivial, fun _ => ⟨⟨trivial, TouchesOnly.of_nil rfl⟩, fun _ => ⟨fun _ => trivial,
      fun _ => ih _ _⟩⟩⟩⟩

theorem fileLockGet_markless (dir ext : Bytes) (hdir : dir ≠ cfg.appDataDir) :
    (fileLockGet dir ext).All (Markless cfg []) := by
  simp only [fileLockGet, Prog.bind_eq, Prog.pure_eq, Prog.ask_bind, Prog.all_call, Prog.all_ite,
    Prog.all_ret]
  exact ⟨⟨hdir, TouchesOnly.of_nil rfl⟩, fun x =>
    ⟨fun _ => trivial, fun _ => ⟨fun _ => trivial, fun _ => ⟨⟨trivial, TouchesOnly.of_nil rfl⟩,
    fun y =>
      ⟨fun _ => trivial, fun _ => ⟨fun _ => trivial, fun _ => linkLoop_markless _ _ _ _ _⟩⟩⟩⟩⟩⟩

/-- Giving the appliance back does not end the check. -/
theorem putAppliance_safe (ext : Bytes) :
    Safe (imageMonitor cfg r) (fun g' _ => g'.mark = g.mark)
      (fileLockPut cfg.appDataDir ext) g := by
  simp only [fileLockPut, Prog.bind_eq, Prog.pure_eq, Prog.ask_bind]
  refine call_safe rfl fun x g1 h1 => ?_
  have hmark : g1.mark = g.mark := by
    rw [h1.2]
    exact if_neg (insDataDir_ne_appDataDir cfg).symm
  split
  · exact hmark
  split
  · exact hmark
  · refine call_safe rfl fun y g2 h2 => ?_
    have hop : Markless cfg [] (.unlinkLock (lockPath cfg.appDataDir ext)) :=
      ⟨trivial, TouchesOnly.of_nil rfl⟩
    have hclear : g1.mark.Clear [] := fun app sum _ => List.not_mem_nil
    have hmark2 : g2.mark = g.mark := by rw [h2.2, AppMark.after_markless hop hclear, hmark]
    split <;> exact hmark2

/-- A check that succeeds stands. -/
theorem checksum_stands {x : Int} {g' : ImageGhost} (hci : ci.key = r.key)
    (h : (imageMonitor cfg r).next g (.checksum ci.appId (ci.appChecksum.getD [])) x g')
    (hx : x = 0) :
    g'.mark.fresh = some r.key := by
  rw [h.2, ← hci]
  simp [AppMark.after, hx, NodeRequest.key]

theorem appNew_safe (hci : ci.key = r.key) :
    Safe (imageMonitor cfg r) (fun g' b => b = false → g'.mark.fresh = some r.key)
      (appNew ci) g := by
  simp only [appNew, sendResponse, Prog.bind_eq, Prog.pure_eq, Prog.ask_bind, Prog.call_bind,
    Prog.ret_bind]
  refine call_safe rfl fun x g1 _ => ?_
  split
  · exact fun h => absurd h (by decide)
  · refine call_safe rfl fun _ g2 _ => call_safe rfl fun y g3 h3 => ?_
    split
    next hy => exact fun _ => checksum_stands hci h3 hy
    · exact call_safe rfl fun _ g4 _ h => absurd h (by decide)

theorem appDownload_safe (hci : ci.key = r.key) :
    Safe (imageMonitor cfg r) (fun g' b => b = true → g'.mark.fresh = some r.key)
      (appDownload ci) g := by
  have hremove : ∀ g1, Safe (imageMonitor cfg r) (fun g' b => b = true → g'.mark.fresh = some r.key)
      (.call (.unlink (.appFile ci.appId)) fun _ => .ret false : NodeProg Bool) g1 :=
    fun g1 => call_safe rfl fun _ g2 _ h => absurd h (by decide)
  have hdownload : (lyutilDownload ci.appId).All NoExtract :=
    (lyutilDownload_within ci.appId).mono fun _ h => h.noExtract
  simp only [appDownload, sendResponse, Prog.bind_eq, Prog.pure_eq, Prog.ask_bind, Prog.call_bind,
    Prog.ret_bind]
  refine call_safe rfl fun _ g1 _ => (noExtract_safe hdownload).bind fun g2 x _ => ?_
  split
  · exact hremove g2
  · refine call_safe rfl fun y g3 _ => ?_
    split
    · exact hremove g3
    · refine call_safe rfl fun size g4 _ => ?_
      split
      · exact hremove g4
      split
      · exact hremove g4
      · refine call_safe rfl fun _ g5 _ => call_safe rfl fun z g6 h6 => ?_
        split
        · exact hremove g6
        next hz => exact fun _ => checksum_stands hci h6 (by omega)

/-- Whoever comes through the section has a check that stands. -/
theorem appSection_checks (hci : ci.key = r.key) :
    Safe (imageMonitor cfg r) (fun g' failed => failed = none → g'.mark.fresh = some r.key)
      (appSection cfg ci) g := by
  have hget : (fileLockGet cfg.appDataDir (idstr ci.appId)).All NoExtract :=
    (fileLockGet_touchesOnly _ _).mono fun _ h => h.noExtract
  have hput : (fileLockPut cfg.appDataDir (idstr ci.appId)).All NoExtract :=
    (fileLockPut_touchesOnly _ _).mono fun _ h => h.noExtract
  have hdir : (makeAppDir ci.appId).All NoExtract := by
    simp [makeAppDir, NoExtract]
  have hprepare : ∀ g1, Safe (imageMonitor cfg r)
      (fun g' failed => failed = none → g'.mark.fresh = some r.key)
      (appPrepare ci) g1 := by
    intro g1
    simp only [appPrepare, Prog.bind_eq, Prog.pure_eq]
    refine (noExtract_safe hdir).bind fun g2 b _ => ?_
    split
    · exact fun h => absurd h (Option.some_ne_none _)
    · refine (appNew_safe hci).bind fun g3 b hb => ?_
      split
      · refine (appDownload_safe hci).bind fun g4 b hb => ?_
        split
        · exact fun h => absurd h (Option.some_ne_none _)
        next hb' => exact fun _ => hb (by simpa using hb')
      next hb' => exact fun _ => hb (by simpa using hb')
  simp only [appSection, sendResponse, Prog.bind_eq, Prog.pure_eq, Prog.ask_bind, Prog.call_bind,
    Prog.ret_bind]
  refine call_safe rfl fun _ g1 _ => (noExtract_safe hget).bind fun g2 x _ => ?_
  split
  · exact fun h => absurd h (Option.some_ne_none _)
  · refine (hprepare g2).bind fun g3 failed h3 => ?_
    split
    · exact (noExtract_safe hput).bind fun _ _ _ h => absurd h (Option.some_ne_none _)
    · refine (putAppliance_safe _).bind fun g4 y h4 => ?_
      split
      · exact fun h => absurd h (Option.some_ne_none _)
      · exact fun _ => h4 ▸ h3 rfl

/-! ## The handlers -/

theorem appStage_checks (hci : ci.key = r.key) :
    Safe (imageMonitor cfg r) (fun g' failed => failed = none →
      g'.mark.fresh = some r.key ∨ g'.mark = g.mark) (appStage cfg ci) g := by
  have hneeded : (appNeeded ci).All (Markless cfg []) := by
    simp [appNeeded, Markless, NodeOp.writes]
  have hclear : g.mark.Clear [] := fun app sum _ => List.not_mem_nil
  simp only [appStage, Prog.bind_eq, Prog.pure_eq]
  refine (markless_safe hneeded hclear).bind fun g1 b h1 => ?_
  split
  · exact (appSection_checks hci).mono fun g' failed h hnone => .inl (h hnone)
  · exact fun _ => .inr h1

theorem insPaths_clear (m : AppMark) (id : Int) : m.Clear (insPaths id) := by
  intro app sum _ hmem
  simp [insPaths] at hmem

theorem insExtract_checks (hci : ci.key = r.key) (hfresh : g.mark.fresh = some r.key) :
    Safe (imageMonitor cfg r) (fun _ _ => True) (insExtract ci) g := by
  have hcreat : Markless cfg (insPaths ci.insId) (.creat (osPath ci.insId)) :=
    ⟨trivial, by simp [NodeOp.writes, insPaths]⟩
  have hrest : ∀ (x : Int), (if x ≠ 0 then .call (.unlink (osPath ci.insId)) fun _ => .ret false
      else .call (.access (osPath ci.insId)) fun y => if y ≠ 0 then .ret false else .ret true :
        NodeProg Bool).All NoExtract := by
    intro x
    simp [NoExtract]
  simp only [insExtract, Prog.bind_eq, Prog.pure_eq, Prog.ask_bind]
  refine (markless_safe ((sendResponse_within _).mono fun _ h => h.markless)
    (fun _ _ _ => List.not_mem_nil)).bind fun g1 _ h1 => ?_
  refine call_safe rfl fun x g2 h2 => ?_
  have hmark : g2.mark = g.mark := by
    rw [h2.2, AppMark.after_markless hcreat (insPaths_clear _ _), h1]
  split
  · trivial
  · refine Safe.call ?_ fun y g3 _ => noExtract_safe (hrest y)
    intro app ins hop
    cases hop
    exact ⟨congrArg Prod.fst hci, hmark ▸ hfresh⟩

/-- Without a check the disk is there, and nothing is extracted. -/
theorem insStage_checks (hci : ci.key = r.key) (hrun : r.IsRun)
    (hmark : g.mark.fresh = some r.key ∨ g.mark.entered = false) :
    Safe (imageMonitor cfg r) (fun _ _ => True) (insStage cfg ci) g := by
  have hstart : (startInstance cfg ci).All NoExtract :=
    (startInstance_within cfg ci).mono fun _ h => h.noExtract
  simp only [insStage, Prog.bind_eq, Prog.pure_eq, Prog.ask_bind]
  refine (markless_safe ((insPrepare_within ci).mono fun _ h => h.markless)
    (insPaths_clear _ _)).bind fun g1 b h1 => ?_
  split
  · trivial
  · refine call_safe rfl fun x g2 h2 => ?_
    split
    next hx =>
      have hop : Markless cfg [] (.access (osPath ci.insId)) := ⟨trivial, TouchesOnly.of_nil rfl⟩
      have hg2 : g2.mark = g.mark := by
        rw [h2.2, AppMark.after_markless hop fun _ _ _ => List.not_mem_nil, h1]
      have hfresh : g2.mark.fresh = some r.key := by
        rcases hmark with hfresh | hentered
        · rw [hg2, hfresh]
        · exact absurd (h2.1 hrun ci.insId rfl (h1 ▸ hentered)) hx
      refine (insExtract_checks hci hfresh).bind fun g3 b _ => ?_
      split
      · trivial
      · refine (noExtract_safe hstart).bind fun g4 ret _ => ?_
        split
        · exact (noExtract_safe
            ((domainInstanceClean_within ci.insId false).mono fun _ h => h.noExtract)).bind
            fun _ _ _ => trivial
        · trivial
    · exact noExtract_safe hstart

theorem domainRun_checks (hrun : r.IsRun) (hentered : g.mark.entered = false) :
    Safe (imageMonitor cfg r) (fun _ _ => True) (domainRun cfg r) g := by
  have hclear : ∀ m : AppMark, m.Clear [] := fun m app sum _ => List.not_mem_nil
  have hput : ∀ ci : NodeRequest, (fileLockPut cfg.insDataDir (idstr ci.insId)).All NoExtract :=
    fun ci => (fileLockPut_touchesOnly _ _).mono fun _ h => h.noExtract
  simp only [domainRun, Prog.bind_eq, Prog.pure_eq]
  refine ((markless_safe ((domainRunDataCheck_within cfg r).mono fun _ h => h.markless)
    (hclear _)).returns
    (domainRunDataCheck_returns cfg r)).bind fun g1 checked h1 => ?_
  obtain ⟨h1, hchecked⟩ := h1
  split
  · trivial
  next ci =>
    obtain ⟨-, -, -, happ, hsum⟩ := hchecked ci rfl
    have hci : ci.key = r.key := by rw [NodeRequest.key, NodeRequest.key, happ, hsum]
    refine (markless_safe ((sendResponse_within _).mono fun _ h => h.markless) (hclear _)).bind
      fun g2 _ h2 => ?_
    refine (markless_safe (fileLockGet_markless _ _ (insDataDir_ne_appDataDir cfg)) (hclear _)).bind
      fun g3 x h3 => ?_
    have hg3 : g3.mark = g.mark := by rw [h3, h2, h1]
    split
    · trivial
    · refine Safe.bind (Q := fun _ _ => True) ?_ fun g4 ret _ =>
        (noExtract_safe (hput ci)).bind fun _ _ _ => trivial
      simp only [domainRunLocked, Prog.bind_eq, Prog.pure_eq, Prog.ask_bind]
      refine call_safe rfl fun y g5 h5 => ?_
      have hop : Markless cfg [] (.domainActive ci.insId) := ⟨trivial, TouchesOnly.of_nil rfl⟩
      have hg5 : g5.mark = g.mark := by rw [h5.2, AppMark.after_markless hop (hclear _), hg3]
      split
      · trivial
      · refine (appStage_checks hci).bind fun g6 failed h6 => ?_
        split
        · trivial
        · refine insStage_checks hci hrun ?_
          rcases h6 rfl with h | h
          · exact .inl h
          · exact .inr (by rw [h, hg5, hentered])

theorem withInsLock_noExtract {id : Int} {locked : NodeProg Int} (hlocked : locked.All NoExtract) :
    (withInsLock cfg id locked).All NoExtract := by
  simp only [withInsLock, Prog.bind_eq, Prog.pure_eq]
  refine ((fileLockGet_touchesOnly _ _).mono fun _ h => h.noExtract).bind fun r => ?_
  split
  · trivial
  · refine hlocked.bind fun ret => ?_
    exact ((fileLockPut_touchesOnly _ _).mono fun _ h => h.noExtract).bind fun _ => trivial

/-- Stopping does nothing about an appliance. -/
theorem domainStop_idle : Safe (imageMonitor cfg r)
    (fun g' _ => g'.mark.entered = false ∧ g'.mark.fresh = none) (domainStop cfg r) {} := by
  have hget : (fileLockGet cfg.stopLockDir (idstr r.insId)).All (Markless cfg []) := by
    rw [stopLockDir_eq]
    exact fileLockGet_markless _ _ (insDataDir_ne_appDataDir cfg)
  -- the lock that is given back ends a check, but there is none
  have hput : ∀ g1 : ImageGhost, g1.mark = {} → Safe (imageMonitor cfg r) (fun g' _ => g'.mark = {})
      (fileLockPut cfg.stopLockDir (idstr r.insId)) g1 := by
    intro g1 h1
    simp only [fileLockPut, Prog.bind_eq, Prog.pure_eq, Prog.ask_bind]
    refine call_safe rfl fun x g2 h2 => ?_
    have hmark : g2.mark = {} := by
      rw [h2.2, h1]
      simp [AppMark.after]
    split
    · exact hmark
    split
    · exact hmark
    · refine call_safe rfl fun y g3 h3 => ?_
      have hmark3 : g3.mark = {} := by
        rw [h3.2, hmark]
        rfl
      split <;> exact hmark3
  have hlock : ∀ g1 : ImageGhost, g1.mark = {} →
      Safe (imageMonitor cfg r) (fun g' _ => g'.mark = {})
      (withInsLock cfg r.insId (domainStopLocked r.insId)) g1 := by
    intro g1 h1
    simp only [withInsLock, Prog.bind_eq, Prog.pure_eq]
    refine (markless_safe hget fun _ _ _ => List.not_mem_nil).bind fun g2 x h2 => ?_
    split
    · exact h2.trans h1
    · refine (markless_safe ((domainStopLocked_within r.insId).mono fun _ h => h.markless)
        fun _ _ _ => List.not_mem_nil).bind fun g3 ret h3 => ?_
      exact (hput g3 (h3.trans (h2.trans h1))).bind fun _ _ h => h
  refine Safe.mono (Q := fun g' _ => g'.mark = {}) ?_ fun g' _ h => by simp [h]
  simp only [domainStop, Prog.bind_eq, Prog.pure_eq, Prog.ask_bind]
  split
  · rfl
  · refine (markless_safe ((sendResponse_within _).mono fun _ h => h.markless)
      (fun _ _ _ => List.not_mem_nil)).bind fun g1 _ h1 => ?_
    refine (hlock g1 h1).bind fun g2 ret h2 => ?_
    split
    · refine call_safe rfl fun x g3 h3 => ?_
      have hop : Markless cfg [] .sendReport := ⟨trivial, TouchesOnly.of_nil rfl⟩
      exact h3.2.trans ((AppMark.after_markless hop (fun _ _ _ => List.not_mem_nil) x).trans h2)
    · exact h2

/-- Every request. -/
theorem instanceControlFunc_checks :
    Safe (imageMonitor cfg r) (fun _ _ => True) (instanceControlFunc cfg r) {} := by
  have hreply : ∀ ret, (controlReply r ret).All NoExtract :=
    fun ret => (controlReply_within r ret).mono fun _ h => h.noExtract
  have hstop : (domainStop cfg r).All NoExtract :=
    (domainStop_touchesOnly cfg r).mono fun _ h => h.noExtract
  have hsend : ∀ status, (sendResponse status).All NoExtract :=
    fun status => (sendResponse_within status).mono fun _ h => h.noExtract
  have hreboot : (domainAcpireboot cfg r).All NoExtract := by
    simp only [domainAcpireboot, Prog.bind_eq, Prog.pure_eq, Prog.all_ite]
    refine ⟨fun _ => trivial, fun _ => (hsend _).bind fun _ => withInsLock_noExtract ?_⟩
    exact (domainAcpirebootLocked_within r.insId).mono fun _ h => h.noExtract
  have hdestroy : (domainDestroy cfg r).All NoExtract := by
    simp only [domainDestroy, Prog.pure_eq, Prog.all_ite]
    refine ⟨fun _ => trivial, fun _ => ⟨fun _ => trivial, fun _ => withInsLock_noExtract ?_⟩⟩
    exact (domainDestroyLocked_within r.insId).mono fun _ h => h.noExtract
  simp only [instanceControlFunc, Prog.bind_eq, Prog.pure_eq]
  split
  next hact => exact (domainRun_checks (.inl hact) rfl).bind fun _ ret _ =>
    noExtract_safe (hreply ret)
  split
  · exact noExtract_safe (hstop.bind hreply)
  split
  · exact noExtract_safe (hreboot.bind hreply)
  split
  next hact =>
    refine Safe.bind (Q := fun _ _ => True) ?_ fun _ ret _ => noExtract_safe (hreply ret)
    simp only [domainFullreboot, Prog.bind_eq, Prog.pure_eq]
    refine domainStop_idle.bind fun g1 ret h1 => ?_
    split
    · refine (markless_safe ((sendResponse_within _).mono fun _ h => h.markless)
        (fun _ _ _ => List.not_mem_nil)).bind fun g2 _ h2 => ?_
      exact domainRun_checks (.inr hact) (h2 ▸ h1.1)
    · trivial
  split
  · exact noExtract_safe (hdestroy.bind hreply)
  split
  · exact noExtract_safe
      (((domainQuery_within cfg r).mono fun _ h => h.noExtract).bind fun _ => trivial)
  · exact noExtract_safe (hreply (-1))

end

/-! ## All threads -/

/-- The pools that are reached by steps that keep clear of the two gaps. -/
def ImageReach (cfg : NodeConfig) : ImagePool → Prop :=
  (imageThreads cfg).Reach fun P i op _ => CheckStands P i op

/-- A check that stands is one of the present content. -/
def FreshInv (P : ImagePool) : Prop :=
  ∀ i t app sum, P.thread i = some t → t.ghost.mark.fresh = some (app, sum) →
    ∃ f, P.shared.entry (.appFile app) = some f ∧ (sum, f) ∈ t.ghost.verified

/-- What is left of a check after a call of the same thread: it is the old one and its file is
untouched, or the call was the check. -/
theorem after_fresh {cfg : NodeConfig} {m : AppMark} {op : NodeOp} {x app : Int} {sum : Bytes}
    (h : (m.after cfg op x).fresh = some (app, sum)) :
    m.fresh = some (app, sum) ∧ .appFile app ∉ op.writes ∨ op = .checksum app sum ∧ x = 0 := by
  cases op with
  | checksum a c =>
    simp only [AppMark.after] at h
    split at h
    next hx =>
      cases h
      exact .inr ⟨rfl, hx⟩
    · exact .inl ⟨h, by simp [NodeOp.writes]⟩
  | decompress => cases h
  | accessPut dir =>
    simp only [AppMark.after] at h
    split at h
    · cases h
    · exact .inl ⟨h, by simp [NodeOp.writes]⟩
  | accessDir dir =>
    simp only [AppMark.after] at h
    split at h <;> exact .inl ⟨h, by simp [NodeOp.writes]⟩
  | _ =>
    simp only [AppMark.after] at h
    split at h
    next a c hfresh =>
      split at h
      · cases h
      next hw =>
        rw [hfresh] at h
        cases h
        exact .inl ⟨hfresh, hw⟩
    next hnone => exact absurd (hnone.symm.trans h) (by simp)

theorem freshInv_reach {cfg : NodeConfig} {P : ImagePool} (hP : ImageReach cfg P) : FreshInv P := by
  induction hP with
  | start s => exact fun i t app sum hi => nomatch hi
  | spawn r hP hfree ih =>
    intro i t app sum hi hfresh
    rcases Pool.set_cases hi with ⟨-, rfl⟩ | ⟨-, hj⟩
    · cases hfresh
    · exact ih i t app sum hj hfresh
  | @call P i r op k g x s hP hcall hdoes hmeets ih =>
    intro j t app sum hj hfresh
    rcases Pool.set_cases hj with ⟨-, rfl⟩ | ⟨hne, hjP⟩
    · -- the thread that makes the call
      rcases after_fresh hfresh with ⟨hold, hw⟩ | ⟨rfl, rfl⟩
      · obtain ⟨f, hf, hmem⟩ := ih i _ app sum hcall hold
        refine ⟨f, (NodeFs.does_frame hdoes hw).trans hf, ?_⟩
        show (sum, f) ∈ (watchImage cfg P.shared g op x).verified
        unfold watchImage
        dsimp only
        split
        · split
          · exact List.mem_append_right _ hmem
          · exact hmem
        · exact hmem
      · obtain ⟨rfl, hsome⟩ := hdoes
        obtain ⟨f, hf⟩ := Option.isSome_iff_exists.mp (hsome rfl)
        refine ⟨f, hf, ?_⟩
        simp [watchImage, imageThreads, hf]
    · -- another thread leaves the file alone
      obtain ⟨f, hf, hmem⟩ := ih j t app sum hjP hfresh
      exact ⟨f, (NodeFs.does_frame hdoes (hmeets.2 j t app sum hne hjP hfresh)).trans hf, hmem⟩

theorem thread_checks {cfg : NodeConfig} {P : ImagePool} (hP : ImageReach cfg P) {i : Nat}
    {t : Thread NodeOp Int Unit NodeRequest ImageGhost} (hi : P.thread i = some t) :
    Safe (imageMonitor cfg t.request) (fun _ _ => True) t.prog t.ghost := by
  refine Threads.Reach.safe (m := imageMonitor cfg) (Q := fun _ _ _ => True) hP
    (fun r => instanceControlFunc_checks) ?_ hi
  intro P i r op k g x s hcall hdoes hmeets
  refine ⟨fun hrun id hop hentered => ?_, rfl⟩
  have hthere := hmeets.1 _ id hcall hrun hop hentered
  subst hop
  exact hdoes.2.mpr hthere

/-- **Only verified images**: in every run that keeps clear of the two gaps, the content that a
thread extracts is one for which it has computed the checksum of its request. -/
theorem images_verified {cfg : NodeConfig} {P : ImagePool} (hP : ImageReach cfg P) :
    ImagesVerified P := by
  intro i t app ins f hi hnext hf
  obtain ⟨req, prog, g⟩ := t
  cases prog with
  | ret a => cases hnext
  | call op k =>
    obtain rfl : op = .decompress app ins := Option.some.inj hnext
    obtain ⟨happ, hfresh⟩ := (thread_checks hP hi).1 app ins rfl
    replace happ : app = req.appId := happ
    subst happ
    obtain ⟨f', hf', hmem⟩ := freshInv_reach hP i _ _ _ hi hfresh
    obtain rfl : f = f' := Option.some.inj (hf.symm.trans hf')
    exact hmem

/-- A request to run instance 1 of appliance 1. -/
def imageRequest (status : Int) : NodeRequest :=
  { reqAction := LyA.nodeRunInstance
    insId := 1
    insStatus := status
    insMac := some (cstr "02:00:00:00:00:01")
    appId := 1
    appName := some (cstr "app")
    appChecksum := some (cstr "d41d8cd98f00b204e9800998ecf8427e")
    appUri := some (cstr "http://clc/dl/app") }

/-- The thread of the request after so many calls, none of which fails that need not. -/
def imagePool (status : Int) (fs : NodeFs) (n : Nat) : ImagePool :=
  let t := (imageThreads lockConfig).advance NodeFs.answer n
    (instanceControlFunc lockConfig (imageRequest status)) {} fs
  (Pool.mk fs fun _ => none).set t.2.2 0 ⟨imageRequest status, t.1, t.2.1⟩

/-- The thread is alone: only the disk has to be there. -/
def diskCheck (g : ImageGhost) (s : NodeFs) (op : NodeOp) : Bool :=
  match op with
  | .access (.insFile id .os) => g.mark.entered || (s.entry (osPath id)).isSome
  | _ => true

theorem imagePool_reach {status : Int} {fs : NodeFs} {n : Nat}
    (hok : (imageThreads lockConfig).advanceOk NodeFs.answer
    diskCheck n (instanceControlFunc lockConfig (imageRequest status)) {} fs = true) :
    ImageReach lockConfig (imagePool status fs n) := by
  have hspawn : ImageReach lockConfig ((Pool.mk fs fun _ => none).set fs 0
      ⟨imageRequest status, instanceControlFunc lockConfig (imageRequest status), {}⟩) :=
    .spawn (imageRequest status) (.start _) rfl
  have hreach := Threads.Reach.advance NodeFs.does_answer ?_ n hspawn Pool.set_self
    (fun j hj => Pool.set_ne hj) hok
  · rwa [Pool.set_set] at hreach
  · intro P g op k hi halone hcheck
    refine ⟨?_, fun j t app sum hj hjP => absurd (halone j hj) (by simp [hjP])⟩
    rintro t id hiP - rfl hentered
    obtain rfl := Option.some.inj (hi.symm.trans hiP)
    simpa [diskCheck, show g.mark.entered = false from hentered] using hcheck

theorem images_verified_new :
    ((imagePool DomainS.new {} 27).thread 0).bind (fun t => t.prog.nextCall) =
      some (.decompress 1 1) ∧ ImagesVerified (imagePool DomainS.new {} 27) :=
  ⟨rfl, images_verified (imagePool_reach (rfl))⟩

/-- The directory of the instance without a disk, and some file in the place of the appliance. -/
def gapFs : NodeFs :=
  (({} : NodeFs).put (.insDir 1) (some .empty)).put (.appFile 1) (some .empty)

theorem gap_thread : ((imagePool DomainS.stop gapFs 10).thread 0).map
    (fun t => (t.prog.nextCall, t.ghost.verified.length)) =
    some (some (.decompress 1 1), 0) := by
  rfl

theorem gap_file : ((imagePool DomainS.stop gapFs 10).shared.entry (.appFile 1)).isSome = true := by
  rfl

/-- An instance that is not new and has lost its disk is given whatever lies in the place of the
appliance. -/
theorem images_unverified : (imageThreads lockConfig).Reach (fun _ _ _ _ => True)
    (imagePool DomainS.stop gapFs 10) ∧
    ¬ ImagesVerified (imagePool DomainS.stop gapFs 10) := by
  constructor
  · have hspawn : (imageThreads lockConfig).Reach (fun _ _ _ _ => True)
        ((Pool.mk gapFs fun _ => none).set gapFs 0
        ⟨imageRequest DomainS.stop,
          instanceControlFunc lockConfig (imageRequest DomainS.stop), {}⟩) :=
      .spawn (imageRequest DomainS.stop) (.start _) rfl
    have hreach := Threads.Reach.advance (c := fun _ _ _ => true) NodeFs.does_answer
      (fun _ _ _ _ _ _ _ => trivial) 10
      hspawn Pool.set_self (fun j hj => Pool.set_ne hj) (rfl)
    rwa [Pool.set_set] at hreach
  · intro h
    obtain ⟨t, ht, hpair⟩ := Option.map_eq_some_iff.mp gap_thread
    obtain ⟨hnext, hverified⟩ := Prod.mk.inj hpair
    obtain ⟨f, hf⟩ := Option.isSome_iff_exists.mp gap_file
    have hmem := h 0 t 1 1 f ht hnext hf
    rw [List.length_eq_zero_iff.mp hverified] at hmem
    cases hmem

end LuoYun

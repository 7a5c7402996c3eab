import LuoYun.Compute.Domain

/-!
# What the parts of the handlers may touch

For each part of the handlers, the files that its calls may change. A part that makes plain calls
only takes no lock and neither checks nor extracts an appliance, so a statement about the locks, the
disks or the appliances passes over it in one step.
-/

namespace LuoYun

/-- The paths that a call may change. -/
def NodeOp.writes : NodeOp → List NodePath
  | .mkdir p | .rmdir p | .creat p | .truncate p _ | .unlink p => [p]
  | .toTrash id file => [.insFile id file, .trash id file]
  | .downloadOpen app | .download app => [.appFile app]
  | .decompress _ ins => [.insFile ins .os]
  | .system ins .cpKernel => [.insFile ins .kernel]
  | .system ins .cpInitrd => [.insFile ins .initrd]
  | .iniOpen ins | .iniPrint ins | .iniClose ins => [.insFile ins .conf]
  | _ => []

/-- A call that has nothing to do with a lock or with the check or the extraction of an appliance.
-/
def NodeOp.plain : NodeOp → Bool
  | .accessDir _ | .link .. | .unlinkLock _ | .accessPut _ | .checksum .. | .decompress .. => false
  | _ => true

/-- A plain call that changes none but these paths. -/
def Within (paths : List NodePath) (op : NodeOp) : Prop :=
  op.plain = true ∧ ∀ p ∈ op.writes, p ∈ paths

theorem Within.mono {paths paths' : List NodePath} {op : NodeOp} (h : Within paths op)
    (hsub : ∀ p ∈ paths, p ∈ paths') : Within paths' op :=
  ⟨h.1, fun p hp => hsub p (h.2 p hp)⟩

theorem within_of_nil {paths : List NodePath} {op : NodeOp} (hplain : op.plain = true)
    (hwrites : op.writes = []) :
    Within paths op :=
  ⟨hplain, by simp [hwrites]⟩

/-- Everything else is left alone. -/
theorem NodeFs.does_frame {s s' : NodeFs} {op : NodeOp} {x : Int}
    {p : NodePath} (h : s.does op x s') (hp : p ∉ op.writes) : s'.entry p = s.entry p := by
  cases op with
  | link path linkPath => rcases h with ⟨-, -, rfl⟩ | ⟨-, rfl⟩ <;> rfl
  | unlinkLock linkPath => rcases h with ⟨-, rfl⟩ | ⟨-, rfl⟩ <;> rfl
  | access q | stat q => obtain ⟨rfl, -⟩ := h; rfl
  | checksum app sum => obtain ⟨rfl, -⟩ := h; rfl
  | mkdir q | rmdir q | creat q | unlink q =>
    rcases h with ⟨-, rfl⟩ | ⟨-, rfl⟩
    · exact NodeFs.put_entry_ne _ _ (by simpa [NodeOp.writes] using hp)
    · rfl
  | truncate q size =>
    rcases h with ⟨-, f, -, rfl⟩ | ⟨-, rfl⟩
    · exact NodeFs.put_entry_ne _ _ (by simpa [NodeOp.writes] using hp)
    · rfl
  | toTrash id file =>
    rcases h with ⟨-, rfl⟩ | ⟨-, rfl⟩
    · simp only [NodeOp.writes, List.mem_cons, List.not_mem_nil, or_false, not_or] at hp
      rw [NodeFs.put_entry_ne _ _ hp.2, NodeFs.put_entry_ne _ _ hp.1]
    · rfl
  | downloadOpen app | download app | iniOpen ins | iniPrint ins | iniClose ins
  | decompress app ins =>
    obtain ⟨f, rfl⟩ := h
    exact NodeFs.put_entry_ne _ _ (by simpa [NodeOp.writes] using hp)
  | system ins cmd =>
    cases cmd with
    | cpKernel | cpInitrd =>
      obtain ⟨f, rfl⟩ := h
      exact NodeFs.put_entry_ne _ _ (by simpa [NodeOp.writes] using hp)
    | mount | umount => rw [show s' = s from h]
  | _ => rw [show s' = s from h]

/-! ## The parts -/

section

variable (cfg : NodeConfig) (ci : NodeRequest) (id : Int)

attribute [local simp] NodeOp.plain NodeOp.writes

theorem sendResponse_within (status : Int) : (sendResponse status).All (Within []) := by
  simp [sendResponse, Within]

theorem domainRunDataCheck_within : (domainRunDataCheck cfg ci).All (Within []) := by
  simp [domainRunDataCheck, Within]

/-- What the data check lets through is the request, with its defaults. -/
theorem domainRunDataCheck_returns : (domainRunDataCheck cfg ci).Returns fun r =>
    ∀ ci', r = some ci' →
    ci'.insId = ci.insId ∧ ci'.insStatus = ci.insStatus ∧ ci'.osmJson = ci.osmJson ∧
      ci'.appId = ci.appId ∧
      ci'.appChecksum = ci.appChecksum := by
  have hsome : ∀ ci1 : NodeRequest, ci1.insId = ci.insId ∧ ci1.insStatus = ci.insStatus ∧
      ci1.osmJson = ci.osmJson ∧
      ci1.appId = ci.appId ∧ ci1.appChecksum = ci.appChecksum → ∀ ci',
        some (ci1.withDefaults cfg) = some ci' →
      ci'.insId = ci.insId ∧ ci'.insStatus = ci.insStatus ∧ ci'.osmJson = ci.osmJson ∧
        ci'.appId = ci.appId ∧
        ci'.appChecksum = ci.appChecksum := by
    intro ci1 h ci' heq
    obtain rfl := Option.some.inj heq
    exact h
  simp only [domainRunDataCheck, Prog.bind_eq, Prog.pure_eq, Prog.ask_bind]
  split
  · exact fun ci' h => nomatch h
  split
  · exact fun ci' h => nomatch h
  split
  · exact hsome ci ⟨rfl, rfl, rfl, rfl, rfl⟩
  · intro x
    dsimp only
    split
    · exact fun ci' h => nomatch h
    split
    · exact fun ci' h => nomatch h
    · exact hsome _ ⟨rfl, rfl, rfl, rfl, rfl⟩

theorem lyutilDownload_within (app : Int) : (lyutilDownload app).All (Within [.appFile app]) := by
  simp [lyutilDownload, Prog.ask, Within]

theorem mountImage_within :
    (mountImage cfg ci).All (Within [.insFile ci.insId .kernel, .insFile ci.insId .initrd]) := by
  simp [mountImage, sendResponse, Within]

theorem writeIni_within : (writeIni ci).All (Within [.insFile ci.insId .conf]) := by
  simp [writeIni, Within]

theorem waitActive_within (wait : Nat) : (waitActive id wait).All (Within []) := by
  induction wait with
  | zero => trivial
  | succ wait ih => simpa [waitActive, Within] using ih

theorem waitStopped_within (wait : Nat) : (waitStopped id wait).All (Within []) := by
  induction wait with
  | zero => trivial
  | succ wait ih => simp [waitStopped, Within, ih]

theorem domainStopLocked_within : (domainStopLocked id).All (Within []) := by
  simp only [domainStopLocked, sendResponse, Prog.bind_eq, Prog.pure_eq, Prog.ask_bind,
    Prog.call_bind, Prog.ret_bind, Prog.all_call, Prog.all_ite, Prog.all_ret]
  refine ⟨within_of_nil rfl rfl, fun x =>
    ⟨fun _ => trivial, fun _ => ⟨within_of_nil rfl rfl, fun ret =>
    ⟨fun _ => trivial, fun _ => ⟨within_of_nil rfl rfl, fun _ => ?_⟩⟩⟩⟩⟩
  refine (waitStopped_within id 60).bind fun b => ?_
  simp [Within]

theorem domainAcpirebootLocked_within : (domainAcpirebootLocked id).All (Within []) := by
  simp [domainAcpirebootLocked, Within]

theorem domainStatus_within : (domainStatus id).All (Within []) := by
  simp [domainStatus, Within]

theorem domainQuery_within : (domainQuery cfg ci).All (Within []) := by
  have hstatus := (domainStatus_within ci.insId).bind (f := fun status =>
    (.call (.sendInfo LyS.finishedSuccess status) fun x =>
      if x < 0 then .ret (-1) else .ret 0 : NodeProg Int))
    fun status => by simp [Within]
  simp only [domainQuery, Prog.bind_eq, Prog.pure_eq, Prog.ask_bind, Prog.all_ite]
  exact ⟨fun _ => trivial, fun _ => hstatus⟩

theorem controlReply_within (ret : Int) : (controlReply ci ret).All (Within []) := by
  simp [controlReply, sendResponse, Within]

/-! ## The files of an instance -/

/-- Everything in the directory of an instance, and what goes from there into the trash. -/
def insPaths (id : Int) : List NodePath :=
  [.insDir id, .insFile id .os, .insFile id .conf, .insFile id .storage1,
    .insFile id .kernel, .insFile id .initrd,
    .trash id .os, .trash id .conf, .trash id .storage1, .trash id .kernel, .trash id .initrd]

theorem cleanFiles_within (files : List InsFile) :
    (cleanFiles id files).All (Within (insPaths id)) := by
  induction files with
  | nil => trivial
  | cons file rest ih =>
    have hfile : NodePath.insFile id file ∈ insPaths id ∧ NodePath.trash id file ∈ insPaths id := by
      cases file <;> simp [insPaths]
    simp [cleanFiles, Within, hfile, ih]

theorem domainInstanceClean_within (keepdir : Bool) :
    (domainInstanceClean id keepdir).All (Within (insPaths id)) := by
  simp only [domainInstanceClean, Prog.bind_eq, Prog.pure_eq, Prog.ask_bind]
  refine (cleanFiles_within id _).bind fun b => ?_
  simp [Within, insPaths]

theorem domainDestroyLocked_within : (domainDestroyLocked id).All (Within (insPaths id)) := by
  have hclean := (domainInstanceClean_within id false).bind (f := fun ret =>
    (.call .sendReport fun _ => .ret ret : NodeProg Int)) fun ret => by
      simp [Within]
  simp only [domainDestroyLocked, Prog.bind_eq, Prog.pure_eq, Prog.ask_bind]
  simpa [Within] using hclean

theorem makeInsDir_within : (makeInsDir id).All (Within [.insDir id]) := by
  simp [makeInsDir, Within]

theorem insPrepare_within : (insPrepare ci).All (Within (insPaths ci.insId)) := by
  have hmake : (makeInsDir ci.insId).All (Within (insPaths ci.insId)) :=
    (makeInsDir_within ci.insId).mono fun op h => h.mono (by simp [insPaths])
  have hclean := (domainInstanceClean_within ci.insId true).bind (f := fun ret =>
    if ret = -1 then .ret false else makeInsDir ci.insId) fun ret => by simp [hmake]
  simp only [insPrepare, Prog.bind_eq, Prog.pure_eq, Prog.ask_bind]
  simp [Within] at hclean hmake ⊢
  exact ⟨fun _ x => ⟨fun _ => hclean, fun _ => hmake⟩, fun _ => hmake⟩

/-- The data disk, and its place in the trash. -/
def dataPaths (id : Int) : List NodePath := [.insFile id .storage1, .trash id .storage1]

theorem sizeDisk_within (size : Int) : (sizeDisk id size).All (Within (dataPaths id)) := by
  simp [sizeDisk, Within, dataPaths]

theorem placeDisk_within (diskSize : Nat) (size : Int) (disk : List Bytes) :
    (placeDisk cfg id diskSize size disk).All (Within (dataPaths id)) := by
  simp only [placeDisk, Prog.bind_eq, Prog.pure_eq, Prog.all_ite, Prog.all_ret]
  refine ⟨fun _ => trivial, fun _ => ⟨fun _ => trivial, fun _ => ?_⟩⟩
  split
  · trivial
  · exact (sizeDisk_within id size).bind fun r => by simp

theorem storageEntries_within (diskSize : Nat) (values : List Json) (found : Bool)
    (size : Int) (disk : List Bytes) :
    (storageEntries cfg id diskSize values found size disk).All (Within (dataPaths id)) := by
  induction values generalizing found size disk with
  | nil => trivial
  | cons v rest ih =>
    cases v with
    | object members =>
      simp only [storageEntries, Prog.bind_eq, Prog.pure_eq]
      split
      · trivial
      · split
        · refine (placeDisk_within cfg id diskSize _ disk).bind fun r => ?_
          split
          · trivial
          · exact ih _ _ _
        · exact ih _ _ _
    | _ => trivial

theorem jsonMembers_within (netSize diskSize : Nat) (members : List (Bytes × Json)) (found : Bool)
    (net disk : List Bytes) :
    (jsonMembers cfg id netSize diskSize members found net disk).All (Within (dataPaths id)) := by
  induction members generalizing found net disk with
  | nil => trivial
  | cons m rest ih =>
    obtain ⟨name, value⟩ := m
    simp only [jsonMembers, Prog.bind_eq, Prog.pure_eq]
    split
    · split
      · split
        · trivial
        · exact ih _ _ _
      · trivial
    · split
      · split
        · refine (storageEntries_within cfg id diskSize _ found (-1) disk).bind fun r => ?_
          split
          · trivial
          · exact ih _ _ _
        · trivial
      · exact ih _ _ _

theorem trashDisk_within : (trashDisk cfg id).All (Within (dataPaths id)) := by
  simp [trashDisk, Within, dataPaths]

theorem domainXmlJson_within (json : Bytes) (net : List Bytes) (netSize : Nat)
    (disk : List Bytes) (diskSize : Nat) :
    (domainXmlJson cfg id json net netSize disk diskSize).All (Within (dataPaths id)) := by
  simp only [domainXmlJson, Prog.bind_eq, Prog.pure_eq]
  split
  · refine (jsonMembers_within cfg id netSize diskSize _ false net disk).bind fun r => ?_
    split
    · trivial
    · split
      · trivial
      · exact (trashDisk_within cfg id).bind fun r => by simp
  · trivial

theorem extendOs_within (extsize : Int) : (extendOs id extsize).All (Within [.insFile id .os]) := by
  simp [extendOs, Within]

theorem domainXml_within (ci : NodeCtrlInstance) :
    (domainXml cfg ci).All (Within (insPaths ci.insId)) := by
  have htext : (Prog.ask .xmlText : NodeProg Int).All (Within (insPaths ci.insId)) := by
    simp [Prog.ask, Within]
  simp only [domainXml, Prog.bind_eq, Prog.pure_eq, Prog.ask_bind, Prog.all_ite, Prog.all_call]
  refine ⟨fun _ => trivial, fun _ =>
    ⟨by simp [Within], fun template => ?_⟩⟩
  split
  · trivial
  · refine ((extendOs_within ci.insId _).mono fun op h => h.mono (by simp [insPaths])).bind fun r =>
      ?_
    split
    · trivial
    · split
      · exact htext
      · refine ((domainXmlJson_within cfg ci.insId _ _ _ _ _).mono fun op h =>
          h.mono (by simp [dataPaths, insPaths])).bind fun r => ?_
        split
        · trivial
        · exact htext

theorem prepareImage_within :
    (prepareImage cfg ci).All (Within [.insFile ci.insId .kernel, .insFile ci.insId .initrd]) := by
  simp only [prepareImage, Prog.bind_eq, Prog.pure_eq, Prog.ask_bind, Prog.all_call, Prog.all_ite,
    Prog.all_ret]
  refine ⟨within_of_nil rfl rfl, fun offset =>
    ⟨fun _ => trivial, fun _ => ⟨fun _ => ?_, fun _ => trivial⟩⟩⟩
  exact ⟨within_of_nil rfl rfl, fun x => ⟨fun _ => mountImage_within cfg ci, fun _ => trivial⟩⟩

theorem createDomain_within : (createDomain id).All (Within []) := by
  simp only [createDomain, sendResponse, Prog.bind_eq, Prog.pure_eq, Prog.ask_bind, Prog.call_bind,
    Prog.ret_bind, Prog.all_call, Prog.all_ite, Prog.all_ret]
  refine ⟨within_of_nil rfl rfl, fun _ =>
    ⟨within_of_nil rfl rfl, fun ret => ⟨fun _ => trivial, fun _ => ?_⟩⟩⟩
  exact ⟨within_of_nil rfl rfl, fun _ => (waitActive_within id 20).bind fun _ => trivial⟩

theorem startInstance_within : (startInstance cfg ci).All (Within (insPaths ci.insId)) := by
  simp only [startInstance, Prog.bind_eq, Prog.pure_eq]
  refine ((prepareImage_within cfg ci).mono fun op h => h.mono (by simp [insPaths])).bind fun b =>
    ?_
  split
  · trivial
  · refine ((writeIni_within ci).mono fun op h => h.mono (by simp [insPaths])).bind fun b => ?_
    split
    · trivial
    · refine (domainXml_within cfg _).bind fun r => ?_
      split
      · trivial
      · exact (createDomain_within ci.insId).mono fun op h => h.mono (by simp)

end

end LuoYun

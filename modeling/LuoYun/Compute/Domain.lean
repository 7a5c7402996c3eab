import LuoYun.Compute.DomainXml

/-!
# `handler.c`: the control requests of an instance

Each request runs in a thread of its own, from `__instance_control_func` on. A thread takes the lock
of its instance, which is a link to a file in the directory of the instances, and for a run also the
lock of the appliance.

`__domain_run` is cut where its labels are: `domainRunLocked` is what stands between the lock of the
instance and `out_unlock`, `appSection` is the part under the lock of the appliance, and
`startInstance` is what is followed by `out_insclean`.
-/

namespace LuoYun

namespace LyS

def runningWaiting : Int := 210
def runningDownloadingApp : Int := 211
def runningCheckingApp : Int := 212
def runningExtractingApp : Int := 213
def runningMountingImage : Int := 214
def runningPreparingImage : Int := 215
def runningUnmountingImage : Int := 216
def runningStartingInstance : Int := 221
def runningStopping : Int := 250
def finishedInstanceRunning : Int := 302
def finishedFailureAppDownload : Int := 331
def finishedFailureAppError : Int := 332

end LyS

/-- `NodeCtrlInstance` with the fields that only the node fills in. -/
structure NodeRequest extends NodeCtrlInstance where
  insMac : Option Bytes := none
  appUri : Option Bytes := none
  osmClcip : Option Bytes := none
  osmClcport : Int := 0

/-- `__send_response`; its result is not looked at. -/
def sendResponse (status : Int) : NodeProg Unit := do
  let _ ← Prog.ask (.sendResponse status)

/-! ## The locks -/

/-- The name of a lock. -/
def lockPath (dir ext : Bytes) : Bytes := dir ++ cstr "/.forlock." ++ ext

/-- The loop of `__file_lock_get`. -/
def linkLoop (path linkPath : Bytes) : (fuel : Nat) → (timeWarn timeWarnCnt : Int) → NodeProg Int
  | 0, _, _ => return -1
  | fuel + 1, timeWarn, timeWarnCnt => do
    if 0 ≤ (← Prog.ask (.link path linkPath)) then return 0
    -- someone has the lock already
    let timeWarnCnt := if timeWarn = 0 then timeWarnCnt - 1 else timeWarnCnt
    let timeWarn := if timeWarn = 0 then 30 else timeWarn
    let _ ← Prog.ask .sleep
    if timeWarnCnt ≤ 0 then return -1
    linkLoop path linkPath fuel (timeWarn - 1) timeWarnCnt

/-- `__file_lock_get`. -/
def fileLockGet (lockDir lockExt : Bytes) : NodeProg Int := do
  if (← Prog.ask (.accessDir lockDir)) ≠ 0 then return -1
  let path := lockDir ++ cstr "/.forlock"
  if pathMax ≤ path.length then return -1
  if (← Prog.ask (.creatLock path)) < 0 then return -1
  if pathMax ≤ (lockPath lockDir lockExt).length then return -1
  linkLoop path (lockPath lockDir lockExt) 601 30 20

/-- `__file_lock_put`. -/
def fileLockPut (lockDir lockExt : Bytes) : NodeProg Int := do
  if (← Prog.ask (.accessPut lockDir)) ≠ 0 then return -1
  if pathMax ≤ (lockPath lockDir lockExt).length then return -1
  if (← Prog.ask (.unlinkLock (lockPath lockDir lockExt))) < 0 then return -1
  return 0

/-- `ins_idstr`, `app_idstr` and `idstr`: ten bytes. -/
def idstr (id : Int) : Bytes := snprintf 10 (dec id)

/-- The lock directory of `__domain_stop`, `__domain_acpireboot` and `__domain_destroy`. -/
def NodeConfig.stopLockDir (cfg : NodeConfig) : Bytes :=
  cfg.nodeDataDir ++ cstr "/" ++ cstr "instances"

/-! ## `__domain_run` -/

/-- The defaults of `__domain_run_data_check`. -/
def NodeRequest.withDefaults (ci : NodeRequest) (cfg : NodeConfig) : NodeRequest :=
  { ci with
    insVcpu := if ci.insVcpu = 0 then 1 else ci.insVcpu
    insMem := if ci.insMem = 0 then 256000 else ci.insMem
    osmClcip := some (ci.osmClcip.getD cfg.clcIp)
    osmClcport := if ci.osmClcport = 0 then cfg.clcPort else ci.osmClcport }

/-- `__domain_run_data_check`: the request with its defaults. -/
def domainRunDataCheck (cfg : NodeConfig) (ci : NodeRequest) : NodeProg (Option NodeRequest) := do
  if ci.insMac.isNone ∧ ci.osmJson.isNone then return none
  if ci.appId = 0 ∨ ci.appName.isNone ∨ ci.appChecksum.isNone then return none
  if ci.appUri.isSome then return some (ci.withDefaults cfg)
  if (← Prog.ask .malloc) = 0 then return none
  let uri := cstr "http://" ++ cfg.clcIp ++ cstr "/dl/appliance/appliance_" ++
    ci.appChecksum.getD []
  if 256 ≤ uri.length then return none
  return some ({ ci with appUri := some uri }.withDefaults cfg)

/-- The loop of `__domain_instance_clean`: `false` is a failed `rename`. -/
def cleanFiles (id : Int) : List InsFile → NodeProg Bool
  | [] => return true
  | file :: rest => do
    if (← Prog.ask (.access (.insFile id file))) = 0 then
      if (← Prog.ask (.toTrash id file)) ≠ 0 then return false
    cleanFiles id rest

/-- `__domain_instance_clean`. -/
def domainInstanceClean (id : Int) (keepdir : Bool) : NodeProg Int := do
  if !(← cleanFiles id [.os, .conf, .storage1, .kernel, .initrd]) then return -1
  if keepdir then return 0
  -- not a fatal error
  let _ ← Prog.ask (.rmdir (.insDir id))
  return 0

/-- `lyutil_download`. -/
def lyutilDownload (app : Int) : NodeProg Int := do
  if (← Prog.ask (.downloadOpen app)) < 0 then return -1
  Prog.ask (.download app)

/-- The appliance is downloaded and checked; when something fails the file is removed. -/
def appDownload (ci : NodeRequest) : NodeProg Bool := do
  let path := NodePath.appFile ci.appId
  let remove : NodeProg Bool := do
    let _ ← Prog.ask (.unlink path)
    return false
  sendResponse LyS.runningDownloadingApp
  if (← lyutilDownload ci.appId) ≠ 0 then return (← remove)
  if (← Prog.ask (.access path)) ≠ 0 then return (← remove)
  let size ← Prog.ask (.stat path)
  if size < 0 then return (← remove)
  if size < 1000000 then return (← remove)
  sendResponse LyS.runningCheckingApp
  if (← Prog.ask (.checksum ci.appId (ci.appChecksum.getD []))) ≠ 0 then return (← remove)
  return true

/-- Whether the appliance has to be downloaded. -/
def appNew (ci : NodeRequest) : NodeProg Bool := do
  let path := NodePath.appFile ci.appId
  if (← Prog.ask (.access path)) ≠ 0 then return true
  sendResponse LyS.runningCheckingApp
  if (← Prog.ask (.checksum ci.appId (ci.appChecksum.getD []))) = 0 then return false
  let _ ← Prog.ask (.unlink path)
  return true

/-- The directory of the appliance is made if it is missing. -/
def makeAppDir (app : Int) : NodeProg Bool := do
  if (← Prog.ask (.access (.appDir app))) ≠ 0 then
    if (← Prog.ask (.mkdir (.appDir app))) = -1 then return false
  return true

/-- What is done under the lock of the appliance: the result if it is `goto out_unlock`. -/
def appPrepare (ci : NodeRequest) : NodeProg (Option Int) := do
  if !(← makeAppDir ci.appId) then return some (-1)
  if ← appNew ci then
    if !(← appDownload ci) then return some LyS.finishedFailureAppDownload
  return none

/-- `__domain_run` prepares the appliance: the result if it is `goto out_unlock`. -/
def appSection (cfg : NodeConfig) (ci : NodeRequest) : NodeProg (Option Int) := do
  sendResponse LyS.runningWaiting
  if (← fileLockGet cfg.appDataDir (idstr ci.appId)) < 0 then return some (-1)
  match ← appPrepare ci with
  | some ret =>
    let _ ← fileLockPut cfg.appDataDir (idstr ci.appId)
    return some ret
  | none =>
    if (← fileLockPut cfg.appDataDir (idstr ci.appId)) < 0 then return some (-1)
    return none

/-- The directory of the instance is made if it is missing. -/
def makeInsDir (id : Int) : NodeProg Bool := do
  if (← Prog.ask (.access (.insDir id))) ≠ 0 then
    if (← Prog.ask (.mkdir (.insDir id))) = -1 then return false
  return true

/-- `__domain_run` prepares the directory of the instance: `false` is `goto out_unlock`. -/
def insPrepare (ci : NodeRequest) : NodeProg Bool := do
  if ci.insStatus = DomainS.new then
    if (← Prog.ask (.access (.insDir ci.insId))) = 0 then
      if (← domainInstanceClean ci.insId true) = -1 then return false
  makeInsDir ci.insId

/-- `__domain_run` extracts the disk: `false` is `goto out_insclean`. -/
def insExtract (ci : NodeRequest) : NodeProg Bool := do
  let path := NodePath.insFile ci.insId .os
  sendResponse LyS.runningExtractingApp
  if (← Prog.ask (.creat path)) < 0 then return false
  if (← Prog.ask (.decompress ci.appId ci.insId)) ≠ 0 then
    let _ ← Prog.ask (.unlink path)
    return false
  if (← Prog.ask (.access path)) ≠ 0 then return false
  return true

/-- The name that `mkdtemp` makes; only its length matters. -/
def mountPath : Bytes := cstr "/tmp/LuoYun_XXXXXX"

/-- `cp` from the mounted image. -/
def cpText (cfg : NodeConfig) (id : Int) (file : String) : Bytes :=
  cstr "cp " ++ mountPath ++ cstr "/$(readlink " ++ mountPath ++ cstr "/" ++
    cstr file ++ cstr ") " ++
    cfg.insDataDir ++ cstr "/" ++ dec id ++ cstr "/" ++ cstr file

/-- The image is mounted and kernel and initrd are copied: `false` is `goto out_insclean`, after
`out_umount` once it is mounted. -/
def mountImage (cfg : NodeConfig) (ci : NodeRequest) : NodeProg Bool := do
  let id := ci.insId
  let umount : NodeProg Bool := do
    let _ ← Prog.ask (.system id .umount)
    let _ ← Prog.ask .removeTmp
    return false
  sendResponse LyS.runningMountingImage
  if (← Prog.ask .mkdtemp) = 0 then return false
  let mount := cstr "mount " ++ insPath cfg id "os.img" ++ cstr " " ++ mountPath ++
    cstr " -o loop,offset=0"
  if 1024 ≤ mount.length then
    let _ ← Prog.ask .removeTmp
    return false
  if (← Prog.ask (.system id .mount)) ≠ 0 then
    let _ ← Prog.ask .removeTmp
    return false
  sendResponse LyS.runningPreparingImage
  if 1024 ≤ (cpText cfg id "kernel").length then return (← umount)
  if (← Prog.ask (.system id .cpKernel)) ≠ 0 then return (← umount)
  if 1024 ≤ (cpText cfg id "initrd").length then return (← umount)
  if (← Prog.ask (.system id .cpInitrd)) ≠ 0 then return (← umount)
  sendResponse LyS.runningUnmountingImage
  if (← Prog.ask (.system id .umount)) ≠ 0 then return (← umount)
  let _ ← Prog.ask .removeTmp
  return true

/-- The configuration file is written: `false` is `goto out_insclean`. -/
def writeIni (ci : NodeRequest) : NodeProg Bool := do
  if (← Prog.ask (.iniOpen ci.insId)) < 0 then return false
  if (← Prog.ask (.iniPrint ci.insId)) < 0 then return false
  if (← Prog.ask (.iniClose ci.insId)) ≠ 0 then
    let _ ← Prog.ask (.unlink (.insFile ci.insId .conf))
    return false
  return true

/-- Wait until the domain is active, or as long as `wait`. -/
def waitActive (id : Int) : (wait : Nat) → NodeProg Unit
  | 0 => return ()
  | wait + 1 => do
    if (← Prog.ask (.domainActive id)) ≠ 0 then return ()
    let _ ← Prog.ask .sleep
    waitActive id wait

/-- The image of an instance without a partition table is mounted, unless its kernel is there
already: `false` is `goto out_insclean`. -/
def prepareImage (cfg : NodeConfig) (ci : NodeRequest) : NodeProg Bool := do
  let offset ← Prog.ask (.diskOffset ci.insId)
  if offset < 0 then return false
  if offset = 0 then
    if (← Prog.ask (.access (.insFile ci.insId .kernel))) ≠ 0 then return (← mountImage cfg ci)
  return true

/-- The domain is started: `ret`. -/
def createDomain (id : Int) : NodeProg Int := do
  sendResponse LyS.runningStartingInstance
  let ret ← Prog.ask (.domainCreate id)
  if ret < 0 then return ret
  let _ ← Prog.ask .sendReport
  waitActive id 20
  return LyS.waitingStartingOsm

/-- `__domain_run` from the disk of the instance on: `ret`. -/
def startInstance (cfg : NodeConfig) (ci : NodeRequest) : NodeProg Int := do
  if !(← prepareImage cfg ci) then return -1
  if !(← writeIni ci) then return -1
  if (← domainXml cfg ci.toNodeCtrlInstance) < 0 then return -1
  createDomain ci.insId

/-- Whether the appliance is prepared: for a new instance, and for one without a directory. -/
def appNeeded (ci : NodeRequest) : NodeProg Bool := do
  if ci.insStatus = DomainS.new then return true
  return decide ((← Prog.ask (.access (.insDir ci.insId))) ≠ 0)

/-- `__domain_run` prepares the appliance if need be. -/
def appStage (cfg : NodeConfig) (ci : NodeRequest) : NodeProg (Option Int) := do
  if ← appNeeded ci then appSection cfg ci
  else return none

/-- `__domain_run` prepares the files of the instance and starts it: `ret`. When the disk has just
been made, what is there is removed again after a failure. -/
def insStage (cfg : NodeConfig) (ci : NodeRequest) : NodeProg Int := do
  if !(← insPrepare ci) then return -1
  if (← Prog.ask (.access (.insFile ci.insId .os))) ≠ 0 then
    if !(← insExtract ci) then return LyS.finishedFailureAppError
    let ret ← startInstance cfg ci
    if ret < 0 then
      let _ ← domainInstanceClean ci.insId false
    return ret
  else startInstance cfg ci

/-- `__domain_run` while it holds the lock of the instance: `ret`. -/
def domainRunLocked (cfg : NodeConfig) (ci : NodeRequest) : NodeProg Int := do
  if (← Prog.ask (.domainActive ci.insId)) ≠ 0 then return LyS.finishedInstanceRunning
  match ← appStage cfg ci with
  | some ret => return ret
  | none => insStage cfg ci

/-- `__domain_run`. -/
def domainRun (cfg : NodeConfig) (ci : NodeRequest) : NodeProg Int := do
  match ← domainRunDataCheck cfg ci with
  | none => return -1
  | some ci =>
    sendResponse LyS.runningWaiting
    if (← fileLockGet cfg.insDataDir (idstr ci.insId)) < 0 then return -1
    let ret ← domainRunLocked cfg ci
    let _ ← fileLockPut cfg.insDataDir (idstr ci.insId)
    return ret

/-! ## The other requests -/

/-- What `__domain_stop`, `__domain_acpireboot` and `__domain_destroy` have in common: the lock of
the instance around what they do. -/
def withInsLock (cfg : NodeConfig) (id : Int) (locked : NodeProg Int) : NodeProg Int := do
  if (← fileLockGet cfg.stopLockDir (idstr id)) < 0 then return -1
  let ret ← locked
  let _ ← fileLockPut cfg.stopLockDir (idstr id)
  return ret

/-- Wait until the domain is gone, or as long as `wait`: `true` if it is. -/
def waitStopped (id : Int) : (wait : Nat) → NodeProg Bool
  | 0 => return false
  | wait + 1 => do
    if (← Prog.ask (.domainActive id)) = 0 then return true
    let _ ← Prog.ask .sleep
    waitStopped id wait

/-- `__domain_stop` while it holds the lock. -/
def domainStopLocked (id : Int) : NodeProg Int := do
  if (← Prog.ask (.domainActive id)) = 0 then return LyS.finishedInstanceNotRunning
  let ret ← Prog.ask (.domainStop id)
  if ret < 0 then return ret
  sendResponse LyS.runningStopping
  if ← waitStopped id 60 then return LyS.finishedSuccess
  if (← Prog.ask (.domainPoweroff id)) = 0 then return LyS.finishedSuccess
  return LyS.finishedFailure

/-- `__domain_stop`. -/
def domainStop (cfg : NodeConfig) (ci : NodeRequest) : NodeProg Int := do
  if pathMax ≤ cfg.stopLockDir.length then return -1
  sendResponse LyS.runningWaiting
  -- a lock that is not had is -1, which does not send the report
  let ret ← withInsLock cfg ci.insId (domainStopLocked ci.insId)
  if ci.reqAction = LyA.nodeStopInstance ∧ ret = LyS.finishedSuccess then
    let _ ← Prog.ask .sendReport
  return ret

/-- `__domain_acpireboot` while it holds the lock. -/
def domainAcpirebootLocked (id : Int) : NodeProg Int := do
  if (← Prog.ask (.domainActive id)) = 0 then return LyS.finishedInstanceNotRunning
  if (← Prog.ask (.domainReboot id)) < 0 then return LyS.finishedFailure
  let _ ← Prog.ask .sleep
  return LyS.finishedSuccess

/-- `__domain_acpireboot`. -/
def domainAcpireboot (cfg : NodeConfig) (ci : NodeRequest) : NodeProg Int := do
  if pathMax ≤ cfg.stopLockDir.length then return -1
  sendResponse LyS.runningWaiting
  withInsLock cfg ci.insId (domainAcpirebootLocked ci.insId)

/-- `__domain_fullreboot`. -/
def domainFullreboot (cfg : NodeConfig) (ci : NodeRequest) : NodeProg Int := do
  let ret ← domainStop cfg ci
  if ret = LyS.finishedInstanceNotRunning ∨ ret = LyS.finishedSuccess then
    sendResponse LyS.runningStopped
    domainRun cfg ci
  else return ret

/-- `__domain_destroy` while it holds the lock. -/
def domainDestroyLocked (id : Int) : NodeProg Int := do
  if (← Prog.ask (.domainActive id)) ≠ 0 then return LyS.finishedInstanceRunning
  if (← Prog.ask (.access (.insDir id))) ≠ 0 then return 0
  let ret ← domainInstanceClean id false
  let _ ← Prog.ask .sendReport
  return ret

/-- `__domain_destroy`. -/
def domainDestroy (cfg : NodeConfig) (ci : NodeRequest) : NodeProg Int := do
  if pathMax ≤ cfg.stopLockDir.length then return -1
  if pathMax ≤ (cfg.insDataDir ++ cstr "/" ++ dec ci.insId).length then return -1
  withInsLock cfg ci.insId (domainDestroyLocked ci.insId)

/-- The status that `__domain_query` reports. -/
def domainStatus (id : Int) : NodeProg Int := do
  if (← Prog.ask (.domainActive id)) ≠ 0 then
    let _ ← Prog.ask (.domainDescription id)
    return DomainS.start
  if (← Prog.ask (.access (.insDir id))) = 0 then return DomainS.stop
  return DomainS.notExist

/-- `__domain_query`. -/
def domainQuery (cfg : NodeConfig) (ci : NodeRequest) : NodeProg Int := do
  if pathMax ≤ (cfg.stopLockDir ++ cstr "/" ++ dec ci.insId).length then return -1
  if (← Prog.ask (.sendInfo LyS.finishedSuccess (← domainStatus ci.insId))) < 0 then return -1
  return 0

/-- The reply at the end of `__instance_control_func`. -/
def controlReply (ci : NodeRequest) (ret : Int) : NodeProg Unit := do
  if ret = 0 then sendResponse LyS.finishedSuccess
  else if ret < 0 then sendResponse LyS.finishedFailure
  else if ret = LyS.waitingStartingOsm then
    let _ ← Prog.ask (.domainDescription ci.insId)
    let _ ← Prog.ask (.sendInfo ret DomainS.start)
  else sendResponse ret

/-- `__instance_control_func`. Suspending and saving are not implemented. -/
def instanceControlFunc (cfg : NodeConfig) (ci : NodeRequest) : NodeProg Unit := do
  if ci.reqAction = LyA.nodeRunInstance then controlReply ci (← domainRun cfg ci)
  else if ci.reqAction = LyA.nodeStopInstance then controlReply ci (← domainStop cfg ci)
  else if ci.reqAction = LyA.nodeAcpirebootInstance then controlReply ci (← domainAcpireboot cfg ci)
  else if ci.reqAction = LyA.nodeFullrebootInstance then controlReply ci (← domainFullreboot cfg ci)
  else if ci.reqAction = LyA.nodeDestroyInstance then controlReply ci (← domainDestroy cfg ci)
  else if ci.reqAction = LyA.nodeQueryInstance then
    let _ ← domainQuery cfg ci
  else controlReply ci (-1)

end LuoYun

import Mathlib.Algebra.GroupWithZero.Nat
import Mathlib.Algebra.Ring.Int.Defs
import Mathlib.Order.Lattice
import Mathlib.Tactic.Common

/-!
# The shared vocabulary of the platform

Everything the cloud controller (CLC) and the compute node agree on: the constants of
`luoyun.h`, byte strings, 32-bit integers as they travel on the wire, and what a run of
the C programs does when it leaves the C language (`Fault`).

Integers that come from the wire, from the database or from XML text are `Int` and are
wrapped explicitly where the C type is narrower. Memory management itself (that `malloc`
succeeds, what `free` does to the heap) is outside the model.
-/

namespace LuoYun

/-- A C byte string, or raw bytes from a socket. -/
abbrev Bytes := List UInt8

instance : LawfulBEq Bytes := inferInstance

/-- The bytes of a C string literal. -/
def cstr (s : String) : Bytes := s.toUTF8.data.toList

/-- The ways a run leaves defined behaviour. A run of the model ends there. -/
inductive Fault where
  /-- An access through `pkt_buf` outside its `LUOYUN_PACKET_SIZE_MAX` allocation. -/
  | pktBuf
  /-- A string function applied to `NULL`. -/
  | nullDeref
  /-- Private entity data read or written through the other type's layout, also where that stays
  inside the object: what is read then depends on how the compiler lays out the two. -/
  | wrongType
  /-- A write past the end of a fixed array on the stack. -/
  | stack
  /-- A queued job followed or written after `job_remove` freed it. -/
  | useAfterFree
  /-- A number passed to `free`: the C library ends the program. -/
  | strayFree
  /-- A loop over an intrusive list that never comes to its end. -/
  | diverge
  deriving DecidableEq, Repr

/-- The outcome of code that may leave defined behaviour. -/
abbrev Res (α : Type) := Except Fault α

/-- Conversion to a C `int`: the residue modulo `2^32` in the signed range. -/
def toInt32 (x : Int) : Int := (x + 2147483648) % 4294967296 - 2147483648

/-- Conversion of a C `int` to `unsigned int`. -/
def toUInt32 (x : Int) : Nat := (x % 4294967296).toNat

/-- A value of C type `int32_t`. -/
def IsInt32 (x : Int) : Prop := -(2 ^ 31) ≤ x ∧ x < 2 ^ 31

instance (x : Int) : Decidable (IsInt32 x) := inferInstanceAs (Decidable (_ ∧ _))

theorem toInt32_isInt32 (x : Int) : IsInt32 (toInt32 x) := by
  unfold toInt32 IsInt32
  omega

theorem toInt32_eq {x : Int} (h : IsInt32 x) : toInt32 x = x := by
  unfold toInt32 IsInt32 at *
  omega

/-! ## `EntityType` -/

/-- `EntityType`: who sits at the other end of a connection. -/
inductive EntityType where
  | unknown | web | clc | node | osm
  deriving DecidableEq, Repr

/-- The numeric value of an `EntityType`. -/
def EntityType.code : EntityType → Int
  | .unknown => 0
  | .web => 1
  | .clc => 2
  | .node => 3
  | .osm => 4

/-- `JOB_TARGET_INSTANCE`. -/
def jobTargetInstance : Int := EntityType.osm.code

/-- `JOB_TARGET_NODE`. -/
def jobTargetNode : Int := EntityType.node.code

/-! ## `LYAction` -/

namespace LyA

def clcEnableNode : Int := 102
def clcDisableNode : Int := 103
def clcConfigNode : Int := 104
def clcRegisterNode : Int := 111
def nodeRunInstance : Int := 201
def nodeStopInstance : Int := 202
def nodeSuspendInstance : Int := 203
def nodeSaveInstance : Int := 204
def nodeFullrebootInstance : Int := 205
def nodeDestroyInstance : Int := 206
def nodeQueryInstance : Int := 207
def nodeAcpirebootInstance : Int := 208
def nodeQuery : Int := 251
def osmQuery : Int := 301

end LyA

/-! ## `LYActionStatus` -/

namespace LyS

def unknown : Int := 0
def initiated : Int := 100
def running : Int := 200
def runningStopped : Int := 259
def runningLastStatus : Int := 299
def finished : Int := 300
def finishedSuccess : Int := 301
def finishedInstanceNotRunning : Int := 303
def finishedFailure : Int := 311
def finishedFailureNodeNotAvail : Int := 321
def finishedFailureNodeBusy : Int := 322
def finishedFailureNodeNotEnabled : Int := 323
def finishedFailureNodeNotOnline : Int := 324
def finishedFailureNodeNotRegistered : Int := 325
def finishedLastStatus : Int := 399
def waiting : Int := 400
def waitingStartingOsm : Int := 411
def waitingSycingOsm : Int := 412
def waitingStartingService : Int := 421
def waitingLastStatus : Int := 499
def pending : Int := 500
def pendingNodeStroke : Int := 501
def pendingLastStatus : Int := 599
def timeout : Int := 600
def cancel : Int := 700
def cancelInternalError : Int := 701
def cancelTargetBusy : Int := 703
def cancelActionReplaced : Int := 711
def cancelLastStatus : Int := 799
def registeringInit : Int := 1001
def registeringConfig : Int := 1005
def registeringReinit : Int := 1011
def registeringDoneSuccess : Int := 1021
def registeringDoneFail : Int := 1022
def appRunning : Int := 2000
def appFailed : Int := 2130

end LyS

/-- `JOB_IS_INITIATED`. -/
def jobIsInitiated (s : Int) : Bool := s == LyS.initiated
/-- `JOB_IS_STARTED`. -/
def jobIsStarted (s : Int) : Bool := s == LyS.running
/-- `JOB_IS_RUNNING`. -/
def jobIsRunning (s : Int) : Bool := decide (LyS.running ≤ s) && decide (s < LyS.runningLastStatus)
/-- `JOB_IS_FINISHED`. -/
def jobIsFinished (s : Int) : Bool :=
  decide (LyS.finished ≤ s) && decide (s < LyS.finishedLastStatus)
/-- `JOB_IS_WAITING`. -/
def jobIsWaiting (s : Int) : Bool := decide (LyS.waiting ≤ s) && decide (s < LyS.waitingLastStatus)
/-- `JOB_IS_TIMEOUT`. -/
def jobIsTimeout (s : Int) : Bool := s == LyS.timeout
/-- `JOB_IS_PENDING`. -/
def jobIsPending (s : Int) : Bool := decide (LyS.pending ≤ s) && decide (s < LyS.pendingLastStatus)
/-- `JOB_IS_CANCELLED`. -/
def jobIsCancelled (s : Int) : Bool := decide (LyS.cancel ≤ s) && decide (s < LyS.cancelLastStatus)

/-! ## `PacketType` -/

namespace PktType

def unknow : Int := 0
def joinRequest : Int := 101
def testEchoRequest : Int := 901
def testEchoReply : Int := 902
def webNewJobRequest : Int := 10001
def clcInstanceControlRequest : Int := 20011
def clcNodeControlRequest : Int := 20021
def clcNodeControlReply : Int := 20022
def clcOsmQueryRequest : Int := 20033
def clcOsmQueryReply : Int := 20034
def nodeRegisterRequest : Int := 30001
def nodeRegisterReply : Int := 30002
def nodeReport : Int := 30003
def nodeAuthRequest : Int := 30011
def nodeAuthReply : Int := 30012
def osmRegisterRequest : Int := 40001
def osmRegisterReply : Int := 40002
def osmReport : Int := 40003
def osmAuthRequest : Int := 40011
def osmAuthReply : Int := 40012

/-- `PKT_TYPE_ENTITY_GROUP`: C division, which rounds toward zero. -/
def entityGroup (type : Int) : Int := Int.tdiv type 10000

end PktType

/-! ## `NodeStatus`, `DomainStatus`, `OSMStatus` -/

namespace NodeStatus

def unknown : Int := 0
def uninitialized : Int := 1
def initialized : Int := 2
def unauthenticated : Int := 4
def authenticating : Int := 5
def authenticated : Int := 6
def unregistered : Int := 7
def registering : Int := 8
def registered : Int := 9
def offline : Int := 20
def online : Int := 21
def ready : Int := 31
def busy : Int := 32
def check : Int := 33
def error : Int := 34

end NodeStatus

namespace DomainS

def unknown : Int := 0
def new : Int := 1
def stop : Int := 2
def start : Int := 3
def running : Int := 4
def serving : Int := 5
def delete : Int := 100
def needQuery : Int := 245
def notExist : Int := 255

end DomainS

/-- `OSM_STATUS_UNREGISTERED`. -/
def osmStatusUnregistered : Int := 7

/-- `MAX_IP_LEN`, the size of the `ip` arrays the handlers keep on the stack. -/
def maxIpLen : Nat := 64

/-- `LUOYUN_AUTH_DATA_LEN`. -/
def luoyunAuthDataLen : Nat := 40

/-- `sizeof(AuthInfo)`: the tag and the authentication data, packed. -/
def sizeofAuthInfo : Nat := 4 + luoyunAuthDataLen

/-- `DATA_INSTANCE_INFO`. -/
def dataInstanceInfo : Int := 1
/-- `DATA_NODE_INFO`. -/
def dataNodeInfo : Int := 2

/-! ## Shared records -/

/-- `NodeInfo`. A `NULL` string is `none`. -/
structure NodeInfo where
  status : Int := 0
  hypervisor : Int := 0
  storageTotal : Int := 0
  storageFree : Int := 0
  memMax : Int := 0
  memVlimit : Int := 0
  memFree : Int := 0
  memCommit : Int := 0
  cpuMax : Int := 0
  cpuVlimit : Int := 0
  cpuCommit : Int := 0
  cpuMhz : Int := 0
  cpuArch : Int := 0
  cpuModel : Option Bytes := none
  hostName : Option Bytes := none
  hostIp : Option Bytes := none
  hostTag : Int := 0
  loadAverage : Int := 0
  deriving DecidableEq, Repr

/-- `InstanceInfo`, with the first of its two interface counters (the other is never read). -/
structure InstanceInfo where
  id : Int := 0
  status : Int := 0
  ip : Option Bytes := none
  gport : Int := 0
  rxBytes : Nat := 0
  rxPkts : Nat := 0
  txBytes : Nat := 0
  txPkts : Nat := 0
  deriving DecidableEq, Repr

/-- `OSMInfo`. -/
structure OSMInfo where
  tag : Int := 0
  status : Int := 0
  ip : Option Bytes := none
  deriving DecidableEq, Repr

end LuoYun

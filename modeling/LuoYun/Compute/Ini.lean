import LuoYun.Util.Packet
import LuoYun.Util.Text
import LuoYun.Util.Xml
import LuoYun.Lib.Fat

/-!
# The configuration disk of an instance

`__domain_run` hands an instance its configuration on a small disk: an image of one megabyte
that is put together from hand-made tables (boot sector, allocation table, root directory) and
holds one file, `LUOYUN.INI`. The image is written like any file, `lseek` and `write` leaving
zeros where nothing was written, so it is a `Mem` here, and the text goes to `0x6400`, where
the tables place cluster 3.
-/

namespace LuoYun

/-- The node's `NodeCtrlInstance`, with the fields that only the node uses. -/
structure CtrlInstance extends NodeCtrlInstance where
  insMac : Option Bytes := none
  appUri : Option Bytes := none
  osmClcip : Option Bytes := none
  osmClcport : Int := 0
  storageIp : Option Bytes := none
  storageMethod : Int := 0
  storageParm : Option Bytes := none
  /-- What the request wants sent back: the result, the status on the way, or both. -/
  reply : Int := 0
  deriving DecidableEq, Repr

/-- What `__domain_run` reads of `g_c` for the configuration. -/
structure ClcAddress where
  /-- The controller this node is connected to. -/
  clcIp : Bytes
  clcPort : Int
  /-- Its multicast group, from the configuration file. -/
  clcMcastIp : Bytes
  clcMcastPort : Int
  deriving DecidableEq, Repr

namespace Ini

/-! ## `__create_luoyun_ini` -/

def secBoot : Bytes := [
  0xeb, 0x3c, 0x90, 0x6d, 0x6b, 0x64, 0x6f, 0x73, 0x66, 0x73, 0x00, 0x00, 0x02, 0x01, 0x01, 0x00,
  0x02, 0x00, 0x02, 0x00, 0x08, 0xf8, 0x08, 0x00, 0x20, 0x00, 0x40, 0x00, 0x00, 0x00, 0x00, 0x00,
  0x00, 0x00, 0x00, 0x00, 0x00, 0x00, 0x29, 0xed, 0xee, 0x74, 0xf0, 0x20, 0x20, 0x20, 0x20, 0x20,
  0x20, 0x20, 0x20, 0x20, 0x20, 0x20, 0x46, 0x41, 0x54, 0x31, 0x36, 0x20, 0x20, 0x20, 0x0e, 0x1f,
  0xbe, 0x5b, 0x7c, 0xac, 0x22, 0xc0, 0x74, 0x0b, 0x56, 0xb4, 0x0e, 0xbb, 0x07, 0x00, 0xcd, 0x10,
  0x5e, 0xeb, 0xf0, 0x32, 0xe4, 0xcd, 0x16, 0xcd, 0x19, 0xeb, 0xfe, 0x54, 0x68, 0x69, 0x73, 0x20,
  0x69, 0x73, 0x20, 0x6e, 0x6f, 0x74, 0x20, 0x61, 0x20, 0x62, 0x6f, 0x6f, 0x74, 0x61, 0x62, 0x6c,
  0x65, 0x20, 0x64, 0x69, 0x73, 0x6b, 0x2e, 0x20, 0x20, 0x50, 0x6c, 0x65, 0x61, 0x73, 0x65, 0x20,
  0x69, 0x6e, 0x73, 0x65, 0x72, 0x74, 0x20, 0x61, 0x20, 0x62, 0x6f, 0x6f, 0x74, 0x61, 0x62, 0x6c,
  0x65, 0x20, 0x66, 0x6c, 0x6f, 0x70, 0x70, 0x79, 0x20, 0x61, 0x6e, 0x64, 0x0d, 0x0a, 0x70, 0x72,
  0x65, 0x73, 0x73, 0x20, 0x61, 0x6e, 0x79, 0x20, 0x6b, 0x65, 0x79, 0x20, 0x74, 0x6f, 0x20, 0x74,
  0x72, 0x79, 0x20, 0x61, 0x67, 0x61, 0x69, 0x6e, 0x20, 0x2e, 0x2e, 0x2e, 0x20, 0x0d, 0x0a, 0x00]

def offBoot : Nat := 0

def secBootSign : Bytes := [0x55, 0xaa]

def offBootSign : Nat := 510

def secFat : Bytes := [
  0xf8, 0xff, 0xff, 0xff, 0x40, 0x00, 0x05, 0x60, 0x00, 0x07, 0x80, 0x00, 0x09, 0xf0, 0xff, 0x00]

def offFat1 : Nat := 0x200

def offFat2 : Nat := 0x1200

def secRoot : Bytes := [
  0x41, 0x6c, 0x00, 0x75, 0x00, 0x6f, 0x00, 0x79, 0x00, 0x75, 0x00, 0x0f, 0x00, 0xca, 0x6e, 0x00,
  0x2e, 0x00, 0x69, 0x00, 0x6e, 0x00, 0x69, 0x00, 0x00, 0x00, 0x00, 0x00, 0xff, 0xff, 0xff, 0xff,
  0x4c, 0x55, 0x4f, 0x59, 0x55, 0x4e, 0x20, 0x20, 0x49, 0x4e, 0x49, 0x20, 0x00, 0x00, 0xd1, 0xa1,
  0x02, 0x41, 0x02, 0x41, 0x00, 0x00, 0xd1, 0xa1, 0x02, 0x41, 0x03, 0x00]

def offRoot : Nat := 0x2200

def offData : Nat := 0x6400

/-- `__create_luoyun_ini`: the tables, with the file position left at `0x6400`. -/
def createLuoyunIni : Mem :=
  let blank : Mem := fun _ => 0
  ((((blank.write offBoot secBoot).write offBootSign secBootSign).write offFat1 secFat).write
    offFat2 secFat).write offRoot secRoot

/-! ## `__close_luoyun_ini` -/

/-- Where the size of the file stands: behind the part of the root entry in `secRoot`. -/
def offDataLen : Nat := 0x223c

/-- The size of the image. -/
def imageSize : Nat := 1048576

/-- `ftruncate`. -/
def truncate (m : Mem) (n : Nat) : Mem := fun i => if i < n then m i else 0

/-- `__close_luoyun_ini` at file position `pos`: fill in the size and cut the image to length,
or give up on a text that is too long. -/
def closeLuoyunIni (m : Mem) (pos : Nat) : Option Mem :=
  if imageSize ≤ pos then none
  else some (truncate (m.write offDataLen (le32 ((pos : Int) - offData))) imageSize)

/-! ## `__domain_run` -/

/-- `%s` of `printf`. -/
def orNull (s : Option Bytes) : Bytes := s.getD (cstr "(null)")

/-- The part of `__domain_run_data_check` that concerns the configuration: the controller's own
address stands in for one the request does not give. -/
def domainRunDataCheck (g : ClcAddress) (ci : CtrlInstance) : CtrlInstance :=
  { ci with
    osmClcip := some (ci.osmClcip.getD g.clcIp)
    osmClcport := if ci.osmClcport = 0 then g.clcPort else ci.osmClcport }

/-- The configuration text. -/
def domainRunText (g : ClcAddress) (ci : CtrlInstance) : Bytes :=
  cstr "CLC_IP=" ++ orNull ci.osmClcip ++ cstr "\nCLC_PORT=" ++ dec ci.osmClcport ++
    cstr "\nCLC_MCAST_IP=" ++ g.clcMcastIp ++ cstr "\nCLC_MCAST_PORT=" ++ dec g.clcMcastPort ++
    cstr "\nTAG=" ++ dec ci.osmTag ++ cstr "\nKEY=" ++ orNull ci.osmSecret ++
    cstr "\nJSON=" ++ orNull ci.osmJson ++ cstr "\n"

/-- The image that holds a text, when `__close_luoyun_ini` accepts it. -/
def image (text : Bytes) : Option Mem :=
  closeLuoyunIni (createLuoyunIni.write offData text) (offData + text.length)

/-- The text that `__domain_run` writes for a request. -/
def confText (g : ClcAddress) (ci : CtrlInstance) : Bytes :=
  domainRunText g (domainRunDataCheck g ci)

/-- The configuration disk that `__domain_run` makes for a request. -/
def domainRunIni (g : ClcAddress) (ci : CtrlInstance) : Option Mem := image (confText g ci)

/-- `LUOYUN.INI` in the form a directory entry holds. -/
def fileName : Bytes := cstr "LUOYUN  INI"

end Ini

end LuoYun

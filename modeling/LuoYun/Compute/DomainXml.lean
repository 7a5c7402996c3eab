import LuoYun.Compute.Files
import LuoYun.Util.Xml

/-!
# `__domain_xml`: the disks of a domain

The description of a domain is put together from the request. On the way the OS disk is extended
(`ins_extsize`) and the data disk is made or extended (`storage` in `osm_json`).

The parser of the JSON text is a parameter; `Json` is what it returns. A string is read as a C
string. The buffers `net` and `disk` are kept as the list of the pieces that were put into them:
their text is what stands one after the other in the list.
-/

namespace LuoYun

/-- `json_value`. -/
inductive Json where
  | none
  | object (members : List (Bytes × Json))
  | array (values : List Json)
  | integer (n : Int)
  | double
  | string (s : Bytes)
  | boolean (b : Bool)
  | null

/-- `HYPERVISOR_IS_KVM`. -/
def hypervisorIsKvm : Int := 1
/-- `HYPERVISOR_IS_XEN`. -/
def hypervisorIsXen : Int := 2

/-- `PATH_MAX`. -/
def pathMax : Nat := 4096

/-- The parts of `NodeConfig` that are used, and the JSON parser. A template of the configuration
file is what `snprintf` makes of it. -/
structure NodeConfig where
  nodeDataDir : Bytes
  netPrimary : Option Bytes := some (cstr "default")
  netSecondary : Option Bytes := none
  vmXmlNetNat : Option (Bytes → Bytes) := none
  vmXmlNetBr : Option (Bytes → Bytes → Bytes) := none
  vmXmlDisk : Option (Bytes → Bytes) := none
  hypervisor : Int := hypervisorIsKvm
  clcIp : Bytes := []
  clcPort : Int := 0
  jsonParse : Bytes → Option Json

/-- `ins_data_dir`, as the options are set up. -/
def NodeConfig.insDataDir (cfg : NodeConfig) : Bytes := cfg.nodeDataDir ++ cstr "/instances"

/-- `app_data_dir`, as the options are set up. -/
def NodeConfig.appDataDir (cfg : NodeConfig) : Bytes := cfg.nodeDataDir ++ cstr "/appliances"

/-- `trash_data_dir`, as the options are set up. -/
def NodeConfig.trashDataDir (cfg : NodeConfig) : Bytes := cfg.nodeDataDir ++ cstr "/trash"

/-- `snprintf(…, n, …)` of a text: what fits. -/
def snprintf (n : Nat) (text : Bytes) : Bytes := text.take (n - 1)

/-- The text of a buffer. -/
def bufText (pieces : List Bytes) : Bytes := pieces.flatten

/-! ## The network -/

/-- The name of a network that is reached through NAT. -/
def isNatNet : Option Bytes → Bool
  | none => true
  | some type => type == cstr "default" || type.take 5 == cstr "virbr"

/-- The element of a network interface. -/
def netElement (cfg : NodeConfig) (type : Option Bytes) (mac : Bytes) : Option Bytes :=
  let quoted := mac ++ cstr "'/>"
  if isNatNet type then
    match cfg.vmXmlNetNat with
    | some f => some (f mac)
    | none =>
      if cfg.hypervisor = hypervisorIsXen ∨ cfg.hypervisor = hypervisorIsKvm then
        some (cstr "<interface type='network'><source network='default'/><mac address='" ++
          quoted ++
          cstr "</interface>")
      else none
  else
    match cfg.vmXmlNetBr with
    | some f => some (f (type.getD []) mac)
    | none =>
      let bridge := cstr "<interface type='bridge'><source bridge='" ++ type.getD [] ++
        cstr "'/><mac address='" ++ quoted
      if cfg.hypervisor = hypervisorIsXen then
        some (bridge ++ cstr "<script path='/etc/xen/scripts/vif-bridge'/></interface>")
      else if cfg.hypervisor = hypervisorIsKvm then some (bridge ++ cstr "</interface>")
      else none

/-- The loop over the members of a network entry: `mac` and `type`, until both are found. -/
def netMembers : List (Bytes × Json) → Option Json → Option Json → Option Json × Option Json
  | [], mac, type => (mac, type)
  | (name, value) :: rest, mac, type =>
    let mac := if name = cstr "mac" then some value else mac
    let type := if name = cstr "type" then some value else type
    if mac.isSome ∧ type.isSome then (mac, type) else netMembers rest mac type

/-- The type that the configuration gives to the `j`-th interface. -/
def netTypeOf (cfg : NodeConfig) (j : Nat) : Option Bytes :=
  if 0 < j ∧ cfg.netSecondary.isSome then cfg.netSecondary else cfg.netPrimary

/-- The loop over the network entries; `none` is `goto out`. -/
def netEntries (cfg : NodeConfig) (netSize : Nat) :
    List Json → Nat → List Bytes → Option (List Bytes)
  | [], _, net => some net
  | .object members :: rest, j, net =>
    match netMembers members none none with
    | (some (.string mac), type) =>
      match type with
      | none | some (.string _) =>
        match netElement cfg (netTypeOf cfg j) mac with
        | none => none
        | some text =>
          let tmp := snprintf pathMax text
          if netSize ≤ (bufText net).length + tmp.length then none
          else netEntries cfg netSize rest (j + 1) (net ++ [tmp])
      | some _ => none
    | _ => none
  | _ :: _, _, _ => none

/-! ## The storage -/

/-- The loop over the members of a storage entry: `disk_found` and `storage_size` afterwards. A type
other than `disk` ends it. -/
def diskEntry : List (Bytes × Json) → Bool → Int → Option (Bool × Int)
  | [], found, size => some (found, size)
  | (name, value) :: rest, found, size =>
    if name = cstr "type" then
      match value with
      | .string type =>
        if type = cstr "disk" then if found then none else diskEntry rest true size
        else some (found, size)
      | _ => none
    else if name = cstr "size" then
      match value with
      | .integer n => if n ≤ 0 then none else diskEntry rest found (toInt32 n)
      | _ => none
    else diskEntry rest found size

/-- The element of a disk; `name` is the device. -/
def diskElement (cfg : NodeConfig) (path : Bytes) (xenName kvmName : String) : Option Bytes :=
  match cfg.vmXmlDisk with
  | some f => some (f path)
  | none =>
    if cfg.hypervisor = hypervisorIsXen then
      some (cstr "<disk type='file'><source file='" ++ path ++
        cstr "'/><target dev='" ++ cstr xenName ++
        cstr "'/></disk>")
    else if cfg.hypervisor = hypervisorIsKvm then
      some (cstr "<disk type='file' device='disk'><driver name='qemu' type='raw' io='threads'/>" ++
        cstr "<source file='" ++ path ++ cstr "'/><target dev='" ++ cstr kvmName ++
          cstr "' bus='ide'/></disk>")
    else none

/-- The path of a file of an instance, as text. -/
def insPath (cfg : NodeConfig) (id : Int) (file : String) : Bytes :=
  cfg.insDataDir ++ cstr "/" ++ dec id ++ cstr "/" ++ cstr file

/-- The element of the data disk is put into the buffer. -/
def appendDisk (cfg : NodeConfig) (id : Int) (disk : List Bytes) (diskSize : Nat) :
    Option (List Bytes) :=
  if 0 < diskSize then
    match diskElement cfg (insPath cfg id "disk1.img") "sdb" "hdb" with
    | none => none
    | some text =>
      let tmp := snprintf pathMax text
      if diskSize < (bufText disk).length + tmp.length then none else some (disk ++ [tmp])
  else some disk

/-- `(int)(st_size >> 30)`. -/
def sizeG (size : Int) : Int := toInt32 (size / 2 ^ 30)

/-- The data disk is made, or extended to the size: 0 on success. -/
def sizeDisk (id storageSize : Int) : NodeProg Int := do
  let path := NodePath.insFile id .storage1
  let grow : NodeProg Int := do
    if (← Prog.ask (.truncate path (storageSize * 2 ^ 30))) ≠ 0 then return -1
    return 0
  if (← Prog.ask (.access path)) = 0 then
    let size ← Prog.ask (.stat path)
    if size < 0 then return -1
    -- can only get bigger
    if storageSize ≤ sizeG size then return 0
    grow
  else
    if (← Prog.ask (.creat path)) < 0 then return -1
    grow

/-- What follows on a storage entry once a disk has been found. -/
def placeDisk (cfg : NodeConfig) (id : Int) (diskSize : Nat)
    (storageSize : Int) (disk : List Bytes) :
    NodeProg (Option (List Bytes)) := do
  if storageSize ≤ 0 then return none
  if pathMax ≤ (insPath cfg id "disk1.img").length then return none
  match appendDisk cfg id disk diskSize with
  | none => return none
  | some disk =>
    if (← sizeDisk id storageSize) < 0 then return none
    return some disk

/-- The loop over the entries of a storage array. -/
def storageEntries (cfg : NodeConfig) (id : Int) (diskSize : Nat) :
    List Json → Bool → Int → List Bytes → NodeProg (Option (Bool × List Bytes))
  | [], found, _, disk => return some (found, disk)
  | .object members :: rest, found, size, disk =>
    match diskEntry members found size with
    | none => return none
    | some (found, size) =>
      if found then do
        match ← placeDisk cfg id diskSize size disk with
        | none => return none
        | some disk => storageEntries cfg id diskSize rest found size disk
      else storageEntries cfg id diskSize rest found size disk
  | _ :: _, _, _, _ => return none

/-- The loop over the members of the document. -/
def jsonMembers (cfg : NodeConfig) (id : Int) (netSize diskSize : Nat) :
    List (Bytes × Json) → Bool → List Bytes → List Bytes →
      NodeProg (Option (Bool × List Bytes × List Bytes))
  | [], found, net, disk => return some (found, net, disk)
  | (name, value) :: rest, found, net, disk =>
    if name = cstr "network" ∧ 0 < netSize then
      match value with
      | .array values =>
        match netEntries cfg netSize values 0 [] with
        | none => return none
        | some net => jsonMembers cfg id netSize diskSize rest found net disk
      | _ => return none
    else if name = cstr "storage" then
      match value with
      | .array values => do
        match ← storageEntries cfg id diskSize values found (-1) disk with
        | none => return none
        | some (found, disk) => jsonMembers cfg id netSize diskSize rest found net disk
      | _ => return none
    else jsonMembers cfg id netSize diskSize rest found net disk

/-- The data disk of an instance that has none any more goes into the trash: 0 on success. -/
def trashDisk (cfg : NodeConfig) (id : Int) : NodeProg Int := do
  if pathMax ≤ (insPath cfg id "disk1.img").length then return -1
  if pathMax ≤ (cfg.trashDataDir ++ cstr "/disk1.img." ++ dec id).length then return -1
  if (← Prog.ask (.access (.insFile id .storage1))) = 0 then
    if (← Prog.ask (.toTrash id .storage1)) ≠ 0 then return -1
  return 0

/-- `__domain_xml_json`: the two buffers, or `none` for `-1`. -/
def domainXmlJson (cfg : NodeConfig) (id : Int) (osmJson : Bytes) (net : List Bytes) (netSize : Nat)
    (disk : List Bytes) (diskSize : Nat) : NodeProg (Option (List Bytes × List Bytes)) := do
  match cfg.jsonParse osmJson with
  | some (.object members) =>
    match ← jsonMembers cfg id netSize diskSize members false net disk with
    | none => return none
    | some (found, net, disk) =>
      if found then return some (net, disk)
      if (← trashDisk cfg id) < 0 then return none
      return some (net, disk)
  | _ => return none

/-- `__domain_xml` extends the OS disk: 0 on success. -/
def extendOs (id extsize : Int) : NodeProg Int := do
  if 0 < extsize ∧ extsize < 1000 then
    let size ← Prog.ask (.stat (.insFile id .os))
    if size < 0 then return -1
    if sizeG size < extsize then
      if (← Prog.ask (.truncate (.insFile id .os) (extsize * 2 ^ 30))) ≠ 0 then return -1
  return 0

/-- `__domain_xml`: 0, or -1 for `NULL`. With a template of the controller the two buffers have size
0 and are not used. -/
def domainXml (cfg : NodeConfig) (ci : NodeCtrlInstance) : NodeProg Int := do
  let osPath := insPath cfg ci.insId "os.img"
  if 1024 ≤ osPath.length then return -1
  let template ← Prog.ask .xmlTemplate
  let bufSize := if template ≠ 0 then 0 else 1024
  let os := if template ≠ 0 then some [] else diskElement cfg osPath "sda1" "hda"
  match os with
  | none => return -1
  | some text =>
    if (← extendOs ci.insId ci.insExtsize) < 0 then return -1
    match ci.osmJson with
    | none => Prog.ask .xmlText
    | some json =>
      match ← domainXmlJson cfg ci.insId json [] bufSize [snprintf 1024 text] bufSize with
      | none => return -1
      | some _ => Prog.ask .xmlText

end LuoYun

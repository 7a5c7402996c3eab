import LuoYun.Compute.Domain

/-!
# `__domain_xml`: the buffers `net` and `disk`

The two buffers are arrays of 1024 bytes on the stack. `Compute.DomainXml` keeps the pieces that are
put into them; here the bytes are kept, and a `strcat` that writes past the end of the array is a
`Fault`. Such a run ends there.
-/

namespace LuoYun

/-- The size of `net` and of `disk`. -/
def xmlBufSize : Nat := 1024

/-- `strcat` into one of the buffers; the terminating zero is written as well. -/
def strcat (buf tmp : Bytes) : Res Bytes :=
  if xmlBufSize < buf.length + tmp.length + 1 then .error .stack else .ok (buf ++ tmp)

/-- The loop over the network entries. -/
def netEntriesBuf (cfg : NodeConfig) (netSize : Nat) : List Json → Nat → Bytes → Res (Option Bytes)
  | [], _, net => .ok (some net)
  | .object members :: rest, j, net =>
    match netMembers members none none with
    | (some (.string mac), type) =>
      match type with
      | none | some (.string _) =>
        match netElement cfg (netTypeOf cfg j) mac with
        | none => .ok none
        | some text =>
          let tmp := snprintf pathMax text
          if netSize ≤ net.length + tmp.length then .ok none
          else
            match strcat net tmp with
            | .error e => .error e
            | .ok net => netEntriesBuf cfg netSize rest (j + 1) net
      | some _ => .ok none
    | _ => .ok none
  | _ :: _, _, _ => .ok none

/-- The element of the data disk is put into the buffer. -/
def appendDiskBuf (cfg : NodeConfig) (id : Int) (disk : Bytes) (diskSize : Nat) :
    Res (Option Bytes) :=
  if 0 < diskSize then
    match diskElement cfg (insPath cfg id "disk1.img") "sdb" "hdb" with
    | none => .ok none
    | some text =>
      let tmp := snprintf pathMax text
      if diskSize < disk.length + tmp.length then .ok none else (strcat disk tmp).map some
  else .ok (some disk)

/-- What follows on a storage entry once a disk has been found. -/
def placeDiskBuf (cfg : NodeConfig) (id : Int) (diskSize : Nat) (storageSize : Int) (disk : Bytes) :
    NodeProg (Res (Option Bytes)) := do
  if storageSize ≤ 0 then return .ok none
  else if pathMax ≤ (insPath cfg id "disk1.img").length then return .ok none
  else
    match appendDiskBuf cfg id disk diskSize with
    | .error e => return .error e
    | .ok none => return .ok none
    | .ok (some disk) =>
      let ret ← sizeDisk id storageSize
      if ret < 0 then return .ok none else return .ok (some disk)

/-- The loop over the entries of a storage array. -/
def storageEntriesBuf (cfg : NodeConfig) (id : Int) (diskSize : Nat) :
    List Json → Bool → Int → Bytes → NodeProg (Res (Option (Bool × Bytes)))
  | [], found, _, disk => return .ok (some (found, disk))
  | .object members :: rest, found, size, disk =>
    match diskEntry members found size with
    | none => return .ok none
    | some (found, size) =>
      if found then do
        match ← placeDiskBuf cfg id diskSize size disk with
        | .error e => return .error e
        | .ok none => return .ok none
        | .ok (some disk) => storageEntriesBuf cfg id diskSize rest found size disk
      else storageEntriesBuf cfg id diskSize rest found size disk
  | _ :: _, _, _, _ => return .ok none

/-- The loop over the members of the document. -/
def jsonMembersBuf (cfg : NodeConfig) (id : Int) (netSize diskSize : Nat) :
    List (Bytes × Json) → Bool → Bytes → Bytes → NodeProg (Res (Option (Bool × Bytes × Bytes)))
  | [], found, net, disk => return .ok (some (found, net, disk))
  | (name, value) :: rest, found, net, disk =>
    if name = cstr "network" ∧ 0 < netSize then
      match value with
      | .array values =>
        match netEntriesBuf cfg netSize values 0 [] with
        | .error e => return .error e
        | .ok none => return .ok none
        | .ok (some net) => jsonMembersBuf cfg id netSize diskSize rest found net disk
      | _ => return .ok none
    else if name = cstr "storage" then
      match value with
      | .array values => do
        match ← storageEntriesBuf cfg id diskSize values found (-1) disk with
        | .error e => return .error e
        | .ok none => return .ok none
        | .ok (some (found, disk)) => jsonMembersBuf cfg id netSize diskSize rest found net disk
      | _ => return .ok none
    else jsonMembersBuf cfg id netSize diskSize rest found net disk

/-- `__domain_xml_json`: the two buffers, or `none` for `-1`. -/
def domainXmlJsonBuf (cfg : NodeConfig) (id : Int) (osmJson : Bytes) (net : Bytes) (netSize : Nat)
    (disk : Bytes) (diskSize : Nat) : NodeProg (Res (Option (Bytes × Bytes))) := do
  match cfg.jsonParse osmJson with
  | some (.object members) =>
    match ← jsonMembersBuf cfg id netSize diskSize members false net disk with
    | .error e => return .error e
    | .ok none => return .ok none
    | .ok (some (found, net, disk)) =>
      if found then return .ok (some (net, disk))
      else
        let ret ← trashDisk cfg id
        if ret < 0 then return .ok none else return .ok (some (net, disk))
  | _ => return .ok none

/-- The interface of a domain whose description names none; `%s` of `NULL` prints `(null)`. -/
def netDefault (cfg : NodeConfig) (ci : NodeRequest) : Option Bytes :=
  (netElement cfg cfg.netPrimary (ci.insMac.getD (cstr "(null)"))).map (snprintf xmlBufSize)

/-- What `__domain_xml` does once the buffers are filled: with a template of the controller they are
not used. -/
def domainText (cfg : NodeConfig) (ci : NodeRequest) (template : Int) (net : Bytes) :
    NodeProg (Res Int) := do
  if template = 0 ∧ net = [] ∧ netDefault cfg ci = none then return .ok (-1)
  else
    let ret ← Prog.ask .xmlText
    return .ok ret

/-- `__domain_xml` after `__domain_xml_json`. -/
def domainXmlEnd (cfg : NodeConfig) (ci : NodeRequest) (template : Int) :
    Res (Option (Bytes × Bytes)) → NodeProg (Res Int)
  | .error e => return .error e
  | .ok none => return .ok (-1)
  | .ok (some (net, _)) => domainText cfg ci template net

/-- `__domain_xml` from the extension of the OS disk on; `text` is the element of this disk. -/
def domainXmlFrom (cfg : NodeConfig) (ci : NodeRequest) (template : Int)
    (bufSize : Nat) (text : Bytes) :
    NodeProg (Res Int) := do
  let ret ← extendOs ci.insId ci.insExtsize
  if ret < 0 then return .ok (-1)
  else
    match ci.osmJson with
    | none => domainText cfg ci template []
    | some json =>
      let filled ← domainXmlJsonBuf cfg ci.insId json [] bufSize (snprintf xmlBufSize text) bufSize
      domainXmlEnd cfg ci template filled

/-- `__domain_xml`: 0, or -1 for `NULL`. -/
def domainXmlBuf (cfg : NodeConfig) (ci : NodeRequest) : NodeProg (Res Int) := do
  let osPath := insPath cfg ci.insId "os.img"
  if 1024 ≤ osPath.length then return .ok (-1)
  else
    let template ← Prog.ask .xmlTemplate
    if template ≠ 0 then domainXmlFrom cfg ci template 0 []
    else
      match diskElement cfg osPath "sda1" "hda" with
      | none => return .ok (-1)
      | some text => domainXmlFrom cfg ci template xmlBufSize text

end LuoYun

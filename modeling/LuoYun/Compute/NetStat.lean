import LuoYun.Util.Xml

/-!
# The traffic of a domain

`__domain_xml_net_stat` reads in the XML document of a domain which device its interface `net0` has,
and asks libvirt for the statistics of that device. The search goes through the interfaces and,
within each of them, through its elements. What it has found is kept in two variables from beginning
to end.

libvirt is a parameter.
-/

namespace LuoYun

/-- What `libvirt_domain_ifstat` writes. -/
structure IfStat where
  rxBytes : Nat
  rxPkts : Nat
  txBytes : Nat
  txPkts : Nat
  deriving DecidableEq, Repr

/-- The variables of the search. -/
structure NetSearch where
  found : Bool := false
  target : Option Bytes := none
  deriving DecidableEq, Repr

/-- `found && target`. -/
def NetSearch.done (s : NetSearch) : Bool := s.found && s.target.isSome

/-- An element of an interface. -/
def NetSearch.element (s : NetSearch) (node : XmlNode) : NetSearch :=
  if node.named (cstr "alias") then
    match node.prop (cstr "name") with
    | some str => if str = cstr "net0" then { s with found := true } else s
    | none => s
  else if node.named (cstr "target") then
    match node.prop (cstr "dev") with
    | some str => { s with target := some str }
    | none => s
  else s

/-- The inner loop. -/
def netInterface : NetSearch → List XmlNode → NetSearch
  | s, [] => s
  | s, node :: nodes =>
    match node with
    | .element _ _ _ => if (s.element node).done then
        s.element node
        else netInterface (s.element node) nodes
    | _ => netInterface s nodes

/-- The outer loop. -/
def netDevices : NetSearch → List XmlNode → NetSearch
  | s, [] => s
  | s, node :: nodes =>
    match node with
    | .element _ _ _ =>
      let s := if node.named (cstr "interface") then netInterface s node.children else s
      if s.done then s else netDevices s nodes
    | _ => netDevices s nodes

/-- What a call comes to: the domain and the device that libvirt was asked for, what it said, and
what is returned. -/
structure NetStat where
  asked : Option (Bytes × Bytes) := none
  stat : Option IfStat := none
  ret : Int := -1
  deriving DecidableEq, Repr

/-- `__domain_xml_net_stat`. -/
def domainXmlNetStat (reader : XmlReader) (ifstat : Bytes → Bytes → Option IfStat)
    (name xml : Bytes) : NetStat :=
  match reader xml with
  | none => {}
  | some root =>
    if root.named (cstr "domain") = false then {}
    else match root.children.find? (·.named (cstr "devices")) with
    | none => {}
    | some devices =>
      match netDevices {} devices.children with
      | ⟨true, some target⟩ =>
        match ifstat name target with
        | some stat => { asked := some (name, target), stat := some stat, ret := 0 }
        | none => { asked := some (name, target) }
      | _ => {}

end LuoYun

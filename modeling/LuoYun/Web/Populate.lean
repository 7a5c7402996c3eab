import LuoYun.Web.Network
import LuoYun.Web.Python
import Mathlib.Order.Defs.LinearOrder

/-!
# Filling the pools of a network and of a gateway

`app/network/admin_views.py`: `add_to_ippool` makes a row for every address of a network, and
`add_to_portmapping` one for every port of a gateway. Both leave out what the administrator has
listed, and what is there already.

The addresses are those of IPy, a library: `IPy` is what is used of it.
-/

namespace LuoYun.Web

/-! ## Addresses -/

/-- IPy: addresses can be compared, read and written, and a network can be gone through. `none` is
an exception. -/
structure IPy (α : Type) where
  /-- `IP(text)`. -/
  parse : Bytes → Option α
  /-- The addresses of `IP(text, make_net=True)`. -/
  network : Bytes → Option (List α)
  /-- `ip.strNormal()`. -/
  strNormal : α → Bytes

/-- What is documented: a network is gone through in increasing order, and different addresses are
written in different ways. -/
structure IPy.Lawful {α : Type} [LinearOrder α] (ipy : IPy α) : Prop where
  increasing : ∀ text l, ipy.network text = some l → l.Pairwise (· < ·)
  injective : ∀ x y, ipy.strNormal x = ipy.strNormal y → x = y

/-- `NetworkPool`. -/
structure NetworkPool where
  id : Int
  start : Bytes
  last : Bytes
  netmask : Bytes
  excludeIps : Bytes
  deriving DecidableEq, Repr

/-- The text of the network, from its first address. -/
def NetworkPool.network (N : NetworkPool) : Bytes := N.start ++ cstr "/" ++ N.netmask

/-- The row of an address. -/
def newIp (network : Int) (id : Int) (ip : Bytes) : IPPool := ⟨id, ip, network, none⟩

section

variable {α : Type} [LinearOrder α]

/-- The loop over the addresses of the network. The rows come with the next number of the sequence.
-/
def ippoolLoop (ipy : IPy α) (N : NetworkPool) (start last : α) :
    List α → List IPPool × Int → List IPPool × Int
  | [], t => t
  | x :: rest, t =>
    if last < x then t
    else if start ≤ x ∧ ¬ occurs (ipy.strNormal x) N.excludeIps then
      ippoolLoop ipy N start last rest (Table.insertNew IPPool.ip (newIp N.id) t (ipy.strNormal x))
    else ippoolLoop ipy N start last rest t

/-- `NetworkHandler.add_to_ippool`. -/
def addToIppool (ipy : IPy α) (N : NetworkPool) (t : List IPPool × Int) :
    Option (List IPPool × Int) := do
  let start ← ipy.parse N.start
  let last ← ipy.parse N.last
  let l ← ipy.network N.network
  return ippoolLoop ipy N start last l t

end

/-! ## Ports -/

/-- `Gateway`, as it is configured. -/
structure GatewayConfig where
  id : Int
  start : Int
  last : Int
  excludePorts : Bytes
  deriving DecidableEq, Repr

/-- The list `exclude_ports`; `none` is an exception. -/
def GatewayConfig.exclude (G : GatewayConfig) : Option (List Int) :=
  (split G.excludePorts).mapM fun x => int (strip x)

/-- The row of a port. -/
def newPort (gateway : Int) (id : Int) (port : Int) : PortMapping := ⟨id, port, gateway, none, none⟩

/-- A round of the loop over the ports. A port is there if any gateway has it. -/
def addPort (gateway : Int) (exclude : List Int) (t : List PortMapping × Int) (cur : Int) :
    List PortMapping × Int :=
  if cur ∈ exclude then t else Table.insertNew PortMapping.gatewayPort (newPort gateway) t cur

/-- `GatewayHandler.add_to_portmapping`. The loop ends before the last port. -/
def addToPortmapping (G : GatewayConfig) (t : List PortMapping × Int) :
    Option (List PortMapping × Int) := do
  let exclude ← G.exclude
  return (range G.start G.last).foldl (addPort G.id exclude) t

/-- What happens to the table of ports: a gateway is configured, or a port is bound or freed. -/
inductive PortEvent where
  | configure (G : GatewayConfig)
  | bind (mapping : Int) (dest : Option (Int × Int))

/-- The table after an event. A configuration that raises an exception changes nothing. -/
def PortEvent.after (t : List PortMapping × Int) : PortEvent → List PortMapping × Int
  | .configure G => (addToPortmapping G t).getD t
  | .bind mapping dest =>
    (Table.update PortMapping.id mapping
      (fun m => { m with ipId := dest.map Prod.fst, ipPort := dest.map Prod.snd }) t.1, t.2)

/-- The table after some events. -/
def afterEvents (events : List PortEvent) : List PortMapping × Int :=
  events.foldl PortEvent.after ([], 1)

end LuoYun.Web

import LuoYun.Compute.NodeInfo
import LuoYun.Lib.Machine
import LuoYun.Util.Auth
import LuoYun.Util.Packet
import LuoYun.Util.Xml

/-!
# `events.c` of the compute node: the work connection

The node keeps one connection to the controller. On it both sides authenticate each other, the node
registers itself, and the controller sends its requests. How far the node has come is `g_c->state`,
which every handler may rewrite.

A packet is handled as a whole (`workPacket`), except that a document may have several requests and
responses in it, which are handled one after the other (`workElement`). `workNext` is the node as
the main loop drives it, with a step for each of them.

`trace` is not in the C program: it is what has happened on the connection since it was opened, the
latest first.
-/

namespace LuoYun

/-! ## Control requests -/

/-- `NodeCtrlInstance` with the fields that the controller never sets. -/
structure NodeCtrlRequest extends NodeCtrlInstance where
  reply : Int := 0
  insMac : Option Bytes := none
  appUri : Option Bytes := none
  osmClcip : Option Bytes := none
  osmClcport : Int := 0
  storageIp : Option Bytes := none
  storageMethod : Int := 0
  storageParm : Option Bytes := none
  deriving DecidableEq, Repr

/-- `LUOYUN_REQUEST_REPLY_RESULT | LUOYUN_REQUEST_REPLY_STATUS`. -/
def luoyunRequestReplyAll : Int := 3

/-- A path under `/luoyun/request/parameters`. -/
def inParameters (path : List String) : List Bytes := (["request", "parameters"] ++ path).map cstr

/-- An `int` field of a request: it stays zero when the element is missing. -/
def paramInt (root : XmlNode) (path : List String) : Int :=
  ((root.xpathText (inParameters path)).map atoi).getD 0

/-- The request that `__process_xml_request` builds from the document. Both flags of `reply` are set
whatever the document says, since `xml_xpath_exist_from_ctx` asks whether the path could be
evaluated, not whether it matched. -/
def nodeCtrlRequest (root : XmlNode) (id action : Int) : Option NodeCtrlRequest :=
  match root.xpathProp (inParameters ["instance"]) (cstr "id"),
      root.xpathText (inParameters ["instance", "domain"]) with
  | some insId, some insDomain =>
    some {
      reqId := id
      reqAction := action
      reply := luoyunRequestReplyAll
      insId := atoi insId
      insName := root.xpathText (inParameters ["instance", "name"])
      insDomain := some insDomain
      insJson := root.xpathText (inParameters ["instance", "domxml"])
      insStatus := ((root.xpathProp (inParameters ["instance"]) (cstr "status")).map atoi).getD 0
      insVcpu := paramInt root ["instance", "vcpu"]
      insMem := paramInt root ["instance", "memory"]
      insExtsize := paramInt root ["instance", "extsize"]
      insMac := root.xpathText (inParameters ["instance", "mac"])
      insIp := root.xpathText (inParameters ["instance", "ip"])
      appId := ((root.xpathProp (inParameters ["appliance"]) (cstr "id")).map atoi).getD 0
      appName := root.xpathText (inParameters ["appliance", "name"])
      appUri := root.xpathText (inParameters ["appliance", "uri"])
      appChecksum := root.xpathText (inParameters ["appliance", "checksum"])
      osmClcip := root.xpathText (inParameters ["osmanager", "clc", "ip"])
      osmClcport := paramInt root ["osmanager", "clc", "port"]
      osmTag := paramInt root ["osmanager", "tag"]
      osmSecret := root.xpathText (inParameters ["osmanager", "secret"])
      osmJson := root.xpathText (inParameters ["osmanager", "json"])
      storageIp := root.xpathText (inParameters ["storage", "ip"])
      storageMethod := paramInt root ["storage", "method"]
      storageParm := root.xpathText (inParameters ["storage", "parm"]) }
  | _, _ => none

/-! ## The state -/

/-- What happens on a connection, as far as authentication is concerned. -/
inductive Mark where
  /-- `g_c->state` was assigned. -/
  | state (s : Int)
  /-- A challenge went out. -/
  | challenge (ch : Uuid)
  /-- `lyauth_verify` returned 1 for this challenge. -/
  | verified (ch : Uuid)
  /-- `ly_handler_instance_control` was called. -/
  | control (ci : NodeCtrlRequest)
  deriving DecidableEq

/-- The part of `NodeControl` that belongs to the work connection. -/
structure NodeControl where
  wfd : Int := -1
  state : Int := NodeStatus.unknown
  node : NodeInfo := {}
  auth : AuthConfig := {}
  /-- The counter of `lynode_new_request_id`. -/
  requestId : Nat := 1
  tick : Nat := 0
  sent : List (Int × Bytes) := []
  trace : List Mark := []
  deriving DecidableEq

/-- What the node calls and does not contain. The answers are numbered by the calls made so far. -/
structure WorkEnv where
  cipher : Cipher
  readDoc : XmlReader
  uuid : Nat → Uuid
  sendmsg : Nat → SendResult
  /-- The socket that `ly_epoll_work_register` opens; it fails unless that is positive. -/
  connect : Nat → Int
  hypervisor : Nat → Hypervisor
  host : Nat → HostState
  /-- What `ly_handler_instance_control` returns. -/
  control : Nat → NodeCtrlRequest → Int

namespace NodeControl

/-- One more call has left the program. -/
def called (g : NodeControl) : NodeControl := { g with tick := g.tick + 1 }

/-- Something has happened on the connection. -/
def mark (g : NodeControl) (m : Mark) : NodeControl := { g with trace := m :: g.trace }

/-- `g_c->state = s`. -/
def setState (g : NodeControl) (s : Int) : NodeControl := { g.mark (.state s) with state := s }

/-- `g_c->auth.secret = secret`. -/
def setSecret (g : NodeControl) (secret : Option Bytes) : NodeControl :=
  { g with auth := { g.auth with secret } }

/-- `g_c->node->host_tag = tag`. -/
def setTag (g : NodeControl) (hostTag : Int) : NodeControl :=
  { g with node := { g.node with hostTag } }

end NodeControl

/-- `ly_packet_send` on the work socket. Only a packet that goes out whole counts as sent. -/
def workSend (env : WorkEnv) (g : NodeControl) (type : Int) (data : Bytes) : NodeControl × Int :=
  match lyPacketFrame g.wfd type data with
  | .error e => (g, e)
  | .ok _ =>
    let out := if env.sendmsg g.tick = .all then [(type, data)] else []
    ({ g.called with sent := g.sent ++ out }, (env.sendmsg g.tick).code)

/-- `ly_node_info_update`, with the answers that it gets now. -/
def workNodeInfoUpdate (env : WorkEnv) (g : NodeControl) : NodeControl × Int :=
  let r := lyNodeInfoUpdate (env.hypervisor g.tick) { env.host g.tick with state := g.state } g.node
  ({ g.called with node := r.1 }, r.2)

/-! ## Registration -/

/-- The first part of `ly_register_node`: ask the controller to prove that it knows the secret. -/
def requestChallenging (env : WorkEnv) (g : NodeControl) : NodeControl × Int :=
  let ch := env.uuid g.tick
  let g := { g.called with auth := { g.auth with challenge := some ch } }
  let r := workSend env g PktType.nodeAuthRequest
    (le32 g.node.hostTag ++ strncpy luoyunAuthDataLen ch.text)
  if r.2 < 0 then (r.1, -1) else ((r.1.mark (.challenge ch)).setState NodeStatus.authenticating, 0)

/-- The second part of `ly_register_node`: send the register request. -/
def requestRegister (env : WorkEnv) (g : NodeControl) : NodeControl × Int :=
  let u := workNodeInfoUpdate env g
  if u.2 < 0 then (u.1, -1)
  else
    let g := if NodeStatus.unauthenticated ≤ u.1.state ∧ NodeStatus.authenticated ≤ u.1.state then
        u.1.setState NodeStatus.unregistered
      else u.1
    let id := g.requestId
    let g := { g with requestId := g.requestId + 1 }
    match lyxmlDataNodeRegister (toInt32 id) g.node with
    | none => (g, -1)
    | some xml =>
      let r := workSend env g PktType.nodeRegisterRequest xml
      if r.2 < 0 then (r.1, -1)
      else if r.1.state = NodeStatus.unregistered then (r.1.setState NodeStatus.registering, 0)
      else (r.1, 0)

/-- `ly_register_node`. -/
def lyRegisterNode (env : WorkEnv) (g : NodeControl) : NodeControl × Int :=
  if g.wfd < 0 then (g, -255)
  else if g.state = NodeStatus.initialized then requestChallenging env g
  else requestRegister env g

/-! ## Documents -/

/-- `__process_node_query`. -/
def processNodeQuery (env : WorkEnv) (g : NodeControl) (reqId : Int) : NodeControl × Int :=
  let u := workNodeInfoUpdate env g
  let status := if u.2 < 0 then LyS.finishedFailure else LyS.finishedSuccess
  match lyxmlDataReplyNodeInfo reqId status u.1.node with
  | none => (u.1, -1)
  | some xml =>
    let r := workSend env u.1 PktType.clcNodeControlReply xml
    -- a status that is reported once
    if r.1.state = NodeStatus.check ∨ r.1.state = NodeStatus.error then
      (r.1.setState NodeStatus.ready, r.2)
    else r

/-- `__process_xml_request`. -/
def processXmlRequest (env : WorkEnv) (g : NodeControl) (root node : XmlNode) : NodeControl × Int :=
  match node.prop (cstr "id"), node.prop (cstr "action") with
  | some id, some action =>
    if atoi action = LyA.nodeQuery then processNodeQuery env g (atoi id)
    else match nodeCtrlRequest root (atoi id) (atoi action) with
    | none => (g, -1)
    | some ci => (g.called.mark (.control ci), env.control g.tick ci)
  | _, _ => (g, -1)

/-- The end of `__process_xml_response`: the tag and the secret that the controller has given out.
-/
def nodeConfig (env : WorkEnv) (g : NodeControl) (root : XmlNode) : NodeControl × Int :=
  match root.xpathText (["response", "data", "tag"].map cstr) with
  | none => (g, -1)
  | some tag =>
    let g := g.setTag (atoi tag)
    match root.xpathText (["response", "data", "secret"].map cstr) with
    | none => (g.setSecret none, -1)
    | some secret =>
      let r := lyRegisterNode env ((g.setSecret (some secret)).setState NodeStatus.initialized)
      (r.1, if r.2 = 0 then 0 else -1)

/-- `__process_xml_response`. -/
def processXmlResponse (env : WorkEnv) (g : NodeControl) (root node : XmlNode) :
    NodeControl × Int :=
  match node.prop (cstr "status") with
  | none => (g, -1)
  | some status =>
    if atoi status = LyS.registeringInit then (g.setState NodeStatus.uninitialized, 0)
    else if atoi status = LyS.registeringDoneSuccess then (g.setState NodeStatus.registered, 0)
    else if atoi status = LyS.registeringReinit then
      (((g.setTag (-1)).setSecret none).setState NodeStatus.uninitialized, 0)
    else if atoi status = LyS.registeringConfig then nodeConfig env g root
    else (g, 0)

/-- One child of the root in `__process_work_xml`. -/
def workElement (env : WorkEnv) (g : NodeControl) (root node : XmlNode) : NodeControl × Int :=
  if node.named (cstr "response") then processXmlResponse env g root node
  else if node.named (cstr "request") then processXmlRequest env g root node
  else (g, 0)

/-- The loop of `__process_work_xml`. -/
def workElements (env : WorkEnv) (root : XmlNode) : List XmlNode → NodeControl → NodeControl × Int
  | [], g => (g, 0)
  | node :: nodes, g =>
    let r := workElement env g root node
    if r.2 < 0 then (r.1, -1) else workElements env root nodes r.1

/-- The children that `__process_work_xml` goes through, or what it returns at once. -/
def workDocument (env : WorkEnv) (text : Bytes) : Except Int (XmlNode × List XmlNode) :=
  match env.readDoc text with
  | none => .error (-255)
  | some root => if root.named (cstr "luoyun") then .ok (root, root.children) else .error 0

/-- `__process_work_xml`. -/
def processWorkXml (env : WorkEnv) (g : NodeControl) (text : Bytes) : NodeControl × Int :=
  match workDocument env text with
  | .error ret => (g, ret)
  | .ok (root, nodes) => workElements env root nodes g

/-! ## The other packets -/

/-- `__process_work_authtication` on a reply. -/
def processAuthReply (env : WorkEnv) (g : NodeControl) (data : Bytes) : NodeControl × Int :=
  if g.state ≠ NodeStatus.authenticating then (g, -1)
  else
    let ret := (lyauthVerify env.cipher g.auth data).1
    if ret < 0 then (g, -1)
    else if ret = 0 then (g.setState NodeStatus.unauthenticated, 1)
    else match g.auth.challenge with
      -- without a challenge nothing is verified
      | none => (g.setState NodeStatus.authenticated, 0)
      | some ch => ((g.mark (.verified ch)).setState NodeStatus.authenticated, 0)

/-- `__process_work_authtication` on a request. -/
def processAuthRequest (env : WorkEnv) (g : NodeControl) (tag data : Bytes) : NodeControl × Int :=
  match lyauthAnswer env.cipher g.auth data with
  | none => (g, -1)
  | some answer =>
    let r := workSend env g PktType.nodeAuthReply (tag ++ answer)
    if r.2 < 0 then (r.1, -1) else ((lyRegisterNode env r.1).1, 0)

/-- `__process_work_authtication`. -/
def processWorkAuthtication (env : WorkEnv) (g : NodeControl) (isReply : Bool)
    (ai : Bytes) (len : Int) :
    NodeControl × Int :=
  if len ≠ sizeofAuthInfo then (g, -1)
  else if isReply then processAuthReply env g (ai.drop 4)
  else processAuthRequest env g (ai.take 4) (ai.drop 4)

/-- The state in which a node begins: it may have a tag from an earlier registration. -/
def initialState (g : NodeControl) : Int :=
  if 0 < g.node.hostTag then NodeStatus.initialized else NodeStatus.uninitialized

/-- `__process_work_join`. -/
def processWorkJoin (env : WorkEnv) (g : NodeControl) : NodeControl × Int :=
  ((lyRegisterNode env (g.setState (initialState g))).1, 0)

/-- `__process_work_echo`. -/
def processWorkEcho (env : WorkEnv) (g : NodeControl) (data : Bytes) : NodeControl × Int :=
  workSend env g PktType.testEchoReply data

/-- A packet as the handlers see it: the length that its header gives, that many bytes (none, if it
is negative), and the text up to the next zero byte. -/
structure WorkPacket where
  type : Int
  len : Int
  data : Bytes
  text : Bytes
  deriving DecidableEq

/-- `PKT_TYPE_ENTITY_GROUP_CLC` or `PKT_TYPE_ENTITY_GROUP_NODE`: the packet is a document. -/
def isDocument (type : Int) : Bool :=
  PktType.entityGroup type == EntityType.clc.code ||
    PktType.entityGroup type == EntityType.node.code

/-- The packets of `ly_epoll_work_recv` that are not documents. An unknown type leaves the `1` of
`ly_packet_recv`. -/
def workOther (env : WorkEnv) (g : NodeControl) (p : WorkPacket) : NodeControl × Int :=
  if p.type = PktType.joinRequest then processWorkJoin env g
  else if p.type = PktType.testEchoRequest then processWorkEcho env g p.data
  else if p.type = PktType.nodeAuthRequest ∨ p.type = PktType.nodeAuthReply then
    processWorkAuthtication env g (p.type == PktType.nodeAuthReply) p.data p.len
  else (g, 1)

/-- The types that come before the test for a document. -/
def isOther (type : Int) : Bool :=
  type == PktType.joinRequest || type == PktType.testEchoRequest ||
    type == PktType.nodeAuthRequest ||
    type == PktType.nodeAuthReply

/-- One packet in `ly_epoll_work_recv`. -/
def workPacket (env : WorkEnv) (g : NodeControl) (p : WorkPacket) : NodeControl × Int :=
  if isOther p.type = false ∧ isDocument p.type = true then processWorkXml env g p.text
  else workOther env g p

/-! ## The main loop -/

/-- `ly_epoll_work_close`. -/
def lyEpollWorkClose (g : NodeControl) : NodeControl :=
  { g.setState NodeStatus.unknown with wfd := -1 }

/-- What the main loop does with the result of a packet: any but zero closes the connection. -/
def workResult (r : NodeControl × Int) : NodeControl :=
  if r.2 = 0 then r.1 else lyEpollWorkClose r.1

/-- A new connection, and the first request on it. -/
def workConnect (env : WorkEnv) (g : NodeControl) : NodeControl :=
  let g := { g with trace := [] }.setState (initialState g)
  let fd := env.connect g.tick
  if fd ≤ 0 then lyEpollWorkClose g.called else workResult
    (lyRegisterNode env { g.called with wfd := fd })

/-- The node, and what is left of the document that it is at. -/
structure Work where
  g : NodeControl
  doc : Option (XmlNode × List XmlNode) := none

/-- What drives the node. -/
inductive WorkEvent where
  | connect
  /-- The controller closes the connection, or reading from it fails. -/
  | hangup
  | packet (p : WorkPacket)
  /-- The next child of the document at hand. -/
  | element

/-- A packet arrives: a document is taken apart, everything else is handled at once. -/
def workArrival (env : WorkEnv) (g : NodeControl) (p : WorkPacket) : Work :=
  if isOther p.type = false ∧ isDocument p.type = true then
    match workDocument env p.text with
    | .error ret => { g := workResult (g, ret) }
    | .ok doc => { g, doc := some doc }
  else { g := workResult (workOther env g p) }

/-- A child of the root is handled. After the last one the packet is done. -/
def workAdvance (env : WorkEnv) (g : NodeControl) (root : XmlNode) : List XmlNode → Work
  | [] => { g }
  | node :: nodes =>
    let r := workElement env g root node
    if r.2 < 0 then { g := lyEpollWorkClose r.1 } else { g := r.1, doc := some (root, nodes) }

/-- The node as the main loop drives it. -/
def workNext (env : WorkEnv) (w : Work) : WorkEvent → Option (Except Fault Work)
  | .connect =>
    if w.g.wfd < 0 ∧ w.doc = none then some (.ok { g := workConnect env w.g }) else none
  | .hangup =>
    if 0 ≤ w.g.wfd ∧ w.doc = none then some (.ok { g := lyEpollWorkClose w.g }) else none
  | .packet p =>
    if 0 ≤ w.g.wfd ∧ w.doc = none then some (.ok (workArrival env w.g p)) else none
  | .element =>
    match w.doc with
    | none => none
    | some (root, nodes) => some (.ok (workAdvance env w.g root nodes))

end LuoYun

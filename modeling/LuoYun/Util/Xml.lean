import LuoYun.Util.Text

/-!
# `lyxml.c` and `lyxml_data.c`: XML messages

Parsing is libxml2's: a parser is a function from text to the root element of the document,
or to nothing for text that is not well formed. What the platform does with a document is
here: an XPath of element names selects the first match in document order, and the text of an
element is its first child, if that is text.

The writers are `snprintf` into a buffer of `LUOYUN_XML_DATA_MAX` bytes and return `NULL`
when the message does not fit.
-/

namespace LuoYun

/-- A node of a parsed document. -/
inductive XmlNode where
  | element (name : Bytes) (attrs : List (Bytes × Bytes)) (children : List XmlNode)
  | text (content : Bytes)
  | cdata (content : Bytes)
  | other

/-- `xmlReadDoc` and `xmlDocGetRootElement`. -/
abbrev XmlReader := Bytes → Option XmlNode

namespace XmlNode

/-- `node->children`. -/
def children : XmlNode → List XmlNode
  | element _ _ cs => cs
  | _ => []

/-- An `XML_ELEMENT_NODE` of this name. -/
def named (name : Bytes) : XmlNode → Bool
  | element n _ _ => n == name
  | _ => false

/-- `xmlGetProp`. -/
def prop (key : Bytes) : XmlNode → Option Bytes
  | element _ attrs _ => (attrs.find? fun a => a.1 == key).map Prod.snd
  | _ => none

/-- The content of an `XML_TEXT_NODE`. -/
def textContent : XmlNode → Option Bytes
  | text c => some c
  | _ => none

/-- The first match of a path of element names, in document order. -/
def xpath : List Bytes → XmlNode → Option XmlNode
  | [], n => some n
  | name :: path, n => n.children.findSome? fun c => if c.named name then xpath path c else none

/-- `xml_xpath_text_from_ctx`: `xmlNodeIsText` also holds of CDATA. -/
def xpathText (root : XmlNode) (path : List Bytes) : Option Bytes :=
  match (xpath path root).map children with
  | some (text c :: _) => some c
  | some (cdata c :: _) => some c
  | _ => none

/-- `xml_xpath_prop_from_ctx`. -/
def xpathProp (root : XmlNode) (path : List Bytes) (key : Bytes) : Option Bytes :=
  (xpath path root).bind (prop key)

end XmlNode

/-- An `unsigned int` field assigned from `atoi`. -/
def atou (s : Bytes) : Int := toUInt32 (atoi s)

/-- `%d` of an `unsigned int`. -/
def decU (x : Int) : Bytes := dec (toInt32 x)

/-! ## Messages -/

/-- `LUOYUN_XML_DATA_MAX`. -/
def luoyunXmlDataMax : Nat := 2048

/-- `__LUOYUN_XML_DATA_RETURN` for a buffer of `size` bytes. -/
def xmlFits (size : Nat) (text : Bytes) : Option Bytes :=
  if text = [] ∨ size ≤ text.length then none else some text

theorem xmlFits_some {size : Nat} {text xml : Bytes} (h : xmlFits size text = some xml) :
    xml ≠ [] ∧ xml.length < size := by
  unfold xmlFits at h
  split at h
  · cases h
  · rename_i hfits
    obtain rfl := Option.some.inj h
    exact ⟨fun hnil => hfits (.inl hnil), Nat.lt_of_not_le fun hle => hfits (.inr hle)⟩

theorem xmlFits_of_length {size n : Nat} {text : Bytes} (hne : text ≠ [])
    (hlen : text.length ≤ n) (hn : n < size) :
    ∃ xml, xmlFits size text = some xml ∧ xml.length ≤ n := by
  refine ⟨text, if_neg ?_, hlen⟩
  rintro (hnil | hlong)
  · exact hne hnil
  · omega

/-- The declaration, the opening of the root and the two ends of the message. -/
def xmlOpen (sender receiver : EntityType) : Bytes :=
  cstr "<?xml version=\"1.0\" encoding=\"ISO-8859-1\"?><luoyun><from entity=\"" ++
    dec sender.code ++
    cstr "\"/><to entity=\"" ++ dec receiver.code ++ cstr "\"/>"

/-- `LUOYUN_XML_DATA_NODE_REGISTER`. -/
def xmlNodeRegister (reqId : Int) (ni : NodeInfo) : Bytes :=
  xmlOpen .node .clc ++ cstr "<request id=\"" ++ dec reqId ++ cstr "\" action=\"" ++
    dec LyA.clcRegisterNode ++
      cstr "\"><reply required=\"yes\"><result/></reply><parameters><status>" ++
    decU ni.status ++ cstr "</status><hypervisor>" ++ decU ni.hypervisor ++
    cstr "</hypervisor><host><tag>" ++ dec ni.hostTag ++ cstr "</tag><name>" ++
      ni.hostName.getD [] ++
    cstr "</name><ip>" ++ ni.hostIp.getD [] ++
      cstr "</ip></host><memory><total>" ++ dec ni.memMax ++
    cstr "</total><free>" ++ dec ni.memFree ++ cstr "</free><commit>" ++ dec ni.memCommit ++
    cstr "</commit></memory><cpu><arch>" ++ decU ni.cpuArch ++ cstr "</arch><model>" ++
    ni.cpuModel.getD [] ++ cstr "</model><mhz>" ++ decU ni.cpuMhz ++ cstr "</mhz><max>" ++
    decU ni.cpuMax ++ cstr "</max><commit>" ++ decU ni.cpuCommit ++
    cstr "</commit></cpu><storage><total>" ++ dec ni.storageTotal ++ cstr "</total><free>" ++
    dec ni.storageFree ++ cstr "</free></storage><load><average>" ++ decU ni.loadAverage ++
    cstr "</average></load></parameters></request></luoyun>"

/-- `lyxml_data_node_register`. -/
def lyxmlDataNodeRegister (reqId : Int) (ni : NodeInfo) : Option Bytes :=
  xmlFits luoyunXmlDataMax (xmlNodeRegister reqId ni)

/-- `LUOYUN_XML_DATA_REPLY_AUTH_INFO`. -/
def xmlReplyAuthInfo (reqId status tag : Int) (secret : Bytes) : Bytes :=
  xmlOpen .clc .node ++ cstr "<response id=\"" ++ dec reqId ++ cstr "\" status=\"" ++ dec status ++
    cstr "\"><data><tag>" ++ dec tag ++ cstr "</tag><secret>" ++ secret ++
    cstr "</secret></data></response></luoyun>"

/-- `lyxml_data_reply_auth_info`. -/
def lyxmlDataReplyAuthInfo (reqId status tag : Int) (secret : Bytes) : Option Bytes :=
  xmlFits luoyunXmlDataMax (xmlReplyAuthInfo reqId status tag secret)

/-- `lyxml_data_node_info`. -/
def lyxmlDataNodeInfo (reqId : Int) : Option Bytes :=
  xmlFits luoyunXmlDataMax (xmlOpen .clc .node ++ cstr "<request id=\"" ++ dec reqId ++
    cstr "\" action=\"" ++ dec LyA.nodeQuery ++
    cstr "\"><reply required=\"yes\"><result/></reply></request></luoyun>")

/-- `lyxml_data_reply_node_info`, in the answer of a node to the CLC. -/
def lyxmlDataReplyNodeInfo (reqId status : Int) (ni : NodeInfo) : Option Bytes :=
  xmlFits luoyunXmlDataMax (xmlOpen .node .clc ++ cstr "<response id=\"" ++ dec reqId ++
    cstr "\" status=\"" ++ dec status ++ cstr "\"><data type=\"" ++ dec dataNodeInfo ++
    cstr "\"><status>" ++ decU ni.status ++ cstr "</status><cpu><commit>" ++ decU ni.cpuCommit ++
    cstr "</commit></cpu><memory><free>" ++ dec ni.memFree ++ cstr "</free><commit>" ++
    dec ni.memCommit ++ cstr "</commit></memory><storage><free>" ++ dec ni.storageFree ++
    cstr "</free></storage><load><average>" ++ decU ni.loadAverage ++
    cstr "</average></load></data></response></luoyun>")

/-- `lyxml_data_reply`, in the answer of a node to the CLC. -/
def lyxmlDataReply (reqId status : Int) (msg : Option Bytes) : Option Bytes :=
  xmlFits luoyunXmlDataMax (xmlOpen .node .clc ++ cstr "<response id=\"" ++ dec reqId ++
    cstr "\" status=\"" ++ dec status ++ cstr "\"><result>" ++ msg.getD [] ++
    cstr "</result></response></luoyun>")

/-- `lyxml_data_reply_instance_info`, in the answer of a node to the CLC. -/
def lyxmlDataReplyInstanceInfo (reqId status : Int) (ii : InstanceInfo) : Option Bytes :=
  xmlFits luoyunXmlDataMax (xmlOpen .node .clc ++ cstr "<response id=\"" ++ dec reqId ++
    cstr "\" status=\"" ++ dec status ++ cstr "\"><data type=\"" ++ dec dataInstanceInfo ++
    cstr "\"><id>" ++ dec ii.id ++ cstr "</id><status>" ++ dec ii.status ++ cstr "</status><ip>" ++
    ii.ip.getD [] ++ cstr "</ip><gport>" ++ dec ii.gport ++ cstr "</gport><netstat0>" ++
    decL ii.rxBytes ++ cstr " " ++ decL ii.rxPkts ++ cstr " " ++ decL ii.txBytes ++ cstr " " ++
    decL ii.txPkts ++ cstr "</netstat0></data></response></luoyun>")

/-- `lyxml_data_report`, from a node to the CLC. -/
def lyxmlDataReport (status : Int) (msg : Option Bytes) : Option Bytes :=
  xmlFits luoyunXmlDataMax (xmlOpen .node .clc ++ cstr "<report><status>" ++ dec status ++
    cstr "</status><message>" ++ msg.getD [] ++ cstr "</message></report></luoyun>")

/-- `lyxml_data_report_node_info`, from a node to the CLC. -/
def lyxmlDataReportNodeInfo (ni : NodeInfo) : Option Bytes :=
  xmlFits luoyunXmlDataMax (xmlOpen .node .clc ++ cstr "<report><resource><cpu><commit>" ++
    decU ni.cpuCommit ++ cstr "</commit></cpu><memory><free>" ++ dec ni.memFree ++
    cstr "</free><commit>" ++ dec ni.memCommit ++ cstr "</commit></memory><storage><free>" ++
    dec ni.storageFree ++ cstr "</free></storage><load><average>" ++ decU ni.loadAverage ++
    cstr "</average></load></resource></report></luoyun>")

/-- `NodeCtrlInstance`. -/
structure NodeCtrlInstance where
  reqId : Int := 0
  reqAction : Int := 0
  insId : Int := 0
  insStatus : Int := 0
  insName : Option Bytes := none
  insVcpu : Int := 0
  insMem : Int := 0
  insExtsize : Int := 0
  insIp : Option Bytes := none
  insDomain : Option Bytes := none
  insJson : Option Bytes := none
  appId : Int := 0
  appName : Option Bytes := none
  appChecksum : Option Bytes := none
  osmTag : Int := 0
  osmSecret : Option Bytes := none
  osmJson : Option Bytes := none
  deriving DecidableEq, Repr

/-- `lyxml_data_instance_other`. -/
def lyxmlDataInstanceOther (ii : NodeCtrlInstance) : Option Bytes :=
  xmlFits luoyunXmlDataMax (xmlOpen .clc .node ++ cstr "<request id=\"" ++ dec ii.reqId ++
    cstr "\" action=\"" ++ dec ii.reqAction ++
    cstr "\"><reply required=\"yes\"><result/></reply><parameters><instance id=\"" ++
      dec ii.insId ++
    cstr "\"><domain>" ++ ii.insDomain.getD [] ++
    cstr "</domain></instance></parameters></request></luoyun>")

/-- `lyxml_data_instance_run`. The fields of `NodeCtrlInstance` that the CLC never sets are
empty or zero here. -/
def lyxmlDataInstanceRun (ii : NodeCtrlInstance) : Option Bytes :=
  let json := (ii.osmJson.getD []).length + (ii.insJson.getD []).length
  xmlFits (json + luoyunXmlDataMax) (xmlOpen .clc .node ++ cstr "<request id=\"" ++ dec ii.reqId ++
    cstr "\" action=\"" ++ dec ii.reqAction ++
    cstr "\"><reply required=\"yes\"><status/><result/></reply><parameters><instance id=\"" ++
    dec ii.insId ++ cstr "\" status=\"" ++ dec ii.insStatus ++ cstr "\"><name>" ++
    ii.insName.getD [] ++ cstr "</name><vcpu>" ++ dec ii.insVcpu ++ cstr "</vcpu><memory>" ++
    dec ii.insMem ++ cstr "</memory><extsize>" ++ dec ii.insExtsize ++
    cstr "</extsize><mac></mac><ip>" ++ ii.insIp.getD [] ++ cstr "</ip><domain>" ++
    ii.insDomain.getD [] ++ cstr "</domain><domxml>" ++ ii.insJson.getD [] ++
    cstr "</domxml></instance><appliance id=\"" ++ dec ii.appId ++ cstr "\"><name>" ++
    ii.appName.getD [] ++ cstr "</name><uri></uri><checksum>" ++ ii.appChecksum.getD [] ++
    cstr "</checksum></appliance><osmanager><clc><ip></ip><port>0</port></clc><tag>" ++
    dec ii.osmTag ++ cstr "</tag><secret>" ++ ii.osmSecret.getD [] ++ cstr "</secret><json>" ++
    ii.osmJson.getD [] ++ cstr "</json></osmanager><storage><ip></ip><method>0</method>" ++
    cstr "<parm></parm></storage></parameters></request></luoyun>")

/-- The text for an instance of another size is as long, up to the digits of the two numbers. -/
theorem lyxmlDataInstanceRun_resize (ii : NodeCtrlInstance) {xml : Bytes} {v m : Int}
    (h : lyxmlDataInstanceRun { ii with insVcpu := 0, insMem := 0 } = some xml)
    (hv : IsInt32 v) (hm : IsInt32 m) (hlen : xml.length + 20 < luoyunXmlDataMax) :
    ∃ xml', lyxmlDataInstanceRun { ii with insVcpu := v, insMem := m } = some xml' ∧
      xml'.length ≤ xml.length + 20 := by
  have hv' := length_dec_int32 hv
  have hm' := length_dec_int32 hm
  have h0 : (dec 0).length = 1 := by decide
  unfold lyxmlDataInstanceRun at h ⊢
  dsimp only at h ⊢
  unfold xmlFits at h
  split at h
  · cases h
  · obtain rfl := Option.some.inj h
    refine xmlFits_of_length (List.append_ne_nil_of_right_ne_nil _ (by decide)) ?_ (by omega)
    simp only [List.length_append, h0]
    omega

end LuoYun

import LuoYun.Proof.Obey
import LuoYun.Util.PlainXml

/-!
# What the controller says to a node

`ClcMessage` is what the controller may say: requests that an instance be started or controlled in
some other way, a query, and the answer to a register request. `text` is how the writers of
`lyxml_data.c` say it; as they escape nothing, the texts have to be plain. `__process_work_xml`
looks the fields up by their paths, and what it makes of them is `handle`
(`processWorkXml_message`).

Not every request is obeyed as it was meant. An empty element has no text, so a request without a
domain is refused, and so is a secret that is empty. And a query is recognised by its action alone,
before the fields of a request are looked at.
-/

namespace LuoYun

open XmlNode
open LuoYun.Markup

/-! ## The messages -/

/-- The numbers of a request. -/
def ctrlInts (ii : NodeCtrlInstance) : List Int :=
  [ii.reqId, ii.reqAction, ii.insId, ii.insStatus, ii.insVcpu, ii.insMem,
    ii.insExtsize, ii.appId, ii.osmTag]

/-- The texts of a request, where `NULL` is the same as an empty text. -/
def ctrlTexts (ii : NodeCtrlInstance) : List Bytes :=
  [ii.insName, ii.insIp, ii.insDomain, ii.insJson, ii.appName, ii.appChecksum, ii.osmSecret,
    ii.osmJson].map fun text => text.getD []

def runInstance (ii : NodeCtrlInstance) : Content :=
  leaf "name" (ii.insName.getD []) <| leaf "vcpu" (dec ii.insVcpu) <|
    leaf "memory" (dec ii.insMem) <|
  leaf "extsize" (dec ii.insExtsize) <| leaf "mac" [] <| leaf "ip" (ii.insIp.getD []) <|
  leaf "domain" (ii.insDomain.getD []) <| leaf "domxml" (ii.insJson.getD []) .nil

def runAppliance (ii : NodeCtrlInstance) : Content :=
  leaf "name" (ii.appName.getD []) <| leaf "uri" [] <| leaf "checksum" (ii.appChecksum.getD []) .nil

def runOsmanager (ii : NodeCtrlInstance) : Content :=
  .element (cstr "clc") [] (leaf "ip" [] <| leaf "port" (dec 0) .nil) <|
    leaf "tag" (dec ii.osmTag) <|
  leaf "secret" (ii.osmSecret.getD []) <| leaf "json" (ii.osmJson.getD []) .nil

def runStorage : Content := leaf "ip" [] <| leaf "method" (dec 0) <| leaf "parm" [] .nil

def runParameters (ii : NodeCtrlInstance) : Content :=
  .element (cstr "instance") [(cstr "id", dec ii.insId), (cstr "status", dec ii.insStatus)]
    (runInstance ii) <|
  .element (cstr "appliance") [(cstr "id", dec ii.appId)] (runAppliance ii) <|
  .element (cstr "osmanager") [] (runOsmanager ii) <| .element (cstr "storage") [] runStorage .nil

def runReply : Content := .empty (cstr "status") [] <| .empty (cstr "result") [] .nil

def otherReply : Content := .empty (cstr "result") [] .nil

def otherParameters (ii : NodeCtrlInstance) : Content :=
  .element (cstr "instance") [(cstr "id", dec ii.insId)]
    (leaf "domain" (ii.insDomain.getD []) .nil) .nil

/-- The request of `lyxml_data_instance_run`. -/
def runItem (ii : NodeCtrlInstance) : Content :=
  requestItem ii.reqId ii.reqAction runReply (runParameters ii)

theorem runItem_nodes (ii : NodeCtrlInstance) :
    toNodes (runItem ii) = [requestNode ii.reqId ii.reqAction runReply (runParameters ii)] := rfl

/-- The request of `lyxml_data_instance_other`. -/
def otherItem (ii : NodeCtrlInstance) : Content :=
  requestItem ii.reqId ii.reqAction otherReply (otherParameters ii)

theorem otherItem_nodes (ii : NodeCtrlInstance) :
    toNodes (otherItem ii) = [requestNode ii.reqId ii.reqAction otherReply (otherParameters ii)] :=
  rfl

/-- The request of `lyxml_data_node_info`, which has no parameters. -/
def queryItem (reqId : Int) : Content :=
  .element (cstr "request") [(cstr "id", dec reqId), (cstr "action", dec LyA.nodeQuery)]
    (.element (cstr "reply") [(cstr "required", cstr "yes")] (.empty (cstr "result") [] .nil) .nil)
      .nil

def queryNode (reqId : Int) : XmlNode :=
  .element (cstr "request") [(cstr "id", dec reqId), (cstr "action", dec LyA.nodeQuery)]
    (toNodes (.element (cstr "reply") [(cstr "required", cstr "yes")]
      (.empty (cstr "result") [] .nil) .nil))

theorem queryItem_nodes (reqId : Int) : toNodes (queryItem reqId) = [queryNode reqId] := rfl

theorem queryNode_props (reqId : Int) : (queryNode reqId).prop (cstr "id") = some (dec reqId) ∧
    (queryNode reqId).prop (cstr "action") = some (dec LyA.nodeQuery) := ⟨rfl, rfl⟩

theorem atoi_nodeQuery : atoi (dec LyA.nodeQuery) = LyA.nodeQuery := atoi_dec_int (by decide)

/-- The data of `lyxml_data_reply_auth_info`. -/
def authInfoData (tag : Int) (secret : Bytes) : Content :=
  .element (cstr "data") [] (leaf "tag" (dec tag) <| leaf "secret" secret .nil) .nil

/-- What the controller says to a node. -/
inductive ClcMessage where
  | run (ii : NodeCtrlInstance)
  | other (ii : NodeCtrlInstance)
  | query (reqId : Int)
  | authInfo (reqId status tag : Int) (secret : Bytes)

namespace ClcMessage

/-- The document of a message, if it fits. -/
def text : ClcMessage → Option Bytes
  | run ii => lyxmlDataInstanceRun ii
  | other ii => lyxmlDataInstanceOther ii
  | query reqId => lyxmlDataNodeInfo reqId
  | authInfo reqId status tag secret => lyxmlDataReplyAuthInfo reqId status tag secret

/-- The element that makes up the message. -/
def item : ClcMessage → Content
  | run ii => runItem ii
  | other ii => otherItem ii
  | query reqId => queryItem reqId
  | authInfo reqId status tag secret => responseItem reqId status (authInfoData tag secret)

/-- The texts are plain, and the numbers are values of their types. -/
def WellFormed : ClcMessage → Prop
  | run ii => (∀ x ∈ ctrlInts ii, IsInt32 x) ∧ ∀ t ∈ ctrlTexts ii, PlainText t
  | other ii => IsInt32 ii.reqId ∧ IsInt32 ii.reqAction ∧ IsInt32 ii.insId ∧
      PlainText (ii.insDomain.getD [])
  | query reqId => IsInt32 reqId
  | authInfo _ status tag secret => IsInt32 status ∧ IsInt32 tag ∧ PlainText secret

theorem text_eq {msg : ClcMessage} {text : Bytes} (h : msg.text = some text) :
    text = messageText .clc .node msg.item := by
  cases msg with
  | run ii =>
    have hz : dec 0 = cstr "0" := rfl
    delta ClcMessage.text lyxmlDataInstanceRun at h
    rw [xmlFits_eq h, messageText_eq]
    simp only [item, runItem, runReply, requestItem, runParameters, runInstance, runAppliance,
      runOsmanager, runStorage, render_leaf, render_element, render_empty, render_nil,
      renderAttrs_cons, renderAttrs_nil, List.append_assoc, List.nil_append, List.append_nil, hz,
      cstr_cat, ← cstr_append, String.reduceAppend]
  | other ii =>
    delta ClcMessage.text lyxmlDataInstanceOther at h
    rw [xmlFits_eq h, messageText_eq]
    simp only [item, otherItem, otherReply, otherParameters, requestItem, render_leaf,
      render_element, render_empty, render_nil, renderAttrs_cons, renderAttrs_nil,
      List.append_assoc, List.nil_append, List.append_nil, cstr_cat, ← cstr_append,
      String.reduceAppend]
  | query reqId =>
    delta ClcMessage.text lyxmlDataNodeInfo at h
    rw [xmlFits_eq h, messageText_eq]
    simp only [item, queryItem, render_element, render_empty, render_nil, renderAttrs_cons,
      renderAttrs_nil, List.append_assoc, List.nil_append, List.append_nil, cstr_cat, ← cstr_append,
      String.reduceAppend]
  | authInfo reqId status tag secret =>
    delta ClcMessage.text lyxmlDataReplyAuthInfo xmlReplyAuthInfo at h
    rw [xmlFits_eq h, messageText_eq]
    simp only [item, responseItem, authInfoData, render_leaf, render_element, render_nil,
      renderAttrs_cons, renderAttrs_nil, List.append_assoc, List.nil_append, List.append_nil,
      cstr_cat, ← cstr_append, String.reduceAppend]

end ClcMessage

/-! ## They are plain -/

theorem runInstance_plain {ii : NodeCtrlInstance} (h : ∀ t ∈ ctrlTexts ii, PlainText t) :
    (runInstance ii).Plain := by
  simp only [ctrlTexts, List.map_cons, List.map_nil, List.forall_mem_cons] at h
  obtain ⟨hname, hip, hdomain, hjson, -⟩ := h
  exact leaf_plain (by decide) hname <| leaf_plain (by decide) (dec_plain _) <|
    leaf_plain (by decide) (dec_plain _) <| leaf_plain (by decide) (dec_plain _) <|
    leaf_plain (by decide) plainText_nil <| leaf_plain (by decide) hip <|
      leaf_plain (by decide) hdomain <|
    leaf_plain (by decide) hjson trivial

theorem runAppliance_plain {ii : NodeCtrlInstance} (h : ∀ t ∈ ctrlTexts ii, PlainText t) :
    (runAppliance ii).Plain := by
  simp only [ctrlTexts, List.map_cons, List.map_nil, List.forall_mem_cons] at h
  obtain ⟨-, -, -, -, hname, hchecksum, -⟩ := h
  exact leaf_plain (by decide) hname <| leaf_plain (by decide) plainText_nil <|
    leaf_plain (by decide) hchecksum trivial

theorem runOsmanager_plain {ii : NodeCtrlInstance} (h : ∀ t ∈ ctrlTexts ii, PlainText t) :
    (runOsmanager ii).Plain := by
  simp only [ctrlTexts, List.map_cons, List.map_nil, List.forall_mem_cons] at h
  obtain ⟨-, -, -, -, -, -, hsecret, hjson, -⟩ := h
  have hclc : (leaf "ip" [] (leaf "port" (dec 0) .nil)).Plain :=
    leaf_plain (by decide) plainText_nil <| leaf_plain (by decide) (dec_plain 0) trivial
  exact ⟨by decide, plainAttrs_nil, hclc, leaf_plain (by decide) (dec_plain _) <|
    leaf_plain (by decide) hsecret <| leaf_plain (by decide) hjson trivial⟩

theorem runStorage_plain : runStorage.Plain :=
  leaf_plain (by decide) plainText_nil <| leaf_plain (by decide) (dec_plain 0) <|
    leaf_plain (by decide) plainText_nil trivial

theorem runItem_plain {ii : NodeCtrlInstance} (h : ∀ t ∈ ctrlTexts ii, PlainText t) :
    (runItem ii).Plain := by
  have hparam : (runParameters ii).Plain :=
    ⟨by decide, plainAttrs_two (by decide) (by decide) (by decide) _ _, runInstance_plain h,
      by decide, plainAttrs_one (by decide) _, runAppliance_plain h,
      by decide, plainAttrs_nil, runOsmanager_plain h, by
        decide, plainAttrs_nil, runStorage_plain, trivial⟩
  exact requestItem_plain ⟨by decide, plainAttrs_nil, by decide, plainAttrs_nil, trivial⟩ hparam

theorem otherItem_plain {ii : NodeCtrlInstance} (h : PlainText (ii.insDomain.getD [])) :
    (otherItem ii).Plain :=
  requestItem_plain ⟨by decide, plainAttrs_nil, trivial⟩
    ⟨by decide, plainAttrs_one (by decide) _, leaf_plain (by decide) h trivial, trivial⟩

theorem ClcMessage.item_plain {msg : ClcMessage} (h : msg.WellFormed) : msg.item.Plain := by
  cases msg with
  | run ii => exact runItem_plain h.2
  | other ii => exact otherItem_plain h.2.2.2
  | query reqId =>
    exact ⟨by decide, plainAttrs_two (by decide) (by decide) (by decide) _ _,
      ⟨by decide, plainAttrs_required, ⟨by decide, plainAttrs_nil, trivial⟩, trivial⟩, trivial⟩
  | authInfo reqId status tag secret =>
    exact responseItem_plain ⟨by decide, plainAttrs_nil,
      leaf_plain (by decide) (dec_plain _) (leaf_plain (by decide) h.2.2 trivial), trivial⟩

/-! ## The node finds the fields -/

theorem paramInt_leaf {root : XmlNode} {path : List String} {tag : Bytes} {x : Int} (hx : IsInt32 x)
    (h : xpath (inParameters path) root = some (.element tag [] (toNodes (ofText (dec x))))) :
    paramInt root path = x := by
  rw [paramInt, xpathText_dec h, Option.map_some, Option.getD_some, atoi_dec_int hx]

/-- The document of a message. -/
def clcRoot (msg : ClcMessage) : XmlNode := messageRoot .clc .node msg.item

/-- What a node reads in a request to start an instance: an empty text is `NULL`, and of the
elements that the controller leaves empty there is nothing to read. -/
def runRequest (ii : NodeCtrlInstance) : NodeCtrlRequest where
  reqId := ii.reqId
  reqAction := ii.reqAction
  reply := luoyunRequestReplyAll
  insId := ii.insId
  insStatus := ii.insStatus
  insName := elementText (ii.insName.getD [])
  insVcpu := ii.insVcpu
  insMem := ii.insMem
  insExtsize := ii.insExtsize
  insIp := elementText (ii.insIp.getD [])
  insDomain := elementText (ii.insDomain.getD [])
  insJson := elementText (ii.insJson.getD [])
  appId := ii.appId
  appName := elementText (ii.appName.getD [])
  appChecksum := elementText (ii.appChecksum.getD [])
  osmTag := ii.osmTag
  osmSecret := elementText (ii.osmSecret.getD [])
  osmJson := elementText (ii.osmJson.getD [])

/-- What it reads in another request. -/
def otherRequest (ii : NodeCtrlInstance) : NodeCtrlRequest where
  reqId := ii.reqId
  reqAction := ii.reqAction
  reply := luoyunRequestReplyAll
  insId := ii.insId
  insDomain := elementText (ii.insDomain.getD [])

theorem nodeCtrlRequest_none {root : XmlNode}
    (h : root.xpathText (inParameters ["instance", "domain"]) = none)
    (id action : Int) : nodeCtrlRequest root id action = none := by
  rw [nodeCtrlRequest, h]
  split
  · rename_i heq
    exact absurd heq (by simp)
  · rfl

/-- The fields of a request are found where the node looks for them. -/
theorem nodeCtrlRequest_run {ii : NodeCtrlInstance} (h : (ClcMessage.run ii).WellFormed) :
    nodeCtrlRequest (clcRoot (.run ii)) ii.reqId ii.reqAction =
      if (runRequest ii).insDomain = none then none else some (runRequest ii) := by
  have hnone : (runRequest ii).insDomain = none ↔ ii.insDomain.getD [] = [] := elementText_eq_none
  have hints := h.1
  simp only [ctrlInts, List.forall_mem_cons] at hints
  obtain ⟨_, _, hinsId, hinsStatus, hinsVcpu, hinsMem, hinsExt, happId, hosmTag, _⟩ := hints
  have hdomain : (clcRoot (.run ii)).xpathText (inParameters ["instance", "domain"]) =
      elementText (ii.insDomain.getD []) := xpathText_leaf rfl
  by_cases hdom : ii.insDomain.getD [] = []
  · rw [if_pos (hnone.mpr hdom)]
    rw [hdom] at hdomain
    exact nodeCtrlRequest_none hdomain _ _
  rw [if_neg (hnone.not.mpr hdom)]
  have hid : (clcRoot (.run ii)).xpathProp (inParameters ["instance"]) (cstr "id") =
      some (dec ii.insId) :=
    xpathProp_node rfl rfl
  have hstatus : (clcRoot (.run ii)).xpathProp (inParameters ["instance"]) (cstr "status") =
      some (dec ii.insStatus) :=
    xpathProp_node rfl rfl
  have happ : (clcRoot (.run ii)).xpathProp (inParameters ["appliance"]) (cstr "id") =
      some (dec ii.appId) :=
    xpathProp_node rfl rfl
  have hvcpu : paramInt (clcRoot (.run ii)) ["instance", "vcpu"] = ii.insVcpu :=
    paramInt_leaf hinsVcpu rfl
  have hmem : paramInt (clcRoot (.run ii)) ["instance", "memory"] = ii.insMem :=
    paramInt_leaf hinsMem rfl
  have hext : paramInt (clcRoot (.run ii)) ["instance", "extsize"] = ii.insExtsize :=
    paramInt_leaf hinsExt rfl
  have htag : paramInt (clcRoot (.run ii)) ["osmanager", "tag"] = ii.osmTag :=
    paramInt_leaf hosmTag rfl
  have hport : paramInt (clcRoot (.run ii)) ["osmanager", "clc", "port"] = 0 :=
    paramInt_leaf (by decide) rfl
  have hmethod : paramInt (clcRoot (.run ii)) ["storage", "method"] = 0 :=
    paramInt_leaf (by decide) rfl
  have hname : (clcRoot (.run ii)).xpathText (inParameters ["instance", "name"]) =
      elementText (ii.insName.getD []) :=
    xpathText_leaf rfl
  have hip : (clcRoot (.run ii)).xpathText (inParameters ["instance", "ip"]) =
      elementText (ii.insIp.getD []) :=
    xpathText_leaf rfl
  have hjson : (clcRoot (.run ii)).xpathText (inParameters ["instance", "domxml"]) =
      elementText (ii.insJson.getD []) := xpathText_leaf rfl
  have happName : (clcRoot (.run ii)).xpathText (inParameters ["appliance", "name"]) =
      elementText (ii.appName.getD []) := xpathText_leaf rfl
  have hchecksum : (clcRoot (.run ii)).xpathText (inParameters ["appliance", "checksum"]) =
      elementText (ii.appChecksum.getD []) := xpathText_leaf rfl
  have hsecret : (clcRoot (.run ii)).xpathText (inParameters ["osmanager", "secret"]) =
      elementText (ii.osmSecret.getD []) := xpathText_leaf rfl
  have hosmJson : (clcRoot (.run ii)).xpathText (inParameters ["osmanager", "json"]) =
      elementText (ii.osmJson.getD []) := xpathText_leaf rfl
  have hempty :
      ∀ path ∈ [["instance", "mac"], ["appliance", "uri"], ["osmanager", "clc", "ip"],
          ["storage", "ip"], ["storage", "parm"]],
        (clcRoot (.run ii)).xpathText (inParameters path) = elementText [] := by
    simp only [List.forall_mem_cons]
    exact ⟨xpathText_leaf rfl, xpathText_leaf rfl, xpathText_leaf rfl,
      xpathText_leaf rfl, xpathText_leaf rfl, fun _ h => absurd h List.not_mem_nil⟩
  simp only [List.forall_mem_cons] at hempty
  obtain ⟨hmac, huri, hclcip, hstip, hparm, -⟩ := hempty
  rw [elementText_of_ne hdom] at hdomain
  rw [nodeCtrlRequest, hid, hdomain, runRequest, elementText_of_ne hdom]
  simp only [hstatus, happ, hvcpu, hmem, hext, htag, hport, hmethod, hname, hip, hjson, happName,
    hchecksum, hsecret, hosmJson, hmac, huri, hclcip, hstip, hparm, Option.map_some,
    Option.getD_some, atoi_dec_int hinsId, atoi_dec_int hinsStatus, atoi_dec_int happId]
  rfl

/-- The other requests carry the instance and its domain, and nothing else. -/
theorem nodeCtrlRequest_other {ii : NodeCtrlInstance} (h : (ClcMessage.other ii).WellFormed) :
    nodeCtrlRequest (clcRoot (.other ii)) ii.reqId ii.reqAction =
      if (otherRequest ii).insDomain = none then none else some (otherRequest ii) := by
  have hnone : (otherRequest ii).insDomain = none ↔ ii.insDomain.getD [] = [] := elementText_eq_none
  have hid : (clcRoot (.other ii)).xpathProp (inParameters ["instance"]) (cstr "id") =
      some (dec ii.insId) :=
    xpathProp_node rfl rfl
  have hdomain : (clcRoot (.other ii)).xpathText (inParameters ["instance", "domain"]) =
      elementText (ii.insDomain.getD []) := xpathText_leaf rfl
  by_cases hdom : ii.insDomain.getD [] = []
  · rw [if_pos (hnone.mpr hdom)]
    rw [hdom] at hdomain
    exact nodeCtrlRequest_none hdomain _ _
  rw [if_neg (hnone.not.mpr hdom)]
  rw [elementText_of_ne hdom] at hdomain
  rw [nodeCtrlRequest, hid, hdomain, otherRequest, elementText_of_ne hdom]
  simp only [atoi_dec_int h.2.2.1]
  rfl

/-! ## What the node makes of them -/

/-- A request is passed on with the fields that were found, if there is a domain among them. -/
def controlRequest (env : WorkEnv) (g : NodeControl) (ci : NodeCtrlRequest) : NodeControl × Int :=
  if ci.reqAction = LyA.nodeQuery then processNodeQuery env g ci.reqId
  else if ci.insDomain = none then (g, -1)
  else (g.called.mark (.control ci), env.control g.tick ci)

/-- The tag and the secret that the controller has given out. -/
def configRequest (env : WorkEnv) (g : NodeControl) (tag : Int) (secret : Bytes) :
    NodeControl × Int :=
  if secret = [] then ((g.setTag tag).setSecret none, -1)
  else
    let r :=
      lyRegisterNode env (((g.setTag tag).setSecret (some secret)).setState NodeStatus.initialized)
    (r.1, if r.2 = 0 then 0 else -1)

/-- The answer to a register request. -/
def registerResult (env : WorkEnv) (g : NodeControl) (status tag : Int) (secret : Bytes) :
    NodeControl × Int :=
  if status = LyS.registeringInit then (g.setState NodeStatus.uninitialized, 0)
  else if status = LyS.registeringDoneSuccess then (g.setState NodeStatus.registered, 0)
  else if status = LyS.registeringReinit then
    (((g.setTag (-1)).setSecret none).setState NodeStatus.uninitialized, 0)
  else if status = LyS.registeringConfig then configRequest env g tag secret
  else (g, 0)

/-- What the node does with a message. -/
def ClcMessage.handle (env : WorkEnv) (g : NodeControl) : ClcMessage → NodeControl × Int
  | run ii => controlRequest env g (runRequest ii)
  | other ii => controlRequest env g (otherRequest ii)
  | query reqId => processNodeQuery env g reqId
  | authInfo _ status tag secret => registerResult env g status tag secret

/-! ## It is what the handlers do -/

section Handling

variable {env : WorkEnv} {g : NodeControl}

theorem workElements_other {root node : XmlNode} {nodes : List XmlNode}
    (hresp : node.named (cstr "response") = false) (hreq : node.named (cstr "request") = false) :
    workElements env root (node :: nodes) g = workElements env root nodes g := by
  simp [workElements, workElement, hresp, hreq]

/-- Of a message the one element that matters is handled. -/
theorem processWorkXml_item (hr : ReadsPlain env.readDoc) {item : Content}
    {node : XmlNode} (hplain : item.Plain) (hitem : toNodes item = [node]) (g : NodeControl) :
    processWorkXml env g (messageText .clc .node item) =
      let r := workElement env g (messageRoot .clc .node item) node
      (r.1, if r.2 < 0 then -1 else 0) := by
  have hdoc : workDocument env (messageText .clc .node item) =
      .ok (messageRoot .clc .node item,
        [.element (cstr "from") [(cstr "entity", dec EntityType.clc.code)] [],
          .element (cstr "to") [(cstr "entity", dec EntityType.node.code)] [], node]) := by
    rw [workDocument, read_message hr .clc .node hplain, ← hitem]
    rfl
  rw [processWorkXml, hdoc]
  simp only
  rw [workElements_other rfl rfl, workElements_other rfl rfl]
  simp only [workElements]
  split <;> rfl

theorem workElement_request {root node : XmlNode} (h0 : node.named (cstr "response") = false)
    (h : node.named (cstr "request") = true) :
    workElement env g root node = processXmlRequest env g root node := by
  simp only [workElement, h0, h, Bool.false_eq_true, if_false, if_true]

/-- `__process_xml_request` with its attributes read, and the fields that were found. -/
theorem processXmlRequest_eq {root node : XmlNode} {ci : NodeCtrlRequest} (hid : IsInt32 ci.reqId)
    (haction : IsInt32 ci.reqAction) (pid : node.prop (cstr "id") = some (dec ci.reqId))
    (paction : node.prop (cstr "action") = some (dec ci.reqAction))
    (hci : nodeCtrlRequest root ci.reqId ci.reqAction =
      if ci.insDomain = none then none else some ci) :
    processXmlRequest env g root node = controlRequest env g ci := by
  simp only [processXmlRequest, pid, paction, atoi_dec_int hid, atoi_dec_int haction, hci,
    controlRequest]
  by_cases hdom : ci.insDomain = none
  · simp only [hdom, if_true]
  · simp only [hdom, if_false]

theorem requestNode_props (id action : Int) (reply parameters : Content) :
    (requestNode id action reply parameters).prop (cstr "id") = some (dec id) ∧
      (requestNode id action reply parameters).prop (cstr "action") =
        some (dec action) := ⟨rfl, rfl⟩

/-- `__process_xml_response` with its fields read. -/
theorem processXmlResponse_eq {id status tag : Int} {secret : Bytes} (hstatus : IsInt32 status)
    (htag : IsInt32 tag) :
    processXmlResponse env g (clcRoot (.authInfo id status tag secret))
      (responseNode id status (authInfoData tag secret)) =
        registerResult env g status tag secret := by
  obtain ⟨-, pstatus⟩ := responseNode_props id status (authInfoData tag secret)
  have ptag : (clcRoot (.authInfo id status tag secret)).xpathText
      (["response", "data", "tag"].map cstr) =
      some (dec tag) := xpathText_dec rfl
  have psecret : (clcRoot (.authInfo id status tag secret)).xpathText
      (["response", "data", "secret"].map cstr) =
      elementText secret := xpathText_leaf rfl
  simp only [processXmlResponse, pstatus, atoi_dec_int hstatus, registerResult, configRequest,
    nodeConfig, ptag, psecret, atoi_dec_int htag]
  by_cases hs : secret = []
  · simp only [elementText, hs, if_true]
  · simp only [elementText, hs, if_false]

/-- The answer to a register request. -/
theorem processWorkXml_authInfo (hr : ReadsPlain env.readDoc)
    {id status tag : Int} {secret text : Bytes}
    (h : (ClcMessage.authInfo id status tag secret).WellFormed)
    (htext : (ClcMessage.authInfo id status tag secret).text = some text) (g : NodeControl) :
    processWorkXml env g text = ((registerResult env g status tag secret).1,
      if (registerResult env g status tag secret).2 < 0 then -1 else 0) := by
  have hnodes : toNodes (ClcMessage.authInfo id status tag secret).item =
      [responseNode id status (authInfoData tag secret)] := rfl
  have hresp : (responseNode id status (authInfoData tag secret)).named (cstr "response") =
      true := rfl
  have hresult : processXmlResponse env g (clcRoot (.authInfo id status tag secret))
      (responseNode id status (authInfoData tag secret)) = registerResult env g status tag secret :=
    processXmlResponse_eq h.1 h.2.1
  rw [clcRoot] at hresult
  rw [ClcMessage.text_eq htext, processWorkXml_item hr (ClcMessage.item_plain h) hnodes,
    workElement, if_pos hresp, hresult]

/-- **What a node does with a message does not depend on how it is written.** -/
theorem processWorkXml_message (hr : ReadsPlain env.readDoc) {msg : ClcMessage}
    {text : Bytes} (h : msg.WellFormed) (htext : msg.text = some text) (g : NodeControl) :
    processWorkXml env g text =
      ((msg.handle env g).1, if (msg.handle env g).2 < 0 then -1 else 0) := by
  have hmsg := ClcMessage.text_eq htext
  have hplain := ClcMessage.item_plain h
  cases msg with
  | run ii =>
    have hints := h.1
    simp only [ctrlInts, List.forall_mem_cons] at hints
    obtain ⟨pid, paction⟩ := requestNode_props ii.reqId ii.reqAction runReply (runParameters ii)
    have hrequest : processXmlRequest env g (clcRoot (.run ii)) _ =
        controlRequest env g (runRequest ii) :=
      processXmlRequest_eq hints.1 hints.2.1 pid paction (nodeCtrlRequest_run h)
    rw [clcRoot] at hrequest
    rw [hmsg, processWorkXml_item hr hplain (runItem_nodes ii), workElement_request rfl rfl,
      hrequest]
    rfl
  | other ii =>
    obtain ⟨pid, paction⟩ := requestNode_props ii.reqId ii.reqAction otherReply (otherParameters ii)
    have hrequest : processXmlRequest env g (clcRoot (.other ii)) _ =
        controlRequest env g (otherRequest ii) :=
      processXmlRequest_eq h.1 h.2.1 pid paction (nodeCtrlRequest_other h)
    rw [clcRoot] at hrequest
    rw [hmsg, processWorkXml_item hr hplain (otherItem_nodes ii), workElement_request rfl rfl,
      hrequest]
    rfl
  | query reqId =>
    obtain ⟨pid, paction⟩ := queryNode_props reqId
    rw [hmsg, processWorkXml_item hr hplain (queryItem_nodes reqId), workElement_request rfl rfl,
      processXmlRequest, pid, paction]
    simp only [atoi_dec_int h, atoi_nodeQuery, if_true]
    rfl
  | authInfo reqId status tag secret => exact processWorkXml_authInfo hr h htext g

end Handling

/-- Surroundings in which plain markup is read, and nothing else. -/
def WorkEnv.plainXml : WorkEnv := { WorkEnv.plain with readDoc := plainReader }

def demoRequest : ClcMessage :=
  .other
    { reqId := 1, reqAction := LyA.nodeDestroyInstance, insId := 5, insDomain := some (cstr "i-5") }

theorem processWorkXml_demo : ∃ text, demoRequest.text = some text ∧
    processWorkXml .plainXml knownNode.g text = ((demoRequest.handle .plainXml knownNode.g).1,
      if (demoRequest.handle .plainXml knownNode.g).2 < 0 then -1 else 0) := by
  have hfits : demoRequest.text.isSome = true := by decide +kernel
  obtain ⟨text, htext⟩ := Option.isSome_iff_exists.mp hfits
  have hwell : demoRequest.WellFormed := by
    refine ⟨by decide, by decide, by decide, ?_⟩
    show PlainText (cstr "i-5")
    decide
  exact ⟨text, htext, processWorkXml_message plainReader_reads hwell htext knownNode.g⟩

end LuoYun

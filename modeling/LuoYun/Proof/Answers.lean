import LuoYun.Clc.World
import LuoYun.Util.PlainXml

/-!
# What a node says to the controller

A node registers, answers requests and sends reports. `NodeMessage` is what it may say, `text` is
how the writers of `lyxml_data.c` say it, and `handle` is what the controller does with it, without
a document in between. `eh_process_node_xml` reads the fields out of the document one by one and in
an order of its own; the result is `handle` all the same (`ehProcessNodeXml_message`).

Numbers come back whatever they are: a large `unsigned int` is printed as a negative number, and so
is a large counter. Of the texts of a register request none may be empty, since the controller gives
up at an element without text (`register_understood`).
-/

namespace LuoYun

open XmlNode
open LuoYun.Markup

/-! ## The register request -/

/-- The unsigned fields of a register request. -/
def registerNats (ni : NodeInfo) : List Int :=
  [ni.status, ni.hypervisor, ni.cpuArch, ni.cpuMhz, ni.cpuMax, ni.cpuCommit, ni.memMax, ni.memFree,
    ni.memCommit, ni.storageTotal, ni.storageFree, ni.loadAverage]

/-- The texts of a register request. -/
def registerTexts (ni : NodeInfo) : List Bytes :=
  [ni.hostName, ni.hostIp, ni.cpuModel].map fun text => text.getD []

def registerParameters (ni : NodeInfo) : Content :=
  leaf "status" (decU ni.status) <| leaf "hypervisor" (decU ni.hypervisor) <|
  .element (cstr "host") [] (leaf "tag" (dec ni.hostTag) <| leaf "name" (ni.hostName.getD []) <|
    leaf "ip" (ni.hostIp.getD []) .nil) <|
  .element (cstr "memory") [] (leaf "total" (dec ni.memMax) <| leaf "free" (dec ni.memFree) <|
    leaf "commit" (dec ni.memCommit) .nil) <|
  .element (cstr "cpu") [] (leaf "arch" (decU ni.cpuArch) <| leaf "model" (ni.cpuModel.getD []) <|
    leaf "mhz" (decU ni.cpuMhz) <| leaf "max" (decU ni.cpuMax) <|
      leaf "commit" (decU ni.cpuCommit) .nil) <|
  .element (cstr "storage") [] (leaf "total" (dec ni.storageTotal) <|
    leaf "free" (dec ni.storageFree) .nil) <|
  .element (cstr "load") [] (leaf "average" (decU ni.loadAverage) .nil) .nil

/-- The request of `lyxml_data_node_register`. -/
def registerItem (reqId : Int) (ni : NodeInfo) : Content :=
  requestItem reqId LyA.clcRegisterNode (.empty (cstr "result") [] .nil) (registerParameters ni)

theorem lyxmlDataNodeRegister_eq {reqId : Int} {ni : NodeInfo} {text : Bytes}
    (h : lyxmlDataNodeRegister reqId ni = some text) :
    text = messageText .node .clc (registerItem reqId ni) := by
  delta lyxmlDataNodeRegister xmlNodeRegister at h
  rw [xmlFits_eq h, messageText_eq]
  simp only [registerItem, requestItem, registerParameters, render_leaf, render_element,
    render_empty, render_nil, renderAttrs_cons, renderAttrs_nil, List.append_assoc, List.nil_append,
    List.append_nil, cstr_cat, ← cstr_append, String.reduceAppend]

theorem registerItem_plain {ni : NodeInfo} (h : ∀ t ∈ registerTexts ni, PlainText t) (reqId : Int) :
    (registerItem reqId ni).Plain := by
  simp only [registerTexts, List.map_cons, List.map_nil, List.forall_mem_cons] at h
  obtain ⟨hname, hip, hmodel, -⟩ := h
  have hhost : (leaf "tag" (dec ni.hostTag) <| leaf "name" (ni.hostName.getD []) <|
      leaf "ip" (ni.hostIp.getD []) .nil).Plain :=
    leaf_plain (by decide) (dec_plain _) <| leaf_plain (by decide) hname <|
      leaf_plain (by decide) hip trivial
  have hmemory : (leaf "total" (dec ni.memMax) <| leaf "free" (dec ni.memFree) <|
      leaf "commit" (dec ni.memCommit) .nil).Plain :=
    leaf_plain (by decide) (dec_plain _) <| leaf_plain (by decide) (dec_plain _) <|
      leaf_plain (by decide) (dec_plain _) trivial
  have hcpu : (leaf "arch" (decU ni.cpuArch) <| leaf "model" (ni.cpuModel.getD []) <|
      leaf "mhz" (decU ni.cpuMhz) <| leaf "max" (decU ni.cpuMax) <|
        leaf "commit" (decU ni.cpuCommit) .nil).Plain :=
    leaf_plain (by decide) (dec_plain _) <| leaf_plain (by decide) hmodel <|
      leaf_plain (by decide) (dec_plain _) <|
      leaf_plain (by decide) (dec_plain _) <| leaf_plain (by decide) (dec_plain _) trivial
  have hstorage :
      (leaf "total" (dec ni.storageTotal) <| leaf "free" (dec ni.storageFree) .nil).Plain :=
    leaf_plain (by decide) (dec_plain _) <| leaf_plain (by decide) (dec_plain _) trivial
  have hload : (leaf "average" (decU ni.loadAverage) .nil).Plain :=
    leaf_plain (by decide) (dec_plain _) trivial
  refine requestItem_plain ⟨by decide, plainAttrs_nil, trivial⟩ ?_
  exact leaf_plain (by decide) (dec_plain _) <| leaf_plain (by decide) (dec_plain _) <|
    ⟨by decide, plainAttrs_nil, hhost, by decide, plainAttrs_nil, hmemory, by
      decide, plainAttrs_nil, hcpu,
      by decide, plainAttrs_nil, hstorage, by decide, plainAttrs_nil, hload, trivial⟩

/-! ## The other messages -/

/-- A report. -/
def reportItem (body : Content) : Content := .element (cstr "report") [] body .nil

/-- The element of a report. -/
def reportNode (body : Content) : XmlNode := .element (cstr "report") [] (toNodes body)

def statusContent (status : Int) (msg : Option Bytes) : Content :=
  leaf "status" (dec status) <| leaf "message" (msg.getD []) .nil

/-- The numbers of an answer to a query. -/
def nodeInfoNats (ni : NodeInfo) : List Int :=
  [ni.status, ni.cpuCommit, ni.memFree, ni.memCommit, ni.storageFree, ni.loadAverage]

def resourceContent (ni : NodeInfo) : Content :=
  .element (cstr "cpu") [] (leaf "commit" (decU ni.cpuCommit) .nil) <|
  .element (cstr "memory") [] (leaf "free" (dec ni.memFree) <|
    leaf "commit" (dec ni.memCommit) .nil) <|
  .element (cstr "storage") [] (leaf "free" (dec ni.storageFree) .nil) <|
  .element (cstr "load") [] (leaf "average" (decU ni.loadAverage) .nil) .nil

/-- The data of `lyxml_data_reply_node_info`. -/
def nodeInfoData (ni : NodeInfo) : Content :=
  .element (cstr "data") [(cstr "type", dec dataNodeInfo)]
    (leaf "status" (decU ni.status) (resourceContent ni)) .nil

/-- The four counters of an interface. -/
def netstatText (ii : InstanceInfo) : Bytes :=
  decL ii.rxBytes ++ (cstr " " ++ (decL ii.rxPkts ++ (cstr " " ++ (decL ii.txBytes ++ (cstr " " ++
    decL ii.txPkts)))))

/-- The data of `lyxml_data_reply_instance_info`. -/
def instanceInfoData (ii : InstanceInfo) (netstat : Bytes) : Content :=
  .element (cstr "data") [(cstr "type", dec dataInstanceInfo)]
    (leaf "id" (dec ii.id) <| leaf "status" (dec ii.status) <| leaf "ip" (ii.ip.getD []) <|
      leaf "gport" (dec ii.gport) <| leaf "netstat0" netstat .nil) .nil

/-- What a node says to the controller. -/
inductive NodeMessage where
  | register (reqId : Int) (ni : NodeInfo)
  | result (reqId status : Int) (msg : Option Bytes)
  | nodeInfo (reqId status : Int) (ni : NodeInfo)
  | instanceInfo (reqId status : Int) (ii : InstanceInfo)
  | report (status : Int) (msg : Option Bytes)
  | resource (ni : NodeInfo)

namespace NodeMessage

/-- The document of a message, if it fits. -/
def text : NodeMessage → Option Bytes
  | register reqId ni => lyxmlDataNodeRegister reqId ni
  | result reqId status msg => lyxmlDataReply reqId status msg
  | nodeInfo reqId status ni => lyxmlDataReplyNodeInfo reqId status ni
  | instanceInfo reqId status ii => lyxmlDataReplyInstanceInfo reqId status ii
  | report status msg => lyxmlDataReport status msg
  | resource ni => lyxmlDataReportNodeInfo ni

/-- The element that makes up the message. -/
def item : NodeMessage → Content
  | register reqId ni => registerItem reqId ni
  | result reqId status msg => responseItem reqId status (leaf "result" (msg.getD []) .nil)
  | nodeInfo reqId status ni => responseItem reqId status (nodeInfoData ni)
  | instanceInfo reqId status ii => responseItem reqId status (instanceInfoData ii (netstatText ii))
  | report status msg => reportItem (statusContent status msg)
  | resource ni => reportItem (.element (cstr "resource") [] (resourceContent ni) .nil)

/-- The texts are plain, and the numbers are values of their types. -/
def WellFormed : NodeMessage → Prop
  | register reqId ni => IsInt32 reqId ∧ IsInt32 ni.hostTag ∧ (∀ x ∈ registerNats ni, IsUInt32 x) ∧
      ∀ t ∈ registerTexts ni, PlainText t ∧ t ≠ []
  | result reqId status msg => IsInt32 reqId ∧ IsInt32 status ∧ PlainText (msg.getD [])
  | nodeInfo reqId status ni => IsInt32 reqId ∧ IsInt32 status ∧ ∀ x ∈ nodeInfoNats ni, IsUInt32 x
  | instanceInfo reqId status ii => IsInt32 reqId ∧ IsInt32 status ∧
      IsInt32 ii.id ∧ IsInt32 ii.status ∧
      IsInt32 ii.gport ∧ PlainText (ii.ip.getD []) ∧
      ∀ n ∈ [ii.rxBytes, ii.rxPkts, ii.txBytes, ii.txPkts], n < 2 ^ 64
  | report status msg => IsInt32 status ∧ PlainText (msg.getD [])
  | resource ni => ∀ x ∈ nodeInfoNats ni, IsUInt32 x

theorem text_eq {msg : NodeMessage} {text : Bytes} (h : msg.text = some text) :
    text = messageText .node .clc msg.item := by
  cases msg with
  | register reqId ni => exact lyxmlDataNodeRegister_eq h
  | result reqId status msg =>
    delta NodeMessage.text lyxmlDataReply at h
    rw [xmlFits_eq h, messageText_eq]
    simp only [item, responseItem, render_leaf, render_element, render_nil, renderAttrs_cons,
      renderAttrs_nil, List.append_assoc, List.append_nil, cstr_cat, ← cstr_append,
      String.reduceAppend]
  | nodeInfo reqId status ni =>
    delta NodeMessage.text lyxmlDataReplyNodeInfo at h
    rw [xmlFits_eq h, messageText_eq]
    simp only [item, responseItem, nodeInfoData, resourceContent, render_leaf, render_element,
      render_nil, renderAttrs_cons, renderAttrs_nil, List.append_assoc, List.nil_append,
      List.append_nil, cstr_cat, ← cstr_append, String.reduceAppend]
  | instanceInfo reqId status ii =>
    delta NodeMessage.text lyxmlDataReplyInstanceInfo at h
    rw [xmlFits_eq h, messageText_eq]
    simp only [item, responseItem, instanceInfoData, netstatText, render_leaf, render_element,
      render_nil, renderAttrs_cons, renderAttrs_nil, List.append_assoc, List.append_nil, cstr_cat,
      ← cstr_append, String.reduceAppend]
  | report status msg =>
    delta NodeMessage.text lyxmlDataReport at h
    rw [xmlFits_eq h, messageText_eq]
    simp only [item, reportItem, statusContent, render_leaf, render_element, render_nil,
      renderAttrs_nil, List.append_assoc, List.nil_append, List.append_nil, cstr_cat, ← cstr_append,
      String.reduceAppend]
  | resource ni =>
    delta NodeMessage.text lyxmlDataReportNodeInfo at h
    rw [xmlFits_eq h, messageText_eq]
    simp only [item, reportItem, resourceContent, render_leaf, render_element, render_nil,
      renderAttrs_nil, List.append_assoc, List.nil_append, List.append_nil, cstr_cat, ← cstr_append,
      String.reduceAppend]

/-- A message is shorter than the buffer it was written into. -/
theorem text_length {msg : NodeMessage} {text : Bytes} (h : msg.text = some text) :
    text.length < luoyunXmlDataMax := by
  cases msg with
  | register =>
    delta NodeMessage.text lyxmlDataNodeRegister at h
    exact xmlFits_length h
  | result =>
    delta NodeMessage.text lyxmlDataReply at h
    exact xmlFits_length h
  | nodeInfo =>
    delta NodeMessage.text lyxmlDataReplyNodeInfo at h
    exact xmlFits_length h
  | instanceInfo =>
    delta NodeMessage.text lyxmlDataReplyInstanceInfo at h
    exact xmlFits_length h
  | report =>
    delta NodeMessage.text lyxmlDataReport at h
    exact xmlFits_length h
  | resource =>
    delta NodeMessage.text lyxmlDataReportNodeInfo at h
    exact xmlFits_length h

end NodeMessage

/-! ## They are plain -/

theorem resourceContent_plain (ni : NodeInfo) : (resourceContent ni).Plain := by
  have hmemory : (leaf "free" (dec ni.memFree) <| leaf "commit" (dec ni.memCommit) .nil).Plain :=
    leaf_plain (by decide) (dec_plain _) <| leaf_plain (by decide) (dec_plain _) trivial
  have hone : ∀ {tag : String} (x : Int), PlainName (cstr tag) → (leaf tag (dec x) .nil).Plain :=
    fun x htag => leaf_plain htag (dec_plain x) trivial
  exact ⟨by decide, plainAttrs_nil, hone _ (by decide), by decide, plainAttrs_nil, hmemory, by
    decide, plainAttrs_nil,
    hone _ (by decide), by decide, plainAttrs_nil, hone _ (by decide), trivial⟩

theorem netstatText_plain (ii : InstanceInfo) : PlainText (netstatText ii) := by
  have hbytes : ∀ b ∈ netstatText ii, isCharByte b = true ∧ b ≠ 93 := by
    intro b hb
    have hspace : ∀ c ∈ cstr " ", isCharByte c = true ∧ c ≠ 93 := by
      intro c hc
      obtain rfl : c = 32 := List.mem_singleton.mp hc
      decide
    simp only [netstatText, List.mem_append] at hb
    rcases hb with hb | hb | hb | hb | hb | hb | hb
    · exact (dec_bytes _ b hb).2
    · exact hspace b hb
    · exact (dec_bytes _ b hb).2
    · exact hspace b hb
    · exact (dec_bytes _ b hb).2
    · exact hspace b hb
    · exact (dec_bytes _ b hb).2
  exact plainText_of_not_mem (fun b hb => (hbytes b hb).1) fun hin => (hbytes 93 hin).2 rfl

theorem NodeMessage.item_plain {msg : NodeMessage} (h : msg.WellFormed) : msg.item.Plain := by
  cases msg with
  | register reqId ni => exact registerItem_plain (fun t ht => (h.2.2.2 t ht).1) reqId
  | result reqId status msg => exact responseItem_plain (leaf_plain (by decide) h.2.2 trivial)
  | nodeInfo reqId status ni =>
    exact responseItem_plain ⟨by decide, plainAttrs_one (by decide) _,
      leaf_plain (by decide) (dec_plain _) (resourceContent_plain ni), trivial⟩
  | instanceInfo reqId status ii =>
    obtain ⟨-, -, -, -, -, hip, -⟩ := h
    exact responseItem_plain ⟨by decide, plainAttrs_one (by decide) _,
      leaf_plain (by decide) (dec_plain _) <| leaf_plain (by decide) (dec_plain _) <|
        leaf_plain (by decide) hip <|
      leaf_plain (by decide) (dec_plain _) <|
        leaf_plain (by decide) (netstatText_plain ii) trivial, trivial⟩
  | report status msg =>
    exact ⟨by
      decide, plainAttrs_nil, leaf_plain (by decide) (dec_plain _)
      (leaf_plain (by decide) h.2 trivial), trivial⟩
  | resource ni =>
    exact ⟨by
      decide, plainAttrs_nil, ⟨by decide, plainAttrs_nil, resourceContent_plain ni, trivial⟩,
      trivial⟩

/-! ## The controller finds the fields -/

/-- What the controller takes from a register request. -/
def NodeInfo.learn (cfg : CLCConfig) (ni nf : NodeInfo) : NodeInfo :=
  { nf with
    status := ni.status
    hypervisor := ni.hypervisor
    hostName := some (ni.hostName.getD [])
    hostIp := some (ni.hostIp.getD [])
    cpuArch := ni.cpuArch
    cpuModel := some (ni.cpuModel.getD [])
    cpuMhz := ni.cpuMhz
    cpuMax := ni.cpuMax
    cpuVlimit := toUInt32 (ni.cpuMax * cfg.nodeCpuFactor)
    cpuCommit := ni.cpuCommit
    memMax := ni.memMax
    memVlimit := toUInt32 (ni.memMax * cfg.nodeMemFactor)
    memFree := ni.memFree
    memCommit := ni.memCommit
    storageTotal := ni.storageTotal
    storageFree := ni.storageFree
    loadAverage := ni.loadAverage }

/-- What the controller takes from an answer to a query. -/
def NodeInfo.report (ni nf : NodeInfo) : NodeInfo :=
  { nf with
    status := ni.status
    cpuCommit := ni.cpuCommit
    memFree := ni.memFree
    storageFree := ni.storageFree
    memCommit := ni.memCommit
    loadAverage := ni.loadAverage }

/-- What the controller takes from a report. -/
def NodeInfo.resource (ni nf : NodeInfo) : NodeInfo :=
  { nf with
    cpuCommit := ni.cpuCommit
    memFree := ni.memFree
    memCommit := ni.memCommit
    storageFree := ni.storageFree
    loadAverage := ni.loadAverage }

/-- The request element of `lyxml_data_node_register`. -/
def registerNode (reqId : Int) (ni : NodeInfo) : XmlNode :=
  requestNode reqId LyA.clcRegisterNode (.empty (cstr "result") [] .nil) (registerParameters ni)

theorem registerNode_props (reqId : Int) (ni : NodeInfo) :
    (registerNode reqId ni).prop (cstr "id") = some (dec reqId) ∧
      (registerNode reqId ni).prop (cstr "action") = some (dec LyA.clcRegisterNode) := ⟨rfl, rfl⟩

theorem registerItem_nodes (reqId : Int) (ni : NodeInfo) :
    toNodes (registerItem reqId ni) = [registerNode reqId ni] := rfl

theorem atoi_clcRegisterNode : atoi (dec LyA.clcRegisterNode) = LyA.clcRegisterNode :=
  atoi_dec_int (by decide)

/-- The document of `lyxml_data_node_register`. -/
def registerRoot (reqId : Int) (ni : NodeInfo) : XmlNode :=
  messageRoot .node .clc (registerItem reqId ni)

/-- The fields of a register request are found where the controller looks for them. -/
theorem readFields_register {reqId : Int} {ni : NodeInfo} (cfg : CLCConfig)
    (hnats : ∀ x ∈ registerNats ni, IsUInt32 x)
    (htexts : ∀ t ∈ registerTexts ni, t ≠ []) (nf : NodeInfo) :
    readFields (registerRoot reqId ni) (registerFields cfg) nf = (ni.learn cfg nf, true) := by
  simp only [registerNats, List.forall_mem_cons] at hnats
  obtain ⟨hstatus, hhyp, harch, hmhz, hmax, hcpuc, hmem, hmfree, hmcommit, hstot,
      hsfree, hload, -⟩ := hnats
  simp only [registerTexts, List.map_cons, List.map_nil, List.forall_mem_cons] at htexts
  obtain ⟨hname, hip, hmodel, -⟩ := htexts
  have pstatus : (registerRoot reqId ni).xpathText (inRequest ["status"]) = some (decU ni.status) :=
    xpathText_dec rfl
  have phyp : (registerRoot reqId ni).xpathText (inRequest ["hypervisor"]) =
      some (decU ni.hypervisor) := xpathText_dec rfl
  have pname : (registerRoot reqId ni).xpathText (inRequest ["host", "name"]) =
      some (ni.hostName.getD []) := by
    rw [← elementText_of_ne hname]
    exact xpathText_leaf rfl
  have pip : (registerRoot reqId ni).xpathText (inRequest ["host", "ip"]) =
      some (ni.hostIp.getD []) := by
    rw [← elementText_of_ne hip]
    exact xpathText_leaf rfl
  have parch : (registerRoot reqId ni).xpathText (inRequest ["cpu", "arch"]) =
      some (decU ni.cpuArch) := xpathText_dec rfl
  have pmodel : (registerRoot reqId ni).xpathText (inRequest ["cpu", "model"]) =
      some (ni.cpuModel.getD []) := by
    rw [← elementText_of_ne hmodel]
    exact xpathText_leaf rfl
  have pmhz : (registerRoot reqId ni).xpathText (inRequest ["cpu", "mhz"]) =
      some (decU ni.cpuMhz) := xpathText_dec rfl
  have pmax : (registerRoot reqId ni).xpathText (inRequest ["cpu", "max"]) =
      some (decU ni.cpuMax) := xpathText_dec rfl
  have pcpuc : (registerRoot reqId ni).xpathText (inRequest ["cpu", "commit"]) =
      some (decU ni.cpuCommit) := xpathText_dec rfl
  have pmem : (registerRoot reqId ni).xpathText (inRequest ["memory", "total"]) =
      some (dec ni.memMax) := xpathText_dec rfl
  have pmfree : (registerRoot reqId ni).xpathText (inRequest ["memory", "free"]) =
      some (dec ni.memFree) := xpathText_dec rfl
  have pmcommit : (registerRoot reqId ni).xpathText (inRequest ["memory", "commit"]) =
      some (dec ni.memCommit) := xpathText_dec rfl
  have pstot : (registerRoot reqId ni).xpathText (inRequest ["storage", "total"]) =
      some (dec ni.storageTotal) := xpathText_dec rfl
  have psfree : (registerRoot reqId ni).xpathText (inRequest ["storage", "free"]) =
      some (dec ni.storageFree) := xpathText_dec rfl
  have pload : (registerRoot reqId ni).xpathText (inRequest ["load", "average"]) =
      some (decU ni.loadAverage) := xpathText_dec rfl
  simp only [registerFields, readFields, pstatus, phyp, pname, pip, parch, pmodel, pmhz, pmax,
    pcpuc, pmem, pmfree, pmcommit, pstot, psfree, pload, atou_decU hstatus, atou_decU hhyp,
    atou_decU harch, atou_decU hmhz, atou_decU hmax, atou_decU hcpuc, atou_dec hmem,
    atou_dec hmfree, atou_dec hmcommit, atou_dec hstot, atou_dec hsfree, atou_decU hload]
  rfl

/-- Reading gets to the end if every field has a text. -/
theorem readFields_snd (root : XmlNode) (fs : List Field) (nf : NodeInfo) :
    (readFields root fs nf).2 = true ↔ ∀ f ∈ fs, (root.xpathText f.path).isSome = true := by
  induction fs generalizing nf with
  | nil => simp [readFields]
  | cons f fs ih =>
    rw [readFields, List.forall_mem_cons]
    cases root.xpathText f.path with
    | none => simp
    | some s => simp [ih]

/-- A register request is read to its end if none of its texts is empty. -/
theorem readFields_registerRoot_iff {reqId : Int} {ni : NodeInfo} (cfg : CLCConfig)
    (hnats : ∀ x ∈ registerNats ni, IsUInt32 x)
    (nf : NodeInfo) : (readFields (registerRoot reqId ni) (registerFields cfg) nf).2 = true ↔
      ∀ t ∈ registerTexts ni, t ≠ [] := by
  refine ⟨fun h => ?_, fun h => by rw [readFields_register cfg hnats h nf]⟩
  have hfields := (readFields_snd _ _ _).mp h
  have htext : ∀ {path : List Bytes} {text : Bytes},
      (registerRoot reqId ni).xpathText path = elementText text →
      ((registerRoot reqId ni).xpathText path).isSome = true → text ≠ [] := by
    rintro path text hpath hsome rfl
    rw [hpath] at hsome
    exact absurd hsome (by decide)
  have hname : (registerRoot reqId ni).xpathText (inRequest ["host", "name"]) =
      elementText (ni.hostName.getD []) :=
    xpathText_leaf rfl
  have hip : (registerRoot reqId ni).xpathText (inRequest ["host", "ip"]) =
      elementText (ni.hostIp.getD []) :=
    xpathText_leaf rfl
  have hmodel : (registerRoot reqId ni).xpathText (inRequest ["cpu", "model"]) =
      elementText (ni.cpuModel.getD []) :=
    xpathText_leaf rfl
  simp only [registerFields, List.forall_mem_cons] at hfields
  obtain ⟨-, -, fname, fip, -, fmodel, -⟩ := hfields
  simp only [registerTexts, List.map_cons, List.map_nil, List.forall_mem_cons]
  exact ⟨htext hname fname, htext hip fip, htext hmodel fmodel,
    fun _ h => absurd h List.not_mem_nil⟩

/-- The document of an answer to a query, or of a report. -/
def answerRoot (msg : NodeMessage) : XmlNode := messageRoot .node .clc msg.item

theorem readFields_nodeInfo {reqId status : Int} {ni : NodeInfo}
    (hnats : ∀ x ∈ nodeInfoNats ni, IsUInt32 x)
    (nf : NodeInfo) : readFields (answerRoot (.nodeInfo reqId status ni)) nodeInfoFields nf =
      (ni.report nf, true) := by
  simp only [nodeInfoNats, List.forall_mem_cons] at hnats
  obtain ⟨hstatus, hcpu, hfree, hcommit, hstorage, hload, -⟩ := hnats
  have pstatus : (answerRoot (.nodeInfo reqId status ni)).xpathText (inData ["status"]) =
      some (decU ni.status) :=
    xpathText_dec rfl
  have pcpu : (answerRoot (.nodeInfo reqId status ni)).xpathText (inData ["cpu", "commit"]) =
      some (decU ni.cpuCommit) := xpathText_dec rfl
  have pfree : (answerRoot (.nodeInfo reqId status ni)).xpathText (inData ["memory", "free"]) =
      some (dec ni.memFree) := xpathText_dec rfl
  have pstorage : (answerRoot (.nodeInfo reqId status ni)).xpathText (inData ["storage", "free"]) =
      some (dec ni.storageFree) := xpathText_dec rfl
  have pcommit : (answerRoot (.nodeInfo reqId status ni)).xpathText (inData ["memory", "commit"]) =
      some (dec ni.memCommit) := xpathText_dec rfl
  have pload : (answerRoot (.nodeInfo reqId status ni)).xpathText (inData ["load", "average"]) =
      some (decU ni.loadAverage) := xpathText_dec rfl
  simp only [nodeInfoFields, readFields, pstatus, pcpu, pfree, pstorage, pcommit, pload,
    atou_decU hstatus, atou_decU hcpu, atou_decU hload, atou_dec hfree, atou_dec hstorage,
    atou_dec hcommit]
  simp only [NodeInfo.report]

theorem readFields_resource {ni : NodeInfo}
    (hnats : ∀ x ∈ nodeInfoNats ni, IsUInt32 x) (nf : NodeInfo) :
    readFields (answerRoot (.resource ni)) resourceFields nf = (ni.resource nf, true) := by
  simp only [nodeInfoNats, List.forall_mem_cons] at hnats
  obtain ⟨-, hcpu, hfree, hcommit, hstorage, hload, -⟩ := hnats
  have pcpu : (answerRoot (.resource ni)).xpathText (inReport ["cpu", "commit"]) =
      some (decU ni.cpuCommit) :=
    xpathText_dec rfl
  have pfree : (answerRoot (.resource ni)).xpathText (inReport ["memory", "free"]) =
      some (dec ni.memFree) :=
    xpathText_dec rfl
  have pcommit : (answerRoot (.resource ni)).xpathText (inReport ["memory", "commit"]) =
      some (dec ni.memCommit) :=
    xpathText_dec rfl
  have pstorage : (answerRoot (.resource ni)).xpathText (inReport ["storage", "free"]) =
      some (dec ni.storageFree) :=
    xpathText_dec rfl
  have pload : (answerRoot (.resource ni)).xpathText (inReport ["load", "average"]) =
      some (decU ni.loadAverage) :=
    xpathText_dec rfl
  simp only [resourceFields, readFields, pcpu, pfree, pcommit, pstorage, pload, atou_decU hcpu,
    atou_decU hload, atou_dec hfree, atou_dec hstorage, atou_dec hcommit]
  simp only [NodeInfo.resource]

/-- A counter that was printed as a `long`. -/
theorem scanLong_decL {n : Nat} (h : n < 2 ^ 64) {rest : Bytes}
    (hr : ∀ b, rest.head? = some b → isDigit b = false) :
    ∃ a, scanLong (decL n ++ rest) = some (a, rest) ∧ (toUInt64 a).toNat = n := by
  refine ⟨_, scanLong_dec (by omega) (by omega) hr, ?_⟩
  unfold toUInt64
  omega

theorem scanNetstat_four {s s1 s2 s3 s4 : Bytes} {a b c d : Int} (ha : scanLong s = some (a, s1))
    (hb : scanLong s1 = some (b, s2)) (hc : scanLong s2 = some (c, s3))
    (hd : scanLong s3 = some (d, s4)) (ii : InstanceInfo) : scanNetstat s ii =
      { ii with
        rxBytes := (toUInt64 a).toNat
        rxPkts := (toUInt64 b).toNat
        txBytes := (toUInt64 c).toNat
        txPkts := (toUInt64 d).toNat } := by
  simp only [scanNetstat, ha, hb, hc, hd]

theorem scanNetstat_text {ii : InstanceInfo}
    (h : ∀ n ∈ [ii.rxBytes, ii.rxPkts, ii.txBytes, ii.txPkts], n < 2 ^ 64)
    (ii' : InstanceInfo) : scanNetstat (netstatText ii) ii' =
      { ii' with
        rxBytes := ii.rxBytes
        rxPkts := ii.rxPkts
        txBytes := ii.txBytes
        txPkts := ii.txPkts } := by
  simp only [List.forall_mem_cons] at h
  obtain ⟨hrb, hrp, htb, htp, -⟩ := h
  have hspace : ∀ (rest : Bytes) b, (cstr " " ++ rest).head? = some b → isDigit b = false := by
    intro rest b hb
    obtain rfl : (32 : UInt8) = b := Option.some.inj hb
    rfl
  have hend : ∀ b, ([] : Bytes).head? = some b → isDigit b = false :=
    fun _ hb => absurd hb (by simp)
  obtain ⟨d, hd, hd'⟩ := scanLong_decL htp hend
  obtain ⟨c, hc, hc'⟩ := scanLong_decL htb (hspace (decL ii.txPkts))
  obtain ⟨b, hb, hb'⟩ :=
    scanLong_decL hrp (hspace (decL ii.txBytes ++ (cstr " " ++ decL ii.txPkts)))
  obtain ⟨a, ha, ha'⟩ := scanLong_decL hrb
    (hspace (decL ii.rxPkts ++ (cstr " " ++ (decL ii.txBytes ++ (cstr " " ++ decL ii.txPkts)))))
  rw [List.append_nil] at hd
  have hskip : ∀ rest : Bytes, scanLong (cstr " " ++ rest) = scanLong rest := scanLong_space
  rw [netstatText, scanNetstat_four ha ((hskip _).trans hb) ((hskip _).trans hc)
    ((hskip _).trans hd), ha', hb', hc', hd']

/-- What the controller does once it has read the answer to a query about an instance. -/
def instanceUpdate (env : Env) (c : Clc) (ii : InstanceInfo) : Clc × Int :=
  let ii := if lyEntityIsRegistered c.store (lyEntityFindByDb c.store .osm ii.id) then
      { ii with status := DomainS.unknown }
    else ii
  let r := dbInstanceUpdateStatus env c ii.id (some ii) (-1)
  (r.1, if r.2 < 0 then -1 else 0)

theorem instanceUpdate_ret (env : Env) (c : Clc) (ii : InstanceInfo) :
    (instanceUpdate env c ii).2 = -1 ∨ (instanceUpdate env c ii).2 = 0 := by
  unfold instanceUpdate
  dsimp only
  generalize (dbInstanceUpdateStatus env c _ _ _).2 = ret
  by_cases h : ret < 0
  · exact .inl (if_pos h)
  · exact .inr (if_neg h)

theorem instanceInfoUpdate_fields {root : XmlNode} {id status gport netstat : Bytes}
    (hid : root.xpathText (inData ["id"]) = some id)
    (hstatus : root.xpathText (inData ["status"]) = some status)
    (hgport : root.xpathText (inData ["gport"]) = some gport)
    (hnetstat : root.xpathText (inData ["netstat0"]) = some netstat) (env : Env) (c : Clc) :
    instanceInfoUpdate env c root = instanceUpdate env c (scanNetstat netstat
      { id := atoi id
        status := atoi status
        gport := atoi gport
        ip := root.xpathText (inData ["ip"]) }) := by
  simp only [instanceInfoUpdate, instanceUpdate, hid, hstatus, hgport, hnetstat]

theorem netstat_found (reqId status : Int) (ii : InstanceInfo) (netstat : Bytes) :
    (messageRoot .node .clc (responseItem reqId status (instanceInfoData ii netstat))).xpathText
      (inData ["netstat0"]) = elementText netstat := xpathText_leaf rfl

theorem instanceInfoUpdate_text {reqId status : Int} {ii : InstanceInfo}
    (h : (NodeMessage.instanceInfo reqId status ii).WellFormed) (env : Env) (c : Clc) :
    instanceInfoUpdate env c (answerRoot (.instanceInfo reqId status ii)) =
      instanceUpdate env c { ii with ip := elementText (ii.ip.getD []) } := by
  obtain ⟨-, -, hid, hstatus, hgport, -, hcounters⟩ := h
  have pid : (answerRoot (.instanceInfo reqId status ii)).xpathText (inData ["id"]) =
      some (dec ii.id) :=
    xpathText_dec rfl
  have pstatus : (answerRoot (.instanceInfo reqId status ii)).xpathText (inData ["status"]) =
      some (dec ii.status) :=
    xpathText_dec rfl
  -- the address may be empty, and then its element has no text
  have pip : (answerRoot (.instanceInfo reqId status ii)).xpathText (inData ["ip"]) =
      elementText (ii.ip.getD []) :=
    xpathText_leaf rfl
  have pgport : (answerRoot (.instanceInfo reqId status ii)).xpathText (inData ["gport"]) =
      some (dec ii.gport) :=
    xpathText_dec rfl
  have pnetstat : (answerRoot (.instanceInfo reqId status ii)).xpathText (inData ["netstat0"]) =
      some (netstatText ii) := by
    have hne : netstatText ii ≠ [] := List.append_ne_nil_of_left_ne_nil (dec_ne_nil _) _
    exact (netstat_found reqId status ii _).trans (elementText_of_ne hne)
  rw [instanceInfoUpdate_fields pid pstatus pgport pnetstat, pip, scanNetstat_text hcounters,
    atoi_dec_int hid, atoi_dec_int hstatus, atoi_dec_int hgport]

/-! ## What the controller makes of them -/

/-- `__process_node_xml_response`: first the job, and then the data. -/
def afterJob (env : Env) (c : Clc) (id status : Int)
    (rest : Clc → Res (Clc × Int)) : Res (Clc × Int) :=
  match nodeResponseJob env c id status with
  | .error e => .error e
  | .ok (c, some ret) => .ok (c, ret)
  | .ok (c, none) => rest c

/-- `__node_xml_register`, when the node has said all there is to say. -/
def nodeRegister (env : Env) (c : Clc) (i : Nat) (ni : NodeInfo) : Res (Clc × Int) :=
  if lyEntityIsRegistered c.store i then .ok (c, -1)
  else match (c.store.ents i).entity with
  | .null => .ok (c, -1)
  | .osm _ => .error .wrongType
  | .node nd =>
    let nd := { nd with node := ni.learn env.cfg nd.node }
    let c := c.setNode i nd
    -- by its own account the node is registered already
    if NodeStatus.registered ≤ nd.node.status then .ok (c.releaseOwn i, 0)
    else match lyEntityNodeActive c.store (nd.node.hostIp.getD []) with
    | .error e => .error e
    -- another connection is registered under the same address
    | .ok true => .ok (c.releaseOwn i, 0)
    | .ok false =>
      if 0 < ni.hostTag then nodeRegisterTagged env c i nd ni.hostTag
        else nodeRegisterNew env c i nd

/-- The answer to a register request. -/
def registerAnswer (env : Env) (c : Clc) (i : Nat) (reqId ret : Int) : Res (Clc × Int) :=
  -- `ret = 0`: the connection has been given up, and there is nobody to answer
  if ret = 0 then .ok (c, 0)
  else match (c.store.ents i).entity with
  | .null => .ok (c, -1)
  | .osm _ => .error .wrongType
  | .node nd =>
    let secret := if ret = LyS.registeringConfig then
        (((c.store.ents i).auth.secret).getD []).take luoyunAuthDataLen
      else []
    let tag := if 0 < nd.node.hostTag then nd.node.hostTag else 0
    match lyxmlDataReplyAuthInfo reqId ret tag secret with
    | none => .error .nullDeref
    | some response =>
      .ok (lyPacketSend env c (c.store.ents i).fd PktType.nodeRegisterReply response)

/-- A node has answered a query about itself. -/
def nodeAnswer (env : Env) (i : Nat) (ni : NodeInfo) (c : Clc) : Res (Clc × Int) :=
  if (c.store.ents i).type ≠ .node ∨ lyEntityIsOnline c.store i = false then .ok (c, 0)
  else match (c.store.ents i).entity with
  | .null => .ok (c, 0)
  | .osm _ => .error .wrongType
  | .node nd =>
    let c := c.setNode i { nd with node := ni.report nd.node }
    .ok ((dbNodeUpdate env c (c.store.ents i).dbId (ni.report nd.node)).1, 0)

/-- A node has answered a query about an instance. -/
def instanceAnswer (env : Env) (i : Nat) (ii : InstanceInfo) (c : Clc) : Res (Clc × Int) :=
  if (c.store.ents i).type ≠ .node then .ok (c, 0)
  else .ok (instanceUpdate env c { ii with ip := elementText (ii.ip.getD []) })

/-- A node has reported what it has left. -/
def resourceReport (c : Clc) (i : Nat) (ni : NodeInfo) : Res (Clc × Int) :=
  match (c.store.ents i).entity with
  | .null => .ok (c, 0)
  | .osm _ => .error .wrongType
  | .node nd => .ok (c.setNode i { nd with node := ni.resource nd.node }, 0)

/-- What the controller does with a message on the connection in slot `i`. -/
def NodeMessage.handle (env : Env) (c : Clc) (i : Nat) : NodeMessage → Res (Clc × Int)
  | register reqId ni =>
    match nodeRegister env c i ni with
    | .error e => .error e
    | .ok (c, ret) => registerAnswer env c i reqId ret
  | result reqId status _ => afterJob env c reqId status fun c => .ok (c, 0)
  | nodeInfo reqId status ni => afterJob env c reqId status (nodeAnswer env i ni)
  | instanceInfo reqId status ii => afterJob env c reqId status (instanceAnswer env i ii)
  | report status _ => nodeReportEnd c i status
  | resource ni => resourceReport c i ni

/-! ## It is what the handlers do -/

/-- The text behind the header of the packet in slot `i`. -/
def HoldsText (c : Clc) (i : Nat) (text : Bytes) : Prop :=
  ∃ m, c.mem i = .ok m ∧ m.loadStr sizeofLYPacketHeader = .ok text

section Handling

variable {env : Env} {c : Clc} {i : Nat}

theorem nodeXmlLoop_other {root node : XmlNode} {nodes : List XmlNode} (ret : Int)
    (hresp : node.named (cstr "response") = false) (hreq : node.named (cstr "request") = false)
    (hreport : node.named (cstr "report") = false) (h0 : 0 ≤ ret) :
    nodeXmlLoop env root i (node :: nodes) c ret = nodeXmlLoop env root i nodes c ret := by
  simp only [nodeXmlLoop, nodeXmlElement, hresp, hreq, hreport, Bool.false_eq_true, if_false]
  rw [if_neg (by omega)]

theorem nodeXmlLoop_one (root node : XmlNode) (ret : Int) :
    nodeXmlLoop env root i [node] c ret = nodeXmlElement env root i c node ret := by
  rw [nodeXmlLoop]
  cases nodeXmlElement env root i c node ret with
  | error e => rfl
  | ok r =>
    simp only [nodeXmlLoop]
    split <;> rfl

theorem nodeXmlElement_response {root node : XmlNode} {ret : Int}
    (h : node.named (cstr "response") = true) :
    nodeXmlElement env root i c node ret = processNodeXmlResponse env c root node i := by
  rw [nodeXmlElement, if_pos h]

theorem nodeXmlElement_request {root node : XmlNode} {ret : Int}
    (h0 : node.named (cstr "response") = false) (h : node.named (cstr "request") = true) :
    nodeXmlElement env root i c node ret = processNodeXmlRequest env c root node i := by
  simp only [nodeXmlElement, h0, h, Bool.false_eq_true, if_false, if_true]

theorem nodeXmlElement_report {root node : XmlNode} {ret : Int}
    (h0 : node.named (cstr "response") = false)
    (h1 : node.named (cstr "request") = false) (h : node.named (cstr "report") = true) :
    nodeXmlElement env root i c node ret = processNodeXmlReport c root node i := by
  simp only [nodeXmlElement, h0, h1, h, Bool.false_eq_true, if_false, if_true]

/-- Of a message in the buffer the one element that matters is handled. -/
theorem ehProcessNodeXml_item (hr : ReadsPlain env.readDoc) {item : Content}
    {node : XmlNode} (hplain : item.Plain)
    (hitem : toNodes item = [node]) (hbuf : HoldsText c i (messageText .node .clc item)) :
    ehProcessNodeXml env c i = nodeXmlElement env (messageRoot .node .clc item) i c node 0 := by
  obtain ⟨m, hm, hload⟩ := hbuf
  have hroot : (messageRoot .node .clc item).named lyxmlRoot = true := rfl
  have hchildren : (messageRoot .node .clc item).children =
      [.element (cstr "from") [(cstr "entity", dec EntityType.node.code)] [],
        .element (cstr "to") [(cstr "entity", dec EntityType.clc.code)] [], node] := by
    rw [← hitem]
    rfl
  simp only [ehProcessNodeXml, hm, hload, bind, Except.bind, read_message hr .node .clc hplain,
    hroot, if_true]
  -- the loop passes over `from` and `to`
  rw [hchildren, nodeXmlLoop_other 0 rfl rfl rfl (by decide),
    nodeXmlLoop_other 0 rfl rfl rfl (by decide), nodeXmlLoop_one]

/-- `__process_node_xml_response` with its attributes read. -/
theorem processNodeXmlResponse_eq {root node : XmlNode} {id status : Int} (hid : IsInt32 id)
    (hstatus : IsInt32 status)
    (pid : node.prop (cstr "id") = some (dec id))
    (pstatus : node.prop (cstr "status") = some (dec status)) :
    processNodeXmlResponse env c root node i =
      afterJob env c id status fun c => nodeResponseData env c root i (responseDataType node) := by
  simp only [processNodeXmlResponse, pid, pstatus, atoi_dec_int hid, atoi_dec_int hstatus]
  rfl

/-- A message that is a response is handled in two steps. -/
theorem ehProcessNodeXml_response (hr : ReadsPlain env.readDoc) {id status : Int}
    {body : Content} (hid : IsInt32 id)
    (hstatus : IsInt32 status) (hplain : (responseItem id status body).Plain)
    (hbuf : HoldsText c i (messageText .node .clc (responseItem id status body))) :
    ehProcessNodeXml env c i = afterJob env c id status fun c =>
      nodeResponseData env c (messageRoot .node .clc (responseItem id status body)) i
        (responseDataType (responseNode id status body)) := by
  obtain ⟨pid, pstatus⟩ := responseNode_props id status body
  rw [ehProcessNodeXml_item hr hplain (responseItem_nodes id status body) hbuf,
    nodeXmlElement_response rfl]
  exact processNodeXmlResponse_eq hid hstatus pid pstatus

theorem responseDataType_data {id status type : Int} (h : IsInt32 type) (body : Content) :
    responseDataType (responseNode id status
      (.element (cstr "data") [(cstr "type", dec type)] body .nil)) = type := by
  have hprop : (XmlNode.element (cstr "data") [(cstr "type", dec type)] (toNodes body)).prop
      (cstr "type") =
      some (dec type) := rfl
  have hdata : (XmlNode.element (cstr "data") [(cstr "type", dec type)] (toNodes body)).named
      (cstr "data") = true := rfl
  simp only [responseDataType, responseNode, children, toNodes, List.foldl_cons, List.foldl_nil,
    hdata, hprop, if_true, Option.map_some, Option.getD_some, atoi_dec_int h]

/-- The data of an answer about the node. -/
theorem nodeResponseData_nodeInfo {reqId status : Int} {ni : NodeInfo}
    (hnats : ∀ x ∈ nodeInfoNats ni, IsUInt32 x) (c : Clc) :
    nodeResponseData env c (answerRoot (.nodeInfo reqId status ni)) i dataNodeInfo =
      nodeAnswer env i ni c := by
  have hne : ¬ dataNodeInfo = dataInstanceInfo := by decide
  simp only [nodeResponseData, nodeAnswer, nodeInfoUpdate, hne, and_false, and_true, if_false,
    ne_eq]
  by_cases htype : (c.store.ents i).type = .node
  · cases lyEntityIsOnline c.store i with
    | false => simp only [htype, if_true, not_true, false_or]
    | true =>
      simp only [htype, if_true, not_true, false_or, Bool.true_eq_false, if_false]
      cases (c.store.ents i).entity with
      | null => rfl
      | osm oi => rfl
      | node nd => simp only [readFields_nodeInfo hnats, if_true]
  · simp only [htype, if_false, not_false_eq_true, true_or, if_true]

theorem nodeResponseData_instanceInfo {reqId status : Int} {ii : InstanceInfo}
    (h : (NodeMessage.instanceInfo reqId status ii).WellFormed) (c : Clc) :
    nodeResponseData env c (answerRoot (.instanceInfo reqId status ii)) i dataInstanceInfo =
      instanceAnswer env i ii c := by
  simp only [nodeResponseData, instanceAnswer, and_true, instanceInfoUpdate_text h]
  by_cases htype : (c.store.ents i).type = .node
  · rw [if_pos htype, if_neg (not_not.mpr htype)]
    generalize hii : ({ ii with ip := elementText (ii.ip.getD []) } : InstanceInfo) = ii'
    rcases instanceUpdate_ret env c ii' with hret | hret
    · rw [hret, if_pos (by decide), ← hret]
    · rw [hret, if_neg (by decide), ← hret]
  · have hne : ¬ dataInstanceInfo = dataNodeInfo := by decide
    rw [if_neg htype, if_neg (fun h => hne h.2), if_pos htype]

theorem nodeResponseData_none (root : XmlNode) (c : Clc) :
    nodeResponseData env c root i (-1) = .ok (c, 0) := by
  have h1 : ¬ (-1 : Int) = dataInstanceInfo := by decide
  have h2 : ¬ (-1 : Int) = dataNodeInfo := by decide
  rw [nodeResponseData, if_neg (fun h => h1 h.2), if_neg (fun h => h2 h.2)]

/-- The fields of a register request are handled as if the node had been asked for them. -/
theorem nodeXmlRegister_message {reqId : Int} {ni : NodeInfo}
    (h : (NodeMessage.register reqId ni).WellFormed)
    (c : Clc) : nodeXmlRegister env c (registerRoot reqId ni) i = nodeRegister env c i ni := by
  obtain ⟨-, htag, hnats, htexts⟩ := h
  have ptag : ((registerRoot reqId ni).xpathText (inRequest ["host", "tag"])) =
      some (dec ni.hostTag) :=
    xpathText_dec rfl
  have hread : (((registerRoot reqId ni).xpathText (inRequest ["host", "tag"])).map atoi).getD
      (-1) = ni.hostTag := by
    rw [ptag, Option.map_some, Option.getD_some, atoi_dec_int htag]
  unfold nodeXmlRegister nodeRegister
  cases (c.store.ents i).entity with
  | null => rfl
  | osm oi => rfl
  | node nd =>
    dsimp only
    -- the two sides then differ in the matchers of their definitions only
    rewrite [readFields_register env.cfg hnats (fun t ht => (htexts t ht).2), hread]
    rfl

/-- Nothing is done with the status of a report, but it has the one in the node data read. -/
theorem processNodeXmlReport_status (root : XmlNode) (c : Clc) {status : Int}
    (hstatus : IsInt32 status) (msg : Option Bytes) :
    processNodeXmlReport c root (reportNode (statusContent status msg)) i =
      nodeReportEnd c i status := by
  have hnodes : (reportNode (statusContent status msg)).children =
      [.element (cstr "status") [] (toNodes (ofText (dec status))),
        .element (cstr "message") [] (toNodes (ofText (msg.getD [])))] := rfl
  have htext : toNodes (ofText (dec status)) = [.text (dec status)] := by
    rw [ofText, if_neg (dec_ne_nil status)]
    rfl
  rw [processNodeXmlReport, hnodes, htext]
  show nodeReportEnd c i (atoi (dec status)) = _
  rw [atoi_dec_int hstatus]

theorem processNodeXmlReport_resource {ni : NodeInfo}
    (h : (NodeMessage.resource ni).WellFormed) (c : Clc) :
    processNodeXmlReport c (answerRoot (.resource ni))
      (reportNode (.element (cstr "resource") [] (resourceContent ni) .nil)) i =
        resourceReport c i ni := by
  have hnodes : (reportNode (.element (cstr "resource") [] (resourceContent ni) .nil)).children =
      [.element (cstr "resource") [] (toNodes (resourceContent ni))] := rfl
  have hstatus : (XmlNode.element (cstr "resource") [] (toNodes (resourceContent ni))).named
      (cstr "status") = false := rfl
  have hresource : (XmlNode.element (cstr "resource") [] (toNodes (resourceContent ni))).named
      (cstr "resource") = true :=
    rfl
  rw [processNodeXmlReport, hnodes]
  simp only [nodeReportLoop, hstatus, hresource, Bool.false_eq_true, if_false, if_true]
  unfold nodeResourceUpdate resourceReport
  cases he : (c.store.ents i).entity with
  | null => simp only [nodeReportEnd, he]
  | osm oi => rfl
  | node nd => simp only [readFields_resource h, nodeReportEnd, setNode_entity]

/-- A register request. -/
theorem ehProcessNodeXml_register (hr : ReadsPlain env.readDoc) {reqId : Int}
    {ni : NodeInfo} {text : Bytes}
    (h : (NodeMessage.register reqId ni).WellFormed)
    (htext : (NodeMessage.register reqId ni).text = some text) (hbuf : HoldsText c i text) :
    ehProcessNodeXml env c i = (NodeMessage.register reqId ni).handle env c i := by
  rw [NodeMessage.text_eq htext] at hbuf
  obtain ⟨pid, paction⟩ := registerNode_props reqId ni
  rw [ehProcessNodeXml_item hr (NodeMessage.item_plain h) (registerItem_nodes reqId ni) hbuf,
    nodeXmlElement_request rfl rfl, processNodeXmlRequest, pid, paction]
  have hregister : nodeXmlRegister env c (answerRoot (.register reqId ni)) i =
      nodeRegister env c i ni :=
    nodeXmlRegister_message h c
  rw [answerRoot] at hregister
  simp only [atoi_dec_int h.1, atoi_clcRegisterNode, ne_eq, not_true, if_false, hregister]
  rw [NodeMessage.handle]
  cases nodeRegister env c i ni with
  | error e => rfl
  | ok r => rfl

/-- At an element without text the controller gives up, with what it has read until then. -/
theorem nodeXmlRegister_unread {root : XmlNode} {nd : LYNodeData}
    (hnode : (c.store.ents i).entity = .node nd) (hfresh : lyEntityIsRegistered c.store i = false)
    (hread : (readFields root (registerFields env.cfg) nd.node).2 = false) :
    nodeXmlRegister env c root i =
      .ok
        (c.setNode i
          { nd with node := (readFields root (registerFields env.cfg) nd.node).1 }, -1) := by
  unfold nodeXmlRegister
  rw [hfresh, hnode]
  dsimp only
  rw [hread]
  rfl

/-- **A register request is understood if none of its texts is empty**, and given up otherwise: then
the connection keeps what was read, and the node gets the `-1` as its answer. -/
theorem register_understood (hr : ReadsPlain env.readDoc) {reqId : Int}
    {ni : NodeInfo} {nd : LYNodeData}
    {text : Bytes} (hid : IsInt32 reqId) (hnats : ∀ x ∈ registerNats ni, IsUInt32 x)
    (hplain : ∀ t ∈ registerTexts ni, PlainText t)
    (htext : lyxmlDataNodeRegister reqId ni = some text)
    (hbuf : HoldsText c i text) (hnode : (c.store.ents i).entity = .node nd)
    (hfresh : lyEntityIsRegistered c.store i = false) :
    ∃ root, env.readDoc text = some root ∧
      ((readFields root (registerFields env.cfg) nd.node).2 = true ↔
        ∀ t ∈ registerTexts ni, t ≠ []) ∧
      ((∃ t ∈ registerTexts ni, t = []) → ∃ nf,
        nodeXmlRegister env c root i = .ok (c.setNode i { nd with node := nf }, -1) ∧
        ehProcessNodeXml env c i =
          registerAnswer env (c.setNode i { nd with node := nf }) i reqId (-1)) := by
  have hitem := registerItem_plain hplain reqId
  have hiff := @readFields_registerRoot_iff reqId ni env.cfg hnats nd.node
  rw [lyxmlDataNodeRegister_eq htext] at hbuf ⊢
  refine ⟨registerRoot reqId ni, read_message hr .node .clc hitem, hiff, fun hempty => ?_⟩
  have hread : (readFields (registerRoot reqId ni) (registerFields env.cfg) nd.node).2 = false := by
    obtain ⟨t, ht, hnil⟩ := hempty
    exact Bool.eq_false_iff.mpr fun htrue => hiff.mp htrue t ht hnil
  have hgives := nodeXmlRegister_unread hnode hfresh hread
  refine ⟨_, hgives, ?_⟩
  obtain ⟨pid, paction⟩ := registerNode_props reqId ni
  rw [registerRoot] at hgives
  rw [ehProcessNodeXml_item hr hitem (registerItem_nodes reqId ni) hbuf,
    nodeXmlElement_request rfl rfl, processNodeXmlRequest, pid, paction]
  simp only [atoi_dec_int hid, atoi_clcRegisterNode, ne_eq, not_true, if_false, hgives]
  rfl

/-- **What the controller does with a message does not depend on how it is written.** -/
theorem ehProcessNodeXml_message (hr : ReadsPlain env.readDoc) {msg : NodeMessage} {text : Bytes}
    (h : msg.WellFormed) (htext : msg.text = some text) (hbuf : HoldsText c i text) :
    ehProcessNodeXml env c i = msg.handle env c i := by
  have hmsg : HoldsText c i (messageText .node .clc msg.item) := NodeMessage.text_eq htext ▸ hbuf
  have hplain := NodeMessage.item_plain h
  cases msg with
  | register reqId ni => exact ehProcessNodeXml_register hr h htext hbuf
  | result reqId status msg =>
    have htype :
        responseDataType (responseNode reqId status (leaf "result" (msg.getD []) .nil)) = -1 := rfl
    rw [ehProcessNodeXml_response hr h.1 h.2.1 hplain hmsg, htype]
    exact congrArg (afterJob env c reqId status) (funext fun c => nodeResponseData_none _ c)
  | nodeInfo reqId status ni =>
    obtain ⟨hid, hstatus, hnats⟩ := h
    have htype : responseDataType (responseNode reqId status (nodeInfoData ni)) = dataNodeInfo :=
      responseDataType_data (by decide) _
    rw [ehProcessNodeXml_response hr hid hstatus hplain hmsg, htype]
    exact congrArg (afterJob env c reqId status) (funext fun c => nodeResponseData_nodeInfo hnats c)
  | instanceInfo reqId status ii =>
    have htype :
        responseDataType (responseNode reqId status (instanceInfoData ii (netstatText ii))) =
        dataInstanceInfo := responseDataType_data (by decide) _
    rw [ehProcessNodeXml_response hr h.1 h.2.1 hplain hmsg, htype]
    exact congrArg (afterJob env c reqId status) (funext fun c => nodeResponseData_instanceInfo h c)
  | report status msg =>
    have hnodes : toNodes (NodeMessage.report status msg).item =
        [reportNode (statusContent status msg)] := rfl
    rw [ehProcessNodeXml_item hr hplain hnodes hmsg, nodeXmlElement_report rfl rfl rfl]
    exact processNodeXmlReport_status _ c h.1 msg
  | resource ni =>
    have hnodes : toNodes (NodeMessage.resource ni).item =
        [reportNode (.element (cstr "resource") [] (resourceContent ni) .nil)] := rfl
    rw [ehProcessNodeXml_item hr hplain hnodes hmsg, nodeXmlElement_report rfl rfl rfl]
    exact processNodeXmlReport_resource h c

end Handling

/-- Surroundings in which plain markup is read, and nothing else. -/
def Env.plainXml : Env := { Env.plain with readDoc := plainReader }

/-- A CLC with connections of nodes that have this text in their buffers. -/
def Clc.holding (text : Bytes) : Clc :=
  { store :=
      { ents := fun _ =>
          { pkt := some (lyPacketInit (Mem.write (fun _ => 0) sizeofLYPacketHeader text))
            type := .node
            entity := .node {} } } }

theorem holding_holdsText {text : Bytes}
    (hlen : sizeofLYPacketHeader + text.length < luoyunPacketSizeMax)
    (hzero : (0 : UInt8) ∉ text) (i : Nat) : HoldsText (.holding text) i text := by
  refine ⟨_, rfl, Mem.loadStr_text hlen (Mem.slice_write _ _ _) hzero ?_⟩
  simp [Mem.write]

/-- A node with all its texts but perhaps the model of its CPU. -/
def modelNode (cpuModel : Bytes) : NodeInfo :=
  { hostName := some (cstr "node1"), hostIp := some (cstr "10.0.0.5"), hostTag := -1, cpuArch := 2,
    cpuModel := some cpuModel, cpuMhz := 2400, cpuMax := 8, memMax := 4096, memFree := 1024,
    storageTotal := 500, storageFree := 300 }

theorem modelNode_written {m : Bytes} (hplain : ∀ t ∈ registerTexts (modelNode m), PlainText t)
    (hfits : (lyxmlDataNodeRegister 1 (modelNode m)).isSome = true) :
    ∃ text, lyxmlDataNodeRegister 1 (modelNode m) = some text ∧
      HoldsText (.holding text) 1 text := by
  obtain ⟨text, htext⟩ := Option.isSome_iff_exists.mp hfits
  have hlen := xmlFits_length htext
  have hmax : sizeofLYPacketHeader + luoyunXmlDataMax ≤ luoyunPacketSizeMax := by decide
  refine ⟨text, htext, holding_holdsText (by omega) ?_ 1⟩
  rw [lyxmlDataNodeRegister_eq htext]
  exact zero_not_mem_messageText .node .clc (registerItem_plain hplain 1)

theorem holding_fresh (text : Bytes) :
    lyEntityIsRegistered (Clc.holding text).store (1 : Nat) = false := by
  have hstatus : ((Clc.holding text).store.ents 1).status = ({} : LYEntity).status := rfl
  rw [lyEntityIsRegistered, lyEntityIs, slot?_natCast (by decide)]
  dsimp only
  rw [hstatus]
  decide

/-- It is understood if it names the model, and given up if it does not. -/
theorem register_understood_demo :
    (∃ text root, lyxmlDataNodeRegister 1 (modelNode (cstr "Xeon")) = some text ∧
      plainReader text = some root ∧
      (readFields root (registerFields {}) {}).2 = true) ∧
    ∃ text nf, lyxmlDataNodeRegister 1 (modelNode []) = some text ∧
      ehProcessNodeXml .plainXml (.holding text) 1 =
      registerAnswer .plainXml (Clc.setNode (.holding text) 1 { node := nf }) 1 1 (-1) := by
  have hnats : ∀ m, ∀ x ∈ registerNats (modelNode m), IsUInt32 x := fun _ => by
    show ∀ x ∈ registerNats (modelNode []), IsUInt32 x
    decide
  have hxeon : ∀ t ∈ registerTexts (modelNode (cstr "Xeon")), PlainText t := by decide
  have hnone : ∀ t ∈ registerTexts (modelNode []), PlainText t := by decide
  constructor
  · obtain ⟨text, htext, hbuf⟩ := modelNode_written hxeon (by decide +kernel)
    obtain ⟨root, hread, hiff, -⟩ :=
      @register_understood .plainXml (.holding text) 1 plainReader_reads 1
      (modelNode (cstr "Xeon")) {} text (by decide)
        (hnats _) hxeon htext hbuf rfl (holding_fresh text)
    exact ⟨text, root, htext, hread, hiff.mpr (by decide)⟩
  · obtain ⟨text, htext, hbuf⟩ := modelNode_written hnone (by decide +kernel)
    obtain ⟨root, -, -, hgives⟩ :=
      @register_understood .plainXml (.holding text) 1 plainReader_reads 1
      (modelNode []) {} text (by decide) (hnats _) hnone htext hbuf rfl (holding_fresh text)
    obtain ⟨nf, -, hans⟩ := hgives ⟨[], by decide, rfl⟩
    exact ⟨text, nf, htext, hans⟩

def demoMessage : NodeMessage :=
  .resource { memFree := 4096, cpuCommit := 2, storageFree := 7, loadAverage := 12 }

theorem ehProcessNodeXml_demo : ∃ text, demoMessage.text = some text ∧
    ehProcessNodeXml .plainXml (.holding text) 1 =
      demoMessage.handle .plainXml (.holding text) 1 := by
  have hfits : demoMessage.text.isSome = true := by decide +kernel
  obtain ⟨text, htext⟩ := Option.isSome_iff_exists.mp hfits
  have hwell : demoMessage.WellFormed := by
    show ∀ x ∈ _, IsUInt32 x
    decide
  have hlen := NodeMessage.text_length htext
  refine ⟨text, htext, ehProcessNodeXml_message plainReader_reads hwell htext
    (holding_holdsText ?_ ?_ 1)⟩
  · have hmax : sizeofLYPacketHeader + luoyunXmlDataMax ≤ luoyunPacketSizeMax := by decide
    omega
  · rw [NodeMessage.text_eq htext]
    exact zero_not_mem_messageText .node .clc (NodeMessage.item_plain hwell)

end LuoYun

import LuoYun.Compute.Events
import LuoYun.Proof.NodeInfo

/-!
# Whom a compute node obeys

A node should act on the requests of a controller that has proved, on the same connection, that it
knows the secret of the node (`Obedient`). Nothing in `__process_xml_request` looks at `g_c->state`,
and `__process_xml_response` takes a success for granted in every state, so a peer that is asked for
a proof can answer with a request instead (`obeys_unverified`).

As long as requests and reports of success come in states that only a verified reply leads to
(`Gated`), the node is obedient: the invariant says that such a state was earned on this connection,
and that a challenge that is being waited for was sent on it.
-/

namespace LuoYun

/-! ## Trust -/

/-- In what has happened so far, the latest first: a challenge was sent and its answer verified, and
since then the node was in no state before `NODE_STATUS_AUTHENTICATED`. -/
def Trusted : List Mark → Prop
  | [] => False
  | .verified ch :: before => Mark.challenge ch ∈ before
  | .state s :: before => NodeStatus.authenticated ≤ s ∧ Trusted before
  | .challenge _ :: before => Trusted before
  | .control _ :: before => Trusted before

/-- Every call of `ly_handler_instance_control` was made in trust. -/
def Obedient : List Mark → Prop
  | [] => True
  | .control _ :: before => Trusted before ∧ Obedient before
  | .state _ :: before => Obedient before
  | .challenge _ :: before => Obedient before
  | .verified _ :: before => Obedient before

/-- The element makes `__process_xml_request` call `ly_handler_instance_control`. -/
def IsControl (root node : XmlNode) : Prop :=
  node.named (cstr "response") = false ∧ node.named (cstr "request") = true ∧
    ∃ id action, node.prop (cstr "id") = some id ∧ node.prop (cstr "action") = some action ∧
      atoi action ≠ LyA.nodeQuery ∧ (nodeCtrlRequest root (atoi id) (atoi action)).isSome

/-- The element reports that the node is registered. -/
def IsSuccess (node : XmlNode) : Prop :=
  node.named (cstr "response") = true ∧
    ∃ status, node.prop (cstr "status") = some status ∧ atoi status = LyS.registeringDoneSuccess

/-- Control requests and reports of success come only in states from `NODE_STATUS_AUTHENTICATED` on.
-/
def Gated (w : Work) : WorkEvent → Prop
  | .element => ∀ root node nodes, w.doc = some (root, node :: nodes) →
      IsControl root node ∨ IsSuccess node → NodeStatus.authenticated ≤ w.g.state
  | _ => True

/-- A node that has just been started. -/
def WorkInit (w : Work) : Prop :=
  w.g.wfd < 0 ∧ w.doc = none ∧ w.g.trace = [] ∧
    (w.g.state = NodeStatus.uninitialized ∨ w.g.state = NodeStatus.initialized)

/-! ## The invariant -/

/-- Where the node stands is covered by what has happened on the connection. -/
structure Earned (g : NodeControl) : Prop where
  obedient : Obedient g.trace
  trusted : NodeStatus.authenticated ≤ g.state → Trusted g.trace
  /-- The challenge that the node waits for was sent on this connection. -/
  waiting : g.state = NodeStatus.authenticating → ∃ ch, g.auth.challenge = some ch ∧
    .challenge ch ∈ g.trace

theorem Earned.of_same {g g' : NodeControl} (h : Earned g) (hs : g'.state = g.state)
    (ht : g'.trace = g.trace) (hc : g'.auth.challenge = g.auth.challenge) : Earned g' where
  obedient := by
    rw [ht]
    exact h.obedient
  trusted := by
    rw [hs, ht]
    exact h.trusted
  waiting := by
    rw [hs, ht, hc]
    exact h.waiting

/-- An assignment that does not claim more than the state before. -/
theorem Earned.setState {g : NodeControl} (h : Earned g) {s : Int}
    (hs : NodeStatus.authenticated ≤ s → NodeStatus.authenticated ≤ g.state)
    (hw : s ≠ NodeStatus.authenticating) : Earned (g.setState s) where
  obedient := h.obedient
  trusted := fun hle => ⟨hle, h.trusted (hs hle)⟩
  waiting := fun he => absurd he hw

/-- A state before `NODE_STATUS_AUTHENTICATED` can always be gone back to. -/
theorem Earned.setState_early {g : NodeControl} (h : Earned g) {s : Int}
    (hs : s < NodeStatus.authenticating) :
    Earned (g.setState s) := by
  refine h.setState ?_ (Int.ne_of_lt hs)
  intro hle
  unfold NodeStatus.authenticated at hle
  unfold NodeStatus.authenticating at hs
  omega

theorem Earned.called {g : NodeControl} (h : Earned g) : Earned g.called := h.of_same rfl rfl rfl

/-! ## The functions of the node -/

variable {env : WorkEnv} {g : NodeControl}

/-- A send does not change where the node stands. -/
theorem workSend_same (env : WorkEnv) (g : NodeControl) (type : Int) (data : Bytes) :
    (workSend env g type data).1.state = g.state ∧ (workSend env g type data).1.trace = g.trace ∧
      (workSend env g type data).1.auth = g.auth := by
  unfold workSend
  cases lyPacketFrame g.wfd type data with
  | error e => exact ⟨rfl, rfl, rfl⟩
  | ok bs => exact ⟨rfl, rfl, rfl⟩

theorem Earned.workSend (h : Earned g) (type : Int) (data : Bytes) :
    Earned (workSend env g type data).1 := by
  obtain ⟨hs, ht, ha⟩ := workSend_same env g type data
  exact h.of_same hs ht (by rw [ha])

theorem Earned.workNodeInfoUpdate (h : Earned g) : Earned (workNodeInfoUpdate env g).1 :=
  h.of_same rfl rfl rfl

/-- A challenge that was sent is waited for. -/
theorem Earned.waitFor (h : Earned g) {ch : Uuid} (hch : g.auth.challenge = some ch) :
    Earned ((g.mark (.challenge ch)).setState NodeStatus.authenticating) where
  obedient := h.obedient
  trusted := fun hle =>
    absurd hle (show ¬ NodeStatus.authenticated ≤ NodeStatus.authenticating by decide)
  waiting := fun _ => ⟨ch, hch, List.mem_cons_of_mem _ List.mem_cons_self⟩

theorem sendChallenge_earned (h : Earned g) {ch : Uuid}
    (hch : g.auth.challenge = some ch) (data : Bytes) :
    Earned (if (workSend env g PktType.nodeAuthRequest data).2 < 0 then
      ((workSend env g PktType.nodeAuthRequest data).1, (-1 : Int))
      else (((workSend env g PktType.nodeAuthRequest data).1.mark (.challenge ch)).setState
        NodeStatus.authenticating, 0)).1 := by
  have hr : Earned (workSend env g PktType.nodeAuthRequest data).1 :=
    h.workSend PktType.nodeAuthRequest data
  obtain ⟨-, -, hauth⟩ := workSend_same env g PktType.nodeAuthRequest data
  generalize workSend env g PktType.nodeAuthRequest data = r at *
  split
  · exact hr
  · exact hr.waitFor (by rw [hauth, hch])

/-- The node goes to wait for the answer to a challenge that it has just sent. -/
theorem requestChallenging_earned (h : Earned g) (hs : g.state < NodeStatus.authenticating) :
    Earned (requestChallenging env g).1 := by
  have hearly :
      Earned { g.called with auth := { g.auth with challenge := some (env.uuid g.tick) } } :=
    ⟨h.obedient, h.trusted, fun he => absurd he (Int.ne_of_lt hs)⟩
  exact sendChallenge_earned hearly rfl _

/-- What `requestRegister` does with the state before it sends. -/
theorem Earned.unregister (h : Earned g) :
    Earned (if NodeStatus.unauthenticated ≤ g.state ∧ NodeStatus.authenticated ≤ g.state then
      g.setState NodeStatus.unregistered
      else g) := by
  split
  · rename_i hle
    exact h.setState (fun _ => hle.2) (by decide)
  · exact h

theorem sendRegister_earned (h : Earned g) (xml : Bytes) :
    Earned (if (workSend env g PktType.nodeRegisterRequest xml).2 < 0 then
      ((workSend env g PktType.nodeRegisterRequest xml).1, (-1 : Int))
      else if (workSend env g PktType.nodeRegisterRequest xml).1.state =
          NodeStatus.unregistered then
        ((workSend env g PktType.nodeRegisterRequest xml).1.setState NodeStatus.registering, 0)
      else ((workSend env g PktType.nodeRegisterRequest xml).1, 0)).1 := by
  have hr : Earned (workSend env g PktType.nodeRegisterRequest xml).1 :=
    h.workSend PktType.nodeRegisterRequest xml
  generalize workSend env g PktType.nodeRegisterRequest xml = r at *
  split
  · exact hr
  · split
    · rename_i hst
      -- the state was at least `NODE_STATUS_UNREGISTERED` already
      refine hr.setState ?_ (by decide)
      intro _
      rw [hst]
      decide
    · exact hr

/-- The register request moves a node within the states that come after its authentication. -/
theorem requestRegister_earned (h : Earned g) : Earned (requestRegister env g).1 := by
  have hu : Earned (workNodeInfoUpdate env g).1 := h.workNodeInfoUpdate
  obtain ⟨u, hupd⟩ : ∃ u, workNodeInfoUpdate env g = u := ⟨_, rfl⟩
  simp only [requestRegister, hupd] at hu ⊢
  split
  · exact hu
  · have hg := hu.unregister
    generalize
      (if NodeStatus.unauthenticated ≤ u.1.state ∧ NodeStatus.authenticated ≤ u.1.state then
        u.1.setState NodeStatus.unregistered
        else u.1) = g' at hg
    have hid : Earned { g' with requestId := g'.requestId + 1 } := hg.of_same rfl rfl rfl
    generalize lyxmlDataNodeRegister (toInt32 g'.requestId) g'.node = text
    cases text with
    | none => exact hid
    | some xml => exact sendRegister_earned hid xml

theorem lyRegisterNode_earned (h : Earned g) : Earned (lyRegisterNode env g).1 := by
  unfold lyRegisterNode
  split
  · exact h
  · split
    · rename_i hs
      exact requestChallenging_earned h (by rw [hs]; decide)
    · exact requestRegister_earned h

theorem processNodeQuery_earned (h : Earned g) (reqId : Int) :
    Earned (processNodeQuery env g reqId).1 := by
  unfold processNodeQuery
  have hu : Earned (workNodeInfoUpdate env g).1 := h.workNodeInfoUpdate
  generalize workNodeInfoUpdate env g = u at hu
  dsimp only
  split
  · exact hu
  · rename_i xml _
    have hr : Earned (workSend env u.1 PktType.clcNodeControlReply xml).1 :=
      hu.workSend PktType.clcNodeControlReply xml
    generalize workSend env u.1 PktType.clcNodeControlReply xml = r at hr
    split
    · rename_i hst
      refine hr.setState ?_ (by decide)
      intro _
      rcases hst with hst | hst
      · rw [hst]
        decide
      · rw [hst]
        decide
    · exact hr

/-- A request is obeyed where the node stands. -/
theorem processXmlRequest_earned (h : Earned g) {root node : XmlNode}
    (hn : node.named (cstr "response") = false) (hreq : node.named (cstr "request") = true)
    (hgate : IsControl root node → NodeStatus.authenticated ≤ g.state) :
    Earned (processXmlRequest env g root node).1 := by
  unfold processXmlRequest
  split
  · rename_i id action hid haction
    split
    · exact processNodeQuery_earned h _
    · rename_i hquery
      cases hci : nodeCtrlRequest root (atoi id) (atoi action) with
      | none => exact h
      | some ci =>
        have hcontrol : IsControl root node :=
          ⟨hn, hreq, id, action, hid, haction, hquery, by rw [hci]; rfl⟩
        have htrusted := h.trusted (hgate hcontrol)
        exact ⟨⟨htrusted, h.obedient⟩, fun _ => htrusted, fun he => by
          obtain ⟨ch, hch, hmem⟩ := h.waiting he
          exact ⟨ch, hch, List.mem_cons_of_mem _ hmem⟩⟩
  · exact h

theorem nodeConfig_earned (h : Earned g) (root : XmlNode) : Earned (nodeConfig env g root).1 := by
  unfold nodeConfig
  cases root.xpathText (["response", "data", "tag"].map cstr) with
  | none => exact h
  | some tag =>
    have htag : Earned (g.setTag (atoi tag)) := h.of_same rfl rfl rfl
    dsimp only
    cases root.xpathText (["response", "data", "secret"].map cstr) with
    | none => exact htag.of_same rfl rfl rfl
    | some secret =>
      have hsecret : Earned ((g.setTag (atoi tag)).setSecret (some secret)) :=
        htag.of_same rfl rfl rfl
      exact lyRegisterNode_earned (hsecret.setState_early (by decide))

theorem processXmlResponse_earned (h : Earned g) {root node : XmlNode}
    (hn : node.named (cstr "response") = true)
    (hgate : IsSuccess node → NodeStatus.authenticated ≤ g.state) :
    Earned (processXmlResponse env g root node).1 := by
  unfold processXmlResponse
  cases hstatus : node.prop (cstr "status") with
  | none => exact h
  | some status =>
    dsimp only
    split
    · exact h.setState_early (by decide)
    · split
      · rename_i hdone
        exact h.setState (fun _ => hgate ⟨hn, status, hstatus, hdone⟩) (by decide)
      · split
        · have hreinit : Earned ((g.setTag (-1)).setSecret none) := h.of_same rfl rfl rfl
          exact hreinit.setState_early (by decide)
        · split
          · exact nodeConfig_earned h root
          · exact h

theorem workElement_earned (h : Earned g) {root node : XmlNode}
    (hgate : IsControl root node ∨ IsSuccess node → NodeStatus.authenticated ≤ g.state) :
    Earned (workElement env g root node).1 := by
  unfold workElement
  split
  · rename_i hn
    exact processXmlResponse_earned h hn fun hs => hgate (.inr hs)
  · rename_i hn
    split
    · rename_i hreq
      exact processXmlRequest_earned h (Bool.eq_false_iff.mpr hn) hreq fun hc => hgate (.inl hc)
    · exact h

/-- The only way into `NODE_STATUS_AUTHENTICATED` is a verified reply. -/
theorem processAuthReply_earned (h : Earned g) (data : Bytes) :
    Earned (processAuthReply env g data).1 := by
  unfold processAuthReply
  split
  · exact h
  · rename_i hst
    obtain ⟨ch, hch, hmem⟩ := h.waiting (not_not.mp hst)
    dsimp only
    split
    · exact h
    · split
      · exact h.setState_early (by decide)
      · rw [hch]
        refine ⟨h.obedient, fun hle => ⟨hle, hmem⟩, fun he => ?_⟩
        exact absurd he (show ¬ NodeStatus.authenticated = NodeStatus.authenticating by decide)

theorem processAuthRequest_earned (h : Earned g) (tag data : Bytes) :
    Earned (processAuthRequest env g tag data).1 := by
  unfold processAuthRequest
  split
  · exact h
  · rename_i answer _
    have hr : Earned (workSend env g PktType.nodeAuthReply (tag ++ answer)).1 :=
      h.workSend PktType.nodeAuthReply (tag ++ answer)
    dsimp only
    split
    · exact hr
    · exact lyRegisterNode_earned hr

theorem initialState_lt (g : NodeControl) : initialState g < NodeStatus.authenticating := by
  unfold initialState
  split <;> decide

theorem workOther_earned (h : Earned g) (p : WorkPacket) : Earned (workOther env g p).1 := by
  unfold workOther
  split
  · exact lyRegisterNode_earned (h.setState_early (initialState_lt g))
  · split
    · exact h.workSend _ _
    · split
      · unfold processWorkAuthtication
        split
        · exact h
        · split
          · exact processAuthReply_earned h _
          · exact processAuthRequest_earned h _ _
      · exact h

/-! ## Runs -/

theorem lyEpollWorkClose_earned (h : Earned g) : Earned (lyEpollWorkClose g) :=
  (h.setState_early (s := NodeStatus.unknown) (by decide)).of_same rfl rfl rfl

theorem workResult_earned {r : NodeControl × Int} (h : Earned r.1) : Earned (workResult r) := by
  unfold workResult
  split
  · exact h
  · exact lyEpollWorkClose_earned h

/-- A new connection has nothing behind it. -/
theorem workConnect_earned (env : WorkEnv) (g : NodeControl) : Earned (workConnect env g) := by
  have hlt := initialState_lt g
  have hstart : Earned ({ g with trace := [] }.setState (initialState g)) := by
    refine ⟨trivial, ?_, ?_⟩
    · intro hle
      have : NodeStatus.authenticated ≤ initialState g := hle
      unfold NodeStatus.authenticated at this
      unfold NodeStatus.authenticating at hlt
      omega
    · intro he
      exact absurd he (Int.ne_of_lt hlt)
  unfold workConnect
  dsimp only
  split
  · exact lyEpollWorkClose_earned hstart.called
  · exact workResult_earned (lyRegisterNode_earned (hstart.of_same rfl rfl rfl))

theorem workArrival_earned (h : Earned g) (p : WorkPacket) : Earned (workArrival env g p).g := by
  unfold workArrival
  split
  · cases workDocument env p.text with
    | error ret => exact workResult_earned (r := (g, ret)) h
    | ok doc => exact h
  · exact workResult_earned (workOther_earned h p)

/-- **The step lemma.** -/
theorem workNext_earned {w w' : Work} {ev : WorkEvent} (h : Earned w.g) (hq : Gated w ev)
    (hn : workNext env w ev = some (.ok w')) : Earned w'.g := by
  cases ev with
  | connect =>
    rw [workNext] at hn
    split at hn
    · obtain rfl := Except.ok.inj (Option.some.inj hn)
      exact workConnect_earned env w.g
    · cases hn
  | hangup =>
    rw [workNext] at hn
    split at hn
    · obtain rfl := Except.ok.inj (Option.some.inj hn)
      exact lyEpollWorkClose_earned h
    · cases hn
  | packet p =>
    rw [workNext] at hn
    split at hn
    · obtain rfl := Except.ok.inj (Option.some.inj hn)
      exact workArrival_earned h p
    · cases hn
  | element =>
    rw [workNext] at hn
    cases hd : w.doc with
    | none =>
      rw [hd] at hn
      cases hn
    | some doc =>
      obtain ⟨root, nodes⟩ := doc
      rw [hd] at hn
      obtain rfl := Except.ok.inj (Option.some.inj hn)
      cases nodes with
      | nil => exact h
      | cons node nodes =>
        have hr := @workElement_earned env _ h _ _ (hq root node nodes hd)
        simp only [workAdvance]
        split
        · exact lyEpollWorkClose_earned hr
        · exact hr

/-- In a run in which control requests and reports of success come only to a node that is past its
authentication, `ly_handler_instance_control` is called in trust only. -/
theorem reach_obedient (env : WorkEnv) (w : Work)
    (h : Machine.Reach (workNext env) Gated WorkInit w) :
    Obedient w.g.trace := by
  have hinv : Earned w.g := by
    refine h.inv ?_ fun s ev t hs hq hn => workNext_earned hs hq hn
    intro s hinit
    obtain ⟨-, -, htrace, hstate⟩ := hinit
    have hlt : s.g.state < NodeStatus.authenticating := by
      rcases hstate with hstate | hstate
      · rw [hstate]
        decide
      · rw [hstate]
        decide
    refine ⟨by rw [htrace]; trivial, ?_, fun he => absurd he (Int.ne_of_lt hlt)⟩
    intro hle
    unfold NodeStatus.authenticated at hle
    unfold NodeStatus.authenticating at hlt
    omega
  exact hinv.obedient

/-! ## A request before any proof -/

/-- An instance is to be destroyed: the text that the controller writes for that. -/
def destroyText : Bytes :=
  (lyxmlDataInstanceOther { reqId := 1, reqAction := LyA.nodeDestroyInstance, insId := 5,
                            insDomain := some (cstr "i-5") }).getD []

/-- What the text says. -/
def destroyDoc : XmlNode :=
  .element (cstr "luoyun") [] [
    .element (cstr "from") [(cstr "entity", cstr "2")] [],
    .element (cstr "to") [(cstr "entity", cstr "3")] [],
    .element (cstr "request") [(cstr "id", cstr "1"), (cstr "action", cstr "206")] [
      .element (cstr "reply") [(cstr "required", cstr "yes")] [.element (cstr "result") [] []],
      .element (cstr "parameters") [] [
        .element (cstr "instance") [(cstr "id", cstr "5")] [
          .element (cstr "domain") [] [.text (cstr "i-5")]]]]]

theorem plainUuid_length : (cstr "d2719ad5-6f8a-4b1e-9d3f-0c5a7e2b4c61").length = 36 := rfl

theorem plainUuid_noNul : 0 ∉ cstr "d2719ad5-6f8a-4b1e-9d3f-0c5a7e2b4c61" := by decide +kernel

/-- A node whose calls succeed. -/
def WorkEnv.plain : WorkEnv where
  cipher := fun _ => some fun _ => 0
  readDoc := fun text => if text = destroyText then some destroyDoc else none
  uuid := fun _ => ⟨cstr "d2719ad5-6f8a-4b1e-9d3f-0c5a7e2b4c61", plainUuid_length, plainUuid_noNul⟩
  sendmsg := fun _ => .all
  connect := fun _ => 5
  hypervisor := fun _ => .idle
  host := fun _ => { state := 0, freeMemory := 1, freeStorage := 1, loadAverage := 0 }
  control := fun _ _ => 0

/-- A node with a tag and a secret from an earlier registration. -/
def knownNode : Work where
  g :=
    { state := NodeStatus.initialized
      node := { hostTag := 7 }
      auth := { secret := some (cstr "luoyun") } }

/-- The packet with the request. -/
def destroyPacket : WorkPacket where
  type := PktType.clcInstanceControlRequest
  len := destroyText.length
  data := destroyText
  text := destroyText

/-- The node has asked for a proof, is sent a request instead, and obeys. -/
theorem obeys_unverified : ∃ w, Machine.Reach (workNext .plain) Machine.Always WorkInit w ∧
    (∃ ci, Mark.control ci ∈ w.g.trace) ∧ (∀ ch, Mark.verified ch ∉ w.g.trace) ∧
      ¬ Obedient w.g.trace := by
  let run : List WorkEvent := [.connect, .packet destroyPacket, .element, .element, .element]
  let ci : NodeCtrlRequest :=
    { reqId := 1, reqAction := LyA.nodeDestroyInstance, insId := 5, insDomain := some (cstr "i-5"),
      reply := luoyunRequestReplyAll }
  have htrace : (Machine.exec (workNext .plain) run knownNode).map (fun w => w.g.trace) =
      some [.control ci, .state NodeStatus.authenticating, .challenge (WorkEnv.plain.uuid 1),
        .state NodeStatus.initialized] := by
    decide +kernel
  obtain ⟨w, hw, htrace⟩ := Option.map_eq_some_iff.mp htrace
  refine ⟨w, ?_, ⟨ci, ?_⟩, ?_, ?_⟩
  · have hinit : WorkInit knownNode := ⟨by decide, rfl, rfl, .inr rfl⟩
    exact (Machine.Reach.of_init hinit).of_exec (fun _ _ _ => trivial) hw
  · rw [htrace]
    exact List.mem_cons_self
  · rw [htrace]
    simp
  · rw [htrace]
    intro h
    exact absurd h.1.1 (by decide)

/-- The answer to the challenge of `WorkEnv.plain`, whose cipher leaves it as it is. -/
def answerPacket : WorkPacket where
  type := PktType.nodeAuthReply
  len := sizeofAuthInfo
  data := le32 7 ++ strncpy luoyunAuthDataLen (WorkEnv.plain.uuid 0).text
  text := []

/-- The node obeys after the proof. -/
theorem reach_obedient_destroy : ∃ w : Work, (∃ ci, Mark.control ci ∈ w.g.trace) ∧
    Obedient w.g.trace := by
  let run : List WorkEvent :=
    [.connect, .packet answerPacket, .packet destroyPacket, .element, .element, .element]
  let q (w : Work) (ev : WorkEvent) : Bool :=
    match ev with
    | .element => decide (NodeStatus.authenticated ≤ w.g.state)
    | _ => true
  have hgate : ∀ w ev, q w ev = true → Gated w ev := by
    intro w ev hev
    cases ev with
    | element => exact fun _ _ _ _ _ => of_decide_eq_true hev
    | _ => trivial
  have htrace : (Machine.execIf (workNext .plain) q run knownNode).map
      (fun w => w.g.trace.head?.map fun m =>
      match m with
      | .control _ => true
      | _ => false) = some (some true) := by
    decide +kernel
  obtain ⟨w, hw, hhead⟩ := Option.map_eq_some_iff.mp htrace
  have hinit : WorkInit knownNode := ⟨by decide, rfl, rfl, .inr rfl⟩
  refine ⟨w, ?_, reach_obedient .plain w ((Machine.Reach.of_init hinit).of_execIf hgate hw)⟩
  obtain ⟨m, hm, hctrl⟩ := Option.map_eq_some_iff.mp hhead
  cases m with
  | control ci => exact ⟨ci, List.mem_of_head? hm⟩
  | _ => cases hctrl

/-! ## The steps and the packet loop -/

/-- Handling the rest of a document step by step. -/
theorem exec_workElements (env : WorkEnv) (root : XmlNode)
    (nodes : List XmlNode) (g : NodeControl) :
    ∃ n, Machine.exec (workNext env) (.replicate n .element) { g, doc := some (root, nodes) } =
      some { g := workResult (workElements env root nodes g) } := by
  induction nodes generalizing g with
  | nil => exact ⟨1, rfl⟩
  | cons node nodes ih =>
    by_cases hneg : (workElement env g root node).2 < 0
    · refine ⟨1, ?_⟩
      simp [Machine.exec, workNext, workAdvance, workElements, workResult, hneg]
    · obtain ⟨n, hn⟩ := ih (workElement env g root node).1
      refine ⟨n + 1, ?_⟩
      simp only [workElements, hneg, if_false]
      rw [List.replicate_succ, ← hn]
      exact Machine.exec_cons (by simp [workNext, workAdvance, hneg]) _

/-- The steps for a packet come to what one round of `ly_epoll_work_recv` does with it. -/
theorem exec_workPacket (env : WorkEnv) (p : WorkPacket) {g : NodeControl} (hg : 0 ≤ g.wfd) :
    ∃ n, Machine.exec (workNext env) (.packet p :: .replicate n .element) { g } =
      some { g := workResult (workPacket env g p) } := by
  have harrive : workNext env { g } (.packet p) = some (.ok (workArrival env g p)) := by
    simp [workNext, hg]
  by_cases hdoc : isOther p.type = false ∧ isDocument p.type = true
  · cases hx : workDocument env p.text with
    | error ret =>
      refine ⟨0, ?_⟩
      rw [Machine.exec_cons harrive]
      simp [Machine.exec, workArrival, workPacket, processWorkXml, hdoc, hx]
    | ok doc =>
      obtain ⟨root, nodes⟩ := doc
      obtain ⟨n, hn⟩ := exec_workElements env root nodes g
      refine ⟨n, ?_⟩
      rw [Machine.exec_cons harrive]
      simp only [workArrival, workPacket, processWorkXml, hdoc, hx, and_self, if_true]
      exact hn
  · refine ⟨0, ?_⟩
    rw [Machine.exec_cons harrive]
    simp only [workArrival, workPacket, hdoc, if_false, Machine.exec, List.replicate]

end LuoYun

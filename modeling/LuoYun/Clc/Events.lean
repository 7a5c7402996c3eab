import LuoYun.Clc.EvOsm
import LuoYun.Clc.Dispatch
import LuoYun.Lib.Loop

/-!
# `events.c`: the receive path of the CLC

`ly_epoll_entity_recv` reads what has arrived on a connection into its packet buffer and goes
round a loop that hands every complete packet to its handler. The handler is chosen by the
packet type alone. What the loop returns decides about the connection: a positive value has
the main loop release the entity.

The loop is `Loop.run packetRound`: nothing in the source bounds the number of rounds.
-/

namespace LuoYun

/-- Put back the packet structure of the entity in slot `i`. -/
def Clc.setPkt (c : Clc) (i : Nat) (p : LYPacketRecv) : Clc :=
  c.modifyEnt i fun e => { e with pkt := some p }

/-- `ly_entity_init` on the entity in slot `i`. -/
def Clc.init (c : Clc) (i : Nat) (type : EntityType) : Clc :=
  c.withStore (lyEntityInit c.store i type).1

/-! ## Jobs from the web -/

/-- Write the status of a job that never got into the queue. -/
def jobRefuse (env : Env) (c : Clc) (job : LYJobInfo) (status : Int) : Clc :=
  let started := env.time c.io.tick
  let ended := env.time (c.io.tick + 1)
  (dbJobUpdateStatus env c.called.called
    { job with jStarted := started, jEnded := ended, jStatus := status }).1

/-- `__process_web_job`, once the job id is read. -/
def webJob (env : Env) (c : Clc) (jobId : Int) : Res (Clc × Int) :=
  match dbJobGet env c jobId with
  | (c, none) => .ok (c, -1)
  | (c, some job) =>
    if jobExist c jobId then .ok (c, 0)
    else match jobCheck env c job with
    | .error e => .error e
    | .ok (c, ret) =>
      if ret ≠ 0 then
        .ok (jobRefuse env c job (if jobIsCancelled ret then ret else LyS.cancelInternalError), 0)
      else .ok (jobInsert c job, 0)

/-- `__process_web_job`. -/
def processWebJob (env : Env) (c : Clc) (size : Int) (i : Nat) : Res (Clc × Int) := do
  if size ≠ 4 then .ok (c, -1)
  else
    let m ← c.mem i
    let b ← m.load sizeofLYPacketHeader 4
    webJob env c (int32Of b)

/-- `__process_test_echo`. -/
def processTestEcho (env : Env) (c : Clc) (size : Int) (i : Nat) : Res (Clc × Int) := do
  let m ← c.mem i
  let _ ← m.loadStr sizeofLYPacketHeader
  if size ≤ 0 then .ok (c, -255)
  else
    let data ← m.load sizeofLYPacketHeader size.toNat
    .ok (lyPacketSend env c (c.store.ents i).fd PktType.testEchoReply data)

/-! ## One packet -/

/-- The handlers of `ly_epoll_entity_recv`, by packet type. The type of an entity is set by the
first packet that implies one. An unknown type leaves the `1` of `ly_packet_recv`. -/
def handlePacket (env : Env) (c : Clc) (i : Nat) (type size : Int) : Res (Clc × Int) :=
  if type = PktType.webNewJobRequest then processWebJob env (c.init i .web) size i
  else if type = PktType.nodeRegisterRequest then ehProcessNodeXml env (c.init i .node) i
  else if type = PktType.nodeAuthRequest ∨ type = PktType.nodeAuthReply then
    ehProcessNodeAuth env (c.init i .node) (type == PktType.nodeAuthReply) i
  else if type = PktType.osmAuthRequest ∨ type = PktType.osmAuthReply then
    ehProcessOsmAuth env (c.init i .osm) (type == PktType.osmAuthReply) i
  else if type = PktType.clcOsmQueryReply then ehProcessOsmQuery env c i
  else if PktType.entityGroup type = EntityType.clc.code ∨
      PktType.entityGroup type = EntityType.node.code then ehProcessNodeXml env c i
  else if type = PktType.osmRegisterRequest then ehProcessOsmRegister env (c.init i .osm) i
  else if type = PktType.osmReport then ehProcessOsmReport env c size i
  else if type = PktType.testEchoRequest then processTestEcho env c size i
  else .ok (c, 1)

/-- `__print_recv_buf`: it reads eight bytes from `buf`, however many were received. -/
def printRecvBuf (p : LYPacketRecv) (buf : Nat) : Res Unit :=
  match p.pktBuf with
  | none => .error .nullDeref
  | some m => do
    let _ ← m.load buf sizeofLYPacketHeader
    .ok ()

/-- What the packet loop carries round: the state, the bytes received since the last round, and
the offset `buf` points to. -/
abbrev RoundState := Clc × Int × Nat

/-- The end of a round: `ly_packet_recv_done`, and what becomes of the result of the handler. -/
def roundEnd (i : Nat) (c : Clc) (ret : Int) : Res (RoundState ⊕ (Clc × Int)) :=
  match (c.store.ents i).pkt with
  | none => .error .nullDeref
  | some p => do
    let r ← lyPacketRecvDone p
    let c := c.setPkt i r.2
    if ret < 0 then .ok (.inr (c, -1))
    else if 0 < ret then .ok (.inr (c, ret))
    else .ok (.inl (c, 0, sizeofLYPacketHeader))

/-- One round of the packet loop. -/
def packetRound (env : Env) (i : Nat) : RoundState → Res (RoundState ⊕ (Clc × Int))
  | (c, len, buf) =>
    match (c.store.ents i).pkt with
    | none => .error .nullDeref
    | some p => do
      let r ← lyPacketRecv p len
      let c := c.setPkt i r.2
      if r.1 < 0 then
        printRecvBuf r.2 buf
        .ok (.inr (c, 0))
      else if r.1 = 0 then
        if 0 < r.2.pktBufReceived then
          printRecvBuf r.2 buf
        .ok (.inr (c, 0))
      else
        let h ← handlePacket env c i (lyPacketType r.2) r.2.pktHeader.length
        roundEnd i h.1 h.2

/-! ## A connection -/

/-- What `recv` gives: some bytes, or the end of the connection. -/
inductive Recv where
  | data (chunk : Bytes)
  | closed

/-- The connection was closed by the peer. -/
def entityClosed (env : Env) (c : Clc) (i : Nat) : Res (Clc × Int) :=
  let dbId := (c.store.ents i).dbId
  match (c.store.ents i).type with
  | .node =>
    match jobCleanOnEntity env i LyS.finishedFailureNodeNotOnline c with
    | .error e => .error e
    | .ok c => .ok ((dbNodeUpdateStatus env c dbId NodeStatus.offline).1, 1)
  | .osm =>
    let r := dbInstanceUpdateStatus env c dbId (some { status := DomainS.needQuery }) (-1)
    .ok ((jobInternalQueryInstance env r.1 dbId).1, 1)
  | _ => .ok (c, 1)

/-- `ly_epoll_entity_recv` on a connection, with at most `n` rounds of the packet loop. The
descriptor of a slot that is in use is never negative, and `ly_packet_buf` leaves room. -/
def lyEpollEntityRecv (env : Env) (n : Nat) (c : Clc) (i : Nat) (input : Recv) :
    Option (Res (Clc × Int)) :=
  if (c.store.ents i).fd < 0 then some (.ok (c, 1))
  else match (c.store.ents i).pkt with
  | none => some (.ok (c, -255))
  | some p =>
    match lyPacketBuf p with
    | none => some (.ok (c, 1))
    | some (off, _) =>
      match input with
      | .closed => some (entityClosed env c i)
      | .data chunk =>
        match recvInto p chunk with
        | .error e => some (.error e)
        | .ok p => Loop.run (packetRound env i) n (c.setPkt i p, chunk.length, off)

/-- `__epoll_work_recv` with the descriptor that `accept` returned. -/
def epollWorkRecv (c : Clc) (infd : Int) (m : Mem) : Clc :=
  let r := lyEntityNew c.store infd m
  match slot? r.2 with
  | none => c.withStore r.1
  | some i =>
    { (c.withStore r.1).note i fun _ => { serial := c.accepted + 1 } with
      accepted := c.accepted + 1 }

/-- The main loop of `lyclc.c` on an `EPOLLIN` event: a positive result releases the entity. -/
def epollIn (env : Env) (n : Nat) (c : Clc) (i : Nat) (input : Recv) : Option (Res Clc) :=
  match lyEpollEntityRecv env n c i input with
  | none => none
  | some (.error e) => some (.error e)
  | some (.ok (c, ret)) => some (.ok (if 0 < ret then c.release i else c))

end LuoYun

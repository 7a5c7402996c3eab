import LuoYun.Util.Packet
import LuoYun.Util.Text

/-!
# Multicast datagrams at the compute node

`ly_epoll_mcast_recv` reads join requests of the controller from a multicast socket. It uses the
receive buffer and the packet functions of a stream: a datagram is placed behind whatever
`pkt_buf_received` counts, and `ly_packet_recv_done` keeps the bytes behind the packet for the
next one.
-/

namespace LuoYun

/-- The part of `NodeControl` that `ly_epoll_mcast_recv` uses. -/
structure McastNode where
  mfdPkt : LYPacketRecv
  clcIp : Option Bytes := none
  clcPort : Int := 0
  nodeIp : Option Bytes := none

/-- The control data of a received message. -/
inductive MsgControl where
  | absent
  /-- It is not `IP_PKTINFO`. -/
  | other
  /-- The local address that the datagram was sent to. -/
  | pktinfo (localip : Bytes)

/-- What `recvmsg` delivers. -/
structure Datagram where
  data : Bytes
  control : MsgControl

/-- What was decoded from a datagram. -/
inductive Decoded where
  /-- The buffer had no room. -/
  | noBuffer
  /-- The packet is not complete. -/
  | partially
  /-- No join request. -/
  | rejected
  | join (ip : Bytes) (port : Int)
  deriving DecidableEq, Repr

/-- What the answer of `__process_mcast_string` means. -/
def Decoded.ofJoin : Option (Bytes × Int) → Decoded
  | none => .rejected
  | some (ip, port) => .join ip port

/-- `%Ns` of `sscanf`: at most `n` characters of the next word. -/
def scanWordMax (n : Nat) (s : Bytes) : Option (Bytes × Bytes) :=
  let t := s.dropWhile isSpace
  match (t.takeWhile fun b => !isSpace b).take n with
  | [] => none
  | w => some (w, t.drop w.length)

/-- `__process_mcast_string`: `none` is `-1`. The format `%64s` lets an address of 64 characters
into the 64 bytes of `ip`, and its zero byte falls behind them. -/
def processMcastString (str : Bytes) : Res (Option (Bytes × Int)) :=
  match scanWordMax 9 str with
  | none => .ok none
  | some (j, rest) =>
    match scanWordMax maxIpLen rest with
    | none => .ok none
    | some (ip, rest) =>
      if ip.length < maxIpLen then
        .ok (match scanInt rest with
          | none => none
          | some (port, _) => if j = cstr "join" then some (ip, port) else none)
      else .error .stack

/-- The data of the packet as a C string: `ly_packet_data`. -/
def lyPacketString (p : LYPacketRecv) : Res Bytes :=
  match p.pktBuf with
  | none => .error .nullDeref
  | some buf => buf.loadStr sizeofLYPacketHeader

/-- What a packet is read as, given what `ly_packet_recv` has returned. -/
def mcastPacket (ret : Int) (p : LYPacketRecv) : Res Decoded :=
  if ret = 0 then .ok .partially
  else if ret < 0 then .ok .rejected
  else if lyPacketType p = PktType.joinRequest then do
    let str ← lyPacketString p
    let q ← processMcastString str
    .ok (.ofJoin q)
  else .ok .rejected

/-- The receiving part of `ly_epoll_mcast_recv`. -/
def mcastDecode (p : LYPacketRecv) (data : Bytes) : Res (Decoded × LYPacketRecv) :=
  match lyPacketBuf p with
  | none => .ok (.noBuffer, p)
  | some (_, size) => do
    let p ← recvInto p (data.take size)
    let q ← lyPacketRecv p (data.take size).length
    let decoded ← mcastPacket q.1 q.2
    let r ← lyPacketRecvDone q.2
    .ok (decoded, r.2)

/-- `ly_epoll_mcast_recv`, with what it has decoded. -/
def lyEpollMcastRecv (g : McastNode) (d : Datagram) : Res (McastNode × Int × Decoded) := do
  let q ← mcastDecode g.mfdPkt d.data
  let g := { g with mfdPkt := q.2 }
  .ok (match q.1 with
    | .noBuffer => (g, -255, q.1)
    | .partially => (g, 0, q.1)
    | .rejected => (g, -1, q.1)
    | .join ip port =>
      match d.control with
      | .absent => (g, -2, q.1)
      | .other => (g, -1, q.1)
      | .pktinfo localip =>
        if g.clcIp = some ip ∧ g.clcPort = port then (g, 0, q.1)
        else match g.clcIp with
          | none => ({ g with clcIp := some ip, clcPort := port, nodeIp := some localip }, 1, q.1)
          | some _ => (g, 0, q.1))

/-- A sequence of datagrams. -/
def mcastRun (g : McastNode) : List Datagram → Res McastNode
  | [] => .ok g
  | d :: ds => do
    let q ← lyEpollMcastRecv g d
    mcastRun q.1 ds

end LuoYun

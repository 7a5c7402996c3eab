import LuoYun.Lib.Gapped
import LuoYun.Util.Packet

/-!
# The receive loop of pyosm

`lyosm.py` waits for packets of the controller with `lyutil.sockrecv`, which reads a header of eight
bytes and then the packet, waiting for at most a second each time. It keeps nothing from one call to
the next: what was read before a timeout is returned with result `-1`, and the loop does not look at
it. A packet goes to `lyproc.process`; nothing in `lyosm.py` catches what that raises, so an
exception is the end of the loop and of the program.

The socket is a list of arrivals. `select` finds it readable when a chunk is next and times out when
a pause is next; `recv(n)` returns at most `n` bytes of the chunk. Errors of the socket are outside
the model.
-/

namespace LuoYun.Osm

open Gapped (Read)

/-- What comes in on the socket, in order. -/
inductive Arrival where
  /-- Bytes that arrive together. -/
  | chunk (b : UInt8) (bs : Bytes)
  /-- Nothing arrives for longer than the timeout. -/
  | pause
  deriving DecidableEq, Repr

/-- What is left of a chunk. -/
def leftover : Bytes → List Arrival → List Arrival
  | [], rest => rest
  | b :: bs, rest => .chunk b bs :: rest

/-- `while True`: wait, and read until there are `want` bytes. -/
def readLoop (want : Nat) : Bytes → List Arrival → Read UInt8 (List Arrival)
  | data, [] => .timeout data []
  | data, .pause :: rest => .timeout data rest
  | data, .chunk b bs :: rest =>
    -- `d = sock.recv(want - len(data))`
    let d := (b :: bs).take (want - data.length)
    if (data ++ d).length = want then .done (data ++ d)
      (leftover ((b :: bs).drop (want - data.length)) rest)
    else readLoop want (data ++ d) rest

/-- `struct.calcsize("=LL")`. -/
def headlen : Nat := 8

/-- The second number of `struct.unpack("=LL", data)`. -/
def datalen (data : Bytes) : Nat := toUInt32 (int32Of (data.drop 4))

/-- `sockrecv(sock, length)`: the two values it returns, and what is left to read. -/
def sockrecv (length : Nat) (input : List Arrival) : (Int × Option Bytes) × List Arrival :=
  match readLoop headlen [] input with
  | .timeout _ rest => ((-1, none), rest)
  | .done head rest =>
    if datalen head = 0 ∨ length ≤ headlen then ((0, some head), rest)
    else
      let pktlen := if length < headlen + datalen head then length else headlen + datalen head
      match readLoop pktlen head rest with
      | .timeout data rest => ((-1, some data), rest)
      | .done data rest => ((pktlen, some data), rest)

/-- The default of `length`. -/
def recvLength : Nat := 1024

/-- The exceptions that `lyproc.process` runs into. -/
inductive LyprocError where
  | attributeError | nameError
  deriving DecidableEq, Repr

/-- `procOSMQuery`. The answer is made from `lyconf.Config`, but `lyproc.py` does not import
`lyconf`. -/
def procOSMQuery (datalen : Nat) (data : Bytes) : Except LyprocError Int :=
  if datalen ≠ 4 ∨ data.length ≠ 4 then .ok 1 else .error .nameError

/-- The first number of `struct.unpack("=LL", data)`. -/
def packetType (data : Bytes) : Nat :=
  let b (i : Nat) : Nat := ((data[i]?).getD 0).toNat
  b 0 + 256 * (b 1 + 256 * (b 2 + 256 * b 3))

/-- `lyproc.process`. An echo is sent with `sock.socksend`, a method that sockets do not have. -/
def process (packet : Bytes) : Except LyprocError Unit :=
  let type := packetType packet
  if type = PktType.testEchoRequest then .error .attributeError
  else if type = PktType.clcOsmQueryRequest then
    (procOSMQuery (datalen packet) (packet.drop headlen)).map fun _ => ()
  else .ok ()

/-- A packet is processed, and then those that are read next, unless that raised an exception. -/
def processThen (packet : Bytes) (next : List Bytes) : List Bytes :=
  match process packet with
  | .error _ => [packet]
  | .ok _ => packet :: next

/-- The receive loop of `lyosm.py` on one connection, for at most `n` calls: the packets that
`lyproc.process` is called with. Result `0` closes the socket, and an exception ends the program. -/
def receiveLoop : Nat → List Arrival → List Bytes
  | 0, _ => []
  | _, [] => []
  | n + 1, a :: input =>
    match sockrecv recvLength (a :: input) with
    | ((result, response), rest) =>
      if result = 0 then []
      else if 0 < result then processThen (response.getD []) (receiveLoop n rest)
      else receiveLoop n rest

/-- The stream as the reader sees it. -/
def stream : List Arrival → List (Option UInt8)
  | [] => []
  | .pause :: rest => none :: stream rest
  | .chunk b bs :: rest => (b :: bs).map some ++ stream rest

/-- The packets processed on a connection. Every call takes something from the stream, so there
are no more calls than it has bytes and pauses. -/
def receive (input : List Arrival) : List Bytes := receiveLoop (stream input).length input

end LuoYun.Osm

import LuoYun.Util.Packet

/-!
# `lyc/handler.py`: messages on a stream

A message is a header of eight bytes (a start mark, a byte that is not used, a type and a length)
and a JSON text. `_read_from_stream` asks for what is missing until it is there.

What a peer sends arrives piece by piece. `recv(n)` hands out the first piece, or `n` bytes of it,
and no bytes at all when the peer has closed the connection. JSON is a parameter.
-/

namespace LuoYun.Web

/-- The `json` module on values of type `J`. -/
structure JsonLib (J : Type) where
  /-- `None`. -/
  null : J
  str : Bytes → J
  /-- A dictionary. -/
  obj : List (Bytes × J) → J
  /-- `bool(value)`. -/
  truthy : J → Bool
  dumps : J → Bytes
  /-- `none` is an exception. -/
  loads : Bytes → Option J
  loads_dumps : ∀ j, loads (dumps j) = some j
  loads_nil : loads [] = none

/-! ## The socket -/

/-- What `recv` meets next. -/
inductive Arrival where
  | data (piece : Bytes)
  /-- `recv` raises. -/
  | error
  deriving DecidableEq, Repr

/-- `self.sock.recv(n)`: the bytes, or an exception. -/
def recv (n : Nat) : List Arrival → Option Bytes × List Arrival
  | [] => (some [], [])
  | .error :: sock => (none, sock)
  | .data piece :: sock =>
    (some (piece.take n), if piece.length ≤ n then sock else .data (piece.drop n) :: sock)

/-- The loop of `_read_from_stream`, with `left` bytes missing and `got` in the `StringIO`. -/
def readLoop (left : Nat) (got : Bytes) (sock : List Arrival) : Option Bytes × List Arrival :=
  let bufferLen := if 2048 < left then 2048 else left
  match recv bufferLen sock with
  | (none, sock) => (none, sock)
  | (some data, sock) =>
    if data.length = 0 then (none, sock)
    else if data.length = left then (some (got ++ data), sock)
    -- `left < 0`
    else if left < data.length then (none, sock)
    else readLoop (left - data.length) (got ++ data) sock
termination_by left

/-- `_read_from_stream`. -/
def readFromStream (length : Nat) (sock : List Arrival) : Option Bytes × List Arrival :=
  readLoop length [] sock

/-! ## Messages -/

/-- `headlen`. -/
def headlen : Nat := 8

/-- `bodymax`. -/
def bodymax : Nat := 10485760

/-- A `signed char`. -/
def int8 (b : UInt8) : Int := if b.toNat < 128 then b.toNat else b.toNat - 256

/-- A `short`, low byte first. -/
def int16 (a b : UInt8) : Int :=
  let n : Int := a.toNat + 256 * b.toNat
  if n < 32768 then n else n - 65536

/-- `struct.unpack('bbhi', data)`, without the second byte. -/
structure MsgHead where
  start : Int
  type : Int
  length : Int
  deriving DecidableEq, Repr

/-- `struct.unpack('bbhi', data)`. -/
def unpackHead (data : Bytes) : MsgHead where
  start := int8 (data.getD 0 0)
  type := int16 (data.getD 2 0) (data.getD 3 0)
  length := int32Of (data.drop 4)

/-- `struct.pack('bbhi', 01, 02, 03, bodylen)`. -/
def packHead (bodylen : Nat) : Bytes := [1, 2, 3, 0] ++ le32 bodylen

/-- The exceptions of `read_msg`. -/
inductive PyError where
  /-- `msglen` is not defined anywhere. -/
  | nameError
  /-- `body` has not been assigned. -/
  | unboundLocalError
  deriving DecidableEq, Repr

/-- `MSGFormat`. -/
structure MsgFormat (J : Type) where
  type : Int
  length : Int
  body : J
  deriving DecidableEq, Repr

variable {J : Type}

/-- `_load_json`. -/
def loadJson (json : JsonLib J) (data : Bytes) : J :=
  if data = [] then json.null else (json.loads data).getD json.null

/-- `read_msg`, once the header is there. -/
def readBody (json : JsonLib J) (head : MsgHead) (sock : List Arrival) :
    Except PyError (Option (MsgFormat J)) × List Arrival :=
  if head.start ≠ 1 then (.ok none, sock)
  -- the message that is logged here names `msglen`
  else if (bodymax : Int) < head.length then (.error .nameError, sock)
  else if 0 < head.length then
    match readFromStream head.length.toNat sock with
    | (none, sock) => (.ok none, sock)
    | (some body, sock) =>
      if body = [] then (.ok none, sock)
      else (.ok (some ⟨head.type, head.length, loadJson json body⟩), sock)
  -- `MSGFormat(head, body)`
  else (.error .unboundLocalError, sock)

/-- `read_msg`. -/
def readMsg (json : JsonLib J) (sock : List Arrival) :
    Except PyError (Option (MsgFormat J)) × List Arrival :=
  match readFromStream headlen sock with
  | (none, sock) => (.ok none, sock)
  | (some data, sock) => if data = [] then (.ok none, sock) else readBody json
      (unpackHead data) sock

/-- One call of `send_msg`. -/
structure MsgCall (J : Type) where
  msg : J
  key : Bytes
  call : Option J := none
  callMe : Option J := none

/-- An optional entry of the dictionary: `if value: body[name] = value`. -/
def entry (json : JsonLib J) (name : String) (value : Option J) : List (Bytes × J) :=
  match value with
  | none => []
  | some j => if json.truthy j then [(cstr name, j)] else []

/-- The dictionary that is sent. -/
def MsgCall.body (json : JsonLib J) (c : MsgCall J) : J :=
  json.obj ([(cstr "msg", c.msg), (cstr "key", json.str c.key)] ++ entry json "call" c.call ++
    entry json "call_me" c.callMe)

/-- What `send_msg` hands to `sock.send`. -/
def sendMsg (json : JsonLib J) (c : MsgCall J) : Bytes :=
  if c.key = [] then []
  else packHead (json.dumps (c.body json)).length ++ json.dumps (c.body json)

/-- What becomes of a read event. -/
inductive Handled (J : Type) where
  /-- `data_received` is called. -/
  | delivered (body : J)
  | closed
  | raised (e : PyError)
  deriving DecidableEq, Repr

/-- `_handle_read`. -/
def handleRead (json : JsonLib J) (sock : List Arrival) : Handled J :=
  match (readMsg json sock).1 with
  | .error e => .raised e
  | .ok none => .closed
  | .ok (some msg) => .delivered msg.body

/-- So many calls of `read_msg`. -/
def readMsgs (json : JsonLib J) : Nat → List Arrival →
    List (Except PyError (Option (MsgFormat J))) × List Arrival
  | 0, sock => ([], sock)
  | n + 1, sock =>
    let r := readMsg json sock
    let rs := readMsgs json n r.2
    (r.1 :: rs.1, rs.2)

end LuoYun.Web

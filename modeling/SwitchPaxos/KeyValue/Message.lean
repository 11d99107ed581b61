import SwitchPaxos.Base.Python

/-!
# Messages of the key-value store

A message is pickled.  It is a pair of a header and of a command with its data;
a client asks for `get`, `put` or `ping`, and the server responds.
-/

namespace SwitchPaxos.KeyValue

open Python (Value Key Objects ascii)

/-- The exceptions of the store, named after what raises them. -/
inductive Error where
  | loads
  | str
  | unpack
  | iter
  | hash
  | arguments
  | dumps
  | sendto
  | assertion
deriving DecidableEq

/-- `pickle` writes some values, not all that it may have read, and reads some
texts. -/
structure Pickle (ο : Type) where
  dumps : Value ο → Option Bytes
  loads : Bytes → Option (Value ο)

/-- An UDP message; the address is the sender's where it is received, and the
receiver's where it is sent. -/
structure Datagram where
  data : Bytes
  ip : String
  port : ℕ
deriving DecidableEq

def bufferSize : ℕ := 1024

/-- What is left of a message that does not fit in the buffer. -/
def recv (datagram : Datagram) : Datagram :=
  { datagram with data := datagram.data.take bufferSize }

-- All messages start with this header
def header : Bytes := ascii "app"

def getCommand : Bytes := ascii "get"

def pingCommand : Bytes := ascii "ping"

def putCommand : Bytes := ascii "put"

def responseCommand : Bytes := ascii "response"

def unknownCommand : Bytes := ascii "unknown"

variable {ο : Type} [DecidableEq ο] [Objects ο]

namespace Pickle

variable (pickle : Pickle ο)

def create (command : Bytes) (data : Value ο) : Option Bytes :=
  pickle.dumps (.tuple [.str header, .tuple [.str command, data]])

/-- The command and its data, as one value.  Whatever goes wrong, the message is
an unknown command with the text as its data. -/
def parse (data : Bytes) : Value ο :=
  let body := do
    let message ← pickle.loads data
    let first ← message.getitem 0
    guard (first.eqStr header)
    message.getitem 1
  body.getD (.tuple [.str unknownCommand, .str data])

def parseResponse (data : Bytes) : Except Error (Value ο) :=
  match (pickle.parse data).unpack with
  | none => .error .unpack
  | some (command, reply) =>
      if command.eqStr responseCommand then .ok reply else .error .assertion

def put (key value : Value ο) : Option Bytes :=
  pickle.create putCommand (.tuple [key, value])

def get (key : Value ο) : Option Bytes :=
  pickle.create getCommand (.tuple [key])

def ping : Option Bytes := pickle.create pingCommand (.tuple [])

def response (data : Value ο) : Option Bytes :=
  pickle.create responseCommand data

end Pickle

/-- What a client asks of the store. -/
inductive Request (ο : Type) where
  | get (key : Value ο)
  | put (key value : Value ο)
  | ping

namespace Request

def ofGet : List (Value ο) → Option (Request ο)
  | [key] => some (.get key)
  | _ => none

def ofPut : List (Value ο) → Option (Request ο)
  | [key, value] => some (.put key value)
  | _ => none

def ofPing : List (Value ο) → Option (Request ο)
  | [] => some .ping
  | _ => none

/-- The request that a command with its arguments is, if it is one. -/
def ofCommand (command : Key ο) (args : List (Value ο)) :
    Option (Request ο) :=
  if command = .str getCommand then ofGet args
  else if command = .str putCommand then ofPut args
  else if command = .str pingCommand then ofPing args
  else none

end Request

/-- The key of the command of a message, and its arguments. -/
def Pickle.call (pickle : Pickle ο) (data : Bytes) :
    Option (Key ο × List (Value ο)) := do
  let (command, args) ← (pickle.parse data).unpack
  return (← command.key, ← args.iter)

/-- The request that a message is, if it is well formed: it unpickles, its
header is right, its command is known and has the right number of arguments. -/
def Pickle.request (pickle : Pickle ο) (data : Bytes) : Option (Request ο) := do
  let (command, args) ← pickle.call data
  Request.ofCommand command args

/-- The message of a request, unless `pickle` refuses the request. -/
def Request.text (pickle : Pickle ο) : Request ο → Option Bytes
  | .get key => pickle.get key
  | .put key value => pickle.put key value
  | .ping => pickle.ping

/-- What was written is read back. -/
structure Pickle.Lossless (pickle : Pickle ο) : Prop where
  loads_dumps : ∀ value data, pickle.dumps value = some data →
    pickle.loads data = some value

theorem recv_of_le {datagram : Datagram}
    (fits : datagram.data.length ≤ bufferSize) : recv datagram = datagram := by
  rw [recv, List.take_of_length_le fits]

namespace Pickle.Lossless

variable {pickle : Pickle ο} {data : Bytes}

theorem parse_create (lossless : pickle.Lossless) {command : Bytes}
    {body : Value ο} (written : pickle.create command body = some data) :
    pickle.parse data = .tuple [.str command, body] := by
  simp [parse, lossless.loads_dumps _ _ written, Value.getitem, Value.eqStr]

theorem call_create (lossless : pickle.Lossless) {command : Bytes}
    {args : List (Value ο)}
    (written : pickle.create command (.tuple args) = some data) :
    pickle.call data = some (.str command, args) := by
  simp [call, lossless.parse_create written, Value.unpack, Value.iter,
    Value.key]

theorem request_text (lossless : pickle.Lossless) {request : Request ο}
    (written : request.text pickle = some data) :
    pickle.request data = some request := by
  have different : putCommand ≠ getCommand ∧ pingCommand ≠ getCommand ∧
      pingCommand ≠ putCommand := by decide
  obtain ⟨putGet, pingGet, pingPut⟩ := different
  cases request with
  | get key =>
      simp [Pickle.request, lossless.call_create written, Request.ofCommand,
        Request.ofGet]
  | put key value =>
      simp [Pickle.request, lossless.call_create written, Request.ofCommand,
        Request.ofPut, putGet]
  | ping =>
      simp [Pickle.request, lossless.call_create written, Request.ofCommand,
        Request.ofPing, pingGet, pingPut]

theorem parseResponse_response (lossless : pickle.Lossless) {value : Value ο}
    (written : pickle.response value = some data) :
    pickle.parseResponse data = .ok value := by
  simp [parseResponse, lossless.parse_create written, Value.unpack,
    Value.iter, Value.eqStr]

end Pickle.Lossless

end SwitchPaxos.KeyValue

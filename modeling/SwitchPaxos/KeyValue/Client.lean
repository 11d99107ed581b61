import SwitchPaxos.Base.Run
import SwitchPaxos.KeyValue.Server

/-!
# One client of the key-value server

A call sends a request and waits for a response; after a time-out it sends the
request again.  Responses do not say which request they respond to, and the
network can hold messages back until another call is under way.
-/

namespace SwitchPaxos.KeyValue

open Python (Value Key Objects ascii)

/-- A request, or a response to it, under way; `call` and `request` are not part
of the message. -/
structure Message (ο : Type) where
  call : ℕ
  request : Request ο
  datagram : Datagram

/-- A call that returned. -/
structure Completed (ο : Type) where
  call : ℕ
  request : Request ο
  value : Value ο

/-- Where the client is: between two calls, in a call, or ended by an
exception. -/
inductive Phase where
  | idle
  | waiting
  | raised
deriving DecidableEq

/-- What client and server rely on. -/
structure Setup (ο : Type) where
  pickle : Pickle ο
  -- Which messages the sockets take; they raise for those that are too long.
  client : Bytes → Bool
  server : Datagram → Bool

structure World (ο : Type) [DecidableEq ο] where
  ip : String
  port : ℕ
  -- The calls of the client, and those that returned
  calls : List (Request ο)
  phase : Phase
  returned : List (Completed ο)
  -- The responses that the client received
  received : List (Message ο)
  -- The network
  requests : List (Message ο)
  responses : List (Message ο)
  -- The server, and whatever it sent
  db : Db ο
  serving : Bool
  answered : List (Message ο)

inductive Action (ο : Type) where
  | call (request : Request ο)
  | timeout
  | serve (index : ℕ)
  | receive (index : ℕ)
  | loseRequest (index : ℕ)
  | loseResponse (index : ℕ)

namespace World

variable {ο : Type} [DecidableEq ο] [Objects ο]

def new (ip : String) (port : ℕ) : World ο :=
  { ip, port
    calls := []
    phase := .idle
    returned := []
    received := []
    requests := []
    responses := []
    db := ∅
    serving := true
    answered := [] }

variable (setup : Setup ο)

/-- The first half of `sendrecv`: the request of the last call is sent. -/
def send (self : World ο) : World ο :=
  match self.calls.getLast? with
  | none => self
  | some request =>
      match (request.text setup.pickle).filter setup.client with
      | none => { self with phase := .raised }
      | some data =>
          { self with
            requests := self.requests ++
              [⟨self.calls.length - 1, request,
                ⟨data, self.ip, self.port⟩⟩] }

def call (request : Request ο) (self : World ο) : World ο :=
  send setup
    { self with calls := self.calls ++ [request], phase := .waiting }

/-- The server handles a request. -/
def serve (index : ℕ) (self : World ο) : World ο :=
  match self.requests[index]? with
  | none => self
  | some message =>
      let outcome := KeyValueServer.handle setup.pickle setup.server
        (recv message.datagram) self.db
      let sent := outcome.effects.map fun datagram => { message with datagram }
      { self with
        requests := self.requests.eraseIdx index
        responses := self.responses ++ sent
        db := outcome.state
        serving := outcome.result.isOk
        answered := self.answered ++ sent }

/-- The second half of `sendrecv`, and `parse_response`. -/
def receive (index : ℕ) (self : World ο) : World ο :=
  match self.responses[index]?, self.calls.getLast? with
  | some message, some request =>
      let self :=
        { self with
          responses := self.responses.eraseIdx index
          received := self.received ++ [message] }
      match setup.pickle.parseResponse (recv message.datagram).data with
      | .error _ => { self with phase := .raised }
      | .ok value =>
          { self with
            phase := .idle
            returned := self.returned ++
              [⟨self.calls.length - 1, request, value⟩] }
  | _, _ => self

def step (self : World ο) : Action ο → World ο
  | .call request => self.call setup request
  | .timeout => self.send setup
  | .serve index => self.serve setup index
  | .receive index => self.receive setup index
  | .loseRequest index =>
      { self with requests := self.requests.eraseIdx index }
  | .loseResponse index =>
      { self with responses := self.responses.eraseIdx index }

def Enabled (self : World ο) : Action ο → Prop
  | .call _ => self.phase = .idle
  | .timeout => self.phase = .waiting
  | .serve index => self.serving ∧ index < self.requests.length
  | .receive index => self.phase = .waiting ∧ index < self.responses.length
  | .loseRequest index => index < self.requests.length
  | .loseResponse index => index < self.responses.length

instance (self : World ο) : (action : Action ο) →
    Decidable (self.Enabled action)
  | .call _ => inferInstanceAs (Decidable (_ = _))
  | .timeout => inferInstanceAs (Decidable (_ = _))
  | .serve _ => inferInstanceAs (Decidable (_ ∧ _))
  | .receive _ => inferInstanceAs (Decidable (_ ∧ _))
  | .loseRequest _ => inferInstanceAs (Decidable (_ < _))
  | .loseResponse _ => inferInstanceAs (Decidable (_ < _))

def system : System (World ο) (Action ο) :=
  { Enabled := Enabled
    step := step setup }

instance (self : World ο) (actions : List (Action ο)) :
    Decidable ((system setup).Run self actions) :=
  inferInstanceAs (Decidable (System.Each (system setup) Enabled self actions))

end World

end SwitchPaxos.KeyValue

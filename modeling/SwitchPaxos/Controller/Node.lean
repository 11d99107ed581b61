import SwitchPaxos.Base.Sorted
import SwitchPaxos.Controller.Slots
import SwitchPaxos.Switch.Baseline
import Mathlib.Data.Finset.Max

/-!
# The Paxos controller

`PaxosController` runs all roles of simplified multi-Paxos on one switch: it
answers JOIN, and for CLIENT, ACCEPT and LEARN it keeps the slot store, numbers
client packets if it is the leader, votes, and counts the votes of the others.
Everything else is left to the learning switch it embeds.

What `process_message` answers is a parameter of the handlers that walk the
queue: a function from sequence numbers, as a walk tries each of them at most
once.
-/

namespace SwitchPaxos

structure PhyPort where
  hwAddr : EthAddr
  name : String

/-- The ports a connection reports, by number. -/
structure Connection where
  ports : Finset Port
  desc : Port → PhyPort
  nonempty : ports.Nonempty

theorem localPort_nonempty : ({65534} : Finset Port).Nonempty :=
  Finset.singleton_nonempty 65534

structure PaxosState where
  nId : ℕ
  N : Finset EthAddr
  crnd : ℕ
  slots : Slots

namespace PaxosState

def new (nId : ℕ) : PaxosState :=
  { nId, N := ∅, crnd := nId, slots := Slots.new 0 }

/-- The nodes in order, `lastNode` last. -/
def orderedNodes (lastNode : EthAddr) (state : PaxosState) :
    Except Failure (List EthAddr) :=
  if lastNode ∈ sorted state.N then
    .ok ((sorted state.N).erase lastNode ++ [lastNode])
  else
    .error .notInList

end PaxosState

structure Leader where
  seqno : Option ℕ
deriving DecidableEq

/-- The number `next_seqno` returns, and the leader after it. -/
def Leader.nextSeqno (leader : Leader) : ℕ × Leader :=
  match leader.seqno with
  | none => (0, { seqno := some 0 })
  | some seqno => (seqno + 1, { seqno := some (seqno + 1) })

/-- What a controller does that others can observe.  Two of the kinds record
log lines of the source: `numbered` the one of `on_client` and `accepted` the
vote in `on_accept`. -/
inductive Effect where
  /-- `send_ethernet`: a frame is output on a port. -/
  | sent (frame : Frame) (port : Port)
  /-- A message to the own address short-circuits to the handler. -/
  | toSelf (type : UInt16) (payload : Bytes)
  | numbered (seqno : ℕ) (v : Bytes)
  | accepted (n seqno : ℕ) (v : Bytes)
  | handed (call : Handed)
  | command (command : SwitchCommand)
deriving DecidableEq

/-- Whether the handlers of lower priority still get to see an event. -/
inductive Reply where
  | halt
  | pass
deriving DecidableEq

structure PaxosController where
  connection : Connection
  joined : Bool
  paxosPorts : Dict EthAddr Port
  wanPort : Option Port
  state : PaxosState
  leader : Option Leader
  switch : BaselineController

namespace PaxosController

abbrev Handler (α : Type) : Type :=
  SwitchPaxos.Handler PaxosController Effect Failure α

/-- What `__init__` sets up; the node id is the digit the name ends with. -/
def new (nId : ℕ) (connection : Connection) (addFlows : Bool) :
    PaxosController :=
  { connection
    joined := false
    paxosPorts := ∅
    wanPort := none
    state := PaxosState.new nId
    leader := none
    switch := BaselineController.new addFlows true }

/-- The largest port number is the interface of the switch itself. -/
def mac (self : PaxosController) : EthAddr :=
  (self.connection.desc
    (self.connection.ports.max' self.connection.nonempty)).hwAddr

def name (self : PaxosController) : String :=
  (self.connection.desc
    (self.connection.ports.max' self.connection.nonempty)).name

def isleader (self : PaxosController) : Bool := self.name == "S1"

def isWanPort (port : Port) (self : PaxosController) : Bool :=
  port ∉ self.paxosPorts.values

def lookupPort (mac : EthAddr) (self : PaxosController) : Port :=
  (self.switch.macports.lookup mac).getD OFPP_ALL

/-- Source and destination of an event; our own address for a message that
was sent to ourself. -/
def getEtherAddrs (event : Option PacketIn) (self : PaxosController) :
    EthAddr × EthAddr :=
  match event with
  | some event => (event.parsed.src, event.parsed.dst)
  | none => (self.mac, self.mac)

def withSlots (slots : Slots) (self : PaxosController) : PaxosController :=
  { self with state := { self.state with slots } }

/-- Run an operation of the slot store. -/
def onSlots (operation : SwitchPaxos.Handler Slots Handed Failure α) :
    Handler α :=
  operation.zoom (fun self => self.state.slots) withSlots Effect.handed

/-- Run a handler of the embedded switch. -/
def onSwitch (operation : BaselineController.Handler α) : Handler α :=
  operation.zoom (fun self => self.switch)
    (fun switch self => { self with switch }) Effect.command

def getSlot (seqno : ℕ) : Handler Slot := do
  let self ← Handler.get
  let (slot, slots) := self.state.slots.getSlot seqno
  Handler.modify (withSlots slots)
  return slot

def putSlot (seqno : ℕ) (slot : Slot) : Handler Unit :=
  Handler.modify fun self =>
    self.withSlots (self.state.slots.putSlot seqno slot)

def processQueue (answer : ℕ → Bool) (n : ℕ) : Handler Unit :=
  onSlots (Slots.processQueue answer n)

def sendEthernet (src dst : EthAddr) (type : UInt16) (payload : Bytes)
    (outputPort : Port) : Handler Unit :=
  Handler.emit (.sent { src, dst, type, payload } outputPort)

def onLearn (answer : ℕ → Bool) (event : Option PacketIn) (message : Bytes) :
    Handler Reply := do
  let (n, seqno) ← Handler.lift (PaxosMessage.unpackLearn message)
  let self ← Handler.get
  let (src, dst) := self.getEtherAddrs event
  if dst ≠ self.mac ∧ dst ≠ ETHER_BROADCAST then return .halt
  else do
    let slot ← getSlot seqno
    match slot.onLearn n src with
    | none => return .halt
    | some slot => do
        putSlot seqno slot
        processQueue answer n
        return .halt

def sendLearn (answer : ℕ → Bool) (dst : EthAddr) (n seqno : ℕ) (port : Port) :
    Handler Unit := do
  let payload ← Handler.lift (PaxosMessage.packLearn n seqno)
  let self ← Handler.get
  if dst = self.mac then do
    Handler.emit (.toSelf PaxosMessage.LEARN payload)
    let _ ← onLearn answer none payload
    return ()
  else sendEthernet self.mac dst PaxosMessage.LEARN payload port

def onAccept (answer : ℕ → Bool) (event : Option PacketIn) (message : Bytes) :
    Handler Reply := do
  let (n, seqno, v) ← Handler.lift (PaxosMessage.unpackAccept message)
  let self ← Handler.get
  let (_, dst) := self.getEtherAddrs event
  if dst ≠ self.mac ∧ dst ≠ ETHER_BROADCAST then return .halt
  else do
    let slot ← getSlot seqno
    if self.state.crnd ≤ n ∧ slot.vrnd ≠ some n then do
      Handler.modify fun self =>
        { self with state := { self.state with crnd := n } }
      putSlot seqno (slot.vote n v)
      Handler.emit (.accepted n seqno v)
      -- Send learns to all, ourself last
      let nodes ← Handler.lift (self.state.orderedNodes self.mac)
      Handler.forEach
        (fun mac => sendLearn answer mac n seqno (self.lookupPort mac)) nodes
      return .halt
    else return .halt

def sendAccept (answer : ℕ → Bool) (dst : EthAddr) (n seqno : ℕ) (v : Bytes)
    (port : Port) : Handler Unit := do
  let payload ← Handler.lift (PaxosMessage.packAccept n seqno v)
  let self ← Handler.get
  if dst = self.mac then do
    Handler.emit (.toSelf PaxosMessage.ACCEPT payload)
    let _ ← onAccept answer none payload
    return ()
  else sendEthernet self.mac dst PaxosMessage.ACCEPT payload port

/-- `self.leader.next_seqno()`: the attribute is missing until `next_round`. -/
def nextSeqno : Handler ℕ := do
  let self ← Handler.get
  match self.leader with
  | none => Handler.raise .noAttribute
  | some leader => do
      let (seqno, leader) := leader.nextSeqno
      Handler.modify fun self => { self with leader := some leader }
      return seqno

def onClient (answer : ℕ → Bool) (event : PacketIn) (message : Bytes) :
    Handler Reply := do
  let self ← Handler.get
  if !self.isleader then return .halt
  else if !self.joined then return .halt
  else do
    let n := self.state.crnd
    let seqno ← nextSeqno
    let v ← Handler.lift (PaxosMessage.unpackClient message)
    Handler.modify fun self => { self with wanPort := some event.port }
    Handler.emit (.numbered seqno v)
    -- Send accepts to all, ourself last
    let nodes ← Handler.lift (self.state.orderedNodes self.mac)
    Handler.forEach
      (fun mac => sendAccept answer mac n seqno v (self.lookupPort mac)) nodes
    return .halt

def sendJoin (dst : EthAddr) (port : Port) (reannounce : Bool := false) :
    Handler Unit := do
  let self ← Handler.get
  let embedded := if reannounce then ETHER_BROADCAST else self.mac
  let payload ← Handler.lift
    (PaxosMessage.packJoin self.state.nId embedded.toRaw)
  sendEthernet self.mac dst PaxosMessage.JOIN payload port

/-- `PaxosState.add_node` -/
def addNode (node : EthAddr) : Handler Unit := do
  Handler.modify fun self =>
    { self with state := { self.state with N := insert node self.state.N } }
  let self ← Handler.get
  onSlots (Slots.updateNodeCount self.state.N.card)

def onJoin (event : Option PacketIn) (message : Bytes) : Handler Reply := do
  let (_, macAddr) ← Handler.lift (PaxosMessage.unpackJoin message)
  let mac := EthAddr.ofRaw macAddr
  let self ← Handler.get
  if macAddr = ETHER_BROADCAST.toRaw then do
    -- We are asked to announce ourself again
    sendJoin ETHER_BROADCAST OFPP_ALL
    return .pass
  else if mac ∉ self.state.N then
    match event with
    | some event => do
        Handler.modify fun self =>
          { self with
            paxosPorts := (self.paxosPorts.insert mac event.port).insert
              event.parsed.src event.port }
        addNode mac
        Handler.modify fun self =>
          { self with switch := self.switch.learnPort mac event.port }
        sendJoin mac event.port
        return .pass
    | none => do
        addNode mac
        sendJoin ETHER_BROADCAST OFPP_ALL
        return .pass
  else return .pass

/-- `on_prepare`, `on_promise` and `on_trust` are not implemented and drop. -/
def onUnimplemented : Handler Reply := do
  onSwitch BaselineController.drop
  return .halt

def dispatchPaxos (answer : ℕ → Bool) (paxosType : UInt16) (event : PacketIn)
    (payload : Bytes) : Handler Reply := do
  let self ← Handler.get
  if !self.joined ∧ paxosType ≠ PaxosMessage.JOIN then return .pass
  else if paxosType = PaxosMessage.ACCEPT then onAccept answer event payload
  else if paxosType = PaxosMessage.CLIENT then onClient answer event payload
  else if paxosType = PaxosMessage.JOIN then onJoin event payload
  else if paxosType = PaxosMessage.LEARN then onLearn answer event payload
  else onUnimplemented

/-- Whether `handle_paxos` dispatches a message of a known type. -/
def dispatches (event : PacketIn) (self : PaxosController) : Bool :=
  self.isWanPort event.port || event.parsed.type == PaxosMessage.JOIN ||
    event.parsed.dst == self.mac || event.parsed.dst == ETHER_BROADCAST

def handlePaxos (answer : ℕ → Bool) (event : PacketIn) : Handler Reply := do
  let eth := event.parsed
  let self ← Handler.get
  if PaxosMessage.isKnownPaxosType eth.type then
    if self.dispatches event then
      dispatchPaxos answer eth.type event eth.payload
    else if eth.type = PaxosMessage.ACCEPT ∨ eth.type = PaxosMessage.LEARN then
      do
        -- Unpacked for a log line only
        let _ ← Handler.lift (PaxosMessage.unpackAccept eth.payload)
        return .pass
    else return .pass
  else return .pass

/-- An upcall goes to the Paxos controller first, and on to the switch unless
the Paxos controller halts it. -/
def packetIn (answer : ℕ → Bool) (event : PacketIn) : Handler Unit := do
  let reply ← handlePaxos answer event
  match reply with
  | .halt => return ()
  | .pass => onSwitch (BaselineController.handlePacketIn event)

/-- The part of `background_proc_queue` that pumps the queue. -/
def pump (answer : ℕ → Bool) : Handler Unit := do
  let self ← Handler.get
  processQueue answer self.state.crnd

/-- `garbage_collect` of the store. -/
def collect (n : ℕ) : Handler Unit :=
  Handler.modify fun self => self.withSlots (self.state.slots.garbageCollect n)

end PaxosController

end SwitchPaxos

import SwitchPaxos.Controller.Node

/-!
# Handlers with any way to walk the queue

`process_queue` is a parameter of the handlers here.  The handlers of a node
that takes the answers of `process_message` from a function are one instance,
those of a node that calls `process_message` another.
-/

namespace SwitchPaxos.PaxosController

section Queue

variable (queue : ℕ → Handler Unit)

def onLearnBy (event : Option PacketIn) (message : Bytes) : Handler Reply := do
  let (n, seqno) ← Handler.lift (PaxosMessage.unpackLearn message)
  let self ← Handler.get
  let (src, dst) := self.getEtherAddrs event
  if dst ≠ self.mac ∧ dst ≠ ETHER_BROADCAST then return .halt
  else do
    let slot ← getSlot seqno
    match slot.onLearn n src with
    | none => return .halt
    | some slot => do
        putSlot seqno slot
        queue n
        return .halt

def sendLearnBy (dst : EthAddr) (n seqno : ℕ) (port : Port) :
    Handler Unit := do
  let payload ← Handler.lift (PaxosMessage.packLearn n seqno)
  let self ← Handler.get
  if dst = self.mac then do
    Handler.emit (.toSelf PaxosMessage.LEARN payload)
    let _ ← onLearnBy queue none payload
    return ()
  else sendEthernet self.mac dst PaxosMessage.LEARN payload port

def onAcceptBy (event : Option PacketIn) (message : Bytes) :
    Handler Reply := do
  let (n, seqno, v) ← Handler.lift (PaxosMessage.unpackAccept message)
  let self ← Handler.get
  let (_, dst) := self.getEtherAddrs event
  if dst ≠ self.mac ∧ dst ≠ ETHER_BROADCAST then return .halt
  else do
    let slot ← getSlot seqno
    if self.state.crnd ≤ n ∧ slot.vrnd ≠ some n then do
      Handler.modify fun self =>
        { self with state := { self.state with crnd := n } }
      putSlot seqno (slot.vote n v)
      Handler.emit (.accepted n seqno v)
      let nodes ← Handler.lift (self.state.orderedNodes self.mac)
      Handler.forEach
        (fun mac => sendLearnBy queue mac n seqno (self.lookupPort mac)) nodes
      return .halt
    else return .halt

def sendAcceptBy (dst : EthAddr) (n seqno : ℕ) (v : Bytes) (port : Port) :
    Handler Unit := do
  let payload ← Handler.lift (PaxosMessage.packAccept n seqno v)
  let self ← Handler.get
  if dst = self.mac then do
    Handler.emit (.toSelf PaxosMessage.ACCEPT payload)
    let _ ← onAcceptBy queue none payload
    return ()
  else sendEthernet self.mac dst PaxosMessage.ACCEPT payload port

def onClientBy (event : PacketIn) (message : Bytes) : Handler Reply := do
  let self ← Handler.get
  if !self.isleader then return .halt
  else if !self.joined then return .halt
  else do
    let n := self.state.crnd
    let seqno ← nextSeqno
    let v ← Handler.lift (PaxosMessage.unpackClient message)
    Handler.modify fun self => { self with wanPort := some event.port }
    Handler.emit (.numbered seqno v)
    let nodes ← Handler.lift (self.state.orderedNodes self.mac)
    Handler.forEach
      (fun mac => sendAcceptBy queue mac n seqno v (self.lookupPort mac)) nodes
    return .halt

def dispatchPaxosBy (paxosType : UInt16) (event : PacketIn)
    (payload : Bytes) : Handler Reply := do
  let self ← Handler.get
  if !self.joined ∧ paxosType ≠ PaxosMessage.JOIN then return .pass
  else if paxosType = PaxosMessage.ACCEPT then onAcceptBy queue event payload
  else if paxosType = PaxosMessage.CLIENT then onClientBy queue event payload
  else if paxosType = PaxosMessage.JOIN then onJoin event payload
  else if paxosType = PaxosMessage.LEARN then onLearnBy queue event payload
  else onUnimplemented

def handlePaxosBy (event : PacketIn) : Handler Reply := do
  let eth := event.parsed
  let self ← Handler.get
  if PaxosMessage.isKnownPaxosType eth.type then
    if self.dispatches event then
      dispatchPaxosBy queue eth.type event eth.payload
    else if eth.type = PaxosMessage.ACCEPT ∨ eth.type = PaxosMessage.LEARN then
      do
        let _ ← Handler.lift (PaxosMessage.unpackAccept eth.payload)
        return .pass
    else return .pass
  else return .pass

/-- The part of `background_proc_queue` that pumps the queue. -/
def pumpBy : Handler Unit := do
  let self ← Handler.get
  queue self.state.crnd

end Queue

theorem handlePaxosBy_processQueue (answer : ℕ → Bool) :
    handlePaxosBy (processQueue answer) = handlePaxos answer := rfl

end SwitchPaxos.PaxosController

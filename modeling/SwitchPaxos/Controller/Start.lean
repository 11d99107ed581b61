import SwitchPaxos.Controller.Node
import SwitchPaxos.Switch.FlowTable

/-!
# What a controller does on its own

The threads of a controller: one asks to join until enough nodes are known,
one asks everybody to announce themselves again and then starts the round, and
one pumps the queue and collects garbage.  Facts about a node that its Paxos
state has no part in are kept by all handlers if they are kept by the few
assignments that change the rest of the node.
-/

namespace SwitchPaxos

/-- The state in the next round. -/
def PaxosState.pickNext (state : PaxosState) : Except Failure PaxosState :=
  if 0 < state.N.card then
    .ok { state with crnd := state.crnd + state.N.card }
  else .error .assertNodes

namespace PaxosController

/-- The number of nodes `join_network` waits for. -/
def totalNodes : ℕ := 3

def setJoined : Handler Unit :=
  Handler.modify fun self => { self with joined := true }

/-- One turn of the loop of `join_block`.  With too many nodes it tells POX to
quit. -/
def joinBlock : Handler Unit := do
  let self ← Handler.get
  if totalNodes < self.state.N.card then pure ()
  else if self.state.N.card = totalNodes then setJoined
  else do
    let payload ← Handler.lift
      (PaxosMessage.packJoin self.state.nId self.mac.toRaw)
    let _ ← onJoin none payload
    let self ← Handler.get
    if totalNodes ≤ self.state.N.card then setJoined else pure ()

/-- What `wait_join` sends every three seconds. -/
def askAgain : Handler Unit := sendJoin ETHER_BROADCAST OFPP_ALL true

/-- The first part of `next_round`: a leader gets its sequence numbers. -/
def createLeader : Handler Unit := do
  let self ← Handler.get
  if self.isleader then
    Handler.modify fun self =>
      { self with leader := some (self.leader.getD { seqno := none }) }
  else pure ()

/-- The second part of `next_round`. -/
def pickNext : Handler Unit := do
  let self ← Handler.get
  if self.isleader then do
    let state ← Handler.lift self.state.pickNext
    Handler.modify fun self => { self with state }
  else pure ()

end PaxosController

/-- A step of one of the threads.  The two parts of `next_round` may be apart,
as other events can come in between; `connectionDown` is the only listener
among them. -/
inductive Activity where
  | joinBlock
  | askAgain
  | createLeader
  | pickNext
  | pump (answer : ℕ → Bool)
  | collect (n : ℕ)
  | connectionDown

def Activity.handle : Activity → PaxosController.Handler Unit
  | .joinBlock => PaxosController.joinBlock
  | .askAgain => PaxosController.askAgain
  | .createLeader => PaxosController.createLeader
  | .pickNext => PaxosController.pickNext
  | .pump answer => PaxosController.pump answer
  | .collect n => PaxosController.collect n
  | .connectionDown =>
      PaxosController.onSwitch BaselineController.connectionDown

/-- An invariant that the assignments of the handlers keep.  The ports are
those that events come in on. -/
structure PaxosController.Stable (arrives : Port → Prop)
    (invariant : PaxosController → Prop) : Prop where
  state : ∀ self state, invariant self → invariant { self with state }
  joined : ∀ self joined, invariant self → invariant { self with joined }
  leader : ∀ self leader, invariant self → invariant { self with leader }
  wanPort : ∀ self port, arrives port → invariant self →
    invariant { self with wanPort := some port }
  paxosPorts : ∀ self mac port, arrives port → invariant self →
    invariant { self with paxosPorts := self.paxosPorts.insert mac port }
  learnPort : ∀ self mac port, arrives port → invariant self →
    invariant { self with switch := self.switch.learnPort mac port }

/-- An effect that is not the installation of a flow. -/
def Effect.NoFlow : Effect → Prop
  | .command given => given.NoFlow
  | _ => True

namespace PaxosController.Stable

variable {arrives : Port → Prop} {invariant : PaxosController → Prop}
  (stable : Stable arrives invariant) (answer : ℕ → Bool)

include stable

theorem keeps_onSlots (operation : SwitchPaxos.Handler Slots Handed Failure α) :
    Handler.Keeps invariant Effect.NoFlow (onSlots operation) := by
  refine (Handler.keeps_anything operation).zoom ?_ ?_ ?_
  · intro self holds
    trivial
  · intro slots self holds anything
    exact stable.state self _ holds
  · intro call anything
    trivial

theorem keeps_withSlots (slots : PaxosController → Slots) :
    Handler.Keeps invariant Effect.NoFlow
      (Handler.modify fun self => self.withSlots (slots self) :
        PaxosController.Handler Unit) :=
  Handler.keeps_modify fun self holds => stable.state self _ holds

theorem keeps_getSlot (seqno : ℕ) :
    Handler.Keeps invariant Effect.NoFlow (getSlot seqno) := by
  refine Handler.keeps_get fun self holds => ?_
  refine (stable.keeps_withSlots fun _ => _).bind fun _ => ?_
  exact Handler.keeps_pure _

omit stable in
theorem keeps_sendEthernet (src dst : EthAddr) (type : UInt16)
    (payload : Bytes) (port : Port) :
    Handler.Keeps invariant Effect.NoFlow
      (sendEthernet src dst type payload port) :=
  Handler.keeps_emit trivial

theorem keeps_onLearn (event : Option PacketIn) (message : Bytes) :
    Handler.Keeps invariant Effect.NoFlow (onLearn answer event message) := by
  refine (Handler.keeps_lift _).bind ?_
  rintro ⟨n, seqno⟩
  refine Handler.keeps_get fun self holds => ?_
  refine Handler.Keeps.ite (fun _ => Handler.keeps_pure _) fun _ => ?_
  refine (stable.keeps_getSlot seqno).bind fun slot => ?_
  split
  · exact Handler.keeps_pure _
  · refine (stable.keeps_withSlots _).bind fun _ => ?_
    refine (stable.keeps_onSlots _).bind fun _ => ?_
    exact Handler.keeps_pure _

theorem keeps_sendLearn (dst : EthAddr) (n seqno : ℕ) (port : Port) :
    Handler.Keeps invariant Effect.NoFlow
      (sendLearn answer dst n seqno port) := by
  refine (Handler.keeps_lift _).bind fun payload => ?_
  refine Handler.keeps_get fun self holds => ?_
  refine Handler.Keeps.ite (fun _ => ?_) fun _ =>
    keeps_sendEthernet _ _ _ _ _
  refine (Handler.keeps_emit trivial).bind fun _ => ?_
  refine (stable.keeps_onLearn answer none payload).bind fun _ => ?_
  exact Handler.keeps_pure ()

theorem keeps_onAccept (event : Option PacketIn) (message : Bytes) :
    Handler.Keeps invariant Effect.NoFlow (onAccept answer event message) := by
  refine (Handler.keeps_lift _).bind ?_
  rintro ⟨n, seqno, v⟩
  refine Handler.keeps_get fun self holds => ?_
  refine Handler.Keeps.ite (fun _ => Handler.keeps_pure _) fun _ => ?_
  refine (stable.keeps_getSlot seqno).bind fun slot => ?_
  refine Handler.Keeps.ite (fun _ => ?_) fun _ => Handler.keeps_pure _
  refine (Handler.keeps_modify fun self holds =>
    stable.state self _ holds).bind fun _ => ?_
  refine (stable.keeps_withSlots _).bind fun _ => ?_
  refine (Handler.keeps_emit trivial).bind fun _ => ?_
  refine (Handler.keeps_lift _).bind fun nodes => ?_
  refine (Handler.keeps_forEach nodes fun mac =>
    stable.keeps_sendLearn answer mac n seqno _).bind fun _ => ?_
  exact Handler.keeps_pure _

theorem keeps_sendAccept (dst : EthAddr) (n seqno : ℕ) (v : Bytes)
    (port : Port) :
    Handler.Keeps invariant Effect.NoFlow
      (sendAccept answer dst n seqno v port) := by
  refine (Handler.keeps_lift _).bind fun payload => ?_
  refine Handler.keeps_get fun self holds => ?_
  refine Handler.Keeps.ite (fun _ => ?_) fun _ =>
    keeps_sendEthernet _ _ _ _ _
  refine (Handler.keeps_emit trivial).bind fun _ => ?_
  refine (stable.keeps_onAccept answer none payload).bind fun _ => ?_
  exact Handler.keeps_pure ()

theorem keeps_nextSeqno : Handler.Keeps invariant Effect.NoFlow nextSeqno := by
  refine Handler.keeps_get fun self holds => ?_
  split
  · exact Handler.keeps_raise _
  · refine (Handler.keeps_modify fun self holds =>
      stable.leader self _ holds).bind fun _ => ?_
    exact Handler.keeps_pure _

theorem keeps_onClient {event : PacketIn} (arrived : arrives event.port)
    (message : Bytes) :
    Handler.Keeps invariant Effect.NoFlow (onClient answer event message) := by
  refine Handler.keeps_get fun self holds => ?_
  refine Handler.Keeps.ite (fun _ => Handler.keeps_pure _) fun _ => ?_
  refine Handler.Keeps.ite (fun _ => Handler.keeps_pure _) fun _ => ?_
  refine stable.keeps_nextSeqno.bind fun seqno => ?_
  refine (Handler.keeps_lift _).bind fun v => ?_
  refine (Handler.keeps_modify fun self holds =>
    stable.wanPort self _ arrived holds).bind fun _ => ?_
  refine (Handler.keeps_emit trivial).bind fun _ => ?_
  refine (Handler.keeps_lift _).bind fun nodes => ?_
  refine (Handler.keeps_forEach nodes fun mac =>
    stable.keeps_sendAccept answer mac _ seqno v _).bind fun _ => ?_
  exact Handler.keeps_pure _

omit stable in
theorem keeps_sendJoin (dst : EthAddr) (port : Port) (reannounce : Bool) :
    Handler.Keeps invariant Effect.NoFlow (sendJoin dst port reannounce) := by
  refine Handler.keeps_get fun self holds => ?_
  refine (Handler.keeps_lift _).bind fun payload => ?_
  exact keeps_sendEthernet _ _ _ _ _

theorem keeps_addNode (node : EthAddr) :
    Handler.Keeps invariant Effect.NoFlow (addNode node) := by
  refine (Handler.keeps_modify fun self holds =>
    stable.state self _ holds).bind fun _ => ?_
  exact Handler.keeps_get fun self holds => stable.keeps_onSlots _

theorem keeps_onJoin {event : Option PacketIn}
    (arrived : ∀ upcall, event = some upcall → arrives upcall.port)
    (message : Bytes) :
    Handler.Keeps invariant Effect.NoFlow (onJoin event message) := by
  refine (Handler.keeps_lift _).bind ?_
  rintro ⟨nId, macAddr⟩
  refine Handler.keeps_get fun self holds => ?_
  refine Handler.Keeps.ite (fun _ => ?_) fun _ => ?_
  · refine (keeps_sendJoin _ _ _).bind fun _ => ?_
    exact Handler.keeps_pure _
  refine Handler.Keeps.ite (fun _ => ?_) fun _ => Handler.keeps_pure _
  cases event with
  | none =>
      refine (stable.keeps_addNode _).bind fun _ => ?_
      refine (keeps_sendJoin _ _ _).bind fun _ => ?_
      exact Handler.keeps_pure _
  | some event =>
      have onPort : arrives event.port := arrived event rfl
      refine (Handler.keeps_modify fun self holds => ?_).bind fun _ => ?_
      · exact stable.paxosPorts _ _ _ onPort
          (stable.paxosPorts self _ _ onPort holds)
      refine (stable.keeps_addNode _).bind fun _ => ?_
      refine (Handler.keeps_modify fun self holds =>
        stable.learnPort self _ _ onPort holds).bind fun _ => ?_
      refine (keeps_sendJoin _ _ _).bind fun _ => ?_
      exact Handler.keeps_pure _

omit stable in
theorem keeps_onUnimplemented :
    Handler.Keeps invariant Effect.NoFlow onUnimplemented := by
  intro self holds
  refine ⟨holds, ?_⟩
  intro effect member
  have dropped : effect = .command .drop := by
    simpa [onUnimplemented, onSwitch, Handler.zoom, BaselineController.drop]
      using member
  rw [dropped]
  exact fun _ _ _ => SwitchCommand.noConfusion

theorem keeps_dispatchPaxos {event : PacketIn} (arrived : arrives event.port)
    (type : UInt16) (payload : Bytes) :
    Handler.Keeps invariant Effect.NoFlow
      (dispatchPaxos answer type event payload) := by
  refine Handler.keeps_get fun self holds => ?_
  refine Handler.Keeps.ite (fun _ => Handler.keeps_pure _) fun _ => ?_
  refine Handler.Keeps.ite
    (fun _ => stable.keeps_onAccept answer event payload) fun _ => ?_
  refine Handler.Keeps.ite
    (fun _ => stable.keeps_onClient answer arrived payload) fun _ => ?_
  refine Handler.Keeps.ite (fun _ => ?_) fun _ => ?_
  · refine stable.keeps_onJoin ?_ payload
    rintro _ ⟨⟩
    exact arrived
  exact Handler.Keeps.ite
    (fun _ => stable.keeps_onLearn answer event payload)
    fun _ => keeps_onUnimplemented

theorem keeps_handlePaxos {event : PacketIn} (arrived : arrives event.port) :
    Handler.Keeps invariant Effect.NoFlow (handlePaxos answer event) := by
  refine Handler.keeps_get fun self holds => ?_
  refine Handler.Keeps.ite (fun _ => ?_) fun _ => Handler.keeps_pure _
  refine Handler.Keeps.ite
    (fun _ => stable.keeps_dispatchPaxos answer arrived _ _) fun _ => ?_
  refine Handler.Keeps.ite (fun _ => ?_) fun _ => Handler.keeps_pure _
  exact (Handler.keeps_lift _).bind fun _ => Handler.keeps_pure _

/-- An upcall keeps the invariant if the learning switch does its part. -/
theorem keeps_packetIn {allowed : Effect → Prop} {event : PacketIn}
    (permits : ∀ effect, effect.NoFlow → allowed effect)
    (arrived : arrives event.port)
    (switched : Handler.Keeps invariant allowed
      (onSwitch (BaselineController.handlePacketIn event))) :
    Handler.Keeps invariant allowed (packetIn answer event) := by
  have paxos : Handler.Keeps invariant allowed (handlePaxos answer event) :=
    (stable.keeps_handlePaxos answer arrived).mono permits
  refine paxos.bind fun reply => ?_
  cases reply with
  | halt => exact Handler.keeps_pure ()
  | pass => exact switched

theorem keeps_joinBlock : Handler.Keeps invariant Effect.NoFlow joinBlock := by
  have joins : Handler.Keeps invariant Effect.NoFlow setJoined :=
    Handler.keeps_modify fun self holds => stable.joined self _ holds
  refine Handler.keeps_get fun self holds => ?_
  refine Handler.Keeps.ite (fun _ => Handler.keeps_pure ()) fun _ => ?_
  refine Handler.Keeps.ite (fun _ => joins) fun _ => ?_
  refine (Handler.keeps_lift _).bind fun payload => ?_
  refine (stable.keeps_onJoin ?_ payload).bind fun _ => ?_
  · rintro _ ⟨⟩
  refine Handler.keeps_get fun self holds => ?_
  exact Handler.Keeps.ite (fun _ => joins) fun _ => Handler.keeps_pure ()

theorem keeps_createLeader :
    Handler.Keeps invariant Effect.NoFlow createLeader := by
  refine Handler.keeps_get fun self holds => ?_
  refine Handler.Keeps.ite (fun _ => ?_) fun _ => Handler.keeps_pure ()
  exact Handler.keeps_modify fun self holds => stable.leader self _ holds

theorem keeps_pickNext : Handler.Keeps invariant Effect.NoFlow pickNext := by
  refine Handler.keeps_get fun self holds => ?_
  refine Handler.Keeps.ite (fun _ => ?_) fun _ => Handler.keeps_pure ()
  refine (Handler.keeps_lift _).bind fun state => ?_
  exact Handler.keeps_modify fun self holds => stable.state self _ holds

theorem keeps_activity {allowed : Effect → Prop}
    (permits : ∀ effect, effect.NoFlow → allowed effect)
    (disconnected : Handler.Keeps invariant allowed
      (onSwitch BaselineController.connectionDown))
    (activity : Activity) :
    Handler.Keeps invariant allowed activity.handle := by
  cases activity with
  | joinBlock => exact stable.keeps_joinBlock.mono permits
  | askAgain => exact (keeps_sendJoin _ _ _).mono permits
  | createLeader => exact stable.keeps_createLeader.mono permits
  | pickNext => exact stable.keeps_pickNext.mono permits
  | pump answer =>
      refine Handler.Keeps.mono ?_ permits
      exact Handler.keeps_get fun self holds => stable.keeps_onSlots _
  | collect n =>
      exact (stable.keeps_withSlots _).mono permits
  | connectionDown => exact disconnected

end PaxosController.Stable

end SwitchPaxos

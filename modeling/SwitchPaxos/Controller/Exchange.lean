import SwitchPaxos.Base.Acquaintance
import SwitchPaxos.Base.Run
import SwitchPaxos.Controller.Joining
import SwitchPaxos.Controller.NodeRun
import Mathlib.Algebra.BigOperators.Fin

/-!
# The exchange of JOIN messages

Three controllers start in any order and tell each other about themselves with
JOIN messages, which may arrive in any order once the receiver is started and
are lost before.  How the learning switches forward a frame is how it gets to
its receivers, so what they output is not a message of its own.
-/

namespace SwitchPaxos

/-- The address of the interface of the switch itself. -/
def Connection.ownMac (connection : Connection) : EthAddr :=
  (connection.desc (connection.ports.max' connection.nonempty)).hwAddr

/-- Three switches with different addresses. -/
structure Trio where
  connection : Fin 3 → Connection
  addFlows : Bool
  distinct : Function.Injective fun i => (connection i).ownMac
  unicast : ∀ i, (connection i).ownMac ≠ ETHER_BROADCAST

namespace Trio

def mac (trio : Trio) (i : Fin 3) : EthAddr := (trio.connection i).ownMac

/-- The addresses of all three. -/
def macs (trio : Trio) : Finset EthAddr := Finset.univ.image trio.mac

end Trio

/-- The JOIN has the broadcast address, and asks for an announcement. -/
def Frame.asksAgain (frame : Frame) : Bool :=
  match PaxosMessage.unpackJoin frame.payload with
  | .ok (_, mac) => mac == ETHER_BROADCAST.toRaw
  | .error _ => false

/-- The controllers, which of them are started, which of their join threads
took a first turn, the messages on their way with their receivers, and all JOIN
messages that were sent. -/
structure Exchange where
  nodes : Fin 3 → PaxosController
  started : Finset (Fin 3)
  asked : Finset (Fin 3)
  inFlight : List (Fin 3 × Frame)
  sent : List Frame

inductive ExchangeEvent where
  | start (i : Fin 3)
  /-- The join thread takes a turn. -/
  | joinBlock (i : Fin 3)
  /-- A controller that waits asks everybody to announce themselves. -/
  | askAgain (i : Fin 3)
  /-- Anybody else asks a controller to announce itself. -/
  | announce (i : Fin 3) (frame : Frame)
  | deliver (answer : ℕ → Bool) (i : Fin 3) (frame : Frame) (port : Port)

namespace Exchange

/-- Who gets a frame: everybody else who is started, or the one it is for. -/
def receivers (trio : Trio) (i : Fin 3) (frame : Frame)
    (exchange : Exchange) : List (Fin 3) :=
  (List.finRange 3).filter fun j => j ≠ i ∧ j ∈ exchange.started ∧
    (frame.dst = ETHER_BROADCAST ∨ frame.dst = trio.mac j)

/-- A handler of a controller runs. -/
def run (trio : Trio) (i : Fin 3) (handler : PaxosController.Handler Unit)
    (exchange : Exchange) : Exchange :=
  let outcome := handler (exchange.nodes i)
  let frames := outcome.effects.filterMap Effect.frame?
  { exchange with
    nodes := Function.update exchange.nodes i outcome.state
    inFlight := exchange.inFlight ++ frames.flatMap fun frame =>
      (exchange.receivers trio i frame).map fun j => (j, frame)
    sent := exchange.sent ++ frames }

def step (trio : Trio) (exchange : Exchange) : ExchangeEvent → Exchange
  | .start i => { exchange with started := insert i exchange.started }
  | .joinBlock i =>
      run trio i PaxosController.joinBlock
        { exchange with asked := insert i exchange.asked }
  | .askAgain i => exchange.run trio i PaxosController.askAgain
  | .announce i frame =>
      { exchange with inFlight := exchange.inFlight ++ [(i, frame)] }
  | .deliver answer i frame port =>
      run trio i (PaxosController.packetIn answer
          { port, parsed := frame, srcip := none })
        { exchange with inFlight := exchange.inFlight.erase (i, frame) }

/-- Only controllers that are started do something.  A frame comes in on a
port, and not on all of them. -/
def Enabled (exchange : Exchange) : ExchangeEvent → Prop
  | .start i => i ∉ exchange.started
  | .joinBlock i => i ∈ exchange.started
  | .askAgain i => i ∈ exchange.started
  | .announce i frame => i ∈ exchange.started ∧
      frame.type = PaxosMessage.JOIN ∧ frame.asksAgain = true
  | .deliver _ i frame port => (i, frame) ∈ exchange.inFlight ∧
      port ≠ OFPP_ALL

def system (trio : Trio) : System Exchange ExchangeEvent :=
  { Enabled := Enabled
    step := step trio }

/-- Nobody is started; the node ids are the digits of S1, S2 and S3. -/
def start (trio : Trio) : Exchange :=
  { nodes := fun i => .new (i + 1) (trio.connection i) trio.addFlows
    started := ∅
    asked := ∅
    inFlight := []
    sent := [] }

/-- How many JOIN messages may still be sent: one for each request that is on
its way, and one for each node that a controller does not know. -/
def pending (exchange : Exchange) : ℕ :=
  exchange.inFlight.countP (fun item => item.2.asksAgain) +
    ∑ i, (PaxosController.totalNodes - (exchange.nodes i).state.N.card)

end Exchange

/-- No controller is started, and nobody asks for an announcement. -/
def ExchangeEvent.Settles : ExchangeEvent → Prop
  | .joinBlock _ | .deliver _ _ _ _ => True
  | _ => False

namespace PaxosController

variable {self : PaxosController}

/-- A controller that only ever handled JOIN messages. -/
structure Joining (node : PaxosController) : Prop where
  fits : node.IdFits
  fresh : node.Fresh
  joined : node.joined = true → totalNodes ≤ node.state.N.card
  ports : ∀ mac ∈ node.state.N, mac ≠ node.mac →
    ∃ port, node.switch.macports.lookup mac = some port
  physical : ∀ mac port, node.switch.macports.lookup mac = some port →
    port ≠ OFPP_ALL

/-- What a handler made of the nodes a controller knows, and which frames it
sent. -/
structure Leaves (node next : PaxosController) (effects : List Effect)
    (N : Finset EthAddr) (frames : List Frame) : Prop where
  joining : next.Joining
  mac : next.mac = node.mac
  nodes : next.state.N = N
  frames : effects.filterMap Effect.frame? = frames

end PaxosController

namespace PaxosController

variable {self : PaxosController} {answer : ℕ → Bool} {event : PacketIn}

theorem Joining.learnPort (joining : self.Joining) {mac : EthAddr}
    {port : Port} (physical : port ≠ OFPP_ALL) {switch : BaselineController}
    (learned : switch.macports = (self.switch.learnPort mac port).macports) :
    Joining { self with switch } := by
  refine ⟨joining.fits, joining.fresh, joining.joined, ?_, ?_⟩
  · intro other member different
    obtain ⟨found, lookup⟩ := joining.ports other member different
    change ∃ port, switch.macports.lookup other = some port
    rw [learned, BaselineController.lookup_learnPort]
    split
    · exact ⟨_, rfl⟩
    · exact ⟨found, lookup⟩
  · intro other found lookup
    change switch.macports.lookup other = some found at lookup
    rw [learned, BaselineController.lookup_learnPort] at lookup
    split at lookup
    · cases stored : self.switch.macports.lookup mac with
      | none =>
          rw [stored, Option.getD_none, Option.some.injEq] at lookup
          rwa [← lookup]
      | some earlier =>
          rw [stored, Option.getD_some, Option.some.injEq] at lookup
          rw [← lookup]
          exact joining.physical mac earlier stored
    · exact joining.physical other found lookup

theorem frames_command (given : List SwitchCommand) :
    (given.map Effect.command).filterMap Effect.frame? = [] := by
  rw [List.filterMap_map]
  exact List.filterMap_eq_nil_iff.mpr fun _ _ => rfl

theorem Joining.pass (self : PaxosController) {next : PaxosController}
    {effects : List Effect}
    (joining : next.Joining) (physical : event.port ≠ OFPP_ALL)
    (mac : next.mac = self.mac)
    (handled : handlePaxos answer event self = ⟨.ok .pass, next, effects⟩) :
    self.Leaves (packetIn answer event self).state
      (packetIn answer event self).effects next.state.N
      (effects.filterMap Effect.frame?) := by
  rw [packetIn_pass handled]
  refine ⟨?_, mac, rfl, ?_⟩
  · exact joining.learnPort physical
      (BaselineController.macports_learnSender _ _)
  · rw [List.filterMap_append, frames_command, List.append_nil]

section Join

variable (joining : self.Joining) (join : event.parsed.type = PaxosMessage.JOIN)
  (physical : event.port ≠ OFPP_ALL) {nId : ℕ} {mac : EthAddr}

include joining join physical

theorem Joining.announce
    (decoded : PaxosMessage.unpackJoin event.parsed.payload =
      .ok (nId, ETHER_BROADCAST.toRaw)) :
    self.Leaves (packetIn answer event self).state
      (packetIn answer event self).effects self.state.N
      [self.joinTo ETHER_BROADCAST] := by
  have handled : handlePaxos answer event self = ⟨.ok .pass, self,
      [.sent (self.joinTo ETHER_BROADCAST) OFPP_ALL]⟩ :=
    (handlePaxos_join join).trans (onJoin_announce joining.fits event decoded)
  exact joining.pass self physical rfl handled

theorem Joining.known
    (decoded : PaxosMessage.unpackJoin event.parsed.payload =
      .ok (nId, mac.toRaw)) (unicast : mac ≠ ETHER_BROADCAST)
    (known : mac ∈ self.state.N) :
    self.Leaves (packetIn answer event self).state
      (packetIn answer event self).effects self.state.N [] := by
  have other : mac.toRaw ≠ ETHER_BROADCAST.toRaw := fun same =>
    unicast (EthAddr.toRaw_inj.mp same)
  have handled : handlePaxos answer event self = ⟨.ok .pass, self, []⟩ :=
    (handlePaxos_join join).trans
      (onJoin_known event decoded other (by rwa [EthAddr.ofRaw_toRaw]))
  exact joining.pass self physical rfl handled

theorem Joining.new
    (decoded : PaxosMessage.unpackJoin event.parsed.payload =
      .ok (nId, mac.toRaw)) (unicast : mac ≠ ETHER_BROADCAST)
    (new : mac ∉ self.state.N) :
    self.Leaves (packetIn answer event self).state
      (packetIn answer event self).effects (insert mac self.state.N)
      [self.joinTo mac] := by
  have other : mac.toRaw ≠ ETHER_BROADCAST.toRaw := fun same =>
    unicast (EthAddr.toRaw_inj.mp same)
  have newcomer : self.newcomer event.parsed.payload = some mac := by
    simp [PaxosController.newcomer, decoded, other, new]
  have handled : handlePaxos answer event self = ⟨.ok .pass,
      self.enrol mac event, [self.welcome mac event]⟩ := by
    rw [handlePaxos_join join, onJoin_some joining.fits newcomer,
      if_pos joining.fresh]
  have admitted : (self.enrol mac event).Joining := by
    have learned : Joining
        { self with switch := self.switch.learnPort mac event.port } :=
      joining.learnPort physical rfl
    refine ⟨joining.fits, joining.fresh, ?_, ?_, learned.physical⟩
    · intro joined
      exact (joining.joined joined).trans
        (Finset.card_le_card (Finset.subset_insert _ _))
    · intro other member different
      rcases Finset.mem_insert.mp member with rfl | earlier
      · exact ⟨_, (BaselineController.lookup_learnPort _ _ _ _).trans
          (if_pos rfl)⟩
      · exact learned.ports other earlier different
  exact admitted.pass self physical rfl handled

end Join

theorem Joining.checkJoined (joining : self.Joining) :
    (PaxosController.checkJoined self).state.Joining := by
  rw [checkJoined_apply]
  refine ⟨joining.fits, joining.fresh, ?_, joining.ports, joining.physical⟩
  intro joined
  rcases Bool.or_eq_true_iff.mp joined with earlier | enough
  · exact joining.joined earlier
  · exact of_decide_eq_true enough

/-- A turn of the join thread of a controller that knows itself. -/
theorem Joining.joinBlock_known (joining : self.Joining)
    (unicast : self.mac ≠ ETHER_BROADCAST)
    (known : self.mac ∈ self.state.N) :
    self.Leaves (joinBlock self).state (joinBlock self).effects self.state.N
      [] := by
  rcases lt_trichotomy self.state.N.card totalNodes with few | enough | many
  · have other : self.mac.toRaw ≠ ETHER_BROADCAST.toRaw := fun same =>
      unicast (EthAddr.toRaw_inj.mp same)
    have handled : onJoin none self.ownJoin self = ⟨.ok .pass, self, []⟩ :=
      onJoin_known none (PaxosMessage.unpackJoin_toRaw joining.fits self.mac)
        other (by rwa [EthAddr.ofRaw_toRaw])
    rw [joinBlock_few joining.fits few, handled, Outcome.andThen_ok,
      Outcome.after_nil]
    refine ⟨joining.checkJoined, ?_, ?_, ?_⟩ <;> rw [checkJoined_apply]
    · rfl
    · rfl
  · rw [joinBlock_enough enough]
    exact ⟨⟨joining.fits, joining.fresh, fun _ => enough.ge, joining.ports,
      joining.physical⟩, rfl, rfl, rfl⟩
  · rw [joinBlock_many many]
    exact ⟨joining, rfl, rfl, rfl⟩

theorem Joining.joinBlock_new (joining : self.Joining)
    (unicast : self.mac ≠ ETHER_BROADCAST)
    (few : self.state.N.card < totalNodes) (new : self.mac ∉ self.state.N) :
    self.Leaves (joinBlock self).state (joinBlock self).effects
      (insert self.mac self.state.N) [self.joinTo ETHER_BROADCAST] := by
  have handled : onJoin none self.ownJoin self = ⟨.ok .pass,
      self.enrol self.mac none, [self.welcome self.mac none]⟩ := by
    rw [onJoin_some joining.fits (newcomer_own joining.fits unicast new),
      if_pos joining.fresh]
  have admitted : (self.enrol self.mac none).Joining := by
    refine ⟨joining.fits, joining.fresh, ?_, ?_, joining.physical⟩
    · intro joined
      exact (joining.joined joined).trans
        (Finset.card_le_card (Finset.subset_insert _ _))
    · intro other member different
      exact joining.ports other ((Finset.mem_insert.mp member).resolve_left
        different) different
  rw [joinBlock_few joining.fits few, handled, Outcome.andThen_ok]
  refine ⟨admitted.checkJoined, ?_, ?_, ?_⟩ <;>
    rw [checkJoined_apply]
  · rfl
  · rfl
  · rfl

theorem Joining.askAgain (joining : self.Joining) :
    self.Leaves (PaxosController.askAgain self).state
      (PaxosController.askAgain self).effects self.state.N
      [self.joinAgain] := by
  rw [askAgain_apply joining.fits]
  exact ⟨joining, rfl, rfl, rfl⟩

end PaxosController

end SwitchPaxos

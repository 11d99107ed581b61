import SwitchPaxos.Base.Channel
import SwitchPaxos.Base.RootedTree
import SwitchPaxos.Switch.Placing

/-!
# A fabric of learning switches

Switches and hosts are linked in a tree, each switch with a controller of its
own.  A link may carry any number of frames and lets them overtake one
another.  By the rules of OpenFlow a frame that is output to all ports leaves
through every port but the one it came in on, and it never leaves through that
one.
-/

namespace SwitchPaxos

/-- Who is linked to whom and through which ports.  Hosts have an address, and
nothing is behind them. -/
structure Wiring (V : Type) extends RootedTree V where
  address : V → Option EthAddr
  owner : EthAddr → Option V
  port : V → V → Port
  address_iff : ∀ {v mac}, address v = some mac ↔ owner mac = some v
  nobody : owner ETHER_BROADCAST = none
  hung : ∀ {v}, address v ≠ none → parent v ≠ none
  childless : ∀ {v w}, parent w = some v → address v = none
  ports : ∀ {u v w}, toRootedTree.Adjacent u v → toRootedTree.Adjacent u w →
    port u v = port u w → v = w

/-- The switches, the frames on each link, and what the hosts sent and
received so far. -/
structure Fabric (V : Type) where
  switches : V → LearningSwitch
  wires : Channels V Frame
  sent : V → List Frame
  received : V → List Frame

/-- A host sends or receives a frame, or something happens at a switch; what
comes in there comes from a neighbour. -/
inductive FabricAction (V : Type) where
  | send (host : V) (frame : Frame)
  | receive (source host : V) (frame : Frame)
  | switch (source switch : V) (event : LearningEvent)

namespace Wiring

theorem parent_of_host {V : Type} {wiring : Wiring V} {host w : V}
    (isHost : wiring.address host ≠ none)
    (adjacent : wiring.Adjacent host w) : wiring.parent host = some w := by
  rcases adjacent with up | down
  · exact up
  · exact absurd (wiring.childless down) isHost

variable {V : Type} [DecidableEq V] (wiring : Wiring V)

/-- The port of a switch that an address is behind. -/
def home (switch : V) (mac : EthAddr) : Port :=
  match wiring.owner mac with
  | none => OFPP_ALL
  | some host =>
      match wiring.next switch host with
      | none => OFPP_ALL
      | some neighbour => wiring.port switch neighbour

/-- The copies of a frame that a neighbour gets. -/
def copiesTo (switch neighbour : V) (entry : PacketIn × List (Frame × Port)) :
    List Frame :=
  entry.2.filterMap fun output =>
    if LeavesOn (some entry.1.port) output.2 (wiring.port switch neighbour) then
      some output.1
    else none

/-- The switch outputs what its newest entries say. -/
def transmit (switch : V) (entries : List (PacketIn × List (Frame × Port)))
    (wires : Channels V Frame) : Channels V Frame :=
  fun source target =>
    if source = switch ∧ wiring.Adjacent switch target then
      wires source target ++ entries.flatMap (wiring.copiesTo switch target)
    else wires source target

end Wiring

namespace Fabric

variable {V : Type} [DecidableEq V]

/-- A frame leaves a link. -/
def take (source target : V) (frame : Frame) (wires : Channels V Frame) :
    Channels V Frame :=
  fun first second =>
    if first = source ∧ second = target then (wires first second).erase frame
    else wires first second

/-- The links once the frame that comes in with an event has left. -/
def taken (source switch : V) (event : LearningEvent) (fabric : Fabric V) :
    Channels V Frame :=
  match event.arrival? with
  | none => fabric.wires
  | some packet => take source switch packet.parsed fabric.wires

def step (wiring : Wiring V) (fabric : Fabric V) : FabricAction V → Fabric V
  | .send host frame =>
      { fabric with
        wires := fun first second =>
          if first = host ∧ wiring.parent host = some second then
            fabric.wires first second ++ [frame]
          else fabric.wires first second
        sent := Function.update fabric.sent host
          (fabric.sent host ++ [frame]) }
  | .receive source host frame =>
      { fabric with
        wires := take source host frame fabric.wires
        received := Function.update fabric.received host
          (fabric.received host ++ [frame]) }
  | .switch source switch event =>
      let before := fabric.switches switch
      let after := before.step event
      { fabric with
        switches := Function.update fabric.switches switch after
        wires := wiring.transmit switch
          (after.forwarded.drop before.forwarded.length)
          (fabric.taken source switch event) }

/-- A frame on the link from a neighbour comes in at a switch. -/
def ComesIn (wiring : Wiring V) (source switch : V) (packet : PacketIn)
    (fabric : Fabric V) : Prop :=
  packet.port = wiring.port switch source ∧
    packet.parsed ∈ fabric.wires source switch

instance (wiring : Wiring V) (source switch : V) (packet : PacketIn)
    (fabric : Fabric V) :
    Decidable (fabric.ComesIn wiring source switch packet) :=
  inferInstanceAs (Decidable (_ ∧ _))

/-- Hosts send with their own address, what comes in was on a link, and a
switch asks its controller if no flow matches. -/
def Enabled (wiring : Wiring V) (fabric : Fabric V) : FabricAction V → Prop
  | .send host frame => wiring.address host = some frame.src
  | .receive source host frame =>
      wiring.address host ≠ none ∧ frame ∈ fabric.wires source host
  | .switch source switch (.matched packet flow) =>
      wiring.address switch = none ∧
        fabric.ComesIn wiring source switch packet ∧
        flow ∈ (fabric.switches switch).table ∧ flow.Matches packet.parsed
  | .switch source switch (.upcall packet) =>
      wiring.address switch = none ∧
        fabric.ComesIn wiring source switch packet ∧
        ¬ (fabric.switches switch).table.Handles packet.parsed
  | .switch _ switch _ => wiring.address switch = none

instance (wiring : Wiring V) (fabric : Fabric V) :
    (action : FabricAction V) → Decidable (Enabled wiring fabric action)
  | .send host frame =>
      inferInstanceAs (Decidable (wiring.address host = some frame.src))
  | .receive source host frame => inferInstanceAs (Decidable
      (wiring.address host ≠ none ∧ frame ∈ fabric.wires source host))
  | .switch source switch (.matched packet flow) =>
      inferInstanceAs (Decidable (wiring.address switch = none ∧
        fabric.ComesIn wiring source switch packet ∧
        flow ∈ (fabric.switches switch).table ∧ flow.Matches packet.parsed))
  | .switch source switch (.upcall packet) =>
      inferInstanceAs (Decidable (wiring.address switch = none ∧
        fabric.ComesIn wiring source switch packet ∧
        ¬ (fabric.switches switch).table.Handles packet.parsed))
  | .switch _ switch .handle =>
      inferInstanceAs (Decidable (wiring.address switch = none))
  | .switch _ switch (.expire _) =>
      inferInstanceAs (Decidable (wiring.address switch = none))
  | .switch _ switch (.connectionDown _) =>
      inferInstanceAs (Decidable (wiring.address switch = none))

def system (wiring : Wiring V) : System (Fabric V) (FabricAction V) :=
  { Enabled := Enabled wiring
    step := step wiring }

instance (wiring : Wiring V) (fabric : Fabric V)
    (actions : List (FabricAction V)) :
    Decidable ((system wiring).Run fabric actions) :=
  inferInstanceAs (Decidable (System.Each (system wiring) (Enabled wiring)
    fabric actions))

/-- Controllers that were just started, each with its own options, and no
frame anywhere. -/
def started (addFlows learnIpAddresses clearFlowsOnStartup : V → Bool) :
    Fabric V :=
  { switches := fun switch => LearningSwitch.started (addFlows switch)
      (learnIpAddresses switch) (clearFlowsOnStartup switch)
    wires := fun _ _ => []
    sent := fun _ => []
    received := fun _ => [] }

end Fabric

namespace Wiring

variable {V : Type} [DecidableEq V] {wiring : Wiring V} {switch host w : V}
  {mac : EthAddr}

theorem home_of_next (owner : wiring.owner mac = some host)
    (next : wiring.next switch host = some w) :
    wiring.home switch mac = wiring.port switch w := by
  rw [home, owner]
  simp only [next]

theorem home_of_nobody (nobody : wiring.owner mac = none) :
    wiring.home switch mac = OFPP_ALL := by
  rw [home, nobody]

end Wiring

end SwitchPaxos

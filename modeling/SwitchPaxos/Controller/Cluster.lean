import SwitchPaxos.Base.Run
import SwitchPaxos.Controller.Backing
import SwitchPaxos.Controller.NodeRun

/-!
# A cluster of controllers

The nodes of a cluster have all joined, and the messages they send are never
taken out of the network: a frame that was sent once may arrive at any node, at
any later time, any number of times, or never.  Client packets come from
outside and hold anything.
-/

namespace SwitchPaxos

/-- What can happen at a node of a cluster: an upcall, and the two things the
background thread does. -/
inductive ClusterEvent where
  | deliver (answer : ℕ → Bool) (event : PacketIn)
  | pump (answer : ℕ → Bool)
  | collect (n : ℕ)

def ClusterEvent.handle : ClusterEvent → PaxosController.Handler Unit
  | .deliver answer event => do
      let _ ← PaxosController.handlePaxos answer event
  | .pump answer => PaxosController.pump answer
  | .collect n => PaxosController.collect n

structure ClusterAction where
  mac : EthAddr
  event : ClusterEvent

/-- The nodes by their addresses, and all that any of them did so far. -/
structure Cluster where
  nodes : EthAddr → PaxosController
  log : List (EthAddr × Effect)

/-- The numbers the leader gave, with the client packets that got them. -/
def numbers (log : List (EthAddr × Effect)) : List (ℕ × Bytes) :=
  log.filterMap fun entry => entry.2.numbered?

namespace Cluster

/-- All frames that were ever sent. -/
def frames (cluster : Cluster) : List Frame :=
  cluster.log.filterMap fun entry => entry.2.frame?

/-- A node voted for a value. -/
def Voted (cluster : Cluster) (mac : EthAddr) (n seqno : ℕ) (v : Bytes) :
    Prop :=
  (mac, Effect.accepted n seqno v) ∈ cluster.log

/-- A node did something, and is now in this state. -/
def put (mac : EthAddr) (node : PaxosController) (effects : List Effect)
    (cluster : Cluster) : Cluster :=
  { nodes := Function.update cluster.nodes mac node
    log := cluster.log ++ effects.map fun effect => (mac, effect) }

/-- A handler ran at a node. -/
def record (mac : EthAddr)
    (outcome : Outcome PaxosController Effect Failure α) (cluster : Cluster) :
    Cluster :=
  cluster.put mac outcome.state outcome.effects

def step (cluster : Cluster) (action : ClusterAction) : Cluster :=
  cluster.record action.mac
    (action.event.handle (cluster.nodes action.mac))

/-- Events happen at the nodes, and what arrives there is a client packet or a
frame that was sent. -/
def Enabled (N : Finset EthAddr) (cluster : Cluster) (action : ClusterAction) :
    Prop :=
  action.mac ∈ N ∧
    match action.event with
    | .deliver _ event =>
        event.parsed.type = PaxosMessage.CLIENT ∨
          event.parsed ∈ cluster.frames
    | _ => True

def system (N : Finset EthAddr) : System Cluster ClusterAction :=
  { Enabled := Enabled N
    step := step }

instance (N : Finset EthAddr) (cluster : Cluster) :
    (action : ClusterAction) → Decidable (Enabled N cluster action)
  | ⟨mac, .deliver _ event⟩ => inferInstanceAs (Decidable (mac ∈ N ∧
      (event.parsed.type = PaxosMessage.CLIENT ∨
        event.parsed ∈ cluster.frames)))
  | ⟨mac, .pump _⟩ => inferInstanceAs (Decidable (mac ∈ N ∧ True))
  | ⟨mac, .collect _⟩ => inferInstanceAs (Decidable (mac ∈ N ∧ True))

instance (N : Finset EthAddr) (cluster : Cluster)
    (actions : List ClusterAction) :
    Decidable ((system N).Run cluster actions) :=
  inferInstanceAs (Decidable (System.Each (system N) (Enabled N) cluster
    actions))

/-- The nodes `N` have joined, each of them knows all of them, and none but
`leader` has the name of the leader. -/
structure Formed (N : Finset EthAddr) (leader : EthAddr)
    (cluster : Cluster) : Prop where
  mac : ∀ mac ∈ N, (cluster.nodes mac).mac = mac
  nodes : ∀ mac ∈ N, (cluster.nodes mac).state.N = N
  joined : ∀ mac ∈ N, (cluster.nodes mac).joined = true
  isleader : ∀ mac ∈ N, (cluster.nodes mac).isleader = true → mac = leader

/-- A formed cluster before the first message, with empty slot stores. -/
structure Starts (N : Finset EthAddr) (leader : EthAddr)
    (cluster : Cluster) : Prop extends Formed N leader cluster where
  slots : ∀ mac ∈ N, (cluster.nodes mac).state.slots = Slots.new N.card
  log : cluster.log = []

/-- The three controllers of the topology once the leader is past
`next_round`. -/
def three : Cluster :=
  { nodes := fun mac =>
      if mac = 1 then .ready "S1" 1 {1, 2, 3} 4 (some { seqno := none })
      else if mac = 2 then .ready "S2" 2 {1, 2, 3} 2 none
      else .ready "S3" 3 {1, 2, 3} 3 none
    log := [] }

theorem three_starts : three.Starts {1, 2, 3} 1 := by
  have each : ∀ {holds : EthAddr → Prop}, holds 1 → holds 2 → holds 3 →
      ∀ mac ∈ ({1, 2, 3} : Finset EthAddr), holds mac := by
    intro holds first second third mac member
    simp only [Finset.mem_insert, Finset.mem_singleton] at member
    rcases member with rfl | rfl | rfl
    · exact first
    · exact second
    · exact third
  refine ⟨⟨each rfl rfl rfl, each rfl rfl rfl, each rfl rfl rfl, each ?_ ?_ ?_⟩,
    each rfl rfl rfl, rfl⟩
  · intro _
    rfl
  · intro isleader
    exact absurd isleader (by decide)
  · intro isleader
    exact absurd isleader (by decide)

section Put

variable (cluster : Cluster) (mac other : EthAddr)
  (node : PaxosController) (effects : List Effect)

theorem nodes_put :
    (cluster.put mac node effects).nodes other =
      if other = mac then node else cluster.nodes other := by
  simp [put, Function.update_apply]

@[simp] theorem nodes_put_self :
    (cluster.put mac node effects).nodes mac = node := by
  simp [put]

theorem put_put (next : PaxosController) (later : List Effect) :
    (cluster.put mac node effects).put mac next later =
      cluster.put mac next (effects ++ later) := by
  simp [put, List.append_assoc]

theorem record_mk (result : Except Failure α) :
    cluster.record mac ⟨result, node, effects⟩ =
      cluster.put mac node effects := rfl

theorem record_after (outcome : Outcome PaxosController Effect Failure α) :
    cluster.record mac (outcome.after effects) =
      (cluster.put mac node effects).record mac outcome :=
  (put_put ..).symm

theorem numbers_put :
    numbers (cluster.put mac node effects).log =
      numbers cluster.log ++ effects.filterMap Effect.numbered? := by
  simp [put, numbers, List.filterMap_append, List.filterMap_map]

theorem frames_put :
    (cluster.put mac node effects).frames =
      cluster.frames ++ effects.filterMap Effect.frame? := by
  simp [put, frames, List.filterMap_append, List.filterMap_map]

theorem mem_log_put {effect : Effect} :
    (other, effect) ∈ (cluster.put mac node effects).log ↔
      (other, effect) ∈ cluster.log ∨ (other = mac ∧ effect ∈ effects) := by
  simp [put, eq_comm, and_comm]

theorem voted_put {n seqno : ℕ} {v : Bytes} :
    (cluster.put mac node effects).Voted other n seqno v ↔
      cluster.Voted other n seqno v ∨
        (other = mac ∧ Effect.accepted n seqno v ∈ effects) :=
  mem_log_put ..

end Put

end Cluster

end SwitchPaxos

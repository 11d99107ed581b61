import SwitchPaxos.Base.Channel
import SwitchPaxos.Controller.Informed

/-!
# A cluster without loss

The links between the switches lose nothing and keep the order.  A frame that
a node sends goes into the channel to the node it is addressed to, and what
arrives from a node is the oldest frame of its channel.  Client packets still
come from outside.  Every run of such a network is a run of the cluster.
-/

namespace SwitchPaxos

/-- The frames a handler output, in order. -/
def sentFrames (log : List Effect) : List Frame :=
  log.filterMap Effect.frame?

/-- What one node did. -/
def Cluster.logOf (mac : EthAddr) (cluster : Cluster) : List Effect :=
  (cluster.log.filter fun entry => entry.1 = mac).map Prod.snd

/-- The packets that `process_message` answered True for at a node, in order.
-/
def Cluster.processed (mac : EthAddr) (cluster : Cluster) :
    List (Option Bytes) :=
  ((calls (cluster.logOf mac)).filter (·.answer)).map (·.vval)

/-- The client packets in the order in which the leader numbered them. -/
def Cluster.packets (cluster : Cluster) : List Bytes :=
  (numbers cluster.log).map Prod.snd

theorem Cluster.logOf_put (cluster : Cluster) (mac other : EthAddr)
    (node : PaxosController) (effects : List Effect) :
    (cluster.put mac node effects).logOf other =
      cluster.logOf other ++ if other = mac then effects else [] := by
  unfold logOf put
  by_cases same : other = mac
  · simp [same, List.filter_append, List.filter_map, Function.comp_def]
  · have different : mac ≠ other := fun here => same here.symm
    simp [same, different, List.filter_append, List.filter_map,
      Function.comp_def]

theorem Cluster.mem_logOf {cluster : Cluster} {mac : EthAddr}
    {effect : Effect} :
    effect ∈ cluster.logOf mac ↔ (mac, effect) ∈ cluster.log := by
  simp [logOf]

/-- What a node processed lies behind the position of its queue, after every
step. -/
theorem Cluster.Accountable.inOrder_step {N : Finset EthAddr}
    {leader : EthAddr} {cluster : Cluster} {action : ClusterAction}
    (accountable : cluster.Accountable N leader)
    (enabled : Cluster.Enabled N cluster action)
    (inOrder : ∀ mac ∈ N, (cluster.nodes mac).state.slots.InOrder
      (calls (cluster.logOf mac))) :
    ∀ mac ∈ N, ((cluster.step action).nodes mac).state.slots.InOrder
      (calls ((cluster.step action).logOf mac)) := by
  obtain ⟨state, effects, -⟩ := accountable.actsBy enabled
  intro mac member
  rw [Cluster.step, Cluster.record, Cluster.nodes_put, Cluster.logOf_put]
  split
  · next here =>
      rw [state, calls_append, effects, here]
      exact StoreOperation.inOrder_forEach (inOrder _ enabled.1) _
  · rw [List.append_nil]
    exact inOrder mac member

structure Network where
  cluster : Cluster
  channels : Channels EthAddr Frame

namespace Network

/-- The channels once the frame that arrives was taken out. -/
def taken (network : Network) (action : ClusterAction) :
    Channels EthAddr Frame :=
  match action.event with
  | .deliver _ event =>
      if event.parsed.type = PaxosMessage.CLIENT then network.channels
      else network.channels.receive event.parsed.src action.mac
  | _ => network.channels

def step (network : Network) (action : ClusterAction) : Network :=
  { cluster := network.cluster.step action
    channels := (network.taken action).send action.mac (·.dst)
      (sentFrames (action.event.handle
        (network.cluster.nodes action.mac)).effects) }

/-- What arrives at a node is a client packet or the oldest frame under way
from its sender. -/
def Enabled (N : Finset EthAddr) (network : Network) (action : ClusterAction) :
    Prop :=
  action.mac ∈ N ∧
    match action.event with
    | .deliver _ event =>
        event.parsed.type = PaxosMessage.CLIENT ∨
          (network.channels event.parsed.src action.mac).head? =
            some event.parsed
    | _ => True

def system (N : Finset EthAddr) : System Network ClusterAction :=
  { Enabled := Enabled N
    step := step }

instance (N : Finset EthAddr) (network : Network) :
    (action : ClusterAction) → Decidable (Enabled N network action)
  | ⟨mac, .deliver _ event⟩ => inferInstanceAs (Decidable (mac ∈ N ∧
      (event.parsed.type = PaxosMessage.CLIENT ∨
        (network.channels event.parsed.src mac).head? = some event.parsed)))
  | ⟨mac, .pump _⟩ => inferInstanceAs (Decidable (mac ∈ N ∧ True))
  | ⟨mac, .collect _⟩ => inferInstanceAs (Decidable (mac ∈ N ∧ True))

instance (N : Finset EthAddr) (network : Network)
    (actions : List ClusterAction) :
    Decidable ((system N).Run network actions) :=
  inferInstanceAs (Decidable (System.Each (system N) (Enabled N) network
    actions))

/-- A formed cluster before the first message.  The leader is a node, and its
round is not behind that of any node, as `next_round` leaves it. -/
structure Starts (N : Finset EthAddr) (leader : EthAddr) (network : Network) :
    Prop where
  cluster : network.cluster.Starts N leader
  channels : ∀ src dst, network.channels src dst = []
  member : leader ∈ N
  rounds : ∀ mac ∈ N, (network.cluster.nodes mac).state.crnd ≤
    (network.cluster.nodes leader).state.crnd

/-- The three controllers of the topology and the links between them. -/
def three : Network :=
  { cluster := Cluster.three
    channels := fun _ _ => [] }

theorem three_starts : three.Starts {1, 2, 3} 1 where
  cluster := Cluster.three_starts
  channels := fun _ _ => rfl
  member := by simp
  rounds := by
    intro mac member
    simp only [Finset.mem_insert, Finset.mem_singleton] at member
    rcases member with rfl | rfl | rfl <;> decide

/-- What is under way was sent, by one node to another. -/
def Sent (network : Network) : Prop :=
  ∀ src dst, ∀ frame ∈ network.channels src dst,
    frame ∈ network.cluster.frames ∧ frame.src = src ∧ frame.dst = dst

variable {N : Finset EthAddr} {network : Network} {action : ClusterAction}

theorem Sent.enabled (sent : network.Sent)
    (enabled : Enabled N network action) :
    Cluster.Enabled N network.cluster action := by
  obtain ⟨mac, event⟩ := action
  obtain ⟨member, arrives⟩ := enabled
  refine ⟨member, ?_⟩
  cases event with
  | pump answer => trivial
  | collect n => trivial
  | deliver answer event =>
      rcases arrives with client | oldest
      · exact .inl client
      · exact .inr (sent _ _ _ (List.mem_of_head? oldest)).1

theorem mem_of_mem_taken {src dst : EthAddr} {frame : Frame}
    (member : frame ∈ network.taken action src dst) :
    frame ∈ network.channels src dst := by
  obtain ⟨mac, event⟩ := action
  cases event with
  | pump answer => exact member
  | collect n => exact member
  | deliver answer event =>
      simp only [taken] at member
      split at member
      · exact member
      · exact Channels.mem_of_mem_receive member

theorem frames_step :
    (network.step action).cluster.frames = network.cluster.frames ++
      sentFrames (action.event.handle
        (network.cluster.nodes action.mac)).effects :=
  Cluster.frames_put ..

theorem Sent.step (sent : network.Sent)
    (own : ∀ frame ∈ sentFrames (action.event.handle
      (network.cluster.nodes action.mac)).effects, frame.src = action.mac) :
    (network.step action).Sent := by
  intro src dst frame member
  rw [frames_step]
  rcases Channels.mem_send.mp member with earlier | ⟨here, new, addressed⟩
  · obtain ⟨known, ends⟩ := sent src dst frame (mem_of_mem_taken earlier)
    exact ⟨List.mem_append_left _ known, ends⟩
  · exact ⟨List.mem_append_right _ new, (own frame new).trans here.symm,
      addressed⟩

end Network

end SwitchPaxos

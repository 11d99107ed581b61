import SwitchPaxos.Base.Ballots
import SwitchPaxos.Base.Run
import SwitchPaxos.Insane.Node
import Mathlib.Order.Interval.Finset.Nat

/-!
# A network of nodes

Packets stay in the network for good: one that was sent may arrive at the node
it is addressed to at any later time, any number of times, or never.  TRUST
and TRUST-VALUE come from outside and name the node they arrive at.
-/

namespace SwitchPaxos.Insane

variable {V : Type}

def Effect.sent? : Effect V → Option (Packet V)
  | .sent packet => some packet
  | .accepted _ _ => none

/-- The node that a TRUST or TRUST-VALUE names. -/
def Message.trusted? : Message V → Option ℕ
  | .trust c => some c
  | .trustValue c _ => some c
  | _ => none

/-- A message arrives at a node. -/
structure Action (V : Type) where
  id : ℕ
  sender : Address
  message : Message V

/-- The nodes by their ids, and all that any of them did so far. -/
structure Network (V : Type) where
  nodes : ℕ → Node V
  log : List (ℕ × Effect V)

/-- The ids of an odd number of nodes, of which `f` may fail. -/
def ids (f : ℕ) : Finset ℕ := Finset.Icc 1 (2 * f + 1)

theorem mem_ids {f id : ℕ} : id ∈ ids f ↔ 1 ≤ id ∧ id ≤ 2 * f + 1 :=
  Finset.mem_Icc

@[simp] theorem card_ids (f : ℕ) : (ids f).card = 2 * f + 1 := by
  simp [ids]

namespace Network

/-- All packets that were ever sent. -/
def packets (network : Network V) : List (Packet V) :=
  network.log.filterMap fun entry => entry.2.sent?

/-- A node accepted a value. -/
def Voted (network : Network V) (id n : ℕ) (v : Option V) : Prop :=
  (id, Effect.accepted n v) ∈ network.log

/-- A promise was sent from an address. -/
def Promised (network : Network V) (src : Address) (n : ℕ)
    (vrnd : Option ℕ) (vval : Option V) : Prop :=
  ∃ dst, ⟨src, dst, .promise n vrnd vval⟩ ∈ network.packets

/-- A value was proposed in a round. -/
def Proposed (network : Network V) (n : ℕ) (v : Option V) : Prop :=
  ∃ src dst, ⟨src, dst, .accept n v⟩ ∈ network.packets

/-- The voting that goes on in the network. -/
def ballots (network : Network V) : Ballots ℕ (Option V) :=
  { round := fun id => (network.nodes id).rnd
    voted := network.Voted
    proposed := network.Proposed }

/-- More than half of the nodes accepted a value in a round. -/
def Chosen (f : ℕ) (network : Network V) (n : ℕ) (v : Option V) : Prop :=
  ∃ Q ⊆ ids f, (ids f).card < 2 * Q.card ∧ ∀ id ∈ Q, network.Voted id n v

instance [DecidableEq V] (network : Network V) (id n : ℕ) (v : Option V) :
    Decidable (network.Voted id n v) :=
  inferInstanceAs (Decidable (_ ∈ network.log))

theorem chosen_iff [DecidableEq V] {f n : ℕ} {v : Option V}
    {network : Network V} : network.Chosen f n v ↔
      (ids f).card < 2 * {id ∈ ids f | network.Voted id n v}.card := by
  constructor
  · rintro ⟨Q, subset, half, voted⟩
    have all : Q ⊆ {id ∈ ids f | network.Voted id n v} := fun id member =>
      Finset.mem_filter.mpr ⟨subset member, voted id member⟩
    have bound := Finset.card_le_card all
    omega
  · intro half
    exact ⟨_, Finset.filter_subset _ _, half,
      fun id member => (Finset.mem_filter.mp member).2⟩

instance [DecidableEq V] (f : ℕ) (network : Network V) (n : ℕ)
    (v : Option V) : Decidable (network.Chosen f n v) :=
  decidable_of_iff _ chosen_iff.symm

theorem Chosen.ballots {f n : ℕ} {v : Option V} {network : Network V}
    (chosen : network.Chosen f n v) : network.ballots.Chosen (ids f) n v := by
  obtain ⟨Q, subset, half, voted⟩ := chosen
  exact ⟨Q, ⟨subset, half⟩, voted⟩

/-- A handler ran at a node. -/
def put (id : ℕ) (node : Node V) (effects : List (Effect V))
    (network : Network V) : Network V :=
  { nodes := Function.update network.nodes id node
    log := network.log ++ effects.map fun effect => (id, effect) }

/-- A TRUST or TRUST-VALUE names the node, any other message was sent to it. -/
def Enabled (f : ℕ) (network : Network V) (action : Action V) : Prop :=
  action.id ∈ ids f ∧
    (action.message.trusted? = some action.id ∨
      (action.message.trusted? = none ∧
        ⟨action.sender, (network.nodes action.id).address, action.message⟩ ∈
          network.packets))

def step [LinearOrder V] (network : Network V) (action : Action V) :
    Network V :=
  let outcome := Node.receive action.sender action.message
    (network.nodes action.id)
  network.put action.id outcome.state outcome.effects

def system [LinearOrder V] (f : ℕ) : System (Network V) (Action V) :=
  { Enabled := Enabled f
    step := step }

instance [DecidableEq V] (f : ℕ) (network : Network V) (action : Action V) :
    Decidable (Enabled f network action) :=
  inferInstanceAs (Decidable (_ ∧ (_ ∨ _)))

instance [LinearOrder V] (f : ℕ) (network : Network V)
    (actions : List (Action V)) :
    Decidable ((system f).Run network actions) :=
  inferInstanceAs (Decidable (System.Each (system f) (Enabled f) network
    actions))

/-- The nodes have the ids `1` to `n`, one table with an address of its own
for each of them, and none other. -/
structure Formed (f : ℕ) (table : Dict ℕ Address) (network : Network V) :
    Prop where
  keys : ∀ id, id ∈ table.keys ↔ id ∈ ids f
  distinct : ∀ id other address, table.lookup id = some address →
    table.lookup other = some address → id = other
  id : ∀ id ∈ ids f, (network.nodes id).id = id
  nodes : ∀ id ∈ ids f, (network.nodes id).nodes = table
  address : ∀ id ∈ ids f,
    table.lookup id = some (network.nodes id).address

/-- The network as it is set up: nothing happened yet. -/
structure Starts (f : ℕ) (table : Dict ℕ Address) (network : Network V) :
    Prop extends Formed f table network where
  fresh : ∀ id ∈ ids f, ∃ omega address,
    network.nodes id = Node.new id table omega address
  log : network.log = []

/-- The nodes of `config.json`. -/
def config : Dict ℕ Address :=
  AList.insert 1 ("127.0.0.1", 2001) (AList.insert 2 ("127.0.0.1", 2002)
    (AList.insert 3 ("127.0.0.1", 2003) ∅))

def three : Network ℕ :=
  { nodes := fun id => Node.new id config none ("127.0.0.1", 2000 + id)
    log := [] }

theorem lookup_config {id : ℕ} {address : Address} :
    config.lookup id = some address ↔
      id ∈ ids 1 ∧ address = ("127.0.0.1", 2000 + id) := by
  simp only [config, Dict.lookup_insert_eq, AList.lookup_empty, mem_ids]
  split
  · next here => simp [here, eq_comm]
  · split
    · next here => simp [here, eq_comm]
    · split
      · next here => simp [here, eq_comm]
      · simp only [reduceCtorEq, false_iff, not_and]
        omega

theorem three_starts : three.Starts 1 config where
  keys := by
    intro id
    rw [← AList.mem_keys, ← AList.lookup_isSome, Option.isSome_iff_exists]
    simp [lookup_config]
  distinct := by
    intro id other address first second
    have same := (lookup_config.mp first).2.symm.trans
      (lookup_config.mp second).2
    simp only [Prod.mk.injEq, Nat.add_left_cancel_iff, true_and] at same
    exact same
  id := fun _ _ => rfl
  nodes := fun _ _ => rfl
  address := fun id member => lookup_config.mpr ⟨member, rfl⟩
  fresh := fun _ _ => ⟨none, _, rfl⟩
  log := rfl

section Put

variable (network : Network V) (id other : ℕ) (node : Node V)
  (effects : List (Effect V))

theorem nodes_put : (network.put id node effects).nodes other =
    if other = id then node else network.nodes other := by
  simp [put, Function.update_apply]

@[simp] theorem nodes_put_self :
    (network.put id node effects).nodes id = node := by
  simp [put]

theorem mem_packets_put {packet : Packet V} :
    packet ∈ (network.put id node effects).packets ↔
      packet ∈ network.packets ∨ Effect.sent packet ∈ effects := by
  have sent : ∀ effect : Effect V,
      effect.sent? = some packet ↔ effect = .sent packet := by
    intro effect
    cases effect <;> simp [Effect.sent?]
  simp [packets, put, List.filterMap_append, List.filterMap_map, sent]

theorem voted_put {n : ℕ} {v : Option V} :
    (network.put id node effects).Voted other n v ↔
      network.Voted other n v ∨
        (other = id ∧ Effect.accepted n v ∈ effects) := by
  simp [Voted, put, eq_comm, and_comm]

end Put

section Kept

variable {network : Network V} {id other : ℕ} {node : Node V}
  {effects : List (Effect V)}

/-- What a handler keeps at its node is as it was at every node. -/
theorem field_put {β : Type} (field : Node V → β)
    (kept : field node = field (network.nodes id)) :
    field ((network.put id node effects).nodes other) =
      field (network.nodes other) := by
  rw [nodes_put]
  split
  · next here =>
      rw [here]
      exact kept
  · exact rfl

theorem voted_of_silent (silent : ∀ n v, .accepted n v ∉ effects) {n : ℕ}
    {v : Option V} (voted : (network.put id node effects).Voted other n v) :
    network.Voted other n v := by
  rcases (voted_put ..).mp voted with earlier | ⟨-, new⟩
  · exact earlier
  · exact absurd new (silent n v)

theorem Promised.put {src : Address} {n : ℕ} {vrnd : Option ℕ}
    {vval : Option V} (promised : network.Promised src n vrnd vval) :
    (network.put id node effects).Promised src n vrnd vval :=
  promised.imp fun _ sent => (mem_packets_put ..).mpr (.inl sent)

theorem Proposed.put {n : ℕ} {v : Option V} (proposed : network.Proposed n v) :
    (network.put id node effects).Proposed n v := by
  obtain ⟨src, dst, sent⟩ := proposed
  exact ⟨src, dst, (mem_packets_put ..).mpr (.inl sent)⟩

theorem promised_put {src : Address} {n : ℕ} {vrnd : Option ℕ}
    {vval : Option V}
    (promised : (network.put id node effects).Promised src n vrnd vval) :
    network.Promised src n vrnd vval ∨
      ∃ dst, .sent ⟨src, dst, .promise n vrnd vval⟩ ∈ effects := by
  obtain ⟨dst, sent⟩ := promised
  rcases (mem_packets_put ..).mp sent with earlier | new
  · exact .inl ⟨dst, earlier⟩
  · exact .inr ⟨dst, new⟩

theorem proposed_put {n : ℕ} {v : Option V}
    (proposed : (network.put id node effects).Proposed n v) :
    network.Proposed n v ∨
      ∃ src dst, .sent ⟨src, dst, .accept n v⟩ ∈ effects := by
  obtain ⟨src, dst, sent⟩ := proposed
  rcases (mem_packets_put ..).mp sent with earlier | new
  · exact .inl ⟨src, dst, earlier⟩
  · exact .inr ⟨src, dst, new⟩

theorem proposed_of_quiet
    (quiet : ∀ src dst n v, .sent ⟨src, dst, .accept n v⟩ ∉ effects) {n : ℕ}
    {v : Option V} (proposed : (network.put id node effects).Proposed n v) :
    network.Proposed n v := by
  rcases proposed_put proposed with earlier | ⟨src, dst, new⟩
  · exact earlier
  · exact absurd new (quiet src dst n v)

end Kept

end Network

end SwitchPaxos.Insane

import SwitchPaxos.Insane.Network

/-!
# Any number of nodes

The members of a network are the entries of the table that all of them have.
TRUST and TRUST-VALUE may arrive at any member, whichever one they name; any
other message arrives where it was sent to, at any time, in any order and any
number of times.
-/

namespace SwitchPaxos.Insane

variable {V : Type}

/-- The round that a PROMISE is for. -/
def Message.promised? : Message V → Option ℕ
  | .promise rnd _ _ => some rnd
  | _ => none

theorem Message.promised?_of_trusted {message : Message V} {c : ℕ}
    (named : message.trusted? = some c) : message.promised? = none := by
  cases message with
  | promise => cases named
  | _ => rfl

namespace Node

/-- What a node does with a message.  Of a TRUST-VALUE that names another node
it keeps the value. -/
inductive Reacts [LinearOrder V] (node : Node V) (sender : Address) :
    Message V → Node V → List (Effect V) → Prop where
  | ignored (message : Message V)
      (elsewhere : ∀ n, message.promised? = some n → node.crnd ≠ some n) :
      Reacts node sender message node []
  | promised (n : ℕ) (later : node.rnd < n) :
      Reacts node sender (.prepare n) { node with rnd := n }
        [.sent ⟨node.address, sender, .promise n node.vrnd node.vval⟩]
  | voted (n : ℕ) (v : Option V) (current : node.rnd ≤ n) :
      Reacts node sender (.accept n v)
        { node with rnd := n, vrnd := some n, vval := v }
        (.accepted n v :: node.broadcast (.learn n v))
  | collected (n : ℕ) (vrnd : Option ℕ) (vval : Option V)
      (present : node.crnd = some n) :
      Reacts node sender (.promise n vrnd vval)
        (node.withPromise sender vrnd vval)
        (if (node.withPromise sender vrnd vval).enoughPromises then
          node.broadcast
            (.accept n (node.withPromise sender vrnd vval).cval)
        else [])
  | learned (n : ℕ) (v : Option V) :
      Reacts node sender (.learn n v)
        { node with values := node.values.insert n v } []
  | trusted (message : Message V) (v : Option V)
      (named : message.trusted? = some node.id) :
      Reacts node sender message
        { node with crnd := some node.nextCrnd, mv := ∅, v }
        (node.broadcast (.prepare node.nextCrnd))
  | wished (c : ℕ) (v : Option V) (other : c ≠ node.id) :
      Reacts node sender (.trustValue c v) { node with v } []

section Receive

variable (node : Node V) (sender : Address)

theorem onTrust_other {c : ℕ} (other : c ≠ node.id) :
    onTrust c node = ⟨.ok (), node, []⟩ := by
  simp only [onTrust, Handler.bind_apply, Handler.get_apply,
    Outcome.andThen_ok, Outcome.after_nil, Handler.ite_apply, if_neg other]
  rfl

theorem onTrustValue_other {c : ℕ} (other : c ≠ node.id) (v : Option V) :
    onTrustValue c v node = ⟨.ok (), { node with v }, []⟩ := by
  simp only [onTrustValue, setvalue, Handler.bind_apply, Handler.modify_apply,
    Outcome.andThen_ok, Outcome.after_nil]
  exact onTrust_other { node with v } other

theorem receive_reacts [LinearOrder V] (message : Message V) :
    Reacts node sender message (receive sender message node).state
      (receive sender message node).effects := by
  have idle : ∀ {message : Message V}, message.promised? = none →
      Reacts node sender message node [] := by
    intro message quiet
    refine .ignored message fun n some => ?_
    rw [quiet] at some
    cases some
  cases message with
  | prepare n =>
      rw [receive, onPrepare_apply]
      split
      · next later => exact .promised n later
      · exact idle rfl
  | promise n vrnd vval =>
      rw [receive, onPromise_apply]
      split
      · next present => exact .collected n vrnd vval present
      · next elsewhere =>
          refine .ignored _ fun m some => ?_
          cases some
          exact elsewhere
  | accept n v =>
      rw [receive, onAccept_apply]
      split
      · next current => exact .voted n v current.1
      · exact idle rfl
  | learn n v =>
      rw [receive, onLearn_apply]
      split
      · exact .learned n v
      · exact idle rfl
  | trust c =>
      by_cases named : c = node.id
      · subst named
        rw [receive, onTrust_apply]
        exact .trusted _ node.v rfl
      · rw [receive, onTrust_other node named]
        exact idle rfl
  | trustValue c v =>
      by_cases named : c = node.id
      · subst named
        rw [receive, onTrustValue_apply]
        exact .trusted _ v rfl
      · rw [receive, onTrustValue_other node named]
        exact .wished c v named

end Receive

theorem lt_nextCrnd {node : Node V} {crnd : ℕ}
    (several : node.nodes.keys ≠ []) (present : node.crnd = some crnd) :
    crnd < node.nextCrnd := by
  have positive := List.length_pos_iff.mpr several
  simp only [nextCrnd, present]
  omega

theorem nextCrnd_mod (node : Node V)
    (own : ∀ crnd, node.crnd = some crnd →
      crnd % node.nodes.keys.length = node.id % node.nodes.keys.length) :
    node.nextCrnd % node.nodes.keys.length =
      node.id % node.nodes.keys.length := by
  unfold nextCrnd
  split
  · rfl
  · next crnd present =>
      rw [Nat.add_mod_right]
      exact own crnd present

theorem Reacts.fixed [LinearOrder V] {node later : Node V} {sender : Address}
    {message : Message V} {effects : List (Effect V)}
    (reacts : node.Reacts sender message later effects) :
    later.id = node.id ∧ later.nodes = node.nodes ∧
      later.address = node.address ∧ later.omega = node.omega := by
  cases reacts <;> exact ⟨rfl, rfl, rfl, rfl⟩

end Node

namespace Network

variable {table : Dict ℕ Address} {network : Network V} {id other : ℕ}

/-- The members have one table, with an address of its own for each of them.
-/
structure Peered (table : Dict ℕ Address) (network : Network V) : Prop where
  distinct : ∀ id other address, table.lookup id = some address →
    table.lookup other = some address → id = other
  id : ∀ id ∈ table.keys, (network.nodes id).id = id
  nodes : ∀ id ∈ table.keys, (network.nodes id).nodes = table
  address : ∀ id ∈ table.keys,
    table.lookup id = some (network.nodes id).address

/-- The network as it is set up: nothing happened yet. -/
structure Begins (table : Dict ℕ Address) (network : Network V) : Prop
    extends Peered table network where
  fresh : ∀ id ∈ table.keys, ∃ omega address,
    network.nodes id = Node.new id table omega address
  log : network.log = []

/-- The ids are the numbers from one on. -/
def Numbered (table : Dict ℕ Address) : Prop :=
  ∀ id, id ∈ table.keys ↔ 1 ≤ id ∧ id ≤ table.keys.length

theorem eq_of_mod_eq {n : ℕ} (member : 1 ≤ id ∧ id ≤ n)
    (known : 1 ≤ other ∧ other ≤ n) (same : id % n = other % n) :
    id = other := by
  obtain ⟨lower, upper⟩ := member
  obtain ⟨lower', upper'⟩ := known
  rcases Nat.eq_or_lt_of_le upper with last | before
  · rcases Nat.eq_or_lt_of_le upper' with last' | before'
    · omega
    · rw [last, Nat.mod_self, Nat.mod_eq_of_lt before'] at same
      omega
  · rcases Nat.eq_or_lt_of_le upper' with last' | before'
    · rw [last', Nat.mod_self, Nat.mod_eq_of_lt before] at same
      omega
    · rw [Nat.mod_eq_of_lt before, Nat.mod_eq_of_lt before'] at same
      exact same

/-- A message comes to a member: TRUST or TRUST-VALUE from outside, any other
one because it was sent there. -/
def Reaches (table : Dict ℕ Address) (network : Network V)
    (action : Action V) : Prop :=
  action.id ∈ table.keys ∧
    (action.message.trusted? ≠ none ∨
      ⟨action.sender, (network.nodes action.id).address, action.message⟩ ∈
        network.packets)

def peers [LinearOrder V] (table : Dict ℕ Address) :
    System (Network V) (Action V) :=
  { Enabled := Reaches table
    step := step }

instance [DecidableEq V] (table : Dict ℕ Address) (network : Network V)
    (action : Action V) : Decidable (Reaches table network action) :=
  inferInstanceAs (Decidable (_ ∧ (_ ∨ _)))

instance [LinearOrder V] (table : Dict ℕ Address) (network : Network V)
    (actions : List (Action V)) :
    Decidable ((peers table).Run network actions) :=
  inferInstanceAs (Decidable (System.Each (peers table) (Reaches table)
    network actions))

theorem step_reacts [LinearOrder V] (network : Network V)
    (action : Action V) : ∃ node effects,
      (network.nodes action.id).Reacts action.sender action.message node
        effects ∧
      network.step action = network.put action.id node effects :=
  ⟨_, _, Node.receive_reacts .., rfl⟩

/-- A network with an odd number of nodes is one of these. -/
theorem Formed.peered {f : ℕ} (formed : network.Formed f table) :
    network.Peered table where
  distinct := formed.distinct
  id := fun id member => formed.id id ((formed.keys id).mp member)
  nodes := fun id member => formed.nodes id ((formed.keys id).mp member)
  address := fun id member => formed.address id ((formed.keys id).mp member)

namespace Begins

theorem silent (begins : network.Begins table) (packet : Packet V) :
    packet ∉ network.packets := by
  intro sent
  rw [packets, begins.log] at sent
  cases sent

theorem unpromised (begins : network.Begins table) (src : Address) (n : ℕ)
    (vrnd : Option ℕ) (vval : Option V) :
    ¬ network.Promised src n vrnd vval := by
  rintro ⟨dst, sent⟩
  exact begins.silent _ sent

theorem unproposed (begins : network.Begins table) (n : ℕ) (v : Option V) :
    ¬ network.Proposed n v := by
  rintro ⟨src, dst, sent⟩
  exact begins.silent _ sent

theorem unheard (begins : network.Begins table) (member : id ∈ table.keys) :
    (network.nodes id).crnd = none ∧ (network.nodes id).mv = ∅ := by
  obtain ⟨omega, address, fresh⟩ := begins.fresh id member
  rw [fresh]
  exact ⟨rfl, rfl⟩

end Begins

theorem Starts.begins {f : ℕ} (starts : network.Starts f table) :
    network.Begins table where
  toPeered := starts.peered
  fresh := fun id member => starts.fresh id ((starts.keys id).mp member)
  log := starts.log

namespace Peered

/-- A node knows the address of another one by its id, or as that of Ω. -/
private theorem getId_eq (peered : network.Peered table)
    (member : id ∈ table.keys) (known : other ∈ table.keys) :
    (some (network.nodes other).address = (network.nodes id).omega ∧
      (network.nodes id).getId (network.nodes other).address =
        Sum.inrₗ "Ω") ∨
    (some (network.nodes other).address ≠ (network.nodes id).omega ∧
      (network.nodes id).getId (network.nodes other).address =
        Sum.inlₗ other) := by
  unfold Node.getId
  split
  · next omega => exact .inl ⟨omega, rfl⟩
  · next notOmega =>
      refine .inr ⟨notOmega, ?_⟩
      rw [peered.nodes id member]
      have present := Dict.mem_keysOf.mpr (peered.address other known)
      cases found : (table.keysOf (network.nodes other).address).head? with
      | none =>
          rw [List.head?_eq_none_iff.mp found] at present
          cases present
      | some first =>
          have lookup := Dict.mem_keysOf.mp (List.mem_of_head? found)
          rw [peered.distinct first other _ lookup
            (peered.address other known)]

theorem address_inj (peered : network.Peered table)
    (member : id ∈ table.keys) (known : other ∈ table.keys)
    (same : (network.nodes id).address = (network.nodes other).address) :
    id = other := by
  have first := peered.address id member
  rw [same] at first
  exact peered.distinct id other _ first (peered.address other known)

theorem getId_inj (peered : network.Peered table) {first second : ℕ}
    (member : id ∈ table.keys) (left : first ∈ table.keys)
    (right : second ∈ table.keys)
    (same : (network.nodes id).getId (network.nodes first).address =
      (network.nodes id).getId (network.nodes second).address) :
    first = second := by
  rcases peered.getId_eq member left with ⟨omega, name⟩ | ⟨-, name⟩
  · rcases peered.getId_eq member right with ⟨omega', -⟩ | ⟨-, name'⟩
    · have address := omega.trans omega'.symm
      exact peered.address_inj left right (Option.some.inj address)
    · rw [name, name'] at same
      cases same
  · rcases peered.getId_eq member right with ⟨-, name'⟩ | ⟨-, name'⟩
    · rw [name, name'] at same
      cases same
    · rw [name, name'] at same
      exact Sum.inl.inj same

theorem failureNodes (peered : network.Peered table)
    (member : id ∈ table.keys) :
    (network.nodes id).failureNodes = (table.keys.length - 1) / 2 := by
  rw [Node.failureNodes, peered.nodes id member]

theorem put (peered : network.Peered table) {node : Node V}
    {effects : List (Effect V)} (sameId : node.id = (network.nodes id).id)
    (nodes : node.nodes = (network.nodes id).nodes)
    (address : node.address = (network.nodes id).address) :
    (network.put id node effects).Peered table := by
  constructor
  · exact peered.distinct
  · intro other member
    rw [field_put Node.id sameId]
    exact peered.id other member
  · intro other member
    rw [field_put Node.nodes nodes]
    exact peered.nodes other member
  · intro other member
    rw [field_put Node.address address]
    exact peered.address other member

theorem react [LinearOrder V] (peered : network.Peered table)
    {sender : Address} {message : Message V} {node : Node V}
    {effects : List (Effect V)}
    (reacts : (network.nodes id).Reacts sender message node effects) :
    (network.put id node effects).Peered table := by
  obtain ⟨sameId, nodes, address, -⟩ := reacts.fixed
  exact peered.put sameId nodes address

end Peered

end Network

end SwitchPaxos.Insane

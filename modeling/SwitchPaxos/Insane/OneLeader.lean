import SwitchPaxos.Insane.Repeats
import SwitchPaxos.Insane.Validity

/-!
# One leader

As long as every TRUST names the same member, no other one has rounds of its
own.  Nothing is then in the way of the last round: once all messages have
arrived, every member voted in it and learned its value.
-/

namespace SwitchPaxos.Insane

deriving instance DecidableEq for Action

variable {V : Type}

namespace Node

variable [LinearOrder V] (node : Node V) (sender : Address)

theorem le_rnd_receive (n : ℕ) :
    n ≤ (receive sender (.prepare n) node).state.rnd := by
  rw [receive, onPrepare_apply]
  split
  · exact le_rfl
  · next before => exact Nat.le_of_not_lt before

/-- A node votes when an ACCEPT comes, or is in a later round, or voted in
this one before. -/
theorem receive_accept (n : ℕ) (v : Option V) :
    n < (receive sender (.accept n v) node).state.rnd ∨
      node.vrnd = some n ∨
      .accepted n v ∈ (receive sender (.accept n v) node).effects := by
  rw [receive, onAccept_apply]
  split
  · exact .inr (.inr List.mem_cons_self)
  · next declined =>
      by_cases before : node.rnd ≤ n
      · right
        left
        by_contra other
        exact declined ⟨before, other⟩
      · exact .inl (Nat.lt_of_not_le before)

theorem receive_learn (n : ℕ) (v : Option V) :
    (receive sender (.learn n v) node).state.values.lookup n ≠ none := by
  rw [receive, onLearn_apply]
  split
  · simp
  · next known => exact known

theorem receive_trusted {message : Message V}
    (named : message.trusted? = some node.id) :
    (receive sender message node).state.crnd ≠ none := by
  cases message with
  | trust c =>
      cases named
      rw [receive, onTrust_apply]
      exact Option.some_ne_none _
  | trustValue c v =>
      cases named
      rw [receive, onTrustValue_apply]
      exact Option.some_ne_none _
  | _ => cases named

variable {node sender} {later : Node V} {message : Message V}
  {effects : List (Effect V)}

theorem Reacts.rnd_le (reacts : node.Reacts sender message later effects) :
    node.rnd ≤ later.rnd := by
  cases reacts with
  | promised n after => exact after.le
  | voted n v current => exact current
  | _ => exact le_rfl

theorem Reacts.knows (reacts : node.Reacts sender message later effects)
    {n : ℕ} (known : node.values.lookup n ≠ none) :
    later.values.lookup n ≠ none := by
  cases reacts with
  | learned m v =>
      rw [Dict.lookup_insert_eq]
      split
      · exact Option.some_ne_none v
      · exact known
  | _ => exact known

theorem Reacts.leads (reacts : node.Reacts sender message later effects)
    (leads : node.crnd ≠ none) : later.crnd ≠ none := by
  cases reacts with
  | trusted => exact Option.some_ne_none _
  | _ => exact leads

end Node

namespace Network

variable {table : Dict ℕ Address} {network : Network V} {id n : ℕ}
  {node : Node V} {effects : List (Effect V)}

/-- Members tell all of them what they tell one, but for promises; they tell of
each vote, and vote for what was proposed. -/
structure Shares (table : Dict ℕ Address) (network : Network V) : Prop where
  peered : network.Peered table
  sender : ∀ packet ∈ network.packets, ∃ id ∈ table.keys,
    packet.src = (network.nodes id).address
  shared : ∀ src dst message, ⟨src, dst, message⟩ ∈ network.packets →
    message.promised? = none → ∀ id ∈ table.keys,
      ⟨src, (network.nodes id).address, message⟩ ∈ network.packets
  told : ∀ id n v, network.Voted id n v →
    ∃ src dst, ⟨src, dst, .learn n v⟩ ∈ network.packets
  proposed : ∀ id n v, network.Voted id n v → network.Proposed n v
  last : ∀ id ∈ table.keys, ∀ n, (network.nodes id).vrnd = some n →
    network.Voted id n (network.nodes id).vval

theorem Peered.mem_broadcast (peered : network.Peered table)
    (member : id ∈ table.keys) {other : ℕ} (known : other ∈ table.keys)
    (message : Message V) :
    .sent ⟨(network.nodes id).address, (network.nodes other).address,
      message⟩ ∈ (network.nodes id).broadcast message := by
  have lookup := peered.address other known
  rw [← peered.nodes id member] at lookup
  exact List.mem_map_of_mem (Dict.mem_values.mpr ⟨other, lookup⟩)

theorem Begins.shares (begins : network.Begins table) :
    network.Shares table := by
  refine ⟨begins.toPeered, ?_, ?_, ?_, ?_, ?_⟩
  · exact fun packet sent => absurd sent (begins.silent packet)
  · exact fun src dst message sent => absurd sent (begins.silent _)
  · intro id n v voted
    rw [Voted, begins.log] at voted
    cases voted
  · intro id n v voted
    rw [Voted, begins.log] at voted
    cases voted
  · intro id member n present
    obtain ⟨omega, address, fresh⟩ := begins.fresh id member
    rw [fresh] at present
    cases present

/-- What a handler at a member adds to what the members share. -/
structure Tells (table : Dict ℕ Address) (network : Network V) (id : ℕ)
    (node : Node V) (effects : List (Effect V)) : Prop where
  own : ∀ packet, .sent packet ∈ effects →
    packet.src = (network.nodes id).address
  shared : ∀ src dst message, .sent ⟨src, dst, message⟩ ∈ effects →
    message.promised? = none → ∀ other ∈ table.keys,
      .sent ⟨src, (network.nodes other).address, message⟩ ∈ effects
  voted : ∀ n v, .accepted n v ∈ effects →
    (∃ src dst, .sent ⟨src, dst, .learn n v⟩ ∈ effects) ∧
      network.Proposed n v
  last : ∀ n, node.vrnd = some n →
    network.Voted id n node.vval ∨ .accepted n node.vval ∈ effects

theorem Tells.shares (tells : network.Tells table id node effects)
    (shares : network.Shares table) (member : id ∈ table.keys)
    (address : node.address = (network.nodes id).address)
    (peered : (network.put id node effects).Peered table) :
    (network.put id node effects).Shares table := by
  have addresses : ∀ other,
      ((network.put id node effects).nodes other).address =
        (network.nodes other).address :=
    fun other => field_put Node.address address
  refine ⟨peered, ?_, ?_, ?_, ?_, ?_⟩
  · intro packet sent
    simp only [addresses]
    rcases (mem_packets_put ..).mp sent with earlier | new
    · exact shares.sender packet earlier
    · exact ⟨id, member, tells.own packet new⟩
  · intro src dst message sent toAll other known
    rw [addresses]
    apply (mem_packets_put ..).mpr
    rcases (mem_packets_put ..).mp sent with earlier | new
    · exact .inl (shares.shared src dst message earlier toAll other known)
    · exact .inr (tells.shared src dst message new toAll other known)
  · intro other n v voted
    rcases (voted_put ..).mp voted with earlier | ⟨-, new⟩
    · obtain ⟨src, dst, sent⟩ := shares.told other n v earlier
      exact ⟨src, dst, (mem_packets_put ..).mpr (.inl sent)⟩
    · obtain ⟨src, dst, sent⟩ := (tells.voted n v new).1
      exact ⟨src, dst, (mem_packets_put ..).mpr (.inr sent)⟩
  · intro other n v voted
    rcases (voted_put ..).mp voted with earlier | ⟨-, new⟩
    · exact (shares.proposed other n v earlier).put
    · exact (tells.voted n v new).2.put
  · intro other known n present
    rw [nodes_put] at present ⊢
    apply (voted_put ..).mpr
    split
    · next here =>
        rw [if_pos here] at present
        subst here
        exact (tells.last n present).imp_right fun new => ⟨rfl, new⟩
    · next elsewhere =>
        rw [if_neg elsewhere] at present
        exact .inl (shares.last other known n present)

/-- A node that tells all members the same, and does not vote. -/
theorem Shares.tells_broadcast (shares : network.Shares table)
    (member : id ∈ table.keys) (message : Message V)
    (vrnd : node.vrnd = (network.nodes id).vrnd)
    (vval : node.vval = (network.nodes id).vval) :
    network.Tells table id node ((network.nodes id).broadcast message) := by
  refine ⟨?_, ?_, ?_, ?_⟩
  · intro packet sent
    obtain ⟨dst, -, same⟩ := List.mem_map.mp sent
    cases same
    rfl
  · intro src dst message' sent toAll other known
    obtain ⟨dst', -, same⟩ := List.mem_map.mp sent
    cases same
    exact shares.peered.mem_broadcast member known message
  · intro n v voted
    obtain ⟨dst, -, same⟩ := List.mem_map.mp voted
    cases same
  · intro n present
    rw [vrnd] at present
    rw [vval]
    exact .inl (shares.last id member n present)

theorem Shares.tells_nothing (shares : network.Shares table)
    (member : id ∈ table.keys)
    (vrnd : node.vrnd = (network.nodes id).vrnd)
    (vval : node.vval = (network.nodes id).vval) :
    network.Tells table id node [] := by
  refine ⟨nofun, nofun, nofun, ?_⟩
  intro n present
  rw [vrnd] at present
  rw [vval]
  exact .inl (shares.last id member n present)

theorem Shares.react [LinearOrder V] (shares : network.Shares table)
    {sender : Address} {message : Message V}
    (reaches : Reaches table network ⟨id, sender, message⟩)
    (reacts : (network.nodes id).Reacts sender message node effects) :
    (network.put id node effects).Shares table := by
  have member : id ∈ table.keys := reaches.1
  have peered := shares.peered.react reacts
  obtain ⟨-, -, address, -⟩ := reacts.fixed
  suffices tells : network.Tells table id node effects from
    tells.shares shares member address peered
  cases reacts with
  | ignored => exact shares.tells_nothing member rfl rfl
  | learned => exact shares.tells_nothing member rfl rfl
  | wished => exact shares.tells_nothing member rfl rfl
  | trusted => exact shares.tells_broadcast member _ rfl rfl
  | collected n vrnd vval present =>
      split
      · exact shares.tells_broadcast member _ rfl rfl
      · exact shares.tells_nothing member rfl rfl
  | promised n later =>
      refine ⟨?_, ?_, ?_, ?_⟩
      · intro packet sent
        cases List.mem_singleton.mp sent
        rfl
      · intro src dst message sent toAll
        cases List.mem_singleton.mp sent
        cases toAll
      · intro m v voted
        cases List.mem_singleton.mp voted
      · exact fun m present => .inl (shares.last id member m present)
  | voted n v current =>
      have told : network.Tells table id (network.nodes id)
          ((network.nodes id).broadcast (.learn n v)) :=
        shares.tells_broadcast member _ rfl rfl
      refine ⟨?_, ?_, ?_, ?_⟩
      · intro packet sent
        rcases List.mem_cons.mp sent with same | report
        · cases same
        · exact told.own packet report
      · intro src dst message sent toAll other known
        rcases List.mem_cons.mp sent with same | report
        · cases same
        · exact List.mem_cons_of_mem _
            (told.shared src dst message report toAll other known)
      · intro m w voted
        rcases List.mem_cons.mp voted with same | report
        · cases same
          refine ⟨⟨_, _, List.mem_cons_of_mem _
            (shares.peered.mem_broadcast member member _)⟩, ?_⟩
          rcases reaches.2 with outside | sent
          · exact absurd rfl outside
          · exact ⟨_, _, sent⟩
        · exact absurd report (by simp [Node.broadcast])
      · intro m present
        cases present
        exact .inr List.mem_cons_self

/-- The member has promised in the round it is in, or something was proposed
there. -/
def Answered (network : Network V) (leader : ℕ) (node : Node V) : Prop :=
  (∃ vrnd vval, ⟨node.address, (network.nodes leader).address,
    .promise node.rnd vrnd vval⟩ ∈ network.packets) ∨
  ∃ v, network.Proposed node.rnd v

/-- Only the leader has rounds of its own, and nobody is ahead of it.  It asked
in its round, and proposed there once it had enough promises. -/
structure Follows (table : Dict ℕ Address) (leader : ℕ)
    (network : Network V) : Prop where
  idle : ∀ id ∈ table.keys, id ≠ leader → (network.nodes id).crnd = none
  behind : ∀ id ∈ table.keys,
    (network.nodes id).rnd ≤ (network.nodes leader).crnd.getD 0
  positive : ∀ n, (network.nodes leader).crnd = some n → 0 < n
  asked : ∀ n, (network.nodes leader).crnd = some n →
    ∃ src dst, ⟨src, dst, .prepare n⟩ ∈ network.packets
  answered : ∀ id ∈ table.keys, 0 < (network.nodes id).rnd →
    network.Answered leader (network.nodes id)
  made : ∀ n, (network.nodes leader).crnd = some n →
    (network.nodes leader).failureNodes < (network.nodes leader).mv.card →
    ∃ v, network.Proposed n v

variable {leader : ℕ}

theorem Begins.follows (begins : network.Begins table)
    (member : leader ∈ table.keys) : network.Follows table leader := by
  have unheard := (begins.unheard member).1
  have unmoved : ∀ id ∈ table.keys, (network.nodes id).rnd = 0 := by
    intro id known
    obtain ⟨omega, address, fresh⟩ := begins.fresh id known
    rw [fresh]
    rfl
  refine ⟨fun id known _ => (begins.unheard known).1, ?_, ?_, ?_, ?_, ?_⟩
  · intro id known
    rw [unmoved id known]
    exact Nat.zero_le _
  · intro n present
    cases unheard.symm.trans present
  · intro n present
    cases unheard.symm.trans present
  · intro id known moved
    rw [unmoved id known] at moved
    cases moved
  · intro n present
    cases unheard.symm.trans present

theorem Answered.put (answered : network.Answered leader node)
    {later : Node V} (address : later.address = (network.nodes id).address) :
    (network.put id later effects).Answered leader node := by
  rcases answered with ⟨vrnd, vval, sent⟩ | ⟨v, proposed⟩
  · left
    refine ⟨vrnd, vval, ?_⟩
    rw [field_put Node.address address]
    exact (mem_packets_put ..).mpr (.inl sent)
  · exact .inr ⟨v, proposed.put⟩

namespace Follows

theorem put (follows : network.Follows table leader)
    (address : node.address = (network.nodes id).address)
    (nodes : node.nodes = (network.nodes id).nodes)
    (crnd : node.crnd = (network.nodes id).crnd)
    (behind : node.rnd ≤ (network.nodes leader).crnd.getD 0)
    (answered : 0 < node.rnd →
      (network.put id node effects).Answered leader node)
    (made : ∀ n, node.crnd = some n → node.failureNodes < node.mv.card →
      (node.mv = (network.nodes id).mv ∨
        ∃ v, (network.put id node effects).Proposed n v)) :
    (network.put id node effects).Follows table leader := by
  have rounds : ∀ other, ((network.put id node effects).nodes other).crnd =
      (network.nodes other).crnd :=
    fun other => field_put Node.crnd crnd
  have failures : ∀ other,
      ((network.put id node effects).nodes other).failureNodes =
        (network.nodes other).failureNodes := by
    intro other
    apply field_put Node.failureNodes
    rw [Node.failureNodes, nodes, Node.failureNodes]
  refine ⟨?_, ?_, ?_, ?_, ?_, ?_⟩
  · intro other known elsewhere
    rw [rounds]
    exact follows.idle other known elsewhere
  · intro other known
    rw [rounds, nodes_put]
    split
    · exact behind
    · exact follows.behind other known
  · intro n present
    rw [rounds] at present
    exact follows.positive n present
  · intro n present
    rw [rounds] at present
    obtain ⟨src, dst, sent⟩ := follows.asked n present
    exact ⟨src, dst, (mem_packets_put ..).mpr (.inl sent)⟩
  · intro other known moved
    rw [nodes_put] at moved ⊢
    split
    · next here =>
        rw [if_pos here] at moved
        exact answered moved
    · next elsewhere =>
        rw [if_neg elsewhere] at moved
        exact (follows.answered other known moved).put address
  · intro n present enough
    rw [failures] at enough
    rw [nodes_put] at present enough
    split at present
    · next here =>
        subst here
        rw [if_pos rfl] at enough
        have same : node.failureNodes = (network.nodes leader).failureNodes :=
          by rw [Node.failureNodes, nodes, Node.failureNodes]
        rcases made n present (same ▸ enough) with before | proposed
        · rw [before] at enough
          rw [crnd] at present
          exact (follows.made n present enough).imp fun _ => Proposed.put
        · exact proposed
    · next elsewhere =>
        rw [if_neg elsewhere] at enough
        exact (follows.made n present enough).imp fun _ => Proposed.put

theorem stay (follows : network.Follows table leader)
    (member : id ∈ table.keys)
    (address : node.address = (network.nodes id).address)
    (nodes : node.nodes = (network.nodes id).nodes)
    (crnd : node.crnd = (network.nodes id).crnd)
    (rnd : node.rnd = (network.nodes id).rnd)
    (made : ∀ n, node.crnd = some n → node.failureNodes < node.mv.card →
      (node.mv = (network.nodes id).mv ∨
        ∃ v, (network.put id node effects).Proposed n v)) :
    (network.put id node effects).Follows table leader := by
  refine follows.put address nodes crnd ?_ ?_ made
  · rw [rnd]
    exact follows.behind id member
  · intro moved
    rw [rnd] at moved
    have before : (network.put id node effects).Answered leader
        (network.nodes id) := (follows.answered id member moved).put address
    rw [Answered, rnd, address]
    exact before

theorem prepared (follows : network.Follows table leader)
    (shares : network.Shares table) (answers : network.Answers table)
    {src dst : Address} (sent : ⟨src, dst, .prepare n⟩ ∈ network.packets) :
    src = (network.nodes leader).address ∧
      n ≤ (network.nodes leader).crnd.getD 0 := by
  obtain ⟨other, known, rfl⟩ := shares.sender _ sent
  obtain ⟨crnd, present, bound⟩ := answers.prepared other known dst n sent
  by_cases here : other = leader
  · subst here
    rw [present]
    exact ⟨rfl, bound⟩
  · cases (follows.idle other known here).symm.trans present

theorem proposed (follows : network.Follows table leader)
    (rounds : network.Rounds table) {v : Option V}
    (proposed : network.Proposed n v) :
    n ≤ (network.nodes leader).crnd.getD 0 := by
  obtain ⟨owner, known, -, crnd, present, bound⟩ := rounds.owned n v proposed
  by_cases here : owner = leader
  · subst here
    rw [present]
    exact bound
  · cases (follows.idle owner known here).symm.trans present

theorem trust (follows : network.Follows table leader)
    (peered : network.Peered table) (numbered : Numbered table)
    (member : leader ∈ table.keys)
    (address : node.address = (network.nodes leader).address)
    (rnd : node.rnd = (network.nodes leader).rnd)
    (crnd : node.crnd = some (network.nodes leader).nextCrnd)
    (mv : node.mv = ∅)
    (asks : effects = (network.nodes leader).broadcast
      (.prepare (network.nodes leader).nextCrnd)) :
    (network.put leader node effects).Follows table leader := by
  have several : 0 < (network.nodes leader).nodes.keys.length := by
    rw [peered.nodes leader member]
    exact List.length_pos_of_mem member
  have grows : (network.nodes leader).crnd.getD 0 ≤
      (network.nodes leader).nextCrnd := by
    cases present : (network.nodes leader).crnd with
    | none => exact Nat.zero_le _
    | some crnd =>
        exact (Node.lt_nextCrnd (List.length_pos_iff.mp several) present).le
  have moves : ∀ other, ((network.put leader node effects).nodes other).rnd =
      (network.nodes other).rnd :=
    fun other => field_put Node.rnd rnd
  refine ⟨?_, ?_, ?_, ?_, ?_, ?_⟩
  · intro other known elsewhere
    rw [nodes_put, if_neg elsewhere]
    exact follows.idle other known elsewhere
  · intro other known
    rw [moves, nodes_put_self, crnd]
    exact (follows.behind other known).trans grows
  · intro n present
    rw [nodes_put_self, crnd] at present
    cases present
    unfold Node.nextCrnd
    split
    · rw [peered.id leader member]
      exact ((numbered leader).mp member).1
    · exact Nat.add_pos_right _ several
  · intro n present
    rw [nodes_put_self, crnd] at present
    cases present
    rw [asks]
    exact ⟨_, _, (mem_packets_put ..).mpr
      (.inr (peered.mem_broadcast member member _))⟩
  · intro other known moved
    rw [moves] at moved
    have before : (network.put leader node effects).Answered leader
        (network.nodes other) :=
      (follows.answered other known moved).put address
    rw [Answered, moves, field_put Node.address address]
    exact before
  · intro n present enough
    rw [nodes_put_self, mv] at enough
    cases enough

theorem react [LinearOrder V] (follows : network.Follows table leader)
    (shares : network.Shares table) (answers : network.Answers table)
    (rounds : network.Rounds table) (numbered : Numbered table)
    {sender : Address} {message : Message V}
    (reaches : Reaches table network ⟨id, sender, message⟩)
    (only : ∀ c, message.trusted? = some c → c = leader)
    (reacts : (network.nodes id).Reacts sender message node effects) :
    (network.put id node effects).Follows table leader := by
  have member : id ∈ table.keys := reaches.1
  cases reacts with
  | ignored =>
      exact follows.stay member rfl rfl rfl rfl fun _ _ _ => .inl rfl
  | learned =>
      exact follows.stay member rfl rfl rfl rfl fun _ _ _ => .inl rfl
  | wished =>
      exact follows.stay member rfl rfl rfl rfl fun _ _ _ => .inl rfl
  | promised n later =>
      obtain ⟨rfl, bound⟩ := follows.prepared shares answers
        (reaches.2.resolve_left (absurd rfl))
      have kept : ∀ effects, ((network.put id
          { network.nodes id with rnd := n } effects).nodes leader).address =
            (network.nodes leader).address :=
        fun _ => field_put Node.address rfl
      refine follows.put rfl rfl rfl bound (fun _ => .inl ?_)
        fun _ _ _ => .inl rfl
      rw [kept]
      exact ⟨_, _, (mem_packets_put ..).mpr (.inr List.mem_cons_self)⟩
  | voted n v current =>
      have proposed : network.Proposed n v :=
        ⟨_, _, reaches.2.resolve_left (absurd rfl)⟩
      exact follows.put rfl rfl rfl (follows.proposed rounds proposed)
        (fun _ => .inr ⟨v, proposed.put⟩) fun _ _ _ => .inl rfl
  | collected n vrnd vval present =>
      refine follows.stay member rfl rfl rfl rfl ?_
      intro m again enough
      cases present.symm.trans again
      right
      by_cases now : ((network.nodes id).withPromise sender vrnd
        vval).enoughPromises
      · rw [if_pos now]
        exact ⟨_, shares.peered.proposed_broadcast member⟩
      · have grows : ((network.nodes id).withPromise sender vrnd vval).mv.card ≤
            (network.nodes id).mv.card + 1 := Finset.card_insert_le _ _
        have failures : ((network.nodes id).withPromise sender vrnd
            vval).failureNodes = (network.nodes id).failureNodes := rfl
        have before : (network.nodes id).failureNodes <
            (network.nodes id).mv.card := by
          unfold Node.enoughPromises at now
          omega
        have here : id = leader := by
          by_contra elsewhere
          cases (follows.idle id member elsewhere).symm.trans present
        subst here
        exact (follows.made n present before).imp fun _ => Proposed.put
  | trusted message v named =>
      have same : id = leader := by
        rw [← shares.peered.id id member]
        exact only _ named
      subst same
      exact follows.trust shares.peered numbered member rfl rfl rfl rfl rfl

end Follows

/-- The members dealt with what came to them. -/
structure Attends (leader : ℕ) (network : Network V)
    (actions : List (Action V)) : Prop where
  prepared : ∀ id src n, ⟨id, src, .prepare n⟩ ∈ actions →
    n ≤ (network.nodes id).rnd
  accepted : ∀ id src n v, ⟨id, src, .accept n v⟩ ∈ actions →
    n < (network.nodes id).rnd ∨ ∃ w, network.Voted id n w
  learned : ∀ id src n v, ⟨id, src, .learn n v⟩ ∈ actions →
    (network.nodes id).values.lookup n ≠ none
  trusted : ∀ src message, ⟨leader, src, message⟩ ∈ actions →
    message.trusted? = some leader → (network.nodes leader).crnd ≠ none

theorem Attends.step [LinearOrder V] {actions : List (Action V)}
    (attends : network.Attends leader actions)
    (shares : network.Shares table) {action : Action V}
    (reaches : Reaches table network action) :
    (network.step action).Attends leader (actions ++ [action]) := by
  obtain ⟨id, sender, message⟩ := action
  have member : id ∈ table.keys := reaches.1
  have reacts := Node.receive_reacts (network.nodes id) sender message
  refine ⟨?_, ?_, ?_, ?_⟩
  · intro other src n came
    rw [Network.step, nodes_put]
    rcases List.mem_append.mp came with earlier | new
    · have bound := attends.prepared other src n earlier
      split
      · next here =>
          subst here
          exact bound.trans reacts.rnd_le
      · exact bound
    · cases List.mem_singleton.mp new
      rw [if_pos rfl]
      exact Node.le_rnd_receive ..
  · intro other src n v came
    rw [Network.step, nodes_put]
    rcases List.mem_append.mp came with earlier | new
    · rcases attends.accepted other src n v earlier with beyond | ⟨w, voted⟩
      · left
        split
        · next here =>
            subst here
            exact beyond.trans_le reacts.rnd_le
        · exact beyond
      · exact .inr ⟨w, (voted_put ..).mpr (.inl voted)⟩
    · cases List.mem_singleton.mp new
      rw [if_pos rfl]
      rcases Node.receive_accept (network.nodes id) sender n v with
        beyond | before | votes
      · exact .inl beyond
      · exact .inr ⟨_, (voted_put ..).mpr
          (.inl (shares.last id member n before))⟩
      · exact .inr ⟨v, (voted_put ..).mpr (.inr ⟨rfl, votes⟩)⟩
  · intro other src n v came
    rw [Network.step, nodes_put]
    rcases List.mem_append.mp came with earlier | new
    · have known := attends.learned other src n v earlier
      split
      · next here =>
          subst here
          exact reacts.knows known
      · exact known
    · cases List.mem_singleton.mp new
      rw [if_pos rfl]
      exact Node.receive_learn (network.nodes id) sender n v
  · intro src message' came named
    rw [Network.step, nodes_put]
    rcases List.mem_append.mp came with earlier | new
    · have leads := attends.trusted src message' earlier named
      split
      · next here =>
          subst here
          exact reacts.leads leads
      · exact leads
    · cases List.mem_singleton.mp new
      rw [if_pos rfl]
      apply Node.receive_trusted
      rw [shares.peered.id leader member]
      exact named

theorem attends_nil : network.Attends leader [] :=
  ⟨nofun, nofun, nofun, nofun⟩

/-- Each TRUST and TRUST-VALUE names the leader. -/
def Trusts (leader : ℕ) (action : Action V) : Prop :=
  ∀ c ∈ action.message.trusted?, c = leader

instance (leader : ℕ) (action : Action V) :
    Decidable (Trusts leader action) :=
  inferInstanceAs (Decidable (∀ _ ∈ _, _))

/-- Each packet that was sent to a member has arrived there. -/
def Arrived (table : Dict ℕ Address) (network : Network V)
    (actions : List (Action V)) : Prop :=
  ∀ packet ∈ network.packets, ∀ id ∈ table.keys,
    packet.dst = (network.nodes id).address →
      ⟨id, packet.src, packet.message⟩ ∈ actions

instance [DecidableEq V] (table : Dict ℕ Address) (network : Network V)
    (actions : List (Action V)) :
    Decidable (network.Arrived table actions) :=
  inferInstanceAs (Decidable (∀ _ ∈ _, ∀ _ ∈ _, _ → _))

section Runs

variable [LinearOrder V] {actions : List (Action V)}

/-- All that holds along a run with one leader. -/
structure Led (table : Dict ℕ Address) (leader : ℕ) (network : Network V)
    (actions : List (Action V)) : Prop where
  hears : network.Hears table actions
  shares : network.Shares table
  rounds : network.Rounds table
  steady : network.Steady table
  filled : network.Filled table
  follows : network.Follows table leader
  attends : network.Attends leader actions

theorem Begins.led (begins : network.Begins table)
    (member : leader ∈ table.keys) : network.Led table leader [] where
  hears := begins.hears
  shares := begins.shares
  rounds := begins.rounds
  steady := begins.steady
  filled := begins.filled
  follows := begins.follows member
  attends := attends_nil

/-- Who is not the leader has no promises, whatever value it is told. -/
theorem Led.retains (led : network.Led table leader actions)
    {action : Action V} (reaches : Reaches table network action)
    (trusts : Trusts leader action) : network.Retains action := by
  obtain ⟨id, sender, message⟩ := action
  cases message with
  | trustValue c v =>
      intro other enough none
      have elsewhere : id ≠ leader := by
        intro here
        apply other
        rw [trusts c rfl, ← here]
        exact (led.rounds.peered.id id reaches.1).symm
      have idle := led.follows.idle id reaches.1 elsewhere
      have empty := led.filled.idle id reaches.1 idle
      have few : (network.nodes id).mv.card = _ + 1 := enough
      rw [empty] at few
      cases few
  | _ => trivial

theorem Led.step (led : network.Led table leader actions)
    (numbered : Numbered table) {action : Action V}
    (reaches : Reaches table network action)
    (trusts : Trusts leader action) :
    (network.step action).Led table leader (actions ++ [action]) where
  hears := led.hears.step reaches
  shares := led.shares.react reaches (Node.receive_reacts ..)
  rounds := led.rounds.step numbered reaches
  steady := led.steady.step led.rounds numbered reaches
    (led.retains reaches trusts)
  filled := led.filled.step led.rounds.peered reaches
  follows := led.follows.react led.shares led.hears.answers led.rounds
    numbered reaches trusts (Node.receive_reacts ..)
  attends := led.attends.step led.shares reaches

theorem led_of_run (numbered : Numbered table) (begins : network.Begins table)
    (member : leader ∈ table.keys)
    (run : (peers table).Run network actions)
    (trusts : ∀ action ∈ actions, Trusts leader action) :
    ((peers table).after network actions).Led table leader actions := by
  induction actions using List.reverseRecOn with
  | nil => exact begins.led member
  | append_singleton actions action induction =>
      obtain ⟨earlier, reaches⟩ := System.each_snoc.mp run
      have before := induction earlier fun other known =>
        trusts other (List.mem_append_left _ known)
      rw [System.after_append]
      exact before.step numbered reaches (trusts action (by simp))

namespace Led

/-- Once everything has arrived, all members are in the round of the leader.
-/
theorem rnd_eq (led : network.Led table leader actions)
    (arrived : network.Arrived table actions)
    (present : (network.nodes leader).crnd = some n)
    (member : id ∈ table.keys) : (network.nodes id).rnd = n := by
  obtain ⟨src, dst, sent⟩ := led.follows.asked n present
  have came := arrived _
    (led.shares.shared src dst _ sent rfl id member) id member rfl
  have lower := led.attends.prepared id src n came
  have upper := led.follows.behind id member
  rw [present] at upper
  exact Nat.le_antisymm upper lower

/-- Then the leader proposed in its round: it has all promises. -/
theorem proposes (led : network.Led table leader actions)
    (arrived : network.Arrived table actions)
    (member : leader ∈ table.keys)
    (present : (network.nodes leader).crnd = some n) :
    ∃ v, network.Proposed n v := by
  by_contra nothing
  have promised : ∀ id ∈ table.keys,
      id ∈ promisers table actions leader n := by
    intro id known
    have here := led.rnd_eq arrived present known
    have positive := led.follows.positive n present
    rw [← here] at positive
    rcases led.follows.answered id known positive with
      ⟨vrnd, vval, sent⟩ | proposed
    · rw [here] at sent
      exact led.hears.mem_promisers.mpr
        ⟨known, vrnd, vval, arrived _ sent leader member rfl⟩
    · rw [here] at proposed
      exact absurd proposed nothing
  apply nothing
  apply led.follows.made n present
  rw [← led.hears.card_promisers member present,
    led.rounds.peered.failureNodes member]
  have all : table.keys.toFinset ⊆ promisers table actions leader n :=
    fun id known => promised id (List.mem_toFinset.mp known)
  have bound := Finset.card_le_card all
  rw [List.toFinset_card_of_nodup (AList.keys_nodup table)] at bound
  have several := List.length_pos_of_mem member
  omega

theorem voted (led : network.Led table leader actions)
    (arrived : network.Arrived table actions)
    (present : (network.nodes leader).crnd = some n) {v : Option V}
    (proposed : network.Proposed n v) (member : id ∈ table.keys) :
    network.Voted id n v := by
  obtain ⟨src, dst, sent⟩ := proposed
  have came := arrived _
    (led.shares.shared src dst _ sent rfl id member) id member rfl
  rcases led.attends.accepted id src n v came with beyond | ⟨w, voted⟩
  · rw [led.rnd_eq arrived present member] at beyond
    exact absurd beyond (Nat.lt_irrefl n)
  · rw [led.steady.unique n v w ⟨src, dst, sent⟩
      (led.shares.proposed id n w voted)]
    exact voted

theorem learned (led : network.Led table leader actions)
    (witnessed : network.Witnessed table)
    (arrived : network.Arrived table actions) {voter : ℕ} {v : Option V}
    (voted : network.Voted voter n v) (member : id ∈ table.keys) :
    (network.nodes id).values.lookup n = some v := by
  obtain ⟨src, dst, sent⟩ := led.shares.told voter n v voted
  have came := arrived _
    (led.shares.shared src dst _ sent rfl id member) id member rfl
  have known := led.attends.learned id src n v came
  obtain ⟨w, known⟩ := Option.ne_none_iff_exists'.mp known
  obtain ⟨other, -, voted'⟩ := witnessed.learned id member n w known
  rw [led.steady.unique n v w (led.shares.proposed voter n v voted)
    (led.shares.proposed other n w voted')]
  exact known

/-- Then the last round of the leader is decided everywhere. -/
theorem decided (led : network.Led table leader actions)
    (witnessed : network.Witnessed table)
    (arrived : network.Arrived table actions)
    (member : leader ∈ table.keys)
    (leads : (network.nodes leader).crnd ≠ none) :
    ∃ n v, (network.nodes leader).crnd = some n ∧
      ∀ id ∈ table.keys, network.Voted id n v ∧
        (network.nodes id).values.lookup n = some v := by
  obtain ⟨n, present⟩ := Option.ne_none_iff_exists'.mp leads
  obtain ⟨v, proposed⟩ := led.proposes arrived member present
  have voted : ∀ id ∈ table.keys, network.Voted id n v :=
    fun id known => led.voted arrived present proposed known
  refine ⟨n, v, present, fun id known => ⟨voted id known, ?_⟩⟩
  exact led.learned witnessed arrived (voted leader member) known

end Led

/-- If every TRUST names one member, and at least one came to it, then all
members voted for and learned the same value in its last round once all
messages have arrived, in whatever order and however often they did; and the
value was asked for. -/
theorem all_learn (numbered : Numbered table) (begins : network.Begins table)
    (member : leader ∈ table.keys)
    (run : (peers table).Run network actions)
    (trusts : ∀ action ∈ actions, Trusts leader action)
    (trusted : ∃ action ∈ actions, action.id = leader ∧
      action.message.trusted? ≠ none)
    (arrived : ((peers table).after network actions).Arrived table actions) :
    let reached := (peers table).after network actions
    ∃ n v, Asked actions v ∧ (reached.nodes leader).crnd = some n ∧
      ∀ id ∈ table.keys, reached.Voted id n v ∧
        (reached.nodes id).values.lookup n = some v := by
  intro reached
  have led : reached.Led table leader actions :=
    led_of_run numbered begins member run trusts
  obtain ⟨⟨_, src, message⟩, came, rfl, named⟩ := trusted
  obtain ⟨c, named⟩ := Option.ne_none_iff_exists'.mp named
  have leads := led.attends.trusted src message came
    (by rw [named, trusts _ came c named])
  obtain ⟨n, v, present, decided⟩ :=
    led.decided (witnessed_of_run begins run) arrived member leads
  have asked := (genuine_of_run begins run).log _ (decided _ member).1
  exact ⟨n, v, asked, present, decided⟩

end Runs

/-- All messages of three nodes arrive once the first of them was trusted. -/
theorem all_learn_three :
    let actions : List (Action ℕ) :=
      [⟨1, ("127.0.0.1", 9), .trustValue 1 (some 5)⟩,
        ⟨1, ("127.0.0.1", 2001), .prepare 1⟩,
        ⟨2, ("127.0.0.1", 2001), .prepare 1⟩,
        ⟨1, ("127.0.0.1", 2001), .promise 1 none none⟩,
        ⟨1, ("127.0.0.1", 2002), .promise 1 none none⟩,
        ⟨3, ("127.0.0.1", 2001), .accept 1 (some 5)⟩,
        ⟨1, ("127.0.0.1", 2001), .accept 1 (some 5)⟩,
        ⟨3, ("127.0.0.1", 2001), .prepare 1⟩,
        ⟨2, ("127.0.0.1", 2001), .accept 1 (some 5)⟩] ++
        [1, 2, 3].flatMap fun id =>
          [⟨id, ("127.0.0.1", 2001), .learn 1 (some 5)⟩,
            ⟨id, ("127.0.0.1", 2002), .learn 1 (some 5)⟩,
            ⟨id, ("127.0.0.1", 2003), .learn 1 (some 5)⟩]
    let reached := (peers config).after three actions
    ∃ n v, Asked actions v ∧ (reached.nodes 1).crnd = some n ∧
      ∀ id ∈ config.keys, reached.Voted id n v ∧
        (reached.nodes id).values.lookup n = some v := by
  intro actions reached
  have run : (peers config).Run three actions := by decide +kernel
  have trusts : ∀ action ∈ actions, Trusts 1 action := by decide
  have arrived : reached.Arrived config actions := by decide +kernel
  exact all_learn numbered_config three_starts.begins (by decide) run trusts
    ⟨_, List.mem_cons_self, rfl, Option.some_ne_none 1⟩ arrived

end Network

end SwitchPaxos.Insane

import SwitchPaxos.Insane.Rounds

/-!
# Proposals and promises

The nodes are acceptors whose promises tell their last votes, and proposers
each of which has rounds of its own.  In a round a node proposes the value
that its first majority of promises determines, also when a promise that
arrives again makes it propose once more.
-/

namespace SwitchPaxos.Insane

namespace Network

variable {V : Type} {f : ℕ} {table : Dict ℕ Address} {network : Network V}

/-- `vrnd` and `vval` are the last vote of each node, a promise tells the last
vote of its sender, and a node sends one promise in a round. -/
structure Acceptors (f : ℕ) (network : Network V) : Prop where
  voters : ∀ id n v, network.Voted id n v → id ∈ ids f
  last : ∀ id ∈ ids f, network.ballots.LastVote id (network.nodes id).vrnd
    (network.nodes id).vval
  promised : ∀ src n vrnd vval, network.Promised src n vrnd vval →
    ∃ id ∈ ids f, src = (network.nodes id).address ∧
      network.ballots.Answered id n vrnd vval
  once : ∀ src n vrnd vval vrnd' vval', network.Promised src n vrnd vval →
    network.Promised src n vrnd' vval' → vrnd = vrnd' ∧ vval = vval'

/-- A node proposes in rounds of its own.  `mv` holds promises for the round
it is in; nothing is proposed there before they are a majority, and then what
they determine. -/
structure Proposers [LinearOrder V] (f : ℕ) (network : Network V) : Prop where
  owned : ∀ n v, network.Proposed n v → ∃ id ∈ ids f,
    n % (2 * f + 1) = id % (2 * f + 1) ∧
      ∃ crnd, (network.nodes id).crnd = some crnd ∧ n ≤ crnd
  own : ∀ id ∈ ids f, ∀ crnd, (network.nodes id).crnd = some crnd →
    crnd % (2 * f + 1) = id % (2 * f + 1)
  promises : ∀ id ∈ ids f, ∀ crnd, (network.nodes id).crnd = some crnd →
    ∀ entry ∈ (network.nodes id).mv, ∃ other ∈ ids f, ∃ vrnd vval,
      entry = triple vrnd vval
          ((network.nodes id).getId (network.nodes other).address) ∧
        network.Promised (network.nodes other).address crnd vrnd vval
  few : ∀ id ∈ ids f, ∀ crnd, (network.nodes id).crnd = some crnd →
    (network.nodes id).mv.card ≤ f → ∀ v, ¬ network.Proposed crnd v
  enough : ∀ id ∈ ids f, ∀ crnd, (network.nodes id).crnd = some crnd →
    (network.nodes id).mv.card = f + 1 →
      ∀ v, network.Proposed crnd v → v = (network.nodes id).cval

/-- The network is formed, its acceptors and proposers keep to the rules, and
so votes are for justified proposals, of which each round has one. -/
structure Sound [LinearOrder V] (f : ℕ) (table : Dict ℕ Address)
    (network : Network V) : Prop where
  formed : network.Formed f table
  acceptors : network.Acceptors f
  proposers : network.Proposers f
  consistent : network.ballots.Consistent (ids f)

namespace Formed

theorem mem_keys (formed : network.Formed f table) {id : ℕ}
    (member : id ∈ ids f) : id ∈ table.keys :=
  (formed.keys id).mpr member

theorem address_inj (formed : network.Formed f table) {id other : ℕ}
    (member : id ∈ ids f) (known : other ∈ ids f)
    (same : (network.nodes id).address = (network.nodes other).address) :
    id = other :=
  formed.peered.address_inj (formed.mem_keys member) (formed.mem_keys known)
    same

theorem length_keys (formed : network.Formed f table) :
    table.keys.length = 2 * f + 1 := by
  have same : table.keys.toFinset = ids f := by
    ext id
    rw [List.mem_toFinset, formed.keys]
  rw [← card_ids, ← same, List.toFinset_card_of_nodup (AList.keys_nodup table)]

theorem failureNodes (formed : network.Formed f table) {id : ℕ}
    (member : id ∈ ids f) : (network.nodes id).failureNodes = f := by
  rw [formed.peered.failureNodes (formed.mem_keys member),
    formed.length_keys]
  omega

theorem numbered (formed : network.Formed f table) : Numbered table := by
  intro id
  rw [formed.keys, formed.length_keys, mem_ids]

theorem enough_iff (formed : network.Formed f table) {id : ℕ}
    (member : id ∈ ids f) : (network.nodes id).enoughPromises ↔
      (network.nodes id).mv.card = f + 1 := by
  rw [Node.enoughPromises, formed.failureNodes member]

theorem put (formed : network.Formed f table) {id : ℕ} {node : Node V}
    {effects : List (Effect V)} (sameId : node.id = (network.nodes id).id)
    (nodes : node.nodes = (network.nodes id).nodes)
    (address : node.address = (network.nodes id).address) :
    (network.put id node effects).Formed f table := by
  have later : (network.put id node effects).Peered table :=
    formed.peered.put sameId nodes address
  exact ⟨formed.keys, later.distinct,
    fun id member => later.id id (formed.mem_keys member),
    fun id member => later.nodes id (formed.mem_keys member),
    fun id member => later.address id (formed.mem_keys member)⟩

end Formed

namespace Sound

variable [LinearOrder V]

theorem rounds (sound : network.Sound f table) : network.Rounds table := by
  have formed := sound.formed
  have proposers := sound.proposers
  refine ⟨formed.peered, ?_, ?_, ?_⟩
  · intro n v proposed
    obtain ⟨owner, known, remainder, held⟩ := proposers.owned n v proposed
    rw [formed.length_keys]
    exact ⟨owner, formed.mem_keys known, remainder, held⟩
  · intro id member crnd present
    rw [formed.length_keys]
    exact proposers.own id ((formed.keys id).mp member) crnd present
  · intro id member crnd present few
    have known := (formed.keys id).mp member
    rw [formed.failureNodes known] at few
    exact proposers.few id known crnd present few

theorem steady (sound : network.Sound f table) : network.Steady table := by
  refine ⟨?_, sound.consistent.unique⟩
  intro id member crnd present enough
  have known := (sound.formed.keys id).mp member
  exact sound.proposers.enough id known crnd present
    ((sound.formed.enough_iff known).mp enough)

end Sound

theorem Formed.proposers [LinearOrder V] (formed : network.Formed f table)
    (rounds : network.Rounds table) (steady : network.Steady table)
    (promises : ∀ id ∈ ids f, ∀ crnd, (network.nodes id).crnd = some crnd →
      ∀ entry ∈ (network.nodes id).mv, ∃ other ∈ ids f, ∃ vrnd vval,
        entry = triple vrnd vval
            ((network.nodes id).getId (network.nodes other).address) ∧
          network.Promised (network.nodes other).address crnd vrnd vval) :
    network.Proposers f := by
  refine ⟨?_, ?_, promises, ?_, ?_⟩
  · intro n v proposed
    obtain ⟨owner, known, remainder, held⟩ := rounds.owned n v proposed
    rw [formed.length_keys] at remainder
    exact ⟨owner, (formed.keys owner).mp known, remainder, held⟩
  · intro id member crnd present
    have own := rounds.own id (formed.mem_keys member) crnd present
    rw [formed.length_keys] at own
    exact own
  · intro id member crnd present few
    apply rounds.few id (formed.mem_keys member) crnd present
    rw [formed.failureNodes member]
    exact few
  · intro id member crnd present enough
    exact steady.enough id (formed.mem_keys member) crnd present
      ((formed.enough_iff member).mpr enough)

section Put

variable {id : ℕ} {node : Node V} {effects : List (Effect V)}

/-- A node does not fall back, and votes in its own round or a later one. -/
theorem extends_put (round : (network.nodes id).rnd ≤ node.rnd)
    (votes : ∀ n v, .accepted n v ∈ effects → (network.nodes id).rnd ≤ n) :
    network.ballots.Extends (network.put id node effects).ballots where
  round := by
    intro other
    simp only [ballots, nodes_put]
    split
    · next here =>
        subst here
        exact round
    · exact le_rfl
  kept := fun other n v voted => (voted_put ..).mpr (.inl voted)
  voted := by
    intro other n v voted
    rcases (voted_put ..).mp voted with earlier | ⟨rfl, new⟩
    · exact .inl earlier
    · exact .inr (votes n v new)
  proposed := fun n v proposed => proposed.put

variable [LinearOrder V]

/-- The nodes are acceptors after a step if the last vote of the node that took
it is known, and it promised at most what it knew, in a round after its own. -/
theorem Sound.acceptors_put (sound : network.Sound f table)
    (member : id ∈ ids f)
    (address : node.address = (network.nodes id).address)
    (grows : network.ballots.Extends (network.put id node effects).ballots)
    (last : (network.put id node effects).ballots.LastVote id node.vrnd
      node.vval)
    (promises : ∀ src dst n vrnd vval,
      .sent ⟨src, dst, .promise n vrnd vval⟩ ∈ effects →
      src = (network.nodes id).address ∧ (network.nodes id).rnd < n ∧
        vrnd = (network.nodes id).vrnd ∧ vval = (network.nodes id).vval ∧
        (network.put id node effects).ballots.Answered id n vrnd vval) :
    (network.put id node effects).Acceptors f := by
  have acceptors := sound.acceptors
  have addresses : ∀ other,
      ((network.put id node effects).nodes other).address =
        (network.nodes other).address :=
    fun other => field_put Node.address address
  -- A node does not promise in a round that it is in.
  have first : ∀ n vrnd vval, (network.nodes id).rnd < n →
      ¬ network.Promised (network.nodes id).address n vrnd vval := by
    intro n vrnd vval later earlier
    obtain ⟨other, known, same, bound, -⟩ :=
      acceptors.promised _ n vrnd vval earlier
    cases sound.formed.address_inj member known same
    exact Nat.not_le.mpr later bound
  constructor
  · intro other n v cast
    rcases (voted_put ..).mp cast with earlier | ⟨rfl, -⟩
    · exact acceptors.voters other n v earlier
    · exact member
  · intro other known
    rw [nodes_put]
    split
    · next here =>
        rw [here]
        exact last
    · next elsewhere =>
        apply (acceptors.last other known).mono grows
        intro n v cast
        rcases (voted_put ..).mp cast with earlier | ⟨here, -⟩
        · exact earlier
        · exact absurd here elsewhere
  · intro src n vrnd vval sent
    rcases promised_put sent with earlier | ⟨dst, new⟩
    · obtain ⟨other, known, own, answered⟩ :=
        acceptors.promised src n vrnd vval earlier
      refine ⟨other, known, ?_, answered.mono grows⟩
      rw [addresses]
      exact own
    · obtain ⟨own, -, -, -, answered⟩ := promises src dst n vrnd vval new
      refine ⟨id, member, ?_, answered⟩
      rw [addresses]
      exact own
  · intro src n vrnd vval vrnd' vval' left right
    rcases promised_put left with earlier | ⟨dst, new⟩
    · rcases promised_put right with earlier' | ⟨dst', new'⟩
      · exact acceptors.once src n vrnd vval vrnd' vval' earlier earlier'
      · obtain ⟨rfl, later, -⟩ := promises src dst' n vrnd' vval' new'
        exact absurd earlier (first n vrnd vval later)
    · obtain ⟨rfl, later, sameRound, sameValue, -⟩ :=
        promises src dst n vrnd vval new
      rcases promised_put right with earlier | ⟨dst', new'⟩
      · exact absurd earlier (first n vrnd' vval' later)
      · obtain ⟨-, -, sameRound', sameValue', -⟩ :=
          promises _ dst' n vrnd' vval' new'
        exact ⟨sameRound.trans sameRound'.symm,
          sameValue.trans sameValue'.symm⟩

theorem Sound.acceptors_keep (sound : network.Sound f table)
    (member : id ∈ ids f)
    (rnd : node.rnd = (network.nodes id).rnd)
    (vrnd : node.vrnd = (network.nodes id).vrnd)
    (vval : node.vval = (network.nodes id).vval)
    (address : node.address = (network.nodes id).address)
    (silent : ∀ n v, .accepted n v ∉ effects)
    (quiet : ∀ src dst n vrnd vval,
      .sent ⟨src, dst, .promise n vrnd vval⟩ ∉ effects) :
    (network.put id node effects).Acceptors f := by
  have grows : network.ballots.Extends
      (network.put id node effects).ballots :=
    extends_put rnd.ge fun n v new => absurd new (silent n v)
  refine sound.acceptors_put member address grows ?_
    fun src dst n vrnd vval new => absurd new (quiet src dst n vrnd vval)
  rw [vrnd, vval]
  exact (sound.acceptors.last id member).mono grows fun n v =>
    voted_of_silent silent

/-- The nodes are proposers after a step if their rounds and proposals are in
order and the promises of the node that took it were sent. -/
theorem Sound.proposers_put (sound : network.Sound f table)
    (formed : (network.put id node effects).Formed f table)
    (rounds : (network.put id node effects).Rounds table)
    (steady : (network.put id node effects).Steady table)
    (omega : node.omega = (network.nodes id).omega)
    (nodes : node.nodes = (network.nodes id).nodes)
    (address : node.address = (network.nodes id).address)
    (promises : ∀ crnd, node.crnd = some crnd → ∀ entry ∈ node.mv,
      ∃ other ∈ ids f, ∃ vrnd vval,
        entry = triple vrnd vval
            ((network.nodes id).getId (network.nodes other).address) ∧
          network.Promised (network.nodes other).address crnd vrnd vval) :
    (network.put id node effects).Proposers f := by
  have addresses : ∀ other,
      ((network.put id node effects).nodes other).address =
        (network.nodes other).address :=
    fun other => field_put Node.address address
  have names : ∀ other sender,
      ((network.put id node effects).nodes other).getId sender =
        (network.nodes other).getId sender := by
    intro other sender
    refine field_put (Node.getId sender) ?_
    simp only [Node.getId, omega, nodes]
  refine formed.proposers rounds steady ?_
  intro other member crnd present entry held
  have before : ∃ sender ∈ ids f, ∃ vrnd vval,
      entry = triple vrnd vval
          ((network.nodes other).getId (network.nodes sender).address) ∧
        network.Promised (network.nodes sender).address crnd vrnd vval := by
    rw [nodes_put] at present held
    split at present
    · next here =>
        rw [if_pos here] at held
        rw [here]
        exact promises crnd present entry held
    · next elsewhere =>
        rw [if_neg elsewhere] at held
        exact sound.proposers.promises other member crnd present entry held
  obtain ⟨sender, known, vrnd, vval, shape, promised⟩ := before
  refine ⟨sender, known, vrnd, vval, ?_, ?_⟩
  · rw [names, addresses]
    exact shape
  · rw [addresses]
    exact promised.put

theorem Sound.proposers_keep (sound : network.Sound f table)
    (member : id ∈ ids f)
    (formed : (network.put id node effects).Formed f table)
    (crnd : node.crnd = (network.nodes id).crnd)
    (mv : node.mv = (network.nodes id).mv)
    (v : node.v = (network.nodes id).v)
    (omega : node.omega = (network.nodes id).omega)
    (nodes : node.nodes = (network.nodes id).nodes)
    (address : node.address = (network.nodes id).address)
    (quiet : ∀ src dst n v, .sent ⟨src, dst, .accept n v⟩ ∉ effects) :
    (network.put id node effects).Proposers f := by
  have value : node.cval = (network.nodes id).cval := by
    simp only [Node.cval, Node.noPromisesWithValue, mv, v]
  refine sound.proposers_put formed
    (sound.rounds.put formed.peered crnd mv nodes quiet)
    (sound.steady.put crnd mv nodes (fun _ => value) quiet) omega nodes address
    ?_
  intro n present entry held
  rw [crnd] at present
  rw [mv] at held
  exact sound.proposers.promises id member n present entry held

end Put

end Network

end SwitchPaxos.Insane

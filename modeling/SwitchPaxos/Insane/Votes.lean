import SwitchPaxos.Insane.Proposals

/-!
# Votes and rounds

A handler that votes, promises or goes on to a new round keeps the rules of
acceptors and proposers.
-/

namespace SwitchPaxos.Insane

variable {V : Type}

theorem Triple.vrnd_le [LinearOrder V] {entry largest : Triple V}
    (below : entry ≤ largest) {n : ℕ} (voted : entry.vrnd = some n) :
    ∃ last, largest.vrnd = some last ∧ n ≤ last := by
  have rounds := Prod.Lex.monotone_fst entry largest below
  have round : (ofLex entry).1 = (n : WithBot ℕ) := voted
  rw [round] at rounds
  exact WithBot.coe_le_iff.mp rounds

/-- What a node picks is the value of an entry with the largest round. -/
theorem Node.cval_cases [LinearOrder V] {node : Node V}
    (nonempty : node.mv.Nonempty) :
    (∀ entry ∈ node.mv, entry.vrnd = none) ∨
      ∃ largest ∈ node.mv, ∃ last, largest.vrnd = some last ∧
        node.cval = largest.vval ∧
        ∀ entry ∈ node.mv, ∀ n, entry.vrnd = some n → n ≤ last := by
  by_cases none : node.noPromisesWithValue
  · exact .inl none
  · right
    cases found : (sorted node.mv).getLast? with
    | none =>
        obtain ⟨entry, member⟩ := nonempty
        have listed := mem_sorted.mpr member
        rw [List.getLast?_eq_none_iff.mp found] at listed
        cases listed
    | some largest =>
        obtain ⟨member, above⟩ := le_of_getLast?_sorted found
        have picked : node.cval = largest.vval := by
          rw [Node.cval, if_neg none, Node.pickLargest, found]
        simp only [Node.noPromisesWithValue, not_forall] at none
        obtain ⟨entry, held, voted⟩ := none
        obtain ⟨n, round⟩ := Option.ne_none_iff_exists'.mp voted
        obtain ⟨last, round, -⟩ := Triple.vrnd_le (above entry held) round
        refine ⟨largest, member, last, round, picked, ?_⟩
        intro other held n voted
        obtain ⟨last', round', bound⟩ := Triple.vrnd_le (above other held) voted
        cases round.symm.trans round'
        exact bound

namespace Network

variable [LinearOrder V] {f : ℕ} {table : Dict ℕ Address}
  {network : Network V} {id : ℕ}

namespace Sound

theorem idle (sound : network.Sound f table) :
    (network.put id (network.nodes id) []).Sound f table := by
  have same : network.put id (network.nodes id) [] = network := by
    simp [put]
  rw [same]
  exact sound

theorem consistent_put (sound : network.Sound f table)
    {node : Node V} {effects : List (Effect V)}
    (round : (network.nodes id).rnd ≤ node.rnd)
    (silent : ∀ n v, .accepted n v ∉ effects)
    (quiet : ∀ src dst n v, .sent ⟨src, dst, .accept n v⟩ ∉ effects) :
    (network.put id node effects).ballots.Consistent (ids f) := by
  apply sound.consistent.grow
    (extends_put round fun n v new => absurd new (silent n v))
  · exact fun other n v voted => .inl (voted_of_silent silent voted)
  · exact fun n v proposed => .inl (proposed_of_quiet quiet proposed)

section Acceptors

variable {node : Node V} {effects : List (Effect V)} {n : ℕ}

theorem acceptors_promise (sound : network.Sound f table)
    (member : id ∈ ids f) (later : (network.nodes id).rnd < n)
    {sender : Address} (moved : node = { network.nodes id with rnd := n })
    (promises : effects = [.sent ⟨(network.nodes id).address, sender,
      .promise n (network.nodes id).vrnd (network.nodes id).vval⟩]) :
    (network.put id node effects).Acceptors f := by
  have silent : ∀ m v, .accepted m v ∉ effects := by
    simp [promises]
  have grows : network.ballots.Extends
      (network.put id node effects).ballots := by
    apply extends_put
    · rw [moved]
      exact later.le
    · exact fun m v new => absurd new (silent m v)
  have last := sound.acceptors.last id member
  apply sound.acceptors_put member (by rw [moved]) grows
  · rw [moved]
    exact last.mono (moved ▸ grows) fun m v => voted_of_silent silent
  · intro src dst m vrnd vval new
    simp only [promises, List.mem_singleton, Effect.sent.injEq,
      Packet.mk.injEq, Message.promise.injEq] at new
    obtain ⟨rfl, -, rfl, rfl, rfl⟩ := new
    refine ⟨rfl, later, rfl, rfl, ?_⟩
    apply last.answered later grows fun n v => voted_of_silent silent
    simp only [ballots, nodes_put_self, moved]
    exact le_rfl

theorem acceptors_vote (sound : network.Sound f table)
    (member : id ∈ ids f) (current : (network.nodes id).rnd ≤ n)
    {v : Option V} (moved : node = { network.nodes id with
      rnd := n, vrnd := some n, vval := v })
    (votes : effects = .accepted n v ::
      (network.nodes id).broadcast (.learn n v)) :
    (network.put id node effects).Acceptors f := by
  have accepted : ∀ m w, .accepted m w ∈ effects ↔ m = n ∧ w = v := by
    simp [votes, Node.broadcast]
  have grows : network.ballots.Extends
      (network.put id node effects).ballots := by
    apply extends_put
    · rw [moved]
      exact current
    · intro m w new
      rw [((accepted m w).mp new).1]
      exact current
  apply sound.acceptors_put member (by rw [moved]) grows
  · have vote : (network.put id node effects).Voted id n v :=
      (voted_put ..).mpr (.inr ⟨rfl, (accepted n v).mpr ⟨rfl, rfl⟩⟩)
    have round : ((network.put id node effects).nodes id).rnd = n := by
      rw [nodes_put_self, moved]
    have vrnd : node.vrnd = some n := by rw [moved]
    have vval : node.vval = v := by rw [moved]
    rw [vrnd, vval]
    refine ⟨vote, round.ge, ?_⟩
    intro m w cast
    rcases (voted_put ..).mp cast with earlier | ⟨-, new⟩
    · exact ((sound.acceptors.last id member).le_round earlier).trans current
    · exact ((accepted m w).mp new).1.le
  · simp [votes, Node.broadcast]

end Acceptors

section Proposers

variable {node : Node V} {effects : List (Effect V)}

theorem proposers_trust (sound : network.Sound f table)
    (member : id ∈ ids f) {v : Option V} (moved : node = { network.nodes id
      with crnd := some (network.nodes id).nextCrnd, mv := ∅, v })
    (prepares : effects = (network.nodes id).broadcast
      (.prepare (network.nodes id).nextCrnd)) :
    (network.put id node effects).Proposers f := by
  have quiet : ∀ src dst n v, .sent ⟨src, dst, .accept n v⟩ ∉ effects := by
    simp [prepares, Node.broadcast]
  have nodes : node.nodes = (network.nodes id).nodes := by rw [moved]
  have address : node.address = (network.nodes id).address := by rw [moved]
  have formed : (network.put id node effects).Formed f table :=
    sound.formed.put (by rw [moved]) nodes address
  have rounds := sound.rounds.trust sound.formed.numbered
    (sound.formed.mem_keys member) formed.peered (by rw [moved]) quiet
  have steady : (network.put id node effects).Steady table :=
    sound.steady.trust (by rw [moved]) quiet
  apply sound.proposers_put formed rounds steady (by rw [moved]) nodes address
  intro crnd present entry held
  rw [moved] at held
  exact absurd held (Finset.notMem_empty entry)

end Proposers

end Sound

end Network

end SwitchPaxos.Insane

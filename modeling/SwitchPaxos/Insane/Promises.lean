import SwitchPaxos.Insane.Votes

/-!
# Promises that complete a majority

The promise that completes a majority determines what the node proposes: the
value of the vote with the largest round among the promises, or its own.  A
proposal like this is justified, and it is the only one of its round.
-/

namespace SwitchPaxos.Insane

variable {V : Type}

namespace Network

variable [LinearOrder V] {f : ℕ} {table : Dict ℕ Address}
  {network : Network V} {id : ℕ}

namespace Sound

section Promise

variable {other : ℕ} {n : ℕ} {vrnd : Option ℕ} {vval : Option V}

/-- A promise for the round that a node is in. -/
structure Arrives (f : ℕ) (network : Network V) (id other n : ℕ)
    (vrnd : Option ℕ) (vval : Option V) : Prop where
  member : id ∈ ids f
  known : other ∈ ids f
  crnd : (network.nodes id).crnd = some n
  promised : network.Promised (network.nodes other).address n vrnd vval

namespace Arrives

/-- The node once the promise was added. -/
abbrev node (_ : Arrives f network id other n vrnd vval) : Node V :=
  (network.nodes id).withPromise (network.nodes other).address vrnd vval

variable (arrives : Arrives f network id other n vrnd vval)

private theorem promises (sound : network.Sound f table) :
    ∀ entry ∈ arrives.node.mv, ∃ sender ∈ ids f,
      entry = triple entry.vrnd entry.vval
          ((network.nodes id).getId (network.nodes sender).address) ∧
        network.Promised (network.nodes sender).address n entry.vrnd
          entry.vval := by
  intro entry held
  rcases Finset.mem_insert.mp held with new | earlier
  · subst new
    exact ⟨other, arrives.known, rfl, arrives.promised⟩
  · obtain ⟨sender, known, vrnd, vval, rfl, promised⟩ :=
      sound.proposers.promises id arrives.member n arrives.crnd entry earlier
    exact ⟨sender, known, rfl, promised⟩

private theorem enough_iff (sound : network.Sound f table) :
    arrives.node.enoughPromises ↔ arrives.node.mv.card = f + 1 := by
  have failures : arrives.node.failureNodes = f :=
    sound.formed.failureNodes arrives.member
  rw [Node.enoughPromises, failures]

private theorem collects :
    Collects (network.nodes id) arrives.node n :=
  collects_promise arrives.crnd _ vrnd vval

/-- What was proposed in this round before a promise completes the majority is
what is proposed now: the promise was there already. -/
private theorem determined (sound : network.Sound f table)
    (enough : arrives.node.enoughPromises) {w : Option V}
    (earlier : network.Proposed n w) : w = arrives.node.cval :=
  arrives.collects.determined sound.rounds sound.steady
    (sound.formed.mem_keys arrives.member) enough earlier

/-- A majority of promises justifies the value they determine. -/
private theorem justified (sound : network.Sound f table)
    (enough : arrives.node.mv.card = f + 1) :
    network.ballots.Justified (ids f) n arrives.node.cval := by
  have acceptors := sound.acceptors
  choose! owner known shape promised using arrives.promises sound
  -- An acceptor promises once in a round, so it has one entry.
  have injective : ∀ entry ∈ arrives.node.mv, ∀ entry' ∈ arrives.node.mv,
      owner entry = owner entry' → entry = entry' := by
    intro entry held entry' held' same
    have second := promised entry' held'
    rw [← same] at second
    obtain ⟨rounds, values⟩ := acceptors.once _ _ _ _ _ _
      (promised entry held) second
    rw [shape entry held, shape entry' held', rounds, values, same]
  have majority : Majority (ids f) (arrives.node.mv.image owner) := by
    constructor
    · intro sender member
      obtain ⟨entry, held, rfl⟩ := Finset.mem_image.mp member
      exact known entry held
    · rw [Finset.card_image_of_injOn injective, enough, card_ids]
      omega
  have entries : ∀ sender ∈ arrives.node.mv.image owner,
      ∃ entry ∈ arrives.node.mv, owner entry = sender :=
    fun sender member => Finset.mem_image.mp member
  choose! entryOf held owned using entries
  have inverse : ∀ entry ∈ arrives.node.mv, entryOf (owner entry) = entry := by
    intro entry present
    have member := Finset.mem_image_of_mem owner present
    exact injective _ (held _ member) entry present (owned _ member)
  apply Ballots.justified_of_answers sound.consistent.proposed majority
    (fun sender => (entryOf sender).vrnd) fun sender => (entryOf sender).vval
  · intro sender member
    have sent := promised _ (held sender member)
    rw [owned sender member] at sent
    obtain ⟨acceptor, isNode, address, answered⟩ :=
      acceptors.promised _ _ _ _ sent
    have isSender : sender ∈ ids f := majority.subset member
    cases sound.formed.address_inj isSender isNode address
    exact answered
  · have nonempty : arrives.node.mv.Nonempty :=
      Finset.card_pos.mp (by omega)
    rcases Node.cval_cases nonempty with none |
      ⟨largest, present, last, round, value, highest⟩
    · exact .inl fun sender member => none _ (held sender member)
    · right
      refine ⟨owner largest, Finset.mem_image_of_mem owner present, last, ?_,
        ?_, ?_⟩
      · rw [inverse largest present]
        exact round
      · rw [inverse largest present]
        exact value.symm
      · intro sender member m voted
        exact highest _ (held sender member) m voted

variable {effects : List (Effect V)}

theorem proposers (sound : network.Sound f table)
    (proposes : effects = if arrives.node.enoughPromises then
      (network.nodes id).broadcast (.accept n arrives.node.cval) else []) :
    (network.put id arrives.node effects).Proposers f := by
  have numbered := sound.formed.numbered
  have member := sound.formed.mem_keys arrives.member
  have formed : (network.put id arrives.node effects).Formed f table :=
    sound.formed.put rfl rfl rfl
  apply sound.proposers_put formed
    (arrives.collects.rounds proposes sound.rounds numbered member
      formed.peered)
    (arrives.collects.steady proposes sound.rounds sound.steady numbered
      member) rfl rfl rfl
  intro crnd present entry held
  cases arrives.crnd.symm.trans present
  obtain ⟨sender, known, shape, promised⟩ :=
    arrives.promises sound entry held
  exact ⟨sender, known, entry.vrnd, entry.vval, shape, promised⟩

theorem consistent (sound : network.Sound f table)
    (proposes : effects = if arrives.node.enoughPromises then
      (network.nodes id).broadcast (.accept n arrives.node.cval) else []) :
    (network.put id arrives.node effects).ballots.Consistent (ids f) := by
  have silent : ∀ m w, .accepted m w ∉ effects := by
    intro m w
    rw [proposes]
    split <;> simp [Node.broadcast]
  have grows : network.ballots.Extends
      (network.put id arrives.node effects).ballots :=
    extends_put le_rfl fun m w new => absurd new (silent m w)
  apply sound.consistent.grow grows
  · exact fun other m w voted => .inl (voted_of_silent silent voted)
  · intro m w new
    rcases proposed_collect proposes new with earlier | ⟨rfl, rfl, enough⟩
    · exact .inl earlier
    · refine .inr ⟨?_, arrives.justified sound
        ((arrives.enough_iff sound).mp enough)⟩
      intro x again
      rcases proposed_collect proposes again with earlier | ⟨-, value, -⟩
      · exact arrives.determined sound enough earlier
      · exact value

end Arrives

end Promise

end Sound

end Network

end SwitchPaxos.Insane

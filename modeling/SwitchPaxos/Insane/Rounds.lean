import SwitchPaxos.Insane.Members

/-!
# Rounds and their proposals

A node has rounds of its own, in which it proposes nothing before it has
enough promises.  From then on it has exactly these promises until it proposes
no more, and so proposes the same each time if it keeps its value.
-/

namespace SwitchPaxos.Insane

namespace Network

variable {V : Type} {table : Dict ℕ Address} {network : Network V} {id : ℕ}

/-- Each round belongs to one node, which is in it or beyond and proposes
nothing there before it has enough promises. -/
structure Rounds (table : Dict ℕ Address) (network : Network V) : Prop where
  peered : network.Peered table
  owned : ∀ n v, network.Proposed n v → ∃ id ∈ table.keys,
    n % table.keys.length = id % table.keys.length ∧
      ∃ crnd, (network.nodes id).crnd = some crnd ∧ n ≤ crnd
  own : ∀ id ∈ table.keys, ∀ crnd, (network.nodes id).crnd = some crnd →
    crnd % table.keys.length = id % table.keys.length
  few : ∀ id ∈ table.keys, ∀ crnd, (network.nodes id).crnd = some crnd →
    (network.nodes id).mv.card ≤ (network.nodes id).failureNodes →
      ∀ v, ¬ network.Proposed crnd v

/-- Once a node has enough promises, what was proposed in its round is what it
would propose again, and no round has two proposals. -/
structure Steady [LinearOrder V] (table : Dict ℕ Address)
    (network : Network V) : Prop where
  enough : ∀ id ∈ table.keys, ∀ crnd, (network.nodes id).crnd = some crnd →
    (network.nodes id).enoughPromises →
      ∀ v, network.Proposed crnd v → v = (network.nodes id).cval
  unique : ∀ n v w, network.Proposed n v → network.Proposed n w → v = w

namespace Rounds

variable {node : Node V} {effects : List (Effect V)}

/-- A node that proposes nothing and stays in its round with its promises. -/
theorem put (rounds : network.Rounds table)
    (peered : (network.put id node effects).Peered table)
    (crnd : node.crnd = (network.nodes id).crnd)
    (mv : node.mv = (network.nodes id).mv)
    (nodes : node.nodes = (network.nodes id).nodes)
    (quiet : ∀ src dst n v, .sent ⟨src, dst, .accept n v⟩ ∉ effects) :
    (network.put id node effects).Rounds table := by
  have round : ∀ other, ((network.put id node effects).nodes other).crnd =
      (network.nodes other).crnd :=
    fun other => field_put Node.crnd crnd
  have failures : node.failureNodes = (network.nodes id).failureNodes := by
    rw [Node.failureNodes, nodes, Node.failureNodes]
  refine ⟨peered, ?_, ?_, ?_⟩
  · intro n v new
    obtain ⟨owner, member, remainder, crnd, present, bound⟩ :=
      rounds.owned n v (proposed_of_quiet quiet new)
    refine ⟨owner, member, remainder, crnd, ?_, bound⟩
    rw [round]
    exact present
  · intro other member crnd present
    rw [round] at present
    exact rounds.own other member crnd present
  · intro other member crnd present few v new
    rw [round] at present
    rw [field_put Node.mv mv, field_put Node.failureNodes failures] at few
    exact rounds.few other member crnd present few v
      (proposed_of_quiet quiet new)

theorem alone (rounds : network.Rounds table) (numbered : Numbered table)
    {other n : ℕ} (member : id ∈ table.keys) (known : other ∈ table.keys)
    (present : (network.nodes id).crnd = some n)
    (again : (network.nodes other).crnd = some n) : other = id :=
  eq_of_mod_eq ((numbered other).mp known) ((numbered id).mp member)
    ((rounds.own other known n again).symm.trans
      (rounds.own id member n present))

/-- The round a node goes on to is one of its own, in which nothing was
proposed. -/
theorem fresh (rounds : network.Rounds table) (numbered : Numbered table)
    (member : id ∈ table.keys) :
    (network.nodes id).nextCrnd % table.keys.length =
        id % table.keys.length ∧
      (∀ crnd, (network.nodes id).crnd = some crnd →
        crnd < (network.nodes id).nextCrnd) ∧
      ∀ v, ¬ network.Proposed (network.nodes id).nextCrnd v := by
  have keys : (network.nodes id).nodes.keys = table.keys := by
    rw [rounds.peered.nodes id member]
  have own : (network.nodes id).nextCrnd % table.keys.length =
      id % table.keys.length := by
    have remainder := Node.nextCrnd_mod (network.nodes id)
    rw [keys, rounds.peered.id id member] at remainder
    exact remainder fun crnd => rounds.own id member crnd
  have later : ∀ crnd, (network.nodes id).crnd = some crnd →
      crnd < (network.nodes id).nextCrnd := by
    intro crnd present
    apply Node.lt_nextCrnd _ present
    rw [keys]
    exact List.ne_nil_of_mem member
  refine ⟨own, later, ?_⟩
  intro v proposed
  obtain ⟨owner, known, remainder, crnd, present, bound⟩ :=
    rounds.owned _ v proposed
  cases eq_of_mod_eq ((numbered owner).mp known) ((numbered id).mp member)
    (remainder.symm.trans own)
  exact Nat.not_le.mpr (later crnd present) bound

theorem trust (rounds : network.Rounds table) (numbered : Numbered table)
    (member : id ∈ table.keys)
    (peered : (network.put id node effects).Peered table)
    (crnd : node.crnd = some (network.nodes id).nextCrnd)
    (quiet : ∀ src dst n v, .sent ⟨src, dst, .accept n v⟩ ∉ effects) :
    (network.put id node effects).Rounds table := by
  obtain ⟨own, later, fresh⟩ := rounds.fresh numbered member
  refine ⟨peered, ?_, ?_, ?_⟩
  · intro n v new
    obtain ⟨owner, known, remainder, last, present, bound⟩ :=
      rounds.owned n v (proposed_of_quiet quiet new)
    by_cases here : owner = id
    · subst here
      refine ⟨owner, known, remainder, (network.nodes owner).nextCrnd, ?_,
        bound.trans (later last present).le⟩
      rw [nodes_put_self, crnd]
    · refine ⟨owner, known, remainder, last, ?_, bound⟩
      rw [nodes_put, if_neg here]
      exact present
  · intro other known n present
    rw [nodes_put] at present
    split at present
    · next here =>
        cases crnd.symm.trans present
        rw [here]
        exact own
    · exact rounds.own other known n present
  · intro other known n present few v new
    have earlier := proposed_of_quiet quiet new
    rw [nodes_put] at present few
    split at present
    · cases crnd.symm.trans present
      exact fresh v earlier
    · next elsewhere =>
        rw [if_neg elsewhere] at few
        exact rounds.few other known n present few v earlier

end Rounds

/-- A node in a round after a promise for it was added. -/
structure Collects [LinearOrder V] (old node : Node V) (n : ℕ) : Prop where
  crnd : old.crnd = some n
  round : node.crnd = some n
  mv : old.mv ⊆ node.mv
  failures : node.failureNodes = old.failureNodes
  cval : node.mv = old.mv → node.cval = old.cval

section Collects

variable [LinearOrder V] {node : Node V} {n : ℕ} {effects : List (Effect V)}

theorem collects_promise {old : Node V} (present : old.crnd = some n)
    (sender : Address) (vrnd : Option ℕ) (vval : Option V) :
    Collects old (old.withPromise sender vrnd vval) n where
  crnd := present
  round := present
  mv := Finset.subset_insert _ _
  failures := rfl
  cval := by
    intro same
    simp only [Node.cval, Node.noPromisesWithValue, same]
    rfl

/-- What is new is what the node proposes with enough promises. -/
theorem proposed_collect (proposes : effects = if node.enoughPromises then
      (network.nodes id).broadcast (.accept n node.cval) else [])
    {m : ℕ} {w : Option V}
    (new : (network.put id node effects).Proposed m w) :
    network.Proposed m w ∨
      (m = n ∧ w = node.cval ∧ node.enoughPromises) := by
  rcases proposed_put new with earlier | ⟨src, dst, sent⟩
  · exact .inl earlier
  · rw [proposes] at sent
    split at sent
    · next enough =>
        simp only [Node.broadcast, List.mem_map, Effect.sent.injEq,
          Packet.mk.injEq, Message.accept.injEq] at sent
        obtain ⟨-, -, -, -, rfl, rfl⟩ := sent
        exact .inr ⟨rfl, rfl, enough⟩
    · cases sent

namespace Collects

theorem rounds (collects : Collects (network.nodes id) node n)
    (proposes : effects = if node.enoughPromises then
      (network.nodes id).broadcast (.accept n node.cval) else [])
    (rounds : network.Rounds table) (numbered : Numbered table)
    (member : id ∈ table.keys)
    (peered : (network.put id node effects).Peered table) :
    (network.put id node effects).Rounds table := by
  have round : ∀ other, ((network.put id node effects).nodes other).crnd =
      (network.nodes other).crnd :=
    fun other => field_put Node.crnd (collects.round.trans collects.crnd.symm)
  refine ⟨peered, ?_, ?_, ?_⟩
  · intro m w new
    rcases proposed_collect proposes new with earlier | ⟨rfl, -, -⟩
    · obtain ⟨owner, known, remainder, crnd, present, bound⟩ :=
        rounds.owned m w earlier
      refine ⟨owner, known, remainder, crnd, ?_, bound⟩
      rw [round]
      exact present
    · refine ⟨id, member, rounds.own id member m collects.crnd, m, ?_, le_rfl⟩
      rw [round]
      exact collects.crnd
  · intro other known crnd present
    rw [round] at present
    exact rounds.own other known crnd present
  · intro other known crnd present few w new
    rw [round] at present
    rw [nodes_put] at few
    have before : (network.nodes other).mv.card ≤
        (network.nodes other).failureNodes := by
      split at few
      · next here =>
          subst here
          have grows := Finset.card_le_card collects.mv
          have failures := collects.failures
          omega
      · exact few
    rcases proposed_collect proposes new with
      earlier | ⟨rfl, -, enough⟩
    · exact rounds.few other known crnd present before w earlier
    · cases rounds.alone numbered member known collects.crnd present
      rw [if_pos rfl] at few
      rw [Node.enoughPromises] at enough
      omega

/-- What was proposed in the round before is what is proposed with enough
promises: the promise was there already. -/
theorem determined (collects : Collects (network.nodes id) node n)
    (rounds : network.Rounds table)
    (steady : network.Steady table) (member : id ∈ table.keys)
    (enough : node.enoughPromises) {w : Option V}
    (earlier : network.Proposed n w) : w = node.cval := by
  have grows := Finset.card_le_card collects.mv
  have failures := collects.failures
  have exactly : node.mv.card = node.failureNodes + 1 := enough
  by_cases few : (network.nodes id).mv.card ≤
      (network.nodes id).failureNodes
  · exact absurd earlier (rounds.few id member n collects.crnd few w)
  · have same : (network.nodes id).mv = node.mv :=
      Finset.eq_of_subset_of_card_le collects.mv (by omega)
    have full : (network.nodes id).enoughPromises := by
      rw [Node.enoughPromises, same]
      omega
    rw [collects.cval same.symm]
    exact steady.enough id member n collects.crnd full w earlier

theorem steady (collects : Collects (network.nodes id) node n)
    (proposes : effects = if node.enoughPromises then
      (network.nodes id).broadcast (.accept n node.cval) else [])
    (rounds : network.Rounds table)
    (steady : network.Steady table) (numbered : Numbered table)
    (member : id ∈ table.keys) :
    (network.put id node effects).Steady table := by
  refine ⟨?_, ?_⟩
  · intro other known crnd present enough w new
    rw [field_put Node.crnd (collects.round.trans collects.crnd.symm)]
      at present
    rw [nodes_put] at enough ⊢
    split
    · next here =>
        subst here
        rw [if_pos rfl] at enough
        cases collects.crnd.symm.trans present
        rcases proposed_collect proposes new with
          earlier | ⟨-, value, -⟩
        · exact collects.determined rounds steady member enough earlier
        · exact value
    · next elsewhere =>
        rw [if_neg elsewhere] at enough
        rcases proposed_collect proposes new with
          earlier | ⟨rfl, -, -⟩
        · exact steady.enough other known crnd present enough w earlier
        · exact absurd
            (rounds.alone numbered member known collects.crnd present)
            elsewhere
  · intro m v w first second
    rcases proposed_collect proposes first with
      earlier | ⟨rfl, rfl, enough⟩
    · rcases proposed_collect proposes second with
        earlier' | ⟨rfl, rfl, enough⟩
      · exact steady.unique m v w earlier earlier'
      · exact collects.determined rounds steady member enough earlier
    · rcases proposed_collect proposes second with
        earlier' | ⟨-, value, -⟩
      · exact (collects.determined rounds steady member enough earlier').symm
      · exact value.symm

end Collects

end Collects

section Step

variable [LinearOrder V] {node : Node V} {effects : List (Effect V)}

/-- A node that proposes nothing, stays in its round with its promises and
would propose what it would have before, if it has enough of them. -/
theorem Steady.put (steady : network.Steady table)
    (crnd : node.crnd = (network.nodes id).crnd)
    (mv : node.mv = (network.nodes id).mv)
    (nodes : node.nodes = (network.nodes id).nodes)
    (cval : (network.nodes id).enoughPromises →
      node.cval = (network.nodes id).cval)
    (quiet : ∀ src dst n v, .sent ⟨src, dst, .accept n v⟩ ∉ effects) :
    (network.put id node effects).Steady table := by
  refine ⟨?_, ?_⟩
  · intro other member n present enough v new
    have earlier := proposed_of_quiet quiet new
    rw [field_put Node.crnd crnd] at present
    rw [nodes_put] at enough ⊢
    split
    · next here =>
        subst here
        rw [if_pos rfl, Node.enoughPromises, Node.failureNodes, mv, nodes]
          at enough
        rw [cval enough]
        exact steady.enough other member n present enough v earlier
    · next elsewhere =>
        rw [if_neg elsewhere] at enough
        exact steady.enough other member n present enough v earlier
  · intro n v w first second
    exact steady.unique n v w (proposed_of_quiet quiet first)
      (proposed_of_quiet quiet second)

theorem Steady.trust (steady : network.Steady table) (mv : node.mv = ∅)
    (quiet : ∀ src dst n v, .sent ⟨src, dst, .accept n v⟩ ∉ effects) :
    (network.put id node effects).Steady table := by
  refine ⟨?_, ?_⟩
  · intro other member n present enough v new
    have earlier := proposed_of_quiet quiet new
    rw [nodes_put] at present enough ⊢
    split
    · next here =>
        rw [if_pos here, Node.enoughPromises, mv, Finset.card_empty] at enough
        omega
    · next elsewhere =>
        rw [if_neg elsewhere] at present enough
        exact steady.enough other member n present enough v earlier
  · intro n v w first second
    exact steady.unique n v w (proposed_of_quiet quiet first)
      (proposed_of_quiet quiet second)

theorem Rounds.react (rounds : network.Rounds table)
    (numbered : Numbered table) (member : id ∈ table.keys) {sender : Address}
    {message : Message V}
    (reacts : (network.nodes id).Reacts sender message node effects) :
    (network.put id node effects).Rounds table := by
  have peered := rounds.peered.react reacts
  cases reacts with
  | ignored => exact rounds.put peered rfl rfl rfl (by simp)
  | promised => exact rounds.put peered rfl rfl rfl (by simp)
  | voted => exact rounds.put peered rfl rfl rfl (by simp [Node.broadcast])
  | collected n vrnd vval present =>
      exact (collects_promise present sender vrnd vval).rounds rfl rounds
        numbered member peered
  | learned => exact rounds.put peered rfl rfl rfl (by simp)
  | trusted =>
      exact rounds.trust numbered member peered rfl (by simp [Node.broadcast])
  | wished => exact rounds.put peered rfl rfl rfl (by simp)

theorem Rounds.step (rounds : network.Rounds table)
    (numbered : Numbered table) {action : Action V}
    (reaches : Reaches table network action) :
    (network.step action).Rounds table := by
  obtain ⟨node, effects, reacts, step⟩ := network.step_reacts action
  rw [step]
  exact rounds.react numbered reaches.1 reacts

end Step

theorem Begins.rounds (begins : network.Begins table) :
    network.Rounds table := by
  refine ⟨begins.toPeered, ?_, ?_, ?_⟩
  · exact fun n v proposed => absurd proposed (begins.unproposed n v)
  · intro id member crnd present
    rw [(begins.unheard member).1] at present
    cases present
  · intro id member crnd present
    rw [(begins.unheard member).1] at present
    cases present

theorem Begins.steady [LinearOrder V] (begins : network.Begins table) :
    network.Steady table := by
  refine ⟨?_, ?_⟩
  · intro id member crnd present
    rw [(begins.unheard member).1] at present
    cases present
  · exact fun n v w proposed => absurd proposed (begins.unproposed n v)

end Network

end SwitchPaxos.Insane

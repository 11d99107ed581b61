import SwitchPaxos.Insane.Promises

/-!
# Agreement on what is chosen

Each kind of message keeps the rules of acceptors and proposers.  Votes are
then for justified proposals, and two values that majorities voted for are the
same.
-/

namespace SwitchPaxos.Insane

variable {V : Type}

namespace Network

variable [LinearOrder V] {f : ℕ} {table : Dict ℕ Address}
  {network : Network V} {id : ℕ}

namespace Sound

section Messages

variable {node : Node V} {effects : List (Effect V)}

private theorem prepare (sound : network.Sound f table) (member : id ∈ ids f)
    (sender : Address) (n : ℕ) :
    (network.put id (Node.onPrepare sender n (network.nodes id)).state
      (Node.onPrepare sender n (network.nodes id)).effects).Sound f
        table := by
  rw [Node.onPrepare_apply]
  split
  · next later =>
      constructor
      · exact sound.formed.put rfl rfl rfl
      · exact sound.acceptors_promise member later rfl rfl
      · exact sound.proposers_keep member (sound.formed.put rfl rfl rfl) rfl
          rfl rfl rfl rfl rfl (by simp)
      · exact sound.consistent_put later.le (by simp) (by simp)
  · exact sound.idle

private theorem accept (sound : network.Sound f table) (member : id ∈ ids f)
    {n : ℕ} {v : Option V} (proposed : network.Proposed n v) :
    (network.put id (Node.onAccept n v (network.nodes id)).state
      (Node.onAccept n v (network.nodes id)).effects).Sound f table := by
  rw [Node.onAccept_apply]
  split
  · next votes =>
      constructor
      · exact sound.formed.put rfl rfl rfl
      · exact sound.acceptors_vote member votes.1 rfl rfl
      · exact sound.proposers_keep member (sound.formed.put rfl rfl rfl) rfl
          rfl rfl rfl rfl rfl (by simp [Node.broadcast])
      · apply sound.consistent.grow
          (extends_put votes.1 (by simp [Node.broadcast, votes.1]))
        · intro other m w voted
          rcases (voted_put ..).mp voted with earlier | ⟨-, new⟩
          · exact .inl earlier
          · simp only [Node.broadcast, List.mem_cons, Effect.accepted.injEq,
              List.mem_map, reduceCtorEq, and_false, exists_false,
              or_false] at new
            obtain ⟨rfl, rfl⟩ := new
            exact .inr proposed.put
        · intro m w again
          rcases proposed_put again with earlier | ⟨src, dst, new⟩
          · exact .inl earlier
          · simp [Node.broadcast] at new
  · exact sound.idle

private theorem trust (sound : network.Sound f table) (member : id ∈ ids f)
    (v : Option V) :
    (network.put id { network.nodes id with
        crnd := some (network.nodes id).nextCrnd, mv := ∅, v }
      ((network.nodes id).broadcast
        (.prepare (network.nodes id).nextCrnd))).Sound f table := by
  constructor
  · exact sound.formed.put rfl rfl rfl
  · exact sound.acceptors_keep member rfl rfl rfl rfl (by simp [Node.broadcast])
      (by simp [Node.broadcast])
  · exact sound.proposers_trust member rfl rfl
  · exact sound.consistent_put le_rfl (by simp [Node.broadcast])
      (by simp [Node.broadcast])

private theorem promise (sound : network.Sound f table) (member : id ∈ ids f)
    {sender : Address} {n : ℕ} {vrnd : Option ℕ} {vval : Option V}
    (promised : network.Promised sender n vrnd vval) :
    (network.put id (Node.onPromise sender n vrnd vval
        (network.nodes id)).state
      (Node.onPromise sender n vrnd vval (network.nodes id)).effects).Sound f
        table := by
  rw [Node.onPromise_apply]
  split
  · next crnd =>
      obtain ⟨other, known, address, -⟩ :=
        sound.acceptors.promised sender n vrnd vval promised
      subst address
      have arrives : Arrives f network id other n vrnd vval :=
        ⟨member, known, crnd, promised⟩
      constructor
      · exact sound.formed.put rfl rfl rfl
      · refine sound.acceptors_keep member rfl rfl rfl rfl ?_ ?_
        · intro m w
          split <;> simp [Node.broadcast]
        · intro src dst m vrnd vval
          split <;> simp [Node.broadcast]
      · exact arrives.proposers sound rfl
      · exact arrives.consistent sound rfl
  · exact sound.idle

private theorem learn (sound : network.Sound f table) (member : id ∈ ids f)
    (n : ℕ) (v : Option V) :
    (network.put id (Node.onLearn n v (network.nodes id)).state
      (Node.onLearn n v (network.nodes id)).effects).Sound f table := by
  rw [Node.onLearn_apply]
  split
  · constructor
    · exact sound.formed.put rfl rfl rfl
    · exact sound.acceptors_keep member rfl rfl rfl rfl (by simp) (by simp)
    · exact sound.proposers_keep member (sound.formed.put rfl rfl rfl) rfl rfl
        rfl rfl rfl rfl (by simp)
    · exact sound.consistent_put le_rfl (by simp) (by simp)
  · exact sound.idle

end Messages

theorem step (sound : network.Sound f table) {action : Action V}
    (enabled : Enabled f network action) :
    (network.step action).Sound f table := by
  obtain ⟨id, sender, message⟩ := action
  obtain ⟨member, arrives⟩ := enabled
  have own := sound.formed.id id member
  have sent : message.trusted? = none →
      ⟨sender, (network.nodes id).address, message⟩ ∈ network.packets := by
    intro none
    rcases arrives with named | ⟨-, sent⟩
    · rw [none] at named
      cases named
    · exact sent
  have named : ∀ c, message.trusted? = some c →
      c = (network.nodes id).id := by
    intro c some
    rw [own]
    rcases arrives with named | ⟨none, -⟩
    · exact Option.some.inj (some.symm.trans named)
    · rw [none] at some
      cases some
  cases message with
  | prepare n => exact sound.prepare member sender n
  | promise n vrnd vval => exact sound.promise member ⟨_, sent rfl⟩
  | accept n v => exact sound.accept member ⟨_, _, sent rfl⟩
  | learn n v => exact sound.learn member n v
  | trust c =>
      rw [Network.step, Node.receive, named c rfl, Node.onTrust_apply]
      exact sound.trust member (network.nodes id).v
  | trustValue c v =>
      rw [Network.step, Node.receive, named c rfl, Node.onTrustValue_apply]
      exact sound.trust member v

end Sound

theorem Starts.sound (starts : network.Starts f table) :
    network.Sound f table := by
  have begins := starts.begins
  have voted : ∀ id n v, ¬ network.Voted id n v := by
    intro id n v voted
    rw [Voted, starts.log] at voted
    cases voted
  constructor
  · exact starts.toFormed
  · constructor
    · exact fun id n v vote => absurd vote (voted id n v)
    · intro id member
      obtain ⟨omega, address, fresh⟩ := starts.fresh id member
      rw [fresh]
      exact voted id
    · exact fun src n vrnd vval sent =>
        absurd sent (begins.unpromised src n vrnd vval)
    · exact fun src n vrnd vval vrnd' vval' sent =>
        absurd sent (begins.unpromised src n vrnd vval)
  · apply starts.toFormed.proposers begins.rounds begins.steady
    intro id member crnd present
    rw [(begins.unheard (starts.mem_keys member)).1] at present
    cases present
  · constructor
    · exact fun id n v vote => absurd vote (voted id n v)
    · exact fun n v w new => absurd new (begins.unproposed n v)
    · exact fun n v new => absurd new (begins.unproposed n v)

theorem Run.sound (starts : network.Starts f table)
    {actions : List (Action V)} (run : (system f).Run network actions) :
    ((system f).after network actions).Sound f table :=
  run.invariant (fun _ _ sound enabled => sound.step enabled) starts.sound

/-- Where nodes are trusted by name, a run is one of the members of the table,
too. -/
theorem Run.peers (starts : network.Starts f table)
    {actions : List (Action V)} (run : (system f).Run network actions) :
    (Network.peers table).Run network actions ∧
      (Network.peers table).after network actions =
        (system f).after network actions := by
  refine ⟨?_, rfl⟩
  induction actions using List.reverseRecOn with
  | nil => trivial
  | append_singleton actions action induction =>
      obtain ⟨earlier, member, arrives⟩ := System.each_snoc.mp run
      have formed := (Run.sound starts earlier).formed
      refine System.each_snoc.mpr
        ⟨induction earlier, formed.mem_keys member, ?_⟩
      rcases arrives with named | ⟨-, sent⟩
      · exact .inl (named ▸ Option.some_ne_none _)
      · exact .inr sent

/-- Whatever happens, any two values that more than half of the nodes have
accepted are the same, in whatever rounds that was. -/
theorem chosen_agree (starts : network.Starts f table)
    {actions : List (Action V)} (run : (system f).Run network actions)
    {n m : ℕ} {v w : Option V}
    (first : ((system f).after network actions).Chosen f n v)
    (second : ((system f).after network actions).Chosen f m w) : v = w :=
  (Run.sound starts run).consistent.chosen_eq first.ballots second.ballots

/-- The value of the first round is chosen again in the second one, although
the second proposer wanted another. -/
theorem chosen_agree_twice :
    let actions : List (Action ℕ) :=
      [⟨1, ("127.0.0.1", 9), .trustValue 1 (some 5)⟩,
        ⟨1, ("127.0.0.1", 2001), .prepare 1⟩,
        ⟨2, ("127.0.0.1", 2001), .prepare 1⟩,
        ⟨1, ("127.0.0.1", 2001), .promise 1 none none⟩,
        ⟨1, ("127.0.0.1", 2002), .promise 1 none none⟩,
        ⟨1, ("127.0.0.1", 2001), .accept 1 (some 5)⟩,
        ⟨2, ("127.0.0.1", 2001), .accept 1 (some 5)⟩,
        ⟨2, ("127.0.0.1", 9), .trustValue 2 (some 6)⟩,
        ⟨2, ("127.0.0.1", 2002), .prepare 2⟩,
        ⟨3, ("127.0.0.1", 2002), .prepare 2⟩,
        ⟨2, ("127.0.0.1", 2002), .promise 2 (some 1) (some 5)⟩,
        ⟨2, ("127.0.0.1", 2003), .promise 2 none none⟩,
        ⟨2, ("127.0.0.1", 2002), .accept 2 (some 5)⟩,
        ⟨3, ("127.0.0.1", 2002), .accept 2 (some 5)⟩]
    let network := (system 1).after three actions
    network.Chosen 1 1 (some 5) ∧
      network.Chosen 1 2 (network.nodes 3).vval ∧
      (network.nodes 3).vval = some 5 := by
  intro actions network
  have run : (system 1).Run three actions := by decide
  have first : network.Chosen 1 1 (some 5) := by decide
  have second : network.Chosen 1 2 (network.nodes 3).vval := by decide
  exact ⟨first, second, (chosen_agree three_starts run first second).symm⟩

end Network

end SwitchPaxos.Insane

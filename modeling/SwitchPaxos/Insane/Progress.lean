import SwitchPaxos.Base.Reach
import SwitchPaxos.Insane.Validity

/-!
# A majority is enough

A node that is trusted again and again gets to a round that no other node is
beyond.  If the messages of that round then arrive within a majority, the
majority votes for one value and learns it, whatever happened before and even
if no other node takes a step any more.
-/

namespace SwitchPaxos.Insane

variable {V : Type}

/-- A node that was trusted with a value goes on to its next round. -/
def Node.trusted (v : Option V) (node : Node V) : Node V :=
  { node with crnd := some node.nextCrnd, mv := ∅, v }

theorem triple_inj {vrnd vrnd' : Option ℕ} {vval vval' : Option V}
    {a b : Ident} (same : triple vrnd vval a = triple vrnd' vval' b) :
    a = b :=
  congrArg (fun entry : Triple V => (ofLex (ofLex entry).2).2) same

namespace Network

variable {f : ℕ} {table : Dict ℕ Address} {network : Network V}

/-- A message was sent from one node of the table to another. -/
def Underway (table : Dict ℕ Address) (src dst : ℕ) (message : Message V)
    (network : Network V) : Prop :=
  ∀ origin target, table.lookup src = some origin →
    table.lookup dst = some target →
      ⟨origin, target, message⟩ ∈ network.packets

/-- The message of one node arrives at another. -/
def delivery (src dst : ℕ) (message : Message V) (network : Network V) :
    Action V :=
  ⟨dst, (network.nodes src).address, message⟩

theorem Underway.put {src dst id : ℕ} {message : Message V} {node : Node V}
    {effects : List (Effect V)}
    (underway : network.Underway table src dst message) :
    (network.put id node effects).Underway table src dst message :=
  fun origin target known reached =>
    (mem_packets_put ..).mpr (.inl (underway origin target known reached))

section Sending

variable [LinearOrder V] {id other : ℕ} {node : Node V}
  {effects : List (Effect V)}

theorem Sound.underway_broadcast (sound : network.Sound f table)
    (member : id ∈ ids f) {message : Message V}
    (sends : ∀ effect ∈ (network.nodes id).broadcast message,
      effect ∈ effects) :
    (network.put id node effects).Underway table id other message := by
  intro origin target known reached
  rw [sound.formed.address id member] at known
  cases known
  refine (mem_packets_put ..).mpr (.inr (sends _ (List.mem_map.mpr ?_)))
  refine ⟨target, ?_, rfl⟩
  rw [sound.formed.nodes id member]
  exact Dict.mem_values.mpr ⟨other, reached⟩

theorem Sound.underway_sent (sound : network.Sound f table)
    (member : id ∈ ids f) (known : other ∈ ids f) {message : Message V}
    (sends : .sent ⟨(network.nodes id).address, (network.nodes other).address,
      message⟩ ∈ effects) :
    (network.put id node effects).Underway table id other message := by
  intro origin target here there
  rw [sound.formed.address id member] at here
  rw [sound.formed.address other known] at there
  cases here
  cases there
  exact (mem_packets_put ..).mpr (.inr sends)

theorem Sound.enabled_delivery (sound : network.Sound f table)
    (member : id ∈ ids f) (known : other ∈ ids f) {message : Message V}
    (untrusted : message.trusted? = none)
    (underway : network.Underway table id other message) :
    Enabled f network (network.delivery id other message) :=
  ⟨known, .inr ⟨untrusted, underway _ _ (sound.formed.address id member)
    (sound.formed.address other known)⟩⟩

/-- A node that is not in a round yet did not vote there. -/
theorem Sound.unvoted (sound : network.Sound f table) (member : id ∈ ids f)
    {n : ℕ} (behind : (network.nodes id).rnd < n) :
    (network.nodes id).vrnd ≠ some n := by
  intro voted
  have last := sound.acceptors.last id member
  rw [voted] at last
  exact absurd last.2.1 (Nat.not_le.mpr behind)

theorem step_trustValue (own : (network.nodes id).id = id) (sender : Address)
    (v : Option V) :
    network.step ⟨id, sender, .trustValue id v⟩ =
      network.put id ((network.nodes id).trusted v)
        ((network.nodes id).broadcast
          (.prepare (network.nodes id).nextCrnd)) := by
  have handled : ∀ c, c = (network.nodes id).id →
      Node.onTrustValue c v (network.nodes id) =
        ⟨.ok (), (network.nodes id).trusted v, (network.nodes id).broadcast
          (.prepare (network.nodes id).nextCrnd)⟩ := by
    rintro _ rfl
    exact Node.onTrustValue_apply _ _
  rw [Network.step, Node.receive, handled id own.symm]

end Sending

/-- Only the nodes of the set take steps. -/
def Within (Q : Finset ℕ) (action : Action V) : Prop := action.id ∈ Q

section Leading

variable [LinearOrder V] {Q : Finset ℕ} {id c : ℕ}

/-- However far the other nodes are, a node can be trusted until it gets there.
-/
private theorem climb (sound : network.Sound f table) (member : id ∈ ids f)
    (within : id ∈ Q) (value : Option V) (bound : ℕ) :
    ∃ later, (system f).Leads (Within Q) network later ∧
      (∃ crnd, (later.nodes id).crnd = some crnd ∧ bound ≤ crnd) ∧
      (∀ other, (later.nodes other).rnd = (network.nodes other).rnd) ∧
      ∀ q n v, later.Voted q n v → network.Voted q n v := by
  -- One more TRUST-VALUE, wherever the node is.
  have trust : ∀ start : Network V, start.Sound f table →
      (system f).Leads (Within Q) start
        (start.put id ((start.nodes id).trusted value)
          ((start.nodes id).broadcast
            (.prepare (start.nodes id).nextCrnd))) := by
    intro start sound
    rw [← step_trustValue (sound.formed.id id member)
      (start.nodes id).address]
    exact .single ⟨member, .inl rfl⟩ within
  induction bound with
  | zero =>
      refine ⟨_, trust network sound, ⟨(network.nodes id).nextCrnd, ?_,
        Nat.zero_le _⟩, ?_, ?_⟩
      · rw [nodes_put_self]
        rfl
      · exact fun other => field_put Node.rnd rfl
      · exact fun q n v => voted_of_silent (by simp [Node.broadcast])
  | succ bound induction =>
      obtain ⟨later, led, ⟨crnd, present, bounded⟩, rounds, votes⟩ := induction
      have sound := led.invariant
        (fun _ _ sound enabled _ => Sound.step sound enabled) sound
      have several : (later.nodes id).nodes.keys ≠ [] := by
        rw [sound.formed.nodes id member]
        exact List.ne_nil_of_mem (sound.formed.mem_keys member)
      have further := Node.lt_nextCrnd several present
      refine ⟨_, led.trans (trust later sound),
        ⟨(later.nodes id).nextCrnd, ?_, ?_⟩, ?_, ?_⟩
      · rw [nodes_put_self]
        rfl
      · omega
      · intro other
        rw [← rounds other]
        exact field_put Node.rnd rfl
      · intro q n v voted
        exact votes q n v
          (voted_of_silent (by simp [Node.broadcast]) voted)

/-- The node is in round `c` with a value, no node of the set is beyond it, and
nobody voted since. -/
structure Leading (f : ℕ) (table : Dict ℕ Address) (Q : Finset ℕ)
    (id c : ℕ) (value : Option V) (before : ℕ → ℕ → Option V → Prop)
    (network : Network V) : Prop where
  sound : network.Sound f table
  crnd : (network.nodes id).crnd = some c
  wish : (network.nodes id).v = value
  rounds : ∀ q ∈ Q, (network.nodes q).rnd ≤ c
  unvoted : ∀ q ∈ Q, (network.nodes q).vrnd ≠ some c
  votes : ∀ q n v, network.Voted q n v → before q n v

variable {value : Option V} {before : ℕ → ℕ → Option V → Prop}

/-- All nodes of the set are asked for a promise, and some made one. -/
structure Promising (f : ℕ) (table : Dict ℕ Address) (Q : Finset ℕ)
    (id c : ℕ) (value : Option V) (before : ℕ → ℕ → Option V → Prop)
    (promised : List ℕ) (network : Network V) : Prop
    extends Leading f table Q id c value before network where
  mv : (network.nodes id).mv = ∅
  asked : ∀ q ∈ Q, network.Underway table id q (.prepare c)
  behind : ∀ q ∈ Q, q ∉ promised → (network.nodes q).rnd < c
  promised : ∀ q ∈ promised, ∃ vrnd vval,
    network.Underway table q id (.promise c vrnd vval)

private theorem prepares (sound : network.Sound f table) (subset : Q ⊆ ids f)
    (within : id ∈ Q) (value : Option V) :
    ∃ c later, (system f).Leads (Within Q) network later ∧
      later.Promising f table Q id c value network.Voted [] := by
  have member := subset within
  obtain ⟨reached, led, ⟨crnd, present, bound⟩, rounds, votes⟩ :=
    climb sound member within value (Q.sup fun q => (network.nodes q).rnd)
  have sound := led.invariant
    (fun _ _ sound enabled _ => Sound.step sound enabled) sound
  have enabled : Enabled f reached
      ⟨id, (reached.nodes id).address, .trustValue id value⟩ :=
    ⟨member, .inl rfl⟩
  have several : (reached.nodes id).nodes.keys ≠ [] := by
    rw [sound.formed.nodes id member]
    exact List.ne_nil_of_mem (sound.formed.mem_keys member)
  have further := Node.lt_nextCrnd several present
  have behind : ∀ q ∈ Q, (reached.nodes q).rnd <
      (reached.nodes id).nextCrnd := by
    intro q inQ
    have below := Finset.le_sup
      (f := fun q => (network.nodes q).rnd) inQ
    rw [rounds q]
    omega
  have next := sound.step enabled
  have moved := step_trustValue (sound.formed.id id member)
    (reached.nodes id).address value
  rw [moved] at next
  have rnd : ∀ q, ((reached.put id ((reached.nodes id).trusted value)
      ((reached.nodes id).broadcast
        (.prepare (reached.nodes id).nextCrnd))).nodes q).rnd =
      (reached.nodes q).rnd := fun q => field_put Node.rnd rfl
  refine ⟨(reached.nodes id).nextCrnd, _,
    led.trans (.single enabled within), ?_⟩
  change Promising f table Q id _ value _ [] (Network.step reached _)
  rw [moved]
  refine ⟨⟨next, ?_, ?_, ?_, ?_, ?_⟩, ?_, ?_, ?_, ?_⟩
  · rw [nodes_put_self]
    rfl
  · rw [nodes_put_self]
    rfl
  · intro q inQ
    rw [rnd]
    exact (behind q inQ).le
  · intro q inQ
    refine next.unvoted (subset inQ) ?_
    rw [rnd]
    exact behind q inQ
  · intro q n v voted
    exact votes q n v (voted_of_silent (by simp [Node.broadcast]) voted)
  · rw [nodes_put_self]
    rfl
  · exact fun q _ => sound.underway_broadcast member fun _ sent => sent
  · intro q inQ _
    rw [rnd]
    exact behind q inQ
  · simp

/-- One more node is asked, and promises. -/
private theorem Promising.next {promised : List ℕ}
    (promising : network.Promising f table Q id c value before promised)
    (subset : Q ⊆ ids f) (within : id ∈ Q) {q : ℕ} (inQ : q ∈ Q)
    (new : q ∉ promised) :
    ∃ later, (system f).Leads (Within Q) network later ∧
      later.Promising f table Q id c value before
        (promised ++ [q]) := by
  have sound := promising.sound
  have behind := promising.behind q inQ new
  have enabled := sound.enabled_delivery (subset within) (subset inQ) rfl
    (promising.asked q inQ)
  obtain ⟨reached, here⟩ :
      ∃ reached, reached = network.step (network.delivery id q (.prepare c)) :=
    ⟨_, rfl⟩
  have next : reached.Sound f table := here ▸ sound.step enabled
  have moved : reached = network.put q { network.nodes q with rnd := c }
      [.sent ⟨(network.nodes q).address, (network.nodes id).address,
        .promise c (network.nodes q).vrnd (network.nodes q).vval⟩] := by
    rw [here, Network.step, delivery, Node.receive, Node.onPrepare_apply,
      if_pos behind]
  have rnd : ∀ other, (reached.nodes other).rnd =
      if other = q then c else (network.nodes other).rnd := by
    intro other
    rw [moved, nodes_put]
    split <;> rfl
  have vrnd : ∀ other,
      (reached.nodes other).vrnd = (network.nodes other).vrnd := by
    intro other
    rw [moved]
    exact field_put Node.vrnd rfl
  have crnd : (reached.nodes id).crnd = (network.nodes id).crnd := by
    rw [moved]
    exact field_put Node.crnd rfl
  have mv : (reached.nodes id).mv = (network.nodes id).mv := by
    rw [moved]
    exact field_put Node.mv rfl
  have wish : (reached.nodes id).v = (network.nodes id).v := by
    rw [moved]
    exact field_put Node.v rfl
  refine ⟨reached, here ▸ .single enabled inQ,
    ⟨next, crnd.trans promising.crnd, wish.trans promising.wish, ?_, ?_, ?_⟩,
    mv.trans promising.mv, ?_, ?_, ?_⟩
  · intro other member
    rw [rnd]
    split
    · exact le_rfl
    · exact promising.rounds other member
  · intro other member
    rw [vrnd]
    exact promising.unvoted other member
  · rw [moved]
    exact fun other n v voted =>
      promising.votes other n v (voted_of_silent (by simp) voted)
  · rw [moved]
    exact fun other member => (promising.asked other member).put
  · intro other member notYet
    rw [List.mem_append, List.mem_singleton, not_or] at notYet
    rw [rnd, if_neg notYet.2]
    exact promising.behind other member notYet.1
  · rw [moved]
    intro other member
    rcases List.mem_append.mp member with earlier | last
    · obtain ⟨vrnd, vval, underway⟩ := promising.promised other earlier
      exact ⟨vrnd, vval, underway.put⟩
    · rw [List.mem_singleton.mp last]
      exact ⟨_, _, sound.underway_sent (subset inQ) (subset within)
        List.mem_cons_self⟩

/-- Some of the promises arrived; once they are enough, something is proposed.
-/
structure Collecting (f : ℕ) (table : Dict ℕ Address) (Q : Finset ℕ)
    (id c : ℕ) (value : Option V) (before : ℕ → ℕ → Option V → Prop)
    (senders collected : List ℕ) (network : Network V) : Prop
    extends Leading f table Q id c value before network where
  promised : ∀ q ∈ senders, ∃ vrnd vval,
    network.Underway table q id (.promise c vrnd vval)
  names : ∀ entry ∈ (network.nodes id).mv, ∃ q ∈ collected, ∃ vrnd vval,
    entry = triple vrnd vval
      ((network.nodes id).getId (network.nodes q).address)
  card : (network.nodes id).mv.card = collected.length
  proposal : collected.length = f + 1 →
    ∃ w, (w = value ∨ ∃ q n, before q n w) ∧
      ∀ q ∈ ids f, network.Underway table id q (.accept c w)

/-- A node with promises proposes its own value or one that was voted for. -/
private theorem Sound.cval_voted (sound : network.Sound f table)
    (member : id ∈ ids f) (present : (network.nodes id).crnd = some c)
    (votes : ∀ q n v, network.Voted q n v → before q n v)
    (nonempty : (network.nodes id).mv.Nonempty) :
    (network.nodes id).cval = (network.nodes id).v ∨
      ∃ q n, before q n (network.nodes id).cval := by
  rcases Node.cval_cases nonempty with none | ⟨largest, held, n, round, cval, -⟩
  · have quiet : (network.nodes id).noPromisesWithValue := none
    exact .inl (by rw [Node.cval, if_pos quiet])
  · right
    obtain ⟨other, known, vrnd, vval, rfl, promised⟩ :=
      sound.proposers.promises id member c present largest held
    obtain ⟨voter, -, -, answered⟩ :=
      sound.acceptors.promised _ c vrnd vval promised
    cases (round : vrnd = some n)
    rw [cval]
    exact ⟨voter, n, votes voter n vval answered.2.2.1⟩

private theorem Collecting.next {senders collected : List ℕ}
    (collecting : network.Collecting f table Q id c value before senders
      collected)
    (subset : Q ⊆ ids f) (within : id ∈ Q) {q : ℕ} (inQ : q ∈ Q)
    (sender : q ∈ senders) (new : q ∉ collected)
    (others : ∀ other ∈ collected, other ∈ Q) :
    ∃ later, (system f).Leads (Within Q) network later ∧
      later.Collecting f table Q id c value before senders
        (collected ++ [q]) := by
  have sound := collecting.sound
  have member := subset within
  obtain ⟨vrnd, vval, underway⟩ := collecting.promised q sender
  have enabled := sound.enabled_delivery (subset inQ) member rfl underway
  obtain ⟨reached, here⟩ : ∃ reached, reached = network.step
    (network.delivery q id (.promise c vrnd vval)) := ⟨_, rfl⟩
  have next : reached.Sound f table := here ▸ sound.step enabled
  let node := (network.nodes id).withPromise (network.nodes q).address vrnd
    vval
  have moved : reached = network.put id node
      (if node.enoughPromises then
        (network.nodes id).broadcast (.accept c node.cval) else []) := by
    rw [here, Network.step, delivery, Node.receive, Node.onPromise_apply,
      if_pos collecting.crnd]
  have rnd : ∀ other,
      (reached.nodes other).rnd = (network.nodes other).rnd := by
    intro other
    rw [moved]
    exact field_put Node.rnd rfl
  have voted : ∀ other,
      (reached.nodes other).vrnd = (network.nodes other).vrnd := by
    intro other
    rw [moved]
    exact field_put Node.vrnd rfl
  have address : ∀ other,
      (reached.nodes other).address = (network.nodes other).address := by
    intro other
    rw [moved]
    exact field_put Node.address rfl
  have leader : reached.nodes id = node := by
    rw [moved, nodes_put_self]
  -- Nobody was counted under the name of the node that promised.
  have entry : triple vrnd vval
      ((network.nodes id).getId (network.nodes q).address) ∉
        (network.nodes id).mv := by
    intro known
    obtain ⟨other, counted, vrnd, vval, same⟩ :=
      collecting.names _ known
    have name := sound.formed.peered.getId_inj (sound.formed.mem_keys member)
      (sound.formed.mem_keys (subset inQ))
      (sound.formed.mem_keys (subset (others other counted)))
      (triple_inj same)
    rw [name] at new
    exact new counted
  have card : node.mv.card = (collected ++ [q]).length := by
    rw [List.length_append, ← collecting.card]
    exact Finset.card_insert_of_notMem entry
  have votes : ∀ other n v, reached.Voted other n v → before other n v := by
    intro other n v vote
    rw [moved] at vote
    refine collecting.votes other n v (voted_of_silent ?_ vote)
    intro m w
    split <;> simp [Node.broadcast]
  refine ⟨reached, here ▸ .single enabled within,
    ⟨next, ?_, ?_, ?_, ?_, votes⟩, ?_, ?_, ?_, ?_⟩
  · rw [leader]
    exact collecting.crnd
  · rw [leader]
    exact collecting.wish
  · intro other member
    rw [rnd]
    exact collecting.rounds other member
  · intro other member
    rw [voted]
    exact collecting.unvoted other member
  · intro other member
    obtain ⟨vrnd, vval, underway⟩ := collecting.promised other member
    rw [moved]
    exact ⟨vrnd, vval, underway.put⟩
  · intro entry held
    rw [leader] at held ⊢
    rcases Finset.mem_insert.mp held with rfl | earlier
    · refine ⟨q, by simp, vrnd, vval, ?_⟩
      rw [address]
      rfl
    · obtain ⟨other, counted, vrnd, vval, shape⟩ :=
        collecting.names entry earlier
      refine ⟨other, List.mem_append_left _ counted, vrnd, vval, ?_⟩
      rw [address]
      exact shape
  · rw [leader]
    exact card
  · intro enough
    have complete : node.enoughPromises := by
      have failures : node.failureNodes = f :=
        sound.formed.failureNodes member
      rw [Node.enoughPromises, failures, card]
      exact enough
    refine ⟨node.cval, ?_, ?_⟩
    · have present : (reached.nodes id).crnd = some c := by
        rw [leader]
        exact collecting.crnd
      have own := next.cval_voted member present votes (by
        rw [leader]
        exact ⟨_, Finset.mem_insert_self _ _⟩)
      rw [leader] at own
      exact own.imp_left fun same => same.trans collecting.wish
    · rw [if_pos complete] at moved
      rw [moved]
      exact fun other _ =>
        sound.underway_broadcast member fun _ sent => sent

/-- All nodes of the set are asked to vote, and some did. -/
structure Voting (f : ℕ) (table : Dict ℕ Address) (Q : Finset ℕ)
    (id c : ℕ) (w : Option V) (voters : List ℕ) (network : Network V) : Prop
    where
  sound : network.Sound f table
  asked : ∀ q ∈ Q, network.Underway table id q (.accept c w)
  rounds : ∀ q ∈ Q, (network.nodes q).rnd ≤ c
  unvoted : ∀ q ∈ Q, q ∉ voters → (network.nodes q).vrnd ≠ some c
  voted : ∀ q ∈ voters, network.Voted q c w ∧
    ∀ other, network.Underway table q other (.learn c w)

private theorem Voting.next {w : Option V} {voters : List ℕ}
    (voting : network.Voting f table Q id c w voters) (subset : Q ⊆ ids f)
    (within : id ∈ Q) {q : ℕ} (inQ : q ∈ Q) (new : q ∉ voters) :
    ∃ later, (system f).Leads (Within Q) network later ∧
      later.Voting f table Q id c w (voters ++ [q]) := by
  have sound := voting.sound
  have enabled := sound.enabled_delivery (subset within) (subset inQ) rfl
    (voting.asked q inQ)
  obtain ⟨reached, here⟩ : ∃ reached, reached = network.step
    (network.delivery id q (.accept c w)) := ⟨_, rfl⟩
  have next : reached.Sound f table := here ▸ sound.step enabled
  have moved : reached = network.put q
      { network.nodes q with rnd := c, vrnd := some c, vval := w }
      (.accepted c w :: (network.nodes q).broadcast (.learn c w)) := by
    rw [here, Network.step, delivery, Node.receive, Node.onAccept_apply,
      if_pos ⟨voting.rounds q inQ, voting.unvoted q inQ new⟩]
  refine ⟨reached, here ▸ .single enabled inQ, next, ?_, ?_, ?_, ?_⟩
  · rw [moved]
    exact fun other member => (voting.asked other member).put
  · intro other member
    rw [moved, nodes_put]
    split
    · exact le_rfl
    · exact voting.rounds other member
  · intro other member notYet
    rw [List.mem_append, List.mem_singleton, not_or] at notYet
    rw [moved, nodes_put, if_neg notYet.2]
    exact voting.unvoted other member notYet.1
  · rw [moved]
    intro other member
    rcases List.mem_append.mp member with earlier | last
    · obtain ⟨voted, underway⟩ := voting.voted other earlier
      exact ⟨(voted_put ..).mpr (.inl voted), fun third =>
        (underway third).put⟩
    · rw [List.mem_singleton.mp last]
      refine ⟨(voted_put ..).mpr (.inr ⟨rfl, List.mem_cons_self⟩), ?_⟩
      exact fun third => sound.underway_broadcast (subset inQ) fun _ sent =>
        List.mem_cons_of_mem _ sent

/-- All nodes of the set are told of a vote, and some learned the value. -/
structure Hearing (f : ℕ) (table : Dict ℕ Address) (Q : Finset ℕ)
    (id c : ℕ) (w : Option V) (learners : List ℕ) (network : Network V) :
    Prop where
  sound : network.Sound f table
  witnessed : network.Witnessed table
  voted : ∀ q ∈ Q, network.Voted q c w
  told : ∀ q ∈ Q, network.Underway table id q (.learn c w)
  learned : ∀ q ∈ learners,
    (network.nodes q).values.lookup c = some w

private theorem Hearing.next {w : Option V} {learners : List ℕ}
    (hearing : network.Hearing f table Q id c w learners)
    (subset : Q ⊆ ids f) (within : id ∈ Q) {q : ℕ} (inQ : q ∈ Q) :
    ∃ later, (system f).Leads (Within Q) network later ∧
      later.Hearing f table Q id c w (learners ++ [q]) := by
  have sound := hearing.sound
  have enabled := sound.enabled_delivery (subset within) (subset inQ) rfl
    (hearing.told q inQ)
  obtain ⟨reached, here⟩ : ∃ reached, reached = network.step
    (network.delivery id q (.learn c w)) := ⟨_, rfl⟩
  have next : reached.Sound f table := here ▸ sound.step enabled
  have reaches : Reaches table network
      (network.delivery id q (.learn c w)) := by
    refine ⟨sound.formed.mem_keys (subset inQ), .inr ?_⟩
    exact hearing.told q inQ _ _
      (sound.formed.address id (subset within))
      (sound.formed.address q (subset inQ))
  have witnessed : reached.Witnessed table :=
    here ▸ hearing.witnessed.step reaches
  have voted : ∀ other ∈ Q, reached.Voted other c w := by
    intro other member
    rw [here]
    exact (voted_put ..).mpr (.inl (hearing.voted other member))
  -- A value known for this round is the one that was proposed there.
  have known : ∀ other ∈ ids f, ∀ v,
      (reached.nodes other).values.lookup c = some v → v = w := by
    intro other member v known
    obtain ⟨voter, -, cast⟩ :=
      witnessed.learned other (sound.formed.mem_keys member) c v known
    exact next.consistent.unique c v w (next.consistent.proposed voter c v cast)
      (next.consistent.proposed id c w (voted id within))
  have moved : reached = network.put q
      (Node.onLearn c w (network.nodes q)).state [] := by
    rw [here, Network.step, delivery, Node.receive, Node.onLearn_apply]
  have values : ∀ other, (reached.nodes other).values =
      if other = q then (Node.onLearn c w (network.nodes q)).state.values
      else (network.nodes other).values := by
    intro other
    rw [moved, nodes_put]
    split <;> rfl
  refine ⟨reached, here ▸ .single enabled inQ, next, witnessed, voted, ?_, ?_⟩
  · rw [here]
    exact fun other member => (hearing.told other member).put
  · intro other member
    by_cases same : other = q
    · rw [same, values, if_pos rfl, Node.onLearn_apply]
      split
      · simp
      · next present =>
          obtain ⟨v, lookup⟩ := Option.ne_none_iff_exists'.mp present
          have still : (reached.nodes q).values.lookup c = some v := by
            rw [values, if_pos rfl, Node.onLearn_apply, if_neg present]
            exact lookup
          rw [lookup, known q (subset inQ) v still]
    · rw [values, if_neg same]
      rcases List.mem_append.mp member with earlier | last
      · exact hearing.learned other earlier
      · exact absurd (List.mem_singleton.mp last) same

end Leading

section Majority

variable [LinearOrder V] {Q : Finset ℕ} {id : ℕ}

private theorem Leads.sound {finish : Network V}
    (led : (system f).Leads (Within Q) network finish)
    (sound : network.Sound f table) (witnessed : network.Witnessed table) :
    finish.Sound f table ∧ finish.Witnessed table := by
  have kept : ∀ (state : Network V) (action : Action V),
      state.Sound f table ∧ state.Witnessed table → Enabled f state action →
      (state.step action).Sound f table ∧
        (state.step action).Witnessed table := by
    rintro state action ⟨sound, witnessed⟩ enabled
    refine ⟨sound.step enabled, witnessed.step ?_⟩
    refine ⟨sound.formed.mem_keys enabled.1, ?_⟩
    rcases enabled.2 with named | ⟨-, sent⟩
    · exact .inl (named ▸ Option.some_ne_none _)
    · exact .inr sent
  exact led.invariant (fun _ _ both enabled _ => kept _ _ both enabled)
    ⟨sound, witnessed⟩

/-- A sound network can be led to a vote of all nodes of a majority for one
value, which all of them learn. -/
private theorem Sound.leads_to_choice (sound : network.Sound f table)
    (witnessed : network.Witnessed table) (subset : Q ⊆ ids f)
    (majority : f + 1 ≤ Q.card) (within : id ∈ Q) (value : Option V) :
    ∃ c w finish, (system f).Leads (Within Q) network finish ∧
      (∀ q ∈ Q, finish.Voted q c w) ∧
      (∀ q ∈ Q, (finish.nodes q).values.lookup c = some w) ∧
      (w = value ∨ ∃ q n, network.Voted q n w) := by
  obtain ⟨R, smaller, card⟩ := Finset.exists_subset_card_eq majority
  have fresh : ∀ (S : Finset ℕ) earlier item rest,
      S.toList = earlier ++ item :: rest → item ∈ S ∧ item ∉ earlier ∧
        ∀ other ∈ earlier, other ∈ S := by
    intro S earlier item rest split
    have distinct := S.nodup_toList
    rw [split] at distinct
    refine ⟨Finset.mem_toList.mp (by simp [split]), ?_, ?_⟩
    · intro member
      exact (List.disjoint_of_nodup_append distinct) member
        List.mem_cons_self
    · intro other member
      exact Finset.mem_toList.mp (by simp [split, member])
  -- The nodes are asked for promises, and make them.
  obtain ⟨c, asking, led, initial⟩ := prepares sound subset within value
  obtain ⟨asked, further, promising⟩ := System.Leads.forEach
    (Promising f table Q id c value network.Voted) Q.toList
    (fun earlier item rest state split promising =>
      have ⟨inQ, new, _⟩ := fresh Q earlier item rest split
      promising.next subset within inQ new) initial
  have led := led.trans further
  -- Enough of them arrive.
  have start : asked.Collecting f table Q id c value network.Voted
      R.toList [] := by
    refine ⟨promising.toLeading, ?_, ?_, ?_, ?_⟩
    · intro q member
      exact promising.promised q
        (Finset.mem_toList.mpr (smaller (Finset.mem_toList.mp member)))
    · simp [promising.mv]
    · simp [promising.mv]
    · simp
  obtain ⟨proposed, further, collecting⟩ := System.Leads.forEach
    (Collecting f table Q id c value network.Voted R.toList) R.toList
    (fun earlier item rest state split collecting =>
      have ⟨inR, new, others⟩ := fresh R earlier item rest split
      collecting.next subset within (smaller inR)
        (Finset.mem_toList.mpr inR) new
        fun other member => smaller (others other member)) start
  have led := led.trans further
  obtain ⟨w, origin, underway⟩ := collecting.proposal (by simp [card])
  -- The nodes vote.
  obtain ⟨chosen, further, voting⟩ := System.Leads.forEach
    (Voting f table Q id c w) Q.toList
    (fun earlier item rest state split voting =>
      have ⟨inQ, new, _⟩ := fresh Q earlier item rest split
      voting.next subset within inQ new)
    ⟨collecting.sound, fun q inQ => underway q (subset inQ),
      collecting.rounds, fun q inQ _ => collecting.unvoted q inQ, by simp⟩
  have led := led.trans further
  -- They tell each other, and learn.
  obtain ⟨finish, further, hearing⟩ := System.Leads.forEach
    (Hearing f table Q id c w) Q.toList
    (fun earlier item rest state split hearing =>
      have ⟨inQ, _, _⟩ := fresh Q earlier item rest split
      hearing.next subset within inQ)
    ⟨voting.sound, (Leads.sound led sound witnessed).2,
      fun q inQ => (voting.voted q (Finset.mem_toList.mpr inQ)).1,
      fun q _ => (voting.voted id (Finset.mem_toList.mpr within)).2 q,
      by simp⟩
  exact ⟨c, w, finish, led.trans further, hearing.voted,
    fun q inQ => hearing.learned q (Finset.mem_toList.mpr inQ), origin⟩

/-- Whatever happened before, and even if no node outside a majority takes a
step any more: the nodes of the majority can still be led to choose a value,
which all of them learn.  It is the one that was chosen before if there was
one, and the one their leader is given now unless another was voted for. -/
theorem majority_can_choose (starts : network.Starts f table)
    {actions : List (Action V)} (run : (system f).Run network actions)
    (subset : Q ⊆ ids f) (majority : f + 1 ≤ Q.card) (within : id ∈ Q)
    (value : Option V) :
    let reached := (system f).after network actions
    ∃ later, (system f).Run reached later ∧
      (∀ action ∈ later, action.id ∈ Q) ∧
      let finish := (system f).after reached later
      ∃ c w, finish.Chosen f c w ∧
        (∀ q ∈ Q, (finish.nodes q).values.lookup c = some w) ∧
        (∀ n v, reached.Chosen f n v → v = w) ∧
        (w = value ∨ ∃ q n, reached.Voted q n w) := by
  intro reached
  have sound : reached.Sound f table := Run.sound starts run
  have witnessed : ((peers table).after network actions).Witnessed table :=
    System.Run.invariant (Run.peers starts run).1
      (fun _ _ witnessed reaches => Witnessed.step witnessed reaches)
      starts.begins.witnessed
  rw [(Run.peers starts run).2] at witnessed
  obtain ⟨c, w, finish, ⟨later, further, inside, rfl⟩, voted, learned,
    origin⟩ := sound.leads_to_choice witnessed subset majority within value
  have chosen : Chosen f ((system f).after reached later) c w := by
    refine ⟨Q, subset, ?_, voted⟩
    rw [card_ids]
    omega
  refine ⟨later, further, inside, c, w, chosen, learned, ?_, origin⟩
  intro n v earlier
  have kept : ∀ (state : Network V) action, state.Chosen f n v →
      Enabled f state action → (state.step action).Chosen f n v :=
    fun _ _ chosen _ => chosen.step
  have still : Chosen f ((system f).after reached later) n v :=
    further.invariant kept earlier
  have next := further.invariant
    (fun _ _ sound enabled => Sound.step sound enabled) sound
  exact next.consistent.chosen_eq still.ballots chosen.ballots

/-- Two nodes choose what their leader is given while the third one, which made
a promise to another, takes no more steps. -/
theorem majority_can_choose_without :
    let reached := (system 1).after three
      [⟨3, ("127.0.0.1", 9), .trustValue 3 (some 5)⟩,
        ⟨3, ("127.0.0.1", 2003), .prepare 3⟩]
    ∃ later, (system 1).Run reached later ∧
      (∀ action ∈ later, action.id ∈ ({1, 2} : Finset ℕ)) ∧
      ∃ c w, ((system 1).after reached later).Chosen 1 c w := by
  intro reached
  have run : (system 1).Run three
      [⟨3, ("127.0.0.1", 9), .trustValue 3 (some 5)⟩,
        ⟨3, ("127.0.0.1", 2003), .prepare 3⟩] := by decide
  have inside : ({1, 2} : Finset ℕ) ⊆ ids 1 := by decide
  have within : 1 ∈ ({1, 2} : Finset ℕ) := by decide
  obtain ⟨later, further, steps, c, w, chosen, -⟩ :=
    majority_can_choose three_starts run inside (by decide) within (some 6)
  exact ⟨later, further, steps, c, w, chosen⟩

end Majority

end Network

end SwitchPaxos.Insane

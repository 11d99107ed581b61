import SwitchPaxos.Controller.Publishing

/-!
# Nodes in step

Over links that keep the order, a node hears that the leader voted only after
it was asked to vote itself.  With three nodes a majority contains the leader
or the node itself, so a slot that is learned holds a vote.  The nodes then
process the client packets in the order in which the leader numbered them.
-/

namespace SwitchPaxos

/-- A frame asks for a vote. -/
def Frame.Requests (frame : Frame) (seqno : ℕ) : Prop :=
  frame.type = PaxosMessage.ACCEPT ∧
    ∃ n v, PaxosMessage.unpackAccept frame.payload = .ok (n, seqno, v)

/-- A frame reports a vote. -/
def Frame.Reports (frame : Frame) (seqno : ℕ) : Prop :=
  frame.type = PaxosMessage.LEARN ∧
    ∃ n, PaxosMessage.unpackLearn frame.payload = .ok (n, seqno)

theorem Frame.requests_accept {src dst : EthAddr} {n seqno : ℕ} {v : Bytes}
    (fits : n ≤ UINT32_MAX ∧ seqno ≤ UINT32_MAX) :
    (Frame.accept src dst n seqno v).Requests seqno :=
  ⟨rfl, n, v, PaxosMessage.unpackAccept_header fits.1 fits.2 v⟩

theorem Frame.reports_learn {src dst : EthAddr} {n seqno other : ℕ}
    (fits : n ≤ UINT32_MAX ∧ seqno ≤ UINT32_MAX)
    (reports : (Frame.learn src dst n seqno).Reports other) :
    other = seqno := by
  obtain ⟨-, round, decoded⟩ := reports
  have header := PaxosMessage.unpackLearn_header fits.1 fits.2
  cases header.symm.trans decoded
  rfl

namespace Network

/-- At the leader everybody vouches, at another node the leader and the node
itself. -/
def Vouches (leader mac src : EthAddr) : Prop :=
  mac = leader ∨ src = leader ∨ src = mac

theorem overlap {N : Finset EthAddr} {leader mac : EthAddr}
    (three : N.card = 3) (leads : leader ∈ N) (member : mac ∈ N) :
    Slots.Overlap N (Vouches leader mac) := by
  intro Q subset majority
  rw [three] at majority
  by_contra none
  push Not at none
  have nonempty : Q.Nonempty := Finset.card_pos.mp (by omega)
  obtain ⟨some, present⟩ := nonempty
  have other : mac ≠ leader := fun same => none some present (.inl same)
  have outside : Q ⊆ (N.erase leader).erase mac := by
    intro src inQ
    have silent := none src inQ
    simp only [Vouches, not_or] at silent
    simp only [Finset.mem_erase]
    exact ⟨silent.2.2, silent.2.1, subset inQ⟩
  have small := Finset.card_le_card outside
  rw [Finset.card_erase_of_mem (Finset.mem_erase.mpr ⟨other, member⟩),
    Finset.card_erase_of_mem leads] at small
  omega

/-- The stores, the rounds, the votes and what is under way fit together. -/
structure InStep (N : Finset EthAddr) (leader : EthAddr) (network : Network) :
    Prop where
  accountable : network.cluster.Accountable N leader
  inOrder : ∀ mac ∈ N, (network.cluster.nodes mac).state.slots.InOrder
    (calls (network.cluster.logOf mac))
  sent : network.Sent
  rounds : ∀ mac ∈ N, (network.cluster.nodes mac).state.crnd ≤
    (network.cluster.nodes leader).state.crnd
  asked : ∀ frame ∈ network.cluster.frames,
    frame.type = PaxosMessage.ACCEPT → ∀ n seqno v,
      PaxosMessage.unpackAccept frame.payload = .ok (n, seqno, v) →
      frame.dst ≠ leader ∧
        n = (network.cluster.nodes leader).state.crnd ∧
        (network.cluster.nodes leader).state.slots.Knows seqno
  voted : ∀ mac n seqno v, network.cluster.Voted mac n seqno v →
    (network.cluster.nodes mac).state.slots.Knows seqno ∧
      (network.cluster.nodes leader).state.slots.Knows seqno
  heralded : ∀ mac ∈ N, Heralded Frame.Requests Frame.Reports
    (network.cluster.nodes mac).state.slots.Knows (network.channels leader mac)
  informed : ∀ mac ∈ N, (network.cluster.nodes mac).state.slots.Informed N
    (Vouches leader mac)
  numbered : network.cluster.HandsOverNumbered

namespace InStep

variable {N : Finset EthAddr} {leader : EthAddr} {network : Network}
  {action : ClusterAction}

theorem orderly (inStep : network.InStep N leader) :
    network.cluster.Orderly N leader :=
  ⟨inStep.accountable, fun mac member => ⟨_, inStep.inOrder mac member⟩⟩

theorem own (inStep : network.InStep N leader) {mac : EthAddr}
    (member : mac ∈ N) : (network.cluster.nodes mac).mac ∈
      (network.cluster.nodes mac).state.N := by
  rw [inStep.accountable.formed.mac mac member,
    inStep.accountable.formed.nodes mac member]
  exact member

theorem actsBy (inStep : network.InStep N leader)
    (enabled : Enabled N network action) :
    ActsBy (action.event.operations (network.cluster.nodes action.mac))
      (network.cluster.nodes action.mac)
      (action.event.handle (network.cluster.nodes action.mac)) :=
  inStep.accountable.actsBy (inStep.sent.enabled enabled)

theorem knows (inStep : network.InStep N leader)
    (enabled : Enabled N network action) {mac : EthAddr} {seqno : ℕ}
    (known : (network.cluster.nodes mac).state.slots.Knows seqno) :
    ((network.step action).cluster.nodes mac).state.slots.Knows seqno := by
  have stored := (inStep.actsBy enabled).1
  rw [Network.step, Cluster.step, Cluster.record, Cluster.nodes_put]
  split
  · next here =>
      subst here
      rw [stored]
      exact StoreOperation.knows_forEach (inStep.inOrder _ enabled.1) _ known
  · exact known

/-- A node reports a vote for a sequence number, which it knows by then, in
the round of the leader.  It was asked to vote, or it is the leader and asks
the others. -/
structure Publishes (leader : EthAddr) (network : Network)
    (action : ClusterAction) (n seqno : ℕ) (v : Bytes)
    (requests : List Frame) (own : List Effect) : Prop where
  fits : n ≤ UINT32_MAX ∧ seqno ≤ UINT32_MAX
  round : n = (network.cluster.nodes leader).state.crnd
  casts : Casts (network.cluster.nodes action.mac) n seqno v own
  frames : sentFrames (action.event.handle
    (network.cluster.nodes action.mac)).effects = requests ++ sentFrames own
  votes : SwitchPaxos.votes (action.event.handle
    (network.cluster.nodes action.mac)).effects = SwitchPaxos.votes own
  crnd : (action.event.handle
      (network.cluster.nodes action.mac)).state.state.crnd = n ∨
    (action.event.handle
      (network.cluster.nodes action.mac)).state.state.crnd =
        (network.cluster.nodes action.mac).state.crnd
  known : (action.event.handle
    (network.cluster.nodes action.mac)).state.state.slots.Knows seqno
  cause : (action.mac ≠ leader ∧ requests = [] ∧
      (network.cluster.nodes leader).state.slots.Knows seqno) ∨
    (action.mac = leader ∧ requests =
      (network.cluster.nodes action.mac).others.map fun dst =>
        Frame.accept (network.cluster.nodes action.mac).mac dst n seqno v)

section Deliver

variable {mac : EthAddr} {answer : ℕ → Bool} {event : PacketIn}

private theorem head_sent (inStep : network.InStep N leader)
    (oldest : (network.channels event.parsed.src mac).head? =
      some event.parsed) :
    network.cluster.Carries N event.parsed ∧
      event.parsed ∈ network.cluster.frames ∧ event.parsed.dst = mac := by
  obtain ⟨known, -, dst⟩ := inStep.sent _ _ _ (List.mem_of_head? oldest)
  exact ⟨inStep.accountable.frames _ known, known, dst⟩

private theorem dispatched (inStep : network.InStep N leader)
    (member : mac ∈ N) (addressed : event.parsed.dst = mac) :
    (network.cluster.nodes mac).dispatches event = true ∧
      (network.cluster.nodes mac).Addressed (some event) := by
  have own := inStep.accountable.formed.mac mac member
  constructor
  · simp [PaxosController.dispatches, own, addressed]
  · left
    rw [own]
    exact addressed

private theorem state_deliver (self : PaxosController) :
    ((ClusterEvent.deliver answer event).handle self).state =
      (PaxosController.handlePaxos answer event self).state := by
  simp only [ClusterEvent.handle, Handler.bind_apply, Handler.andThen_pure]

private theorem effects_deliver (self : PaxosController) :
    ((ClusterEvent.deliver answer event).handle self).effects =
      (PaxosController.handlePaxos answer event self).effects := by
  simp only [ClusterEvent.handle, Handler.bind_apply, Handler.andThen_pure]

/-- A request that arrives is handled, and its number is known from then on.
-/
theorem publishes_request (inStep : network.InStep N leader)
    (enabled : Enabled N network ⟨mac, .deliver answer event⟩)
    (type : event.parsed.type = PaxosMessage.ACCEPT) :
    ∃ n seqno v own, PaxosMessage.unpackAccept event.parsed.payload =
        .ok (n, seqno, v) ∧
      Publishes leader network ⟨mac, .deliver answer event⟩ n seqno v []
        own := by
  obtain ⟨member, client | oldest⟩ := enabled
  · rw [type] at client
    exact absurd client (by decide)
  obtain ⟨carries, sent, addressed⟩ := inStep.head_sent oldest
  obtain ⟨dispatches, forUs⟩ := inStep.dispatched member addressed
  have joined := inStep.accountable.formed.joined mac member
  have known : PaxosMessage.isKnownPaxosType event.parsed.type = true := by
    rw [type]
    decide
  have notLearn : event.parsed.type ≠ PaxosMessage.LEARN := by
    rw [type]
    decide
  rcases carries with ⟨n, seqno, v, same, fits, -⟩ | ⟨n, seqno, v, same, -⟩
  · have decoded : PaxosMessage.unpackAccept event.parsed.payload =
        .ok (n, seqno, v) := by
      rw [same]
      exact PaxosMessage.unpackAccept_header fits.1 fits.2 v
    obtain ⟨notLeader, round, learnt⟩ :=
      inStep.asked _ sent type n seqno v decoded
    rw [addressed] at notLeader
    have handled : PaxosController.handlePaxos answer event
        (network.cluster.nodes mac) = PaxosController.onAccept answer event
          event.parsed.payload (network.cluster.nodes mac) := by
      rcases PaxosController.handlePaxos_cases answer
        (network.cluster.nodes mac) known with
        ⟨-, handled⟩ | ⟨ignored, -⟩
      · rw [handled, type, PaxosController.dispatchPaxos_accept joined]
      · rw [dispatches] at ignored
        cases ignored
    have operations : (ClusterEvent.deliver answer event).operations
        (network.cluster.nodes mac) =
          (network.cluster.nodes mac).acceptOperations answer event
            event.parsed.payload := by
      rw [ClusterEvent.operations, if_pos dispatches, if_pos type]
    obtain ⟨casts, crnd⟩ := (network.cluster.nodes mac).onAccept_casts answer
      decoded forUs (inStep.own member)
    have stored := (inStep.actsBy ⟨member, .inr oldest⟩).1
    have current : (network.cluster.nodes mac).state.crnd ≤ n := by
      rw [round]
      exact inStep.rounds mac member
    refine ⟨n, seqno, v, (PaxosController.onAccept answer event
      event.parsed.payload (network.cluster.nodes mac)).effects, decoded, ?_⟩
    constructor
    · exact fits
    · exact round
    · exact casts
    · rw [effects_deliver, handled, List.nil_append]
    · rw [effects_deliver, handled]
    · rw [state_deliver, handled]
      exact crnd
    · rw [stored, operations]
      exact PaxosController.knows_acceptOperations _ answer
        (inStep.inOrder mac member) decoded forUs current
    · exact .inl ⟨notLeader, rfl, learnt⟩
  · rw [same] at notLearn
    exact absurd rfl notLearn

private theorem quiet_deliver {self : PaxosController}
    (quiet : Quiet self (PaxosController.handlePaxos answer event self)) :
    Quiet self ((ClusterEvent.deliver answer event).handle self) := by
  obtain ⟨frames, votes, crnd⟩ := quiet
  constructor
  · rw [effects_deliver]
    exact frames
  · rw [effects_deliver]
    exact votes
  · rw [state_deliver]
    exact crnd

private theorem publishes_client (inStep : network.InStep N leader)
    (enabled : Enabled N network ⟨mac, .deliver answer event⟩)
    (type : event.parsed.type = PaxosMessage.CLIENT) :
    Quiet (network.cluster.nodes mac) ((ClusterEvent.deliver answer
        event).handle (network.cluster.nodes mac)) ∨
      ∃ n seqno v requests own,
        Publishes leader network ⟨mac, .deliver answer event⟩ n seqno v
          requests own := by
  have member := enabled.1
  have joined := inStep.accountable.formed.joined mac member
  have known : PaxosMessage.isKnownPaxosType event.parsed.type = true := by
    rw [type]
    decide
  have notAccept : PaxosMessage.CLIENT ≠ PaxosMessage.ACCEPT := by decide
  have stored := (inStep.actsBy enabled).1
  rcases PaxosController.handlePaxos_cases answer (network.cluster.nodes mac)
    known with ⟨dispatches, handled⟩ | ⟨-, result, -, handled⟩
  · rw [type, PaxosController.dispatchPaxos_client joined] at handled
    rcases PaxosController.onClient_casts (network.cluster.nodes mac) answer
      event event.parsed.payload joined (inStep.own member) with
      quiet | ⟨seqno, v, own, isleader, fits, operations, casts, frames, votes,
        crnd⟩
    · left
      apply quiet_deliver
      rw [handled]
      exact quiet
    · obtain rfl := inStep.accountable.formed.isleader mac member isleader
      refine .inr ⟨(network.cluster.nodes mac).state.crnd, seqno, v,
        (network.cluster.nodes mac).others.map fun dst =>
          Frame.accept (network.cluster.nodes mac).mac dst
            (network.cluster.nodes mac).state.crnd seqno v, own, ?_⟩
      constructor
      · exact fits
      · rfl
      · exact casts
      · rw [effects_deliver, handled]
        exact frames
      · rw [effects_deliver, handled]
        exact votes
      · left
        rw [state_deliver, handled]
        exact crnd
      · rw [stored, ClusterEvent.operations, if_pos dispatches, type,
          if_neg notAccept, if_pos rfl, operations]
        exact PaxosController.knows_acceptOperations _ answer
          (inStep.inOrder mac member)
          (PaxosMessage.unpackAccept_header fits.1 fits.2 v)
          (PaxosController.addressed_none _) le_rfl
      · exact .inr ⟨rfl, rfl⟩
  · left
    apply quiet_deliver
    rw [handled]
    exact PaxosController.quiet_idle _ result _

private theorem quiet_report (inStep : network.InStep N leader)
    (member : mac ∈ N) (type : event.parsed.type = PaxosMessage.LEARN) :
    Quiet (network.cluster.nodes mac) ((ClusterEvent.deliver answer
      event).handle (network.cluster.nodes mac)) := by
  have joined := inStep.accountable.formed.joined mac member
  have known : PaxosMessage.isKnownPaxosType event.parsed.type = true := by
    rw [type]
    decide
  apply quiet_deliver
  rcases PaxosController.handlePaxos_cases answer (network.cluster.nodes mac)
    known with ⟨-, handled⟩ | ⟨-, result, -, handled⟩
  · rw [handled, type, PaxosController.dispatchPaxos_learn joined]
    exact PaxosController.onLearn_quiet _ answer _ _
  · rw [handled]
    exact PaxosController.quiet_idle _ result _

end Deliver

theorem publishes (inStep : network.InStep N leader)
    (enabled : Enabled N network action) :
    Quiet (network.cluster.nodes action.mac)
        (action.event.handle (network.cluster.nodes action.mac)) ∨
      ∃ n seqno v requests own,
        Publishes leader network action n seqno v requests own := by
  have known := inStep.accountable.known (inStep.sent.enabled enabled)
  obtain ⟨mac, event⟩ := action
  cases event with
  | pump answer => exact .inl ⟨sentFrames_handed _, votes_handed _, rfl⟩
  | collect n => exact .inl ⟨rfl, rfl, rfl⟩
  | deliver answer event =>
      rcases known with type | type | type
      · obtain ⟨n, seqno, v, own, -, published⟩ :=
          inStep.publishes_request enabled type
        exact .inr ⟨n, seqno, v, [], own, published⟩
      · exact inStep.publishes_client enabled type
      · exact .inl (inStep.quiet_report enabled.1 type)

/-- Who vouches reported only what the node knows: the leader knows of every
vote, a node of its own, and reports of the leader are heralded. -/
private theorem told_report (inStep : network.InStep N leader) {mac : EthAddr}
    {answer : ℕ → Bool} {event : PacketIn}
    (enabled : Enabled N network ⟨mac, .deliver answer event⟩)
    (type : event.parsed.type = PaxosMessage.LEARN) :
    StoreOperation.Told N (Vouches leader mac)
      (network.cluster.nodes mac).state.slots
      ((network.cluster.nodes mac).learnOperations answer event
        event.parsed.payload) := by
  obtain ⟨member, client | oldest⟩ := enabled
  · rw [type] at client
    exact absurd client (by decide)
  obtain ⟨carries, -, -⟩ := inStep.head_sent oldest
  rcases carries with ⟨n, seqno, v, same, -⟩ |
    ⟨n, seqno, v, same, fits, sender, voted⟩
  · have other : PaxosMessage.ACCEPT ≠ PaxosMessage.LEARN := by decide
    rw [same] at type
    exact absurd type other
  · have decoded : PaxosMessage.unpackLearn event.parsed.payload =
        .ok (n, seqno) := by
      rw [same]
      exact PaxosMessage.unpackLearn_header fits.1 fits.2
    unfold PaxosController.learnOperations
    rw [decoded]
    simp only
    split
    · refine ⟨⟨sender, ?_⟩, trivial⟩
      rintro (leads | fromLeader | ownReport)
      · rw [leads]
        exact (inStep.voted _ n seqno v voted).2
      · have src : event.parsed.src = leader := fromLeader
        have heralded := inStep.heralded mac member
        rw [src] at oldest
        cases channel : network.channels leader mac with
        | nil =>
            rw [channel] at oldest
            cases oldest
        | cons frame frames =>
            rw [channel] at oldest heralded
            cases oldest
            exact heralded.1 seqno ⟨type, n, decoded⟩
      · have src : event.parsed.src = mac := ownReport
        rw [src] at voted
        exact (inStep.voted _ n seqno v voted).1
    · trivial

/-- A LEARN is counted only from nodes, and from one that vouches only if the
number is known. -/
theorem told (inStep : network.InStep N leader)
    (enabled : Enabled N network action) :
    StoreOperation.Told N (Vouches leader action.mac)
      (network.cluster.nodes action.mac).state.slots
      (action.event.operations (network.cluster.nodes action.mac)) := by
  have known := inStep.accountable.known (inStep.sent.enabled enabled)
  obtain ⟨mac, event⟩ := action
  have own := inStep.accountable.formed.mac mac enabled.1
  have isNode : (network.cluster.nodes mac).mac ∈ N := by
    rw [own]
    exact enabled.1
  cases event with
  | pump answer => exact ⟨trivial, trivial⟩
  | collect n => exact ⟨trivial, trivial⟩
  | deliver answer event =>
      simp only [ClusterEvent.operations]
      split
      · split
        · exact PaxosController.told_acceptOperations _ answer _ _ isNode
        · split
          · exact PaxosController.told_clientOperations _ answer _ isNode
          · next notAccept notClient =>
              exact inStep.told_report enabled
                ((known.resolve_left notAccept).resolve_left notClient)
      · trivial

end InStep

end Network

end SwitchPaxos

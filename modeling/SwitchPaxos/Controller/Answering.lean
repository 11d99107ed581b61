import SwitchPaxos.Controller.Hearing
import SwitchPaxos.Controller.Publishing

/-!
# What a node answers

A request to vote is answered by a vote of its round: the node tells all
others of it and has heard its own report, or the vote was there before.  A
client packet makes the leader ask all others.
-/

namespace SwitchPaxos

theorem mem_votes {n seqno : ℕ} {v : Bytes} {log : List Effect} :
    (n, seqno, v) ∈ votes log ↔ Effect.accepted n seqno v ∈ log := by
  rw [votes, List.mem_filterMap]
  constructor
  · rintro ⟨effect, member, same⟩
    cases effect <;> simp only [Effect.accepted?, reduceCtorEq,
      Option.some.injEq] at same
    cases same
    exact member
  · intro member
    exact ⟨_, member, rfl⟩

/-- The node reports its vote to all others, and has heard it itself. -/
structure Reports (node : PaxosController) (n seqno : ℕ) (v : Bytes)
    (outcome : Outcome PaxosController Effect Failure α) : Prop where
  votes : votes outcome.effects = [(n, seqno, v)]
  frames : sentFrames outcome.effects =
    node.others.map fun dst => Frame.learn node.mac dst n seqno
  hears : outcome.state.state.slots.Hears n node.mac seqno
  knows : outcome.state.state.slots.Knows seqno
  crnd : outcome.state.state.crnd = n

namespace PaxosController

variable (self : PaxosController) (answer : ℕ → Bool)
  {event : Option PacketIn} {message : Bytes} {n seqno : ℕ} {v : Bytes}
  {log : List Handed}

theorem castVote_reports (member : self.mac ∈ self.state.N)
    (inOrder : self.state.slots.InOrder log) (upTo : self.state.slots.UpTo n) :
    Reports self n seqno v (self.castVote answer n seqno v) := by
  have voted := (StoreOperation.inOrder inOrder (.vote n seqno v)).2
  have later := StoreOperation.upTo upTo (.vote n seqno v) trivial
  have slots : (self.castVote answer n seqno v).state.state.slots =
      ((StoreOperation.learn answer self.mac n seqno).apply
        (self.state.slots.vote n seqno v)).state := by
    rw [castVote_state, castSlots, if_pos member]
    rfl
  constructor
  · rw [castVote_effects member]
    simp
  · rw [castVote_effects member]
    simp [Frame.learn]
  · rw [slots]
    exact StoreOperation.hears_learn later answer
  · rw [slots]
    exact StoreOperation.knows voted _ (Slots.knows_vote v)
  · rw [castVote_state]
    rfl

/-- A request of a round that is not over is answered by a vote, unless there
is a vote of that round. -/
theorem onAccept_reports
    (decoded : PaxosMessage.unpackAccept message = .ok (n, seqno, v))
    (addressed : self.Addressed event) (member : self.mac ∈ self.state.N)
    (current : self.state.crnd ≤ n) (inOrder : self.state.slots.InOrder log)
    (upTo : self.state.slots.UpTo n) :
    Reports self n seqno v (onAccept answer event message self) ∨
      ((self.state.slots.ballotAt seqno).1 = some n ∧
        onAccept answer event message self =
          ⟨.ok .halt, self.withSlots (self.state.slots.touch seqno), []⟩) := by
  rw [onAccept_addressed answer decoded addressed]
  by_cases accepts : self.Accepts n seqno
  · rw [if_pos accepts]
    exact .inl (self.castVote_reports answer member inOrder upTo)
  · rw [if_neg accepts]
    refine .inr ⟨?_, rfl⟩
    by_contra none
    exact accepts ⟨current, none⟩

theorem numbered?_onAccept (event : Option PacketIn) (message : Bytes) :
    (onAccept answer event message self).effects.filterMap
      Effect.numbered? = [] := by
  rcases onAccept_cases answer event message self with
    ⟨n, seqno, v, -, -, -, handled⟩ | ⟨result, slots, -, handled⟩
  · rw [handled]
    by_cases member : self.mac ∈ self.state.N
    · rw [castVote_effects member, List.filterMap_append,
        List.filterMap_cons_none rfl, numbered?_announce, numbered?_handed]
      rfl
    · rw [castVote, if_neg member]
      rfl
  · rw [handled]
    rfl

/-- A client packet is left alone, or its number is too large to be sent, or
the leader asks all others to vote for it and handles its own request. -/
theorem onClient_asks (event : PacketIn) (message : Bytes)
    (member : self.mac ∈ self.state.N)
    (bounded : self.state.crnd ≤ UINT32_MAX) :
    (Quiet self (onClient answer event message self) ∧
      ∀ entry ∈ (onClient answer event message self).effects.filterMap
        Effect.numbered?, UINT32_MAX < entry.1) ∨
    ∃ last v, self.isleader = true ∧ self.leader = some last ∧
      last.nextSeqno.1 ≤ UINT32_MAX ∧
      ∃ inner : Outcome PaxosController Effect Failure Reply,
        inner = onAccept answer none
          (PaxosMessage.header self.state.crnd last.nextSeqno.1 ++ v)
            (self.withClient last event.port) ∧
        (onClient answer event message self).state = inner.state ∧
        sentFrames (onClient answer event message self).effects =
          (self.others.map fun dst => Frame.accept self.mac dst
            self.state.crnd last.nextSeqno.1 v) ++
            sentFrames inner.effects ∧
        votes (onClient answer event message self).effects =
          votes inner.effects ∧
        (∀ entry ∈ (onClient answer event message self).effects.filterMap
          Effect.numbered?, entry = (last.nextSeqno.1, v)) := by
  rcases onClient_cases answer event message self with
    ⟨result, handled⟩ | ⟨isleader, last, present,
      ⟨failure, handled⟩ | ⟨v, decoded, handled⟩⟩
  · rw [handled]
    exact .inl ⟨self.quiet_idle result self.state.slots, by simp⟩
  · rw [handled]
    exact .inl ⟨⟨rfl, rfl, rfl⟩, by simp⟩
  · have known : ¬ (self.withClient last event.port).mac ∉
        (self.withClient last event.port).state.N := not_not_intro member
    rw [handled, broadcastAccept, if_neg known]
    by_cases small : last.nextSeqno.1 ≤ UINT32_MAX
    · rw [if_pos ⟨bounded, small⟩, Handler.andThen_pure]
      refine .inr ⟨last, v, isleader, present, small, _, rfl, rfl, ?_, ?_, ?_⟩
      · simp [others, Frame.accept]
      · simp
      · intro entry numbered
        simpa [numbered?_onAccept, Effect.numbered?] using numbered
    · rw [if_neg fun fits => small fits.2]
      refine .inl ⟨⟨rfl, rfl, rfl⟩, ?_⟩
      intro entry numbered
      simp only [Outcome.after_effects, List.append_nil, List.filterMap_cons,
        Effect.numbered?, List.filterMap_nil, List.mem_singleton] at numbered
      rw [numbered]
      exact Nat.lt_of_not_le small

theorem notAfter_acceptOperations {r : ℕ}
    (notAfter : ∀ n seqno v,
      PaxosMessage.unpackAccept message = .ok (n, seqno, v) → n ≤ r) :
    ∀ operation ∈ self.acceptOperations answer event message,
      operation.NotAfter r := by
  unfold acceptOperations
  cases decoded : PaxosMessage.unpackAccept message with
  | error failure => simp
  | ok fields =>
      obtain ⟨n, seqno, v⟩ := fields
      have bound := notAfter n seqno v decoded
      simp only
      split_ifs <;> simp [StoreOperation.NotAfter, bound]

theorem notAfter_learnOperations {r : ℕ}
    (notAfter : ∀ n seqno,
      PaxosMessage.unpackLearn message = .ok (n, seqno) → n ≤ r) :
    ∀ operation ∈ self.learnOperations answer event message,
      operation.NotAfter r := by
  unfold learnOperations
  cases decoded : PaxosMessage.unpackLearn message with
  | error failure => simp
  | ok fields =>
      obtain ⟨n, seqno⟩ := fields
      have bound := notAfter n seqno decoded
      simp only
      split_ifs <;> simp [StoreOperation.NotAfter, bound]

theorem notAfter_clientOperations (message : Bytes) :
    ∀ operation ∈ self.clientOperations answer message,
      operation.NotAfter self.state.crnd := by
  unfold clientOperations
  split
  · next last v present decoded =>
      split
      · next fits =>
          apply notAfter_acceptOperations
          intro n seqno w carried
          rw [PaxosMessage.unpackAccept_header fits.2.2.1 fits.2.2.2] at carried
          cases carried
          exact le_rfl
      · simp
  · simp

theorem dispatches_of_addressed {event : PacketIn}
    (addressed : self.Addressed (some event)) :
    self.dispatches event = true := by
  rcases addressed with forUs | forAll
  · have dst : event.parsed.dst = self.mac := forUs
    simp [dispatches, dst]
  · have dst : event.parsed.dst = ETHER_BROADCAST := forAll
    simp [dispatches, dst]

theorem handlePaxos_accept {event : PacketIn} (joined : self.joined = true)
    (type : event.parsed.type = PaxosMessage.ACCEPT)
    (decoded : PaxosMessage.unpackAccept event.parsed.payload =
      .ok (n, seqno, v)) :
    (self.Addressed (some event) ∧ handlePaxos answer event self =
      onAccept answer event event.parsed.payload self) ∨
    (¬ self.Addressed (some event) ∧
      ∃ result, handlePaxos answer event self = ⟨result, self, []⟩) := by
  have known : PaxosMessage.isKnownPaxosType event.parsed.type = true := by
    rw [type]
    decide
  by_cases addressed : self.Addressed (some event)
  · left
    rcases handlePaxos_cases answer self known with
      ⟨-, handled⟩ | ⟨ignored, -⟩
    · rw [handled, type, dispatchPaxos_accept joined]
      exact ⟨addressed, rfl⟩
    · rw [self.dispatches_of_addressed addressed] at ignored
      cases ignored
  · right
    refine ⟨addressed, ?_⟩
    rcases handlePaxos_cases answer self known with
      ⟨-, handled⟩ | ⟨-, result, -, handled⟩
    · rw [handled, type, dispatchPaxos_accept joined,
        onAccept_ignored decoded addressed]
      exact ⟨_, rfl⟩
    · exact ⟨result, handled⟩

theorem handlePaxos_learn {event : PacketIn} (joined : self.joined = true)
    (type : event.parsed.type = PaxosMessage.LEARN)
    (decoded : PaxosMessage.unpackLearn event.parsed.payload =
      .ok (n, seqno)) :
    (self.Addressed (some event) ∧ handlePaxos answer event self =
      learnFrom answer event.parsed.src n seqno self) ∨
    (¬ self.Addressed (some event) ∧
      ∃ result, handlePaxos answer event self = ⟨result, self, []⟩) := by
  have known : PaxosMessage.isKnownPaxosType event.parsed.type = true := by
    rw [type]
    decide
  by_cases addressed : self.Addressed (some event)
  · left
    rcases handlePaxos_cases answer self known with
      ⟨-, handled⟩ | ⟨ignored, -⟩
    · rw [handled, type, dispatchPaxos_learn joined,
        onLearn_addressed answer decoded addressed]
      exact ⟨addressed, rfl⟩
    · rw [self.dispatches_of_addressed addressed] at ignored
      cases ignored
  · right
    refine ⟨addressed, ?_⟩
    rcases handlePaxos_cases answer self known with
      ⟨-, handled⟩ | ⟨-, result, -, handled⟩
    · rw [handled, type, dispatchPaxos_learn joined,
        onLearn_ignored decoded addressed]
      exact ⟨_, rfl⟩
    · exact ⟨result, handled⟩

end PaxosController

theorem ClusterEvent.handle_deliver (answer : ℕ → Bool) (event : PacketIn)
    (self : PaxosController) :
    (ClusterEvent.deliver answer event).handle self =
      (PaxosController.handlePaxos answer event self).andThen
        fun _ => pure () :=
  rfl

end SwitchPaxos

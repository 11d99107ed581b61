import SwitchPaxos.Controller.AnyQueue
import SwitchPaxos.Controller.Store

/-!
# What the handlers do

One equation for each handler of the protocol.  The loops over the nodes end
with the controller itself, so a handler is a list of frames to the others
followed by one operation on the own store.
-/

namespace SwitchPaxos.PaxosController

/-- A message is for this node. -/
def Addressed (event : Option PacketIn) (self : PaxosController) : Prop :=
  (self.getEtherAddrs event).2 = self.mac ∨
    (self.getEtherAddrs event).2 = ETHER_BROADCAST

instance (event : Option PacketIn) (self : PaxosController) :
    Decidable (self.Addressed event) :=
  inferInstanceAs (Decidable (_ ∨ _))

/-- The other nodes, in the order they are sent to. -/
def others (self : PaxosController) : List EthAddr :=
  (sorted self.state.N).erase self.mac

/-- A message to all nodes, ourself last. -/
def announce (type : UInt16) (payload : Bytes) (self : PaxosController) :
    List Effect :=
  (self.others.map fun dst =>
    Effect.sent ⟨self.mac, dst, type, payload⟩ (self.lookupPort dst)) ++
      [.toSelf type payload]

/-- The controller after a vote. -/
def voted (n seqno : ℕ) (v : Bytes) (self : PaxosController) :
    PaxosController :=
  { self with
    state := { self.state with
      crnd := n
      slots := self.state.slots.vote n seqno v } }

/-- Count a LEARN and walk the queue. -/
def learnFrom (answer : ℕ → Bool) (src : EthAddr) (n seqno : ℕ) :
    Handler Reply := do
  onSlots (Slots.learn answer src n seqno)
  return .halt

section Frame

variable (self : PaxosController) (slots : Slots) (n seqno : ℕ) (v : Bytes)

@[simp] theorem withSlots_withSlots (earlier : Slots) :
    (self.withSlots earlier).withSlots slots = self.withSlots slots := rfl

@[simp] theorem mac_withSlots : (self.withSlots slots).mac = self.mac := rfl

@[simp] theorem slots_withSlots :
    (self.withSlots slots).state.slots = slots := rfl

@[simp] theorem crnd_withSlots :
    (self.withSlots slots).state.crnd = self.state.crnd := rfl

@[simp] theorem N_withSlots :
    (self.withSlots slots).state.N = self.state.N := rfl

@[simp] theorem mac_voted : (self.voted n seqno v).mac = self.mac := rfl

@[simp] theorem slots_voted :
    (self.voted n seqno v).state.slots = self.state.slots.vote n seqno v :=
  rfl

@[simp] theorem crnd_voted : (self.voted n seqno v).state.crnd = n := rfl

@[simp] theorem N_voted : (self.voted n seqno v).state.N = self.state.N := rfl

theorem addressed_none : self.Addressed none := .inl rfl

theorem mem_others {mac : EthAddr} :
    mac ∈ self.others ↔ mac ∈ self.state.N ∧ mac ≠ self.mac := by
  rw [others, (sorted_nodup _).mem_erase_iff, mem_sorted, and_comm]

theorem others_nodup : self.others.Nodup := (sorted_nodup _).erase _

theorem orderedNodes_of_mem (member : self.mac ∈ self.state.N) :
    self.state.orderedNodes self.mac = .ok (self.others ++ [self.mac]) := by
  simp [PaxosState.orderedNodes, member, others]

theorem orderedNodes_of_not_mem (absent : self.mac ∉ self.state.N) :
    self.state.orderedNodes self.mac = .error .notInList := by
  simp [PaxosState.orderedNodes, absent]

end Frame

variable {answer : ℕ → Bool} {event : Option PacketIn} {message : Bytes}
  {self : PaxosController} {n seqno : ℕ} {v : Bytes}

theorem learnFrom_apply (src : EthAddr) :
    learnFrom answer src n seqno self =
      let outcome := Slots.learn answer src n seqno self.state.slots
      ⟨outcome.result.map fun _ => Reply.halt,
        self.withSlots outcome.state, outcome.effects.map Effect.handed⟩ := by
  simp [learnFrom, onSlots, Handler.zoom]

theorem onLearn_malformed {failure : Failure}
    (malformed : PaxosMessage.unpackLearn message = .error failure) :
    onLearn answer event message self = ⟨.error failure, self, []⟩ := by
  simp [onLearn, malformed]

theorem onLearn_ignored
    (decoded : PaxosMessage.unpackLearn message = .ok (n, seqno))
    (other : ¬ self.Addressed event) :
    onLearn answer event message self = ⟨.ok .halt, self, []⟩ := by
  simp only [Addressed, not_or] at other
  simp [onLearn, decoded, other]

section LearnBy

variable (queue : ℕ → Handler Unit)

theorem onLearnBy_addressed
    (decoded : PaxosMessage.unpackLearn message = .ok (n, seqno))
    (addressed : self.Addressed event) :
    onLearnBy queue event message self =
      match (self.state.slots.slotAt seqno).onLearn n
          (self.getEtherAddrs event).1 with
      | none =>
          ⟨.ok .halt, self.withSlots (self.state.slots.touch seqno), []⟩
      | some slot =>
          (queue n (self.withSlots
            ((self.state.slots.touch seqno).putSlot seqno slot))).andThen
              fun _ => pure .halt := by
  have forUs : ¬ ((self.getEtherAddrs event).2 ≠ self.mac ∧
      (self.getEtherAddrs event).2 ≠ ETHER_BROADCAST) := by
    rintro ⟨notMac, notBroadcast⟩
    exact addressed.elim notMac notBroadcast
  simp only [onLearnBy, decoded, Handler.bind_apply, Handler.lift_apply,
    Handler.get_apply, Handler.ite_apply, Outcome.andThen_ok, Outcome.after_nil,
    if_neg forUs, getSlot, Slots.getSlot_eq, Handler.modify_apply,
    Handler.pure_apply]
  cases (self.state.slots.slotAt seqno).onLearn n (self.getEtherAddrs event).1
    with
  | none => rfl
  | some slot => rfl

theorem sendLearnBy_all (self : PaxosController)
    (fits : n ≤ UINT32_MAX ∧ seqno ≤ UINT32_MAX) :
    Handler.forEach
      (fun mac => sendLearnBy queue mac n seqno (self.lookupPort mac))
      (self.others ++ [self.mac]) self =
      ((onLearnBy queue none (PaxosMessage.header n seqno) self).andThen
        fun _ => pure ()).after
        (self.announce PaxosMessage.LEARN (PaxosMessage.header n seqno)) := by
  have packed : PaxosMessage.packLearn n seqno =
      .ok (PaxosMessage.header n seqno) := by
    rw [PaxosMessage.packLearn_cast, if_pos fits]
  have toOther : ∀ mac ∈ self.others,
      sendLearnBy queue mac n seqno (self.lookupPort mac) self =
        ⟨.ok (), self, [Effect.sent ⟨self.mac, mac, PaxosMessage.LEARN,
          PaxosMessage.header n seqno⟩ (self.lookupPort mac)]⟩ := by
    intro mac other
    have different : mac ≠ self.mac := ((mem_others self).mp other).2
    simp [sendLearnBy, packed, different, sendEthernet]
  have toUs : sendLearnBy queue self.mac n seqno (self.lookupPort self.mac)
      self = ((onLearnBy queue none (PaxosMessage.header n seqno) self).andThen
        fun _ => pure ()).after
          [.toSelf PaxosMessage.LEARN (PaxosMessage.header n seqno)] := by
    simp [sendLearnBy, packed]
  rw [Handler.forEach_append,
    Handler.forEach_emit (fun mac => Effect.sent ⟨self.mac, mac,
      PaxosMessage.LEARN, PaxosMessage.header n seqno⟩ (self.lookupPort mac))
      _ _ _ toOther]
  simp only [Outcome.andThen_ok, Handler.forEach, Handler.bind_apply, toUs]
  rcases onLearnBy queue none (PaxosMessage.header n seqno) self with
    ⟨result, state, effects⟩
  cases result <;> simp [Outcome.andThen, Outcome.after, announce]

end LearnBy

theorem onLearn_addressed (answer : ℕ → Bool)
    (decoded : PaxosMessage.unpackLearn message = .ok (n, seqno))
    (addressed : self.Addressed event) :
    onLearn answer event message self =
      learnFrom answer (self.getEtherAddrs event).1 n seqno self := by
  refine (onLearnBy_addressed (processQueue answer) decoded addressed).trans ?_
  rw [learnFrom_apply, Slots.learn]
  cases (self.state.slots.slotAt seqno).onLearn n (self.getEtherAddrs event).1
    with
  | none => rfl
  | some slot =>
      simp only [processQueue, onSlots, Handler.zoom, slots_withSlots]
      rcases Slots.processQueue answer n
        ((self.state.slots.touch seqno).putSlot seqno slot) with
        ⟨result, state, effects⟩
      cases result <;> simp [Outcome.andThen, Except.map]

/-- What the node does once it accepts: it casts the vote, tells the others
and counts its own LEARN.  A node that does not know itself stops after the
vote. -/
def castVote (answer : ℕ → Bool) (n seqno : ℕ) (v : Bytes)
    (self : PaxosController) : Outcome PaxosController Effect Failure Reply :=
  if self.mac ∈ self.state.N then
    (learnFrom answer self.mac n seqno (self.voted n seqno v)).after
      (.accepted n seqno v ::
        self.announce PaxosMessage.LEARN (PaxosMessage.header n seqno))
  else ⟨.error .notInList, self.voted n seqno v, [.accepted n seqno v]⟩

/-- The same with any way to walk the queue. -/
def castVoteBy (queue : ℕ → Handler Unit) (n seqno : ℕ) (v : Bytes)
    (self : PaxosController) : Outcome PaxosController Effect Failure Reply :=
  if self.mac ∈ self.state.N then
    ((onLearnBy queue none (PaxosMessage.header n seqno)
      (self.voted n seqno v)).andThen fun _ => pure .halt).after
        (.accepted n seqno v ::
          self.announce PaxosMessage.LEARN (PaxosMessage.header n seqno))
  else ⟨.error .notInList, self.voted n seqno v, [.accepted n seqno v]⟩

theorem castVoteBy_processQueue
    (fits : n ≤ UINT32_MAX ∧ seqno ≤ UINT32_MAX) :
    self.castVoteBy (processQueue answer) n seqno v =
      self.castVote answer n seqno v := by
  have own : onLearnBy (processQueue answer) none
      (PaxosMessage.header n seqno) (self.voted n seqno v) =
        learnFrom answer self.mac n seqno (self.voted n seqno v) :=
    onLearn_addressed answer (PaxosMessage.unpackLearn_header fits.1 fits.2)
      (addressed_none (self.voted n seqno v))
  rw [castVoteBy, castVote, own, learnFrom_apply]
  split
  · rcases Slots.learn answer self.mac n seqno
      (self.voted n seqno v).state.slots with ⟨result, state, effects⟩
    cases result <;> simp [Except.map]
  · rfl

/-- The store once the vote is cast. -/
def castSlots (answer : ℕ → Bool) (n seqno : ℕ) (v : Bytes)
    (self : PaxosController) : Slots :=
  if self.mac ∈ self.state.N then
    (Slots.learn answer self.mac n seqno
      (self.state.slots.vote n seqno v)).state
  else self.state.slots.vote n seqno v

theorem castVote_state :
    (self.castVote answer n seqno v).state =
      (self.voted n seqno v).withSlots (self.castSlots answer n seqno v) := by
  unfold castVote castSlots
  split
  · rw [Outcome.after_state, learnFrom_apply]
    rfl
  · rfl

theorem castVote_effects (member : self.mac ∈ self.state.N) :
    (self.castVote answer n seqno v).effects =
      (.accepted n seqno v ::
        self.announce PaxosMessage.LEARN (PaxosMessage.header n seqno)) ++
      (Slots.learn answer self.mac n seqno
        (self.state.slots.vote n seqno v)).effects.map Effect.handed := by
  rw [castVote, if_pos member, Outcome.after_effects, learnFrom_apply]
  rfl

/-- The acceptor votes in this round. -/
def Accepts (n seqno : ℕ) (self : PaxosController) : Prop :=
  self.state.crnd ≤ n ∧ (self.state.slots.slotAt seqno).vrnd ≠ some n

instance (n seqno : ℕ) (self : PaxosController) :
    Decidable (self.Accepts n seqno) :=
  inferInstanceAs (Decidable (_ ∧ _))

theorem onAccept_malformed {failure : Failure}
    (malformed : PaxosMessage.unpackAccept message = .error failure) :
    onAccept answer event message self = ⟨.error failure, self, []⟩ := by
  simp [onAccept, malformed]

theorem onAccept_ignored
    (decoded : PaxosMessage.unpackAccept message = .ok (n, seqno, v))
    (other : ¬ self.Addressed event) :
    onAccept answer event message self = ⟨.ok .halt, self, []⟩ := by
  simp only [Addressed, not_or] at other
  simp [onAccept, decoded, other]

theorem onAcceptBy_addressed (queue : ℕ → Handler Unit)
    (decoded : PaxosMessage.unpackAccept message = .ok (n, seqno, v))
    (addressed : self.Addressed event) :
    onAcceptBy queue event message self =
      if self.Accepts n seqno then self.castVoteBy queue n seqno v
      else ⟨.ok .halt, self.withSlots (self.state.slots.touch seqno), []⟩ := by
  have forUs : ¬ ((self.getEtherAddrs event).2 ≠ self.mac ∧
      (self.getEtherAddrs event).2 ≠ ETHER_BROADCAST) := by
    rintro ⟨notMac, notBroadcast⟩
    exact addressed.elim notMac notBroadcast
  have fits := PaxosMessage.unpackAccept_le decoded
  simp only [onAcceptBy, decoded, Handler.bind_apply, Handler.lift_apply,
    Handler.get_apply, Handler.ite_apply, Outcome.andThen_ok, Outcome.after_nil,
    if_neg forUs, getSlot, Slots.getSlot_eq, Handler.modify_apply,
    Handler.pure_apply]
  by_cases accepts : self.Accepts n seqno
  · have votes : self.state.crnd ≤ n ∧
        (self.state.slots.slotAt seqno).vrnd ≠ some n := accepts
    rw [if_pos votes, if_pos accepts]
    -- Writing the vote into the slot and raising `crnd` gives `voted`.
    change ((Handler.emit (.accepted n seqno v) : Handler Unit) >>= fun _ =>
      Handler.lift (self.state.orderedNodes self.mac) >>= fun nodes =>
        Handler.forEach
          (fun mac => sendLearnBy queue mac n seqno (self.lookupPort mac)) nodes
            >>= fun _ => pure Reply.halt) (self.voted n seqno v) = _
    simp only [Handler.bind_apply, Handler.emit_apply, Handler.lift_apply,
      Outcome.andThen_ok, castVoteBy]
    by_cases member : self.mac ∈ self.state.N
    · have loop : Handler.forEach
          (fun mac => sendLearnBy queue mac n seqno (self.lookupPort mac))
          (self.others ++ [self.mac]) (self.voted n seqno v) =
            ((onLearnBy queue none (PaxosMessage.header n seqno)
              (self.voted n seqno v)).andThen fun _ => pure ()).after
              (self.announce PaxosMessage.LEARN
                (PaxosMessage.header n seqno)) :=
        sendLearnBy_all queue (self.voted n seqno v) fits
      rw [orderedNodes_of_mem _ member, if_pos member]
      simp only [Outcome.andThen_ok, Outcome.after_nil, Handler.bind_apply,
        loop]
      rcases onLearnBy queue none (PaxosMessage.header n seqno)
        (self.voted n seqno v) with ⟨result, state, effects⟩
      cases result <;> simp
    · rw [orderedNodes_of_not_mem _ member, if_neg member]
      rfl
  · have refuses : ¬ (self.state.crnd ≤ n ∧
        (self.state.slots.slotAt seqno).vrnd ≠ some n) := accepts
    rw [if_neg refuses, if_neg accepts]

theorem onAccept_addressed (answer : ℕ → Bool)
    (decoded : PaxosMessage.unpackAccept message = .ok (n, seqno, v))
    (addressed : self.Addressed event) :
    onAccept answer event message self =
      if self.Accepts n seqno then self.castVote answer n seqno v
      else ⟨.ok .halt, self.withSlots (self.state.slots.touch seqno), []⟩ := by
  rw [← castVoteBy_processQueue (PaxosMessage.unpackAccept_le decoded)]
  exact onAcceptBy_addressed (processQueue answer) decoded addressed

/-- Either the acceptor votes, or at most a slot is created. -/
theorem onAccept_cases (answer : ℕ → Bool) (event : Option PacketIn)
    (message : Bytes) (self : PaxosController) :
    (∃ n seqno v, PaxosMessage.unpackAccept message = .ok (n, seqno, v) ∧
      self.Addressed event ∧ self.Accepts n seqno ∧
      onAccept answer event message self =
        self.castVote answer n seqno v) ∨
    (∃ result slots,
      (slots = self.state.slots ∨
        ∃ seqno, slots = self.state.slots.touch seqno) ∧
      onAccept answer event message self =
        ⟨result, self.withSlots slots, []⟩) := by
  cases decoded : PaxosMessage.unpackAccept message with
  | error failure =>
      exact .inr ⟨_, _, .inl rfl, onAccept_malformed decoded⟩
  | ok fields =>
      obtain ⟨n, seqno, v⟩ := fields
      by_cases addressed : self.Addressed event
      · have handled := onAccept_addressed answer decoded addressed
        by_cases accepts : self.Accepts n seqno
        · rw [if_pos accepts] at handled
          exact .inl ⟨n, seqno, v, rfl, addressed, accepts, handled⟩
        · rw [if_neg accepts] at handled
          exact .inr ⟨_, _, .inr ⟨seqno, rfl⟩, handled⟩
      · exact .inr ⟨_, _, .inl rfl, onAccept_ignored decoded addressed⟩

theorem onLearn_cases (answer : ℕ → Bool) (event : Option PacketIn)
    (message : Bytes) (self : PaxosController) :
    (∃ n seqno, PaxosMessage.unpackLearn message = .ok (n, seqno) ∧
      self.Addressed event ∧
      onLearn answer event message self =
        learnFrom answer (self.getEtherAddrs event).1 n seqno self) ∨
    (∃ result, onLearn answer event message self = ⟨result, self, []⟩) := by
  cases decoded : PaxosMessage.unpackLearn message with
  | error failure => exact .inr ⟨_, onLearn_malformed decoded⟩
  | ok fields =>
      obtain ⟨n, seqno⟩ := fields
      by_cases addressed : self.Addressed event
      · exact .inl ⟨n, seqno, rfl, addressed,
          onLearn_addressed answer decoded addressed⟩
      · exact .inr ⟨_, onLearn_ignored decoded addressed⟩

/-- The node with another round and another store: all that messages of the
protocol change at a node that is not the leader. -/
def withVotes (crnd : ℕ) (slots : Slots) (self : PaxosController) :
    PaxosController :=
  { self with state := { self.state with crnd, slots } }

section VotesFrame

variable (self : PaxosController) (crnd : ℕ) (slots : Slots)

@[simp] theorem connection_withVotes :
    (self.withVotes crnd slots).connection = self.connection := rfl

@[simp] theorem mac_withVotes : (self.withVotes crnd slots).mac = self.mac :=
  rfl

@[simp] theorem isleader_withVotes :
    (self.withVotes crnd slots).isleader = self.isleader := rfl

@[simp] theorem joined_withVotes :
    (self.withVotes crnd slots).joined = self.joined := rfl

@[simp] theorem leader_withVotes :
    (self.withVotes crnd slots).leader = self.leader := rfl

@[simp] theorem N_withVotes :
    (self.withVotes crnd slots).state.N = self.state.N := rfl

@[simp] theorem crnd_withVotes :
    (self.withVotes crnd slots).state.crnd = crnd := rfl

@[simp] theorem slots_withVotes :
    (self.withVotes crnd slots).state.slots = slots := rfl

end VotesFrame

theorem onAccept_state (answer : ℕ → Bool) (event : Option PacketIn)
    (message : Bytes) (self : PaxosController) :
    ∃ crnd slots, (onAccept answer event message self).state =
      self.withVotes crnd slots := by
  rcases onAccept_cases answer event message self with
    ⟨n, seqno, v, -, -, -, handled⟩ | ⟨result, slots, -, handled⟩
  · rw [handled, castVote_state]
    exact ⟨n, _, rfl⟩
  · rw [handled]
    exact ⟨self.state.crnd, slots, rfl⟩

/-- The leader after it took the next number for a client packet. -/
def numberedBy (leader : Leader) (self : PaxosController) : PaxosController :=
  { self with leader := some leader.nextSeqno.2 }

/-- The leader once it knows the client packet and the port it came in on. -/
def withClient (leader : Leader) (port : Port) (self : PaxosController) :
    PaxosController :=
  { self.numberedBy leader with wanPort := some port }

section ClientFrame

variable (self : PaxosController) (leader : Leader) (port : Port)

@[simp] theorem mac_withClient :
    (self.withClient leader port).mac = self.mac := rfl

@[simp] theorem state_withClient :
    (self.withClient leader port).state = self.state := rfl

@[simp] theorem leader_withClient :
    (self.withClient leader port).leader = some leader.nextSeqno.2 := rfl

end ClientFrame

theorem onClient_ignored (event : PacketIn)
    (ignored : ¬ (self.isleader = true ∧ self.joined = true)) :
    onClient answer event message self = ⟨.ok .halt, self, []⟩ := by
  by_cases isleader : self.isleader
  · have notJoined : self.joined = false := by simpa [isleader] using ignored
    simp [onClient, isleader, notJoined]
  · simp [onClient, isleader]

theorem onClient_noLeader (event : PacketIn) (isleader : self.isleader = true)
    (joined : self.joined = true) (missing : self.leader = none) :
    onClient answer event message self =
      ⟨.error .noAttribute, self, []⟩ := by
  simp [onClient, isleader, joined, nextSeqno, missing]

/-- A payload that is too short is found out after the number is taken. -/
theorem onClientBy_malformed (queue : ℕ → Handler Unit) (event : PacketIn)
    (isleader : self.isleader = true) (joined : self.joined = true)
    {leader : Leader} (present : self.leader = some leader)
    {failure : Failure}
    (malformed : PaxosMessage.unpackClient message = .error failure) :
    onClientBy queue event message self =
      ⟨.error failure, self.numberedBy leader, []⟩ := by
  simp [onClientBy, isleader, joined, nextSeqno, present, malformed,
    numberedBy]

theorem onClient_malformed (event : PacketIn) (isleader : self.isleader = true)
    (joined : self.joined = true) {leader : Leader}
    (present : self.leader = some leader) {failure : Failure}
    (malformed : PaxosMessage.unpackClient message = .error failure) :
    onClient answer event message self =
      ⟨.error failure, self.numberedBy leader, []⟩ :=
  onClientBy_malformed (processQueue answer) event isleader joined present
    malformed

theorem sendAcceptBy_all (queue : ℕ → Handler Unit) (v : Bytes)
    (self : PaxosController) (fits : n ≤ UINT32_MAX ∧ seqno ≤ UINT32_MAX) :
    Handler.forEach
      (fun mac => sendAcceptBy queue mac n seqno v (self.lookupPort mac))
      (self.others ++ [self.mac]) self =
      ((onAcceptBy queue none (PaxosMessage.header n seqno ++ v) self).andThen
        fun _ => pure ()).after
        (self.announce PaxosMessage.ACCEPT
          (PaxosMessage.header n seqno ++ v)) := by
  have packed : PaxosMessage.packAccept n seqno v =
      .ok (PaxosMessage.header n seqno ++ v) := by
    rw [PaxosMessage.packAccept_cast, if_pos fits]
  have toOther : ∀ mac ∈ self.others,
      sendAcceptBy queue mac n seqno v (self.lookupPort mac) self =
        ⟨.ok (), self, [Effect.sent ⟨self.mac, mac, PaxosMessage.ACCEPT,
          PaxosMessage.header n seqno ++ v⟩ (self.lookupPort mac)]⟩ := by
    intro mac other
    have different : mac ≠ self.mac := ((mem_others self).mp other).2
    simp [sendAcceptBy, packed, different, sendEthernet]
  have toUs : sendAcceptBy queue self.mac n seqno v (self.lookupPort self.mac)
      self = ((onAcceptBy queue none (PaxosMessage.header n seqno ++ v)
        self).andThen fun _ => pure ()).after
          [.toSelf PaxosMessage.ACCEPT (PaxosMessage.header n seqno ++ v)] := by
    simp [sendAcceptBy, packed]
  rw [Handler.forEach_append,
    Handler.forEach_emit (fun mac => Effect.sent ⟨self.mac, mac,
      PaxosMessage.ACCEPT, PaxosMessage.header n seqno ++ v⟩
        (self.lookupPort mac)) _ _ _ toOther]
  simp only [Outcome.andThen_ok, Handler.forEach, Handler.bind_apply, toUs]
  rcases onAcceptBy queue none (PaxosMessage.header n seqno ++ v) self with
    ⟨result, state, effects⟩
  cases result <;> simp [Outcome.andThen, Outcome.after, announce]

/-- What the leader does with a client packet it numbered `seqno`. -/
def broadcastAccept (answer : ℕ → Bool) (n seqno : ℕ) (v : Bytes)
    (self : PaxosController) : Outcome PaxosController Effect Failure Reply :=
  if self.mac ∉ self.state.N then ⟨.error .notInList, self, []⟩
  else if n ≤ UINT32_MAX ∧ seqno ≤ UINT32_MAX then
    ((onAccept answer none (PaxosMessage.header n seqno ++ v) self).andThen
      fun _ => pure .halt).after
      (self.announce PaxosMessage.ACCEPT (PaxosMessage.header n seqno ++ v))
  else ⟨.error .assertU32, self, []⟩

/-- The same with any way to walk the queue. -/
def broadcastAcceptBy (queue : ℕ → Handler Unit) (n seqno : ℕ) (v : Bytes)
    (self : PaxosController) : Outcome PaxosController Effect Failure Reply :=
  if self.mac ∉ self.state.N then ⟨.error .notInList, self, []⟩
  else if n ≤ UINT32_MAX ∧ seqno ≤ UINT32_MAX then
    ((onAcceptBy queue none (PaxosMessage.header n seqno ++ v) self).andThen
      fun _ => pure .halt).after
      (self.announce PaxosMessage.ACCEPT (PaxosMessage.header n seqno ++ v))
  else ⟨.error .assertU32, self, []⟩

theorem onClientBy_numbered (queue : ℕ → Handler Unit) (event : PacketIn)
    (isleader : self.isleader = true)
    (joined : self.joined = true) {leader : Leader}
    (present : self.leader = some leader)
    (decoded : PaxosMessage.unpackClient message = .ok v) :
    onClientBy queue event message self =
      ((self.withClient leader event.port).broadcastAcceptBy queue
        self.state.crnd leader.nextSeqno.1 v).after
          [.numbered leader.nextSeqno.1 v] := by
  have reached : onClientBy queue event message self =
      ((Handler.lift (self.state.orderedNodes self.mac) >>= fun nodes =>
        Handler.forEach (fun mac => sendAcceptBy queue mac self.state.crnd
          leader.nextSeqno.1 v (self.lookupPort mac)) nodes
            >>= fun _ => pure Reply.halt)
        (self.withClient leader event.port)).after
          [.numbered leader.nextSeqno.1 v] := by
    simp [onClientBy, isleader, joined, nextSeqno, present, decoded, withClient,
      numberedBy]
  rw [reached, broadcastAcceptBy]
  congr 1
  simp only [Handler.bind_apply, Handler.lift_apply]
  by_cases member : self.mac ∈ self.state.N
  · rw [orderedNodes_of_mem _ member, if_neg (by simpa using member)]
    by_cases fits : self.state.crnd ≤ UINT32_MAX ∧
        leader.nextSeqno.1 ≤ UINT32_MAX
    · have loop : Handler.forEach (fun mac => sendAcceptBy queue mac
          self.state.crnd leader.nextSeqno.1 v (self.lookupPort mac))
          (self.others ++ [self.mac]) (self.withClient leader event.port) =
          _ :=
        sendAcceptBy_all queue v (self.withClient leader event.port) fits
      rw [if_pos fits]
      simp only [Outcome.andThen_ok, Outcome.after_nil, Handler.bind_apply,
        loop]
      rcases onAcceptBy queue none
        (PaxosMessage.header self.state.crnd leader.nextSeqno.1 ++ v)
        (self.withClient leader event.port) with ⟨result, state, effects⟩
      cases result <;> simp
    · -- The encoder refuses before the first frame is sent.
      have packed : PaxosMessage.packAccept self.state.crnd
          leader.nextSeqno.1 v = .error .assertU32 := by
        rw [PaxosMessage.packAccept_cast, if_neg fits]
      have raises : ∀ mac ∈ self.others ++ [self.mac],
          sendAcceptBy queue mac self.state.crnd leader.nextSeqno.1 v
            (self.lookupPort mac) (self.withClient leader event.port) =
            ⟨.error .assertU32, self.withClient leader event.port, []⟩ := by
        intro mac _
        simp [sendAcceptBy, packed]
      simp only [Outcome.andThen_ok, Outcome.after_nil, Handler.bind_apply,
        Handler.forEach_raise _ _ _ (by simp) raises, Outcome.andThen_error,
        if_neg fits]
  · rw [orderedNodes_of_not_mem _ member, if_pos (by simpa using member)]
    rfl

theorem onClient_numbered (answer : ℕ → Bool) (event : PacketIn)
    (isleader : self.isleader = true)
    (joined : self.joined = true) {leader : Leader}
    (present : self.leader = some leader)
    (decoded : PaxosMessage.unpackClient message = .ok v) :
    onClient answer event message self =
      ((self.withClient leader event.port).broadcastAccept answer
        self.state.crnd leader.nextSeqno.1 v).after
          [.numbered leader.nextSeqno.1 v] :=
  onClientBy_numbered (processQueue answer) event isleader joined present
    decoded

/-- A client packet is ignored, refused after a number was taken for it, or
sent to all nodes under that number. -/
theorem onClient_cases (answer : ℕ → Bool) (event : PacketIn) (message : Bytes)
    (self : PaxosController) :
    (∃ result, onClient answer event message self = ⟨result, self, []⟩) ∨
    (self.isleader = true ∧ ∃ leader, self.leader = some leader ∧
      ((∃ failure, onClient answer event message self =
          ⟨.error failure, self.numberedBy leader, []⟩) ∨
        ∃ v, PaxosMessage.unpackClient message = .ok v ∧
          onClient answer event message self =
            ((self.withClient leader event.port).broadcastAccept answer
              self.state.crnd leader.nextSeqno.1 v).after
                [.numbered leader.nextSeqno.1 v])) := by
  by_cases leads : self.isleader = true ∧ self.joined = true
  · obtain ⟨isleader, joined⟩ := leads
    cases present : self.leader with
    | none =>
        exact .inl ⟨_, onClient_noLeader event isleader joined present⟩
    | some leader =>
        refine .inr ⟨isleader, leader, rfl, ?_⟩
        cases decoded : PaxosMessage.unpackClient message with
        | error failure =>
            exact .inl ⟨failure,
              onClient_malformed event isleader joined present decoded⟩
        | ok v =>
            exact .inr ⟨v, rfl,
              onClient_numbered answer event isleader joined present decoded⟩
  · exact .inl ⟨_, onClient_ignored event leads⟩

theorem broadcastAccept_cases (answer : ℕ → Bool) (n seqno : ℕ) (v : Bytes)
    (self : PaxosController) :
    (∃ failure, self.broadcastAccept answer n seqno v =
      ⟨.error failure, self, []⟩) ∨
    (self.mac ∈ self.state.N ∧ (n ≤ UINT32_MAX ∧ seqno ≤ UINT32_MAX) ∧
      self.broadcastAccept answer n seqno v =
        ((onAccept answer none (PaxosMessage.header n seqno ++ v)
          self).andThen fun _ => pure .halt).after
          (self.announce PaxosMessage.ACCEPT
            (PaxosMessage.header n seqno ++ v))) := by
  rw [broadcastAccept]
  by_cases member : self.mac ∈ self.state.N
  · rw [if_neg (not_not_intro member)]
    by_cases fits : n ≤ UINT32_MAX ∧ seqno ≤ UINT32_MAX
    · rw [if_pos fits]
      exact .inr ⟨member, fits, rfl⟩
    · rw [if_neg fits]
      exact .inl ⟨_, rfl⟩
  · rw [if_pos member]
    exact .inl ⟨_, rfl⟩

section Dispatch

variable {event : PacketIn}

/-- A message that is not dispatched is unpacked for the log at most. -/
private theorem handlePaxos_undispatched
    (ignored : self.dispatches event = false) :
    ∃ result, (∀ failure, result = .error failure →
        failure = .assertPayload) ∧
      handlePaxos answer event self = ⟨result, self, []⟩ := by
  simp only [handlePaxos, Handler.bind_apply, Handler.get_apply,
    Outcome.andThen_ok, Outcome.after_nil, Handler.ite_apply, ignored]
  split
  · split
    · exact absurd ‹_› (by simp)
    · split
      · cases decoded : PaxosMessage.unpackAccept event.parsed.payload with
        | ok fields => exact ⟨_, by rintro failure ⟨⟩, rfl⟩
        | error failure =>
            refine ⟨_, ?_, rfl⟩
            rintro _ ⟨⟩
            exact PaxosMessage.unpackAccept_error decoded
      · exact ⟨_, by rintro failure ⟨⟩, rfl⟩
  · exact ⟨_, by rintro failure ⟨⟩, rfl⟩

/-- A message of a known type reaches its handler if it is dispatched, and is
left to the switch if not. -/
theorem handlePaxos_cases (answer : ℕ → Bool) (self : PaxosController)
    (known : PaxosMessage.isKnownPaxosType event.parsed.type = true) :
    (self.dispatches event = true ∧ handlePaxos answer event self =
      dispatchPaxos answer event.parsed.type event event.parsed.payload
        self) ∨
    (self.dispatches event = false ∧
      ∃ result, (∀ failure, result = .error failure →
          failure = .assertPayload) ∧
        handlePaxos answer event self = ⟨result, self, []⟩) := by
  cases dispatched : self.dispatches event with
  | false => exact .inr ⟨rfl, handlePaxos_undispatched dispatched⟩
  | true => exact .inl ⟨rfl, by simp [handlePaxos, dispatched, known]⟩

theorem dispatchPaxos_accept (joined : self.joined = true) :
    dispatchPaxos answer PaxosMessage.ACCEPT event message self =
      onAccept answer event message self := by
  simp [dispatchPaxos, joined]

theorem dispatchPaxos_client (joined : self.joined = true) :
    dispatchPaxos answer PaxosMessage.CLIENT event message self =
      onClient answer event message self := by
  have notAccept : PaxosMessage.CLIENT ≠ PaxosMessage.ACCEPT := by decide
  simp [dispatchPaxos, joined, notAccept]

theorem dispatchPaxos_learn (joined : self.joined = true) :
    dispatchPaxos answer PaxosMessage.LEARN event message self =
      onLearn answer event message self := by
  have notAccept : PaxosMessage.LEARN ≠ PaxosMessage.ACCEPT := by decide
  have notClient : PaxosMessage.LEARN ≠ PaxosMessage.CLIENT := by decide
  have notJoin : PaxosMessage.LEARN ≠ PaxosMessage.JOIN := by decide
  simp [dispatchPaxos, joined, notAccept, notClient, notJoin]

end Dispatch

end SwitchPaxos.PaxosController

import SwitchPaxos.Controller.Flows
import SwitchPaxos.Controller.Handing
import SwitchPaxos.Controller.Joining

/-!
# The number of nodes

How many nodes there are is written down in the set of nodes, in the store and
in each slot.  The counts are the same as long as nodes are added and rounds
are started before there are slots: the walk that is to bring the slots up to
date goes over their sequence numbers and fails at the first one.
-/

namespace SwitchPaxos

/-- `PaxosState.next_round` -/
def PaxosController.nextRound : Handler Unit := do
  let self ← Handler.get
  let state ← Handler.lift self.state.pickNext
  Handler.modify fun self => { self with state }
  let self ← Handler.get
  onSlots (Slots.updateNodeCount self.state.N.card)

/-- What can happen to a node whose nodes may change: an upcall with any frame,
a step of one of its threads, or the start of a round. -/
inductive MemberEvent where
  | upcall (answer : ℕ → Bool) (event : PacketIn)
  | acts (activity : Activity)
  | nextRound

namespace MemberEvent

def handle : MemberEvent → PaxosController.Handler Unit
  | .upcall answer event => PaxosController.packetIn answer event
  | .acts activity => activity.handle
  | .nextRound => PaxosController.nextRound

def system : System PaxosController MemberEvent :=
  { Enabled := fun _ _ => True
    step := fun node event => (event.handle node).state }

/-- The payload of the JOIN an event has the node handle. -/
def join? (self : PaxosController) : MemberEvent → Option Bytes
  | .upcall _ event =>
      if event.parsed.type = PaxosMessage.JOIN then some event.parsed.payload
      else none
  | .acts .joinBlock =>
      if self.state.N.card < PaxosController.totalNodes then some self.ownJoin
      else none
  | _ => none

theorem join?_upcall (answer : ℕ → Bool) {event : PacketIn}
    (join : event.parsed.type = PaxosMessage.JOIN) (self : PaxosController) :
    (upcall answer event).join? self = some event.parsed.payload :=
  if_pos join

/-- The event is a JOIN, or it starts a round. -/
def Recounts (self : PaxosController) (event : MemberEvent) : Prop :=
  event = .nextRound ∨ ∃ payload, event.join? self = some payload

end MemberEvent

namespace PaxosController

/-- The store and every slot in it count the nodes there are. -/
structure Counted (node : PaxosController) : Prop where
  store : node.state.slots.nodeCount = node.state.N.card
  slots : ∀ seqno slot, node.state.slots.at? seqno = some slot →
    slot.nodeCount = node.state.N.card
  quorum : ∀ seqno slot, node.state.slots.at? seqno = some slot →
    slot.requiredLearns = 1 + node.state.N.card / 2

/-- What a JOIN that fails has to leave alone. -/
structure SameMembers (before after : PaxosController) : Prop where
  nodes : after.state.N = before.state.N
  paxosPorts : after.paxosPorts = before.paxosPorts
  slots : after.state.slots = before.state.slots

/-- A JOIN that can be decoded completes and so does the start of a round, with
the counts right, and one that fails leaves the node as it was. -/
structure Recounted (node : PaxosController) (event : MemberEvent) : Prop where
  completes : (∀ payload, event.join? node = some payload →
      ∃ fields, PaxosMessage.unpackJoin payload = .ok fields) →
    ¬ (event.handle node).Raised ∧ (event.handle node).state.Counted
  undone : (event.handle node).Raised →
    SameMembers node (event.handle node).state

/-- A node is added only as long as there are no slots, and a round is started
only with some node and without slots. -/
def AddsEarly (self : PaxosController) : MemberEvent → Prop
  | .upcall _ event => event.parsed.type = PaxosMessage.JOIN →
      self.newcomer event.parsed.payload ≠ none → self.Fresh
  | .nextRound => 0 < self.state.N.card ∧ self.Fresh
  | _ => True

/-- The counts are right, and before the node knows enough nodes to join there
are no slots. -/
structure Settled (node : PaxosController) : Prop where
  count : node.state.slots.nodeCount = node.state.N.card
  paired : node.state.slots.Paired
  fits : node.IdFits
  early : totalNodes ≤ node.state.N.card ∨
    (node.joined = false ∧ node.Fresh)

variable {self : PaxosController} {event : MemberEvent} {message : Bytes}

theorem Settled.counted (settled : self.Settled) : self.Counted := by
  have slots : ∀ seqno slot, self.state.slots.at? seqno = some slot →
      slot.nodeCount = self.state.N.card := by
    intro seqno slot stored
    rw [← Slots.slotAt_of_at? stored, (settled.paired seqno).count,
      settled.count]
  refine ⟨settled.count, slots, ?_⟩
  intro seqno slot stored
  rw [Slot.requiredLearns, slots seqno slot stored]

theorem Settled.switch (settled : self.Settled) (switch : BaselineController) :
    Settled { self with switch } :=
  ⟨settled.count, settled.paired, settled.fits, settled.early⟩

theorem fresh_iff :
    self.Fresh ↔ ∀ seqno, self.state.slots.at? seqno = none := by
  simp only [Fresh, Slots.at?, AList.lookup_eq_none]
  exact List.eq_nil_iff_forall_not_mem

theorem Fresh.paired (fresh : self.Fresh) (nodeCount : ℕ) :
    Slots.Paired { self.state.slots with nodeCount } := by
  intro seqno
  have absent : Slots.at? { self.state.slots with nodeCount } seqno = none :=
    fresh_iff.mp fresh seqno
  rw [Slots.slotAt, absent]
  exact Slot.Backed.new

/-- What a message of the protocol can change at a node: the round, the store
by operations of the store, the leader and the port of the WAN. -/
def Follows (self next : PaxosController) : Prop :=
  ∃ operations crnd leader wanPort,
    next = { self.withVotes crnd
        (Handler.forEach StoreOperation.apply operations
          self.state.slots).state with leader, wanPort }

theorem follows_onAccept (answer : ℕ → Bool) (event : Option PacketIn) :
    Follows self (onAccept answer event message self).state := by
  obtain ⟨crnd, slots, state⟩ := onAccept_state answer event message self
  obtain ⟨stored, -, -⟩ := actsBy_onAccept self answer event message
  rw [state, slots_withVotes] at stored
  exact ⟨_, crnd, self.leader, self.wanPort, by rw [state, stored]; rfl⟩

theorem follows_onLearn (answer : ℕ → Bool) (event : Option PacketIn) :
    Follows self (onLearn answer event message self).state := by
  obtain ⟨stored, -, -⟩ := actsBy_onLearn self answer event message
  rcases onLearn_cases answer event message self with
    ⟨n, seqno, -, -, handled⟩ | ⟨result, handled⟩
  · rw [handled, learnFrom_apply] at stored ⊢
    rw [slots_withSlots] at stored
    refine ⟨self.learnOperations answer event message, self.state.crnd,
      self.leader, self.wanPort, ?_⟩
    change self.withSlots _ = _
    rw [stored]
    rfl
  · rw [handled]
    exact ⟨[], self.state.crnd, self.leader, self.wanPort, rfl⟩

theorem follows_onClient (answer : ℕ → Bool) (event : PacketIn) :
    Follows self (onClient answer event message self).state := by
  obtain ⟨stored, -, -⟩ := actsBy_onClient self answer event message
  have frame : ∃ crnd slots leader wanPort,
      (onClient answer event message self).state =
        { self.withVotes crnd slots with leader, wanPort } := by
    rcases onClient_cases answer event message self with
      ⟨result, handled⟩ | ⟨-, leader, -,
        ⟨failure, handled⟩ | ⟨v, -, handled⟩⟩
    · exact ⟨self.state.crnd, self.state.slots, self.leader, self.wanPort,
        by rw [handled]; rfl⟩
    · exact ⟨self.state.crnd, self.state.slots, some leader.nextSeqno.2,
        self.wanPort, by rw [handled]; rfl⟩
    · rw [handled, Outcome.after_state]
      rcases broadcastAccept_cases answer self.state.crnd leader.nextSeqno.1 v
        (self.withClient leader event.port) with
        ⟨failure, sent⟩ | ⟨-, -, sent⟩
      · exact ⟨self.state.crnd, self.state.slots, some leader.nextSeqno.2,
          some event.port, by rw [sent]; rfl⟩
      · rw [sent, Outcome.after_state, Handler.andThen_pure]
        obtain ⟨crnd, slots, state⟩ := onAccept_state answer none
          (PaxosMessage.header self.state.crnd leader.nextSeqno.1 ++ v)
          (self.withClient leader event.port)
        exact ⟨crnd, slots, some leader.nextSeqno.2, some event.port,
          state⟩
  obtain ⟨crnd, slots, leader, wanPort, state⟩ := frame
  rw [state] at stored
  exact ⟨_, crnd, leader, wanPort, by rw [state, ← stored]; rfl⟩

theorem keeps_counts (nodeCount : ℕ) (operation : StoreOperation) :
    Handler.Keeps (fun slots : Slots =>
        slots.Paired ∧ slots.nodeCount = nodeCount)
      (fun _ => True) operation.apply := by
  rintro slots ⟨paired, count⟩
  refine ⟨⟨StoreOperation.paired paired operation, ?_⟩, fun _ _ => trivial⟩
  rw [← count]
  cases operation <;> simp [StoreOperation.apply]

theorem Settled.follows (settled : self.Settled) (joined : self.joined = true)
    {next : PaxosController} (follows : Follows self next) :
    next.Settled := by
  obtain ⟨operations, crnd, leader, wanPort, rfl⟩ := follows
  obtain ⟨⟨paired, count⟩, -⟩ :=
    Handler.keeps_forEach operations (keeps_counts self.state.slots.nodeCount)
      self.state.slots ⟨settled.paired, rfl⟩
  refine ⟨count.trans settled.count, paired, settled.fits, .inl ?_⟩
  exact settled.early.resolve_right fun early => by simp [joined] at early

theorem Settled.enrol (settled : self.Settled) (fresh : self.Fresh)
    (mac : EthAddr) (event : Option PacketIn) :
    (self.enrol mac event).Settled := by
  have count : self.state.N.card ≤ (insert mac self.state.N).card :=
    Finset.card_le_card (Finset.subset_insert _ _)
  have early : totalNodes ≤ (insert mac self.state.N).card ∨
      (self.joined = false ∧ self.Fresh) :=
    settled.early.imp_left fun enough => enough.trans count
  have paired : (self.withNode mac).state.slots.Paired := fresh.paired _
  cases event with
  | some event => exact ⟨rfl, paired, settled.fits, early⟩
  | none => exact ⟨rfl, paired, settled.fits, early⟩

/-- A JOIN that comes early enough leaves the counts right. -/
theorem Settled.onJoin (settled : self.Settled) (event : Option PacketIn)
    (message : Bytes) (early : self.newcomer message ≠ none → self.Fresh) :
    (onJoin event message self).state.Settled ∧
      ((onJoin event message self).Raised →
        (∃ failure, PaxosMessage.unpackJoin message = .error failure) ∧
          (onJoin event message self).state = self) := by
  cases new : self.newcomer message with
  | none =>
      rcases onJoin_none settled.fits event new with
        ⟨failure, malformed, handled⟩ | ⟨nId, -, handled⟩ |
          ⟨nId, mac, -, -, -, handled⟩
      · rw [handled]
        exact ⟨settled, fun _ => ⟨⟨failure, malformed⟩, rfl⟩⟩
      · rw [handled]
        exact ⟨settled, fun raised => absurd raised
          (Outcome.not_raised_ok _ _ _)⟩
      · rw [handled]
        exact ⟨settled, fun raised => absurd raised
          (Outcome.not_raised_ok _ _ _)⟩
  | some mac =>
      have fresh : self.Fresh := early (by simp [new])
      rw [onJoin_some settled.fits new, if_pos fresh]
      exact ⟨settled.enrol fresh mac event, fun raised => absurd raised
        (Outcome.not_raised_ok _ _ _)⟩

/-- A JOIN that comes too late fails. -/
theorem onJoin_late (fits : self.IdFits) (event : Option PacketIn)
    {mac : EthAddr} (new : self.newcomer message = some mac)
    (late : ¬ self.Fresh) : (onJoin event message self).Raised := by
  rw [onJoin_some fits new, if_neg late]
  exact Outcome.raised_error _ _ _

/-- The join thread never comes too late. -/
theorem Settled.joinBlock (settled : self.Settled) :
    ¬ (joinBlock self).Raised ∧ (joinBlock self).state.Settled := by
  rcases lt_trichotomy self.state.N.card totalNodes with few | enough | many
  · have fresh : self.Fresh :=
      (settled.early.resolve_left (Nat.not_le_of_lt few)).2
    obtain ⟨reached, raises⟩ := settled.onJoin none self.ownJoin
      fun _ => fresh
    rcases handled : PaxosController.onJoin none self.ownJoin self with
      ⟨result, state, effects⟩
    rw [handled] at reached raises
    rw [joinBlock_few settled.fits few]
    cases result with
    | error failure =>
        obtain ⟨⟨failure, malformed⟩, -⟩ :=
          raises (Outcome.raised_error _ _ _)
        rw [ownJoin, PaxosMessage.unpackJoin_toRaw settled.fits] at malformed
        cases malformed
    | ok reply =>
        rw [handled, Outcome.andThen_ok, checkJoined_apply]
        refine ⟨Outcome.not_raised_ok _ _ _, reached.count, reached.paired,
          reached.fits, ?_⟩
        by_cases enough : totalNodes ≤ state.state.N.card
        · exact .inl enough
        · simpa [enough] using reached.early
  · rw [joinBlock_enough enough]
    exact ⟨Outcome.not_raised_ok _ _ _, settled.count, settled.paired,
      settled.fits, .inl enough.ge⟩
  · rw [joinBlock_many many]
    exact ⟨Outcome.not_raised_ok _ _ _, settled⟩

theorem nextRound_apply (self : PaxosController) :
    nextRound self =
      if 0 < self.state.N.card then
        ⟨if self.Fresh then .ok () else .error .noAttribute,
          { self with
            state := { self.state with
              crnd := self.state.crnd + self.state.N.card
              slots := { self.state.slots with
                nodeCount := self.state.N.card } } }, []⟩
      else ⟨.error .assertNodes, self, []⟩ := by
  by_cases some : 0 < self.state.N.card
  · have picked : self.state.pickNext =
        .ok { self.state with crnd := self.state.crnd + self.state.N.card } :=
      if_pos some
    simp only [nextRound, Handler.bind_apply, Handler.get_apply,
      Handler.lift_apply, Handler.modify_apply, Outcome.andThen_ok,
      Outcome.after_nil, picked, if_pos some]
    exact updateCount_apply _ _
  · have refused : self.state.pickNext = .error .assertNodes := if_neg some
    simp only [nextRound, Handler.bind_apply, Handler.get_apply,
      Handler.lift_apply, Outcome.andThen_ok, Outcome.andThen_error,
      Outcome.after_nil, refused, if_neg some]

theorem Settled.nextRound (settled : self.Settled)
    (some : 0 < self.state.N.card) (fresh : self.Fresh) :
    ¬ (nextRound self).Raised ∧ (nextRound self).state.Settled := by
  rw [nextRound_apply, if_pos some, if_pos fresh]
  exact ⟨Outcome.not_raised_ok _ _ _, rfl, fresh.paired _, settled.fits,
    settled.early⟩

/-- An upcall raises if the Paxos controller does, and leaves the node as the
Paxos controller does, but for the learning switch. -/
theorem packetIn_join (answer : ℕ → Bool) {event : PacketIn}
    (join : event.parsed.type = PaxosMessage.JOIN) (self : PaxosController) :
    ∃ switch,
      ((packetIn answer event self).Raised ↔
        (onJoin event event.parsed.payload self).Raised) ∧
      (packetIn answer event self).state =
        { (onJoin event event.parsed.payload self).state with switch } := by
  obtain ⟨switch, given, handled⟩ := packetIn_apply answer event self
  rw [handlePaxos_join join] at handled
  refine ⟨switch, ?_, by rw [handled]⟩
  rw [handled, Outcome.Raised, Outcome.Raised]
  exact exists_congr fun failure => Handler.map_eq_error_iff

theorem Settled.upcall (settled : self.Settled) (answer : ℕ → Bool)
    (event : PacketIn) (early : self.AddsEarly (.upcall answer event)) :
    (packetIn answer event self).state.Settled := by
  by_cases join : event.parsed.type = PaxosMessage.JOIN
  · obtain ⟨switch, -, state⟩ := packetIn_join answer join self
    rw [state]
    exact (settled.onJoin event event.parsed.payload (early join)).1.switch
      switch
  · obtain ⟨switch, given, handled⟩ := packetIn_apply answer event self
    rw [handled]
    refine Settled.switch ?_ switch
    rcases handlePaxos_other answer event self join with
      ⟨result, given, left⟩ | ⟨joined, ⟨-, taken⟩ | ⟨-, taken⟩ | ⟨-, taken⟩⟩
    · rw [left]
      exact settled
    · rw [taken]
      exact settled.follows joined (follows_onAccept answer event)
    · rw [taken]
      exact settled.follows joined (follows_onClient answer event)
    · rw [taken]
      exact settled.follows joined (follows_onLearn answer event)

theorem Settled.withSlots (settled : self.Settled) {slots : Slots}
    (count : slots.nodeCount = self.state.slots.nodeCount)
    (paired : slots.Paired)
    (nothing : ∀ seqno, self.state.slots.at? seqno = none →
      slots.at? seqno = none) :
    (self.withSlots slots).Settled := by
  refine ⟨count.trans settled.count, paired, settled.fits, ?_⟩
  refine settled.early.imp_right fun ⟨waits, fresh⟩ => ⟨waits, ?_⟩
  exact fresh_iff.mpr fun seqno => nothing seqno (fresh_iff.mp fresh seqno)

theorem Settled.acts (settled : self.Settled) (activity : Activity) :
    (activity.handle self).state.Settled := by
  cases activity with
  | joinBlock => exact settled.joinBlock.2
  | askAgain =>
      simp only [Activity.handle, askAgain_apply settled.fits]
      exact settled
  | createLeader =>
      simp only [Activity.handle, createLeader, Handler.bind_apply,
        Handler.get_apply, Handler.ite_apply, Outcome.andThen_ok,
        Outcome.after_nil]
      split
      · exact ⟨settled.count, settled.paired, settled.fits, settled.early⟩
      · exact settled
  | pickNext =>
      simp only [Activity.handle, pickNext, PaxosState.pickNext,
        Handler.bind_apply, Handler.get_apply, Handler.ite_apply,
        Handler.lift_apply, Outcome.andThen_ok, Outcome.after_nil]
      split
      · split
        · exact ⟨settled.count, settled.paired, settled.fits, settled.early⟩
        · exact settled
      · exact settled
  | pump answer =>
      refine settled.withSlots ?_ (settled.paired.processQueue answer)
        fun seqno absent => ?_
      · exact Slots.nodeCount_processQueue _ _ _
      · exact (Slots.at?_processQueue _ _).trans absent
  | collect n =>
      refine settled.withSlots (Slots.nodeCount_garbageCollect _ _)
        settled.paired.garbageCollect fun seqno absent => ?_
      rw [Slots.at?_garbageCollect, absent, ite_self]
  | connectionDown => exact settled.switch _

theorem Settled.step (settled : self.Settled) (early : self.AddsEarly event) :
    (event.handle self).state.Settled := by
  cases event with
  | upcall answer event => exact settled.upcall answer event early
  | acts activity => exact settled.acts activity
  | nextRound => exact (settled.nextRound early.1 early.2).2

/-- A JOIN that comes in is handled as it should exactly if it comes early. -/
private theorem Settled.recounted_upcall (settled : self.Settled)
    (answer : ℕ → Bool) {event : PacketIn}
    (join : event.parsed.type = PaxosMessage.JOIN) :
    self.Recounted (.upcall answer event) ↔
      self.AddsEarly (.upcall answer event) := by
  have payload := MemberEvent.join?_upcall answer join self
  obtain ⟨switch, raises, state⟩ := packetIn_join answer join self
  constructor
  · rintro ⟨completes, -⟩ - new
    obtain ⟨mac, new⟩ := Option.ne_none_iff_exists'.mp new
    obtain ⟨-, nId, bytes, decoded, -, -⟩ := newcomer_some new
    by_contra late
    refine (completes ?_).1 (raises.mpr ?_)
    · rintro _ same
      obtain rfl := Option.some.inj (payload.symm.trans same)
      exact ⟨_, decoded⟩
    · exact onJoin_late settled.fits event new late
  · intro early
    obtain ⟨-, refused⟩ :=
      settled.onJoin event event.parsed.payload (early join)
    constructor
    · intro decodes
      obtain ⟨fields, decoded⟩ := decodes _ payload
      refine ⟨fun raised => ?_, (settled.upcall answer event early).counted⟩
      obtain ⟨⟨failure, malformed⟩, -⟩ := refused (raises.mp raised)
      rw [decoded] at malformed
      cases malformed
    · intro raised
      obtain ⟨-, same⟩ := refused (raises.mp raised)
      change SameMembers self (packetIn answer event self).state
      rw [state, same]
      exact ⟨rfl, rfl, rfl⟩

theorem Settled.recounted_iff (settled : self.Settled) (event : MemberEvent) :
    (event.Recounts self → self.Recounted event) ↔ self.AddsEarly event := by
  cases event with
  | upcall answer event =>
      by_cases join : event.parsed.type = PaxosMessage.JOIN
      · rw [← settled.recounted_upcall answer join]
        exact forall_prop_of_true
          (.inr ⟨_, MemberEvent.join?_upcall answer join self⟩)
      · refine iff_of_true ?_ fun is => absurd is join
        rintro (⟨⟨⟩⟩ | ⟨payload, same⟩)
        exact absurd same (by simp [MemberEvent.join?, join])
  | acts activity =>
      refine iff_of_true ?_ trivial
      rintro (⟨⟨⟩⟩ | ⟨payload, same⟩)
      -- The join thread is the only one that handles a JOIN.
      cases activity with
      | joinBlock =>
          obtain ⟨completes, reached⟩ := settled.joinBlock
          exact ⟨fun _ => ⟨completes, reached.counted⟩,
            fun raised => absurd raised completes⟩
      | _ => cases same
  | nextRound =>
      rw [forall_prop_of_true (.inl rfl)]
      constructor
      · rintro ⟨completes, -⟩
        have finished := (completes (by rintro _ ⟨⟩)).1
        rw [MemberEvent.handle, nextRound_apply] at finished
        by_cases some : 0 < self.state.N.card
        · refine ⟨some, ?_⟩
          by_contra late
          rw [if_pos some, if_neg late] at finished
          exact finished (Outcome.raised_error _ _ _)
        · rw [if_neg some] at finished
          exact absurd (Outcome.raised_error _ _ _) finished
      · rintro ⟨some, fresh⟩
        obtain ⟨completes, reached⟩ := settled.nextRound some fresh
        exact ⟨fun _ => ⟨completes, reached.counted⟩,
          fun raised => absurd raised completes⟩

theorem new_settled (digit : Fin 10) (connection : Connection)
    (addFlows : Bool) :
    (PaxosController.new digit connection addFlows).Settled := by
  refine ⟨rfl, Slots.Backed.new 0, ?_, .inr ⟨rfl, rfl⟩⟩
  have small : (digit : ℕ) ≤ UINT32_MAX :=
    digit.isLt.le.trans (by decide)
  exact small

end PaxosController

namespace MemberEvent

/-- Every JOIN and every start of a round of a run is handled as it should
exactly if all of them come early enough. -/
theorem each_recounted_iff (digit : Fin 10) (connection : Connection)
    (addFlows : Bool) (events : List MemberEvent) :
    system.Each (fun node event => event.Recounts node → node.Recounted event)
        (PaxosController.new digit connection addFlows) events ↔
      system.Each PaxosController.AddsEarly
        (PaxosController.new digit connection addFlows) events := by
  have run : ∀ node, system.Run node events := by
    induction events with
    | nil => exact fun node => trivial
    | cons event events induction => exact fun node => ⟨trivial, induction _⟩
  refine (run _).each_iff_each ?_ ?_
    (PaxosController.new_settled digit connection addFlows)
  · exact fun node event settled _ => settled.recounted_iff event
  · exact fun node event settled _ early => settled.step early

/-- A client packet that comes in from the WAN. -/
def clientPacket : PacketIn :=
  { port := 5
    parsed :=
      { src := 21
        dst := ETHER_BROADCAST
        type := PaxosMessage.CLIENT
        payload := PaxosMessage.packClient [7] }
    srcip := none }

/-- S1 joins the others, starts its round and numbers a client packet. -/
def firstPacket : List MemberEvent :=
  [.acts .joinBlock,
    .upcall (fun _ => true) (joinOf 2 2 4),
    .upcall (fun _ => true) (joinOf 3 3 4),
    .acts .joinBlock, .acts .createLeader, .acts .pickNext,
    .upcall (fun _ => true) clientPacket]

/-- A fourth node that joins now is one of the nodes, but does not count in the
slot of the packet, and gets no answer. -/
theorem late_join_fails :
    let start := PaxosController.new (1 : Fin 10) switchS1 false
    let node := system.after start firstPacket
    let late := MemberEvent.upcall (fun _ => true) (joinOf 4 4 4)
    (late.handle node).result = .error .noAttribute ∧
      node.state.N = {1, 2, 3} ∧ (late.handle node).effects = [] ∧
      (late.handle node).state.state.N = {1, 2, 3, 4} ∧
      ((late.handle node).state.state.slots.at? 0).map Slot.nodeCount =
        some 3 ∧
      ¬ system.Each
        (fun node event => event.Recounts node → node.Recounted event) start
          (firstPacket ++ [late]) := by
  intro start node late
  have observed : (late.handle node).result = .error .noAttribute ∧
      node.state.N = {1, 2, 3} ∧ (late.handle node).effects = [] ∧
      (late.handle node).state.state.N = {1, 2, 3, 4} ∧
      ((late.handle node).state.state.slots.at? 0).map Slot.nodeCount =
        some 3 := by
    decide +kernel
  obtain ⟨raised, before, silent, after, slot⟩ := observed
  refine ⟨raised, before, silent, after, slot, fun all => ?_⟩
  have recounted : node.Recounted late :=
    (System.each_snoc.mp all).2 (.inr ⟨_, join?_upcall _ rfl _⟩)
  have same := (recounted.undone ⟨_, raised⟩).nodes
  rw [before, after] at same
  exact absurd same (by decide)

end MemberEvent

end SwitchPaxos

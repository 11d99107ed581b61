import SwitchPaxos.Controller.Queue
import SwitchPaxos.Controller.Serving

/-!
# Hosts with the address of a node

`process_message` asserts that no host has the address of a Paxos node.  Where
one has, a walk of the queue raises as soon as a packet is handed over, and so
does the handler that the walk is part of.
-/

namespace SwitchPaxos

namespace Slot

/-- A LEARN message is counted. -/
def Admits (n : ℕ) (src : EthAddr) (slot : Slot) : Prop :=
  slot.learned = false ∧ slot.hrnd ≤ n ∧ (slot.hrnd = n → src ∉ slot.learns)

instance (n : ℕ) (src : EthAddr) (slot : Slot) :
    Decidable (slot.Admits n src) :=
  inferInstanceAs (Decidable (_ ∧ _ ∧ (_ → _)))

/-- The votes that were counted in a round. -/
def votesIn (n : ℕ) (slot : Slot) : ℕ :=
  if slot.hrnd = n then slot.votes else 0

/-- One more vote is counted. -/
def admitted (n : ℕ) (src : EthAddr) (slot : Slot) : Slot :=
  { slot with
    hrnd := n
    learns := insert src (if slot.hrnd = n then slot.learns else ∅) }

theorem onLearn_eq (n : ℕ) (src : EthAddr) (slot : Slot) :
    slot.onLearn n src =
      if slot.Admits n src then some (slot.admitted n src) else none := by
  unfold onLearn Admits admitted
  by_cases learned : slot.learned
  · simp [learned]
  by_cases stale : n < slot.hrnd
  · simp [learned, stale]
  by_cases newer : slot.hrnd < n
  · have other : slot.hrnd ≠ n := by omega
    simp [learned, stale, newer, other, newer.le, resetLearns, updateLearns]
  · have current : slot.hrnd = n := by omega
    subst current
    by_cases duplicate : src ∈ slot.learns
    · simp [learned, duplicate]
    · simp [learned, duplicate, updateLearns]

theorem learned_admitted {n : ℕ} {src : EthAddr} {slot : Slot}
    (admits : slot.Admits n src) :
    (slot.admitted n src).learned = true ↔
      slot.requiredLearns ≤ slot.votesIn n + 1 := by
  have votes : (slot.admitted n src).votes = slot.votesIn n + 1 := by
    rw [Slot.votes, admitted, votesIn]
    by_cases current : slot.hrnd = n
    · simp only [if_pos current]
      exact Finset.card_insert_of_notMem (admits.2.2 current)
    · simp only [if_neg current]
      rfl
  rw [Slot.learned, decide_eq_true_iff, votes]
  rfl

end Slot

/-- What `process_message` and the walk around it leave behind. -/
def Effect.Delivers : Effect → Prop
  | .command (.packetOut _ _) | .handed _ => True
  | _ => False

namespace PaxosController

/-- A walk of the queue hands a packet over, and `process_message` meets a host
with the address of a node. -/
def Clashes (self : PaxosController) : Prop :=
  self.hostAddressesKnown = true ∧ ¬ self.HostsApart ∧
    (self.state.slots.slotAt self.state.slots.cseq).learned = true

instance (self : PaxosController) : Decidable self.HostsApart :=
  inferInstanceAs (Decidable (∀ host ∈ _, _))

instance (self : PaxosController) : Decidable self.Clashes :=
  inferInstanceAs (Decidable (_ ∧ _ ∧ _))

/-- The vote for this number is cast, the own LEARN is counted, and the slot at
the head of the queue is learned then. -/
def HandsOver (n seqno : ℕ) (self : PaxosController) : Prop :=
  let slots := self.state.slots
  let slot := slots.slotAt seqno
  slot.vrnd ≠ some n ∧ slot.Admits n self.mac ∧
    if slots.cseq = seqno then slot.requiredLearns ≤ slot.votesIn n + 1
    else (slots.slotAt slots.cseq).learned = true

instance (n seqno : ℕ) (self : PaxosController) :
    Decidable (self.HandsOver n seqno) :=
  inferInstanceAs (Decidable (_ ∧ _ ∧ _))

/-- Voting for this number makes `process_message` meet a host with the address
of a node. -/
def Trips (n seqno : ℕ) (self : PaxosController) : Prop :=
  self.hostAddressesKnown = true ∧ ¬ self.HostsApart ∧ self.HandsOver n seqno

instance (n seqno : ℕ) (self : PaxosController) :
    Decidable (self.Trips n seqno) :=
  inferInstanceAs (Decidable (_ ∧ _ ∧ _))

/-- Another store in which everything was processed in order. -/
def Reordered (self other : PaxosController) : Prop :=
  ∃ slots log, other = self.withSlots slots ∧ slots.InOrder log

section Queue

variable (rewrite : EthAddr → IPAddr → Option Bytes → Frame)
  {self : PaxosController} {log : List Handed} {n : ℕ}

theorem processMessage_delivers (n seqno : ℕ) (v : Option Bytes)
    (self : PaxosController) :
    ∀ effect ∈ (processMessage rewrite n seqno v self).effects,
      Effect.Delivers effect := by
  have kept : Handler.Keeps (fun _ => True) Effect.Delivers
      (processMessage rewrite n seqno v) := by
    refine Handler.keeps_get fun node _ => ?_
    refine Handler.Keeps.ite (fun _ => Handler.keeps_pure false) fun _ => ?_
    refine (Handler.keeps_forEach _ fun host => ?_).bind fun _ =>
      Handler.keeps_pure true
    refine Handler.keeps_get fun node _ => ?_
    refine Handler.Keeps.ite (fun _ => ?_) fun _ => ?_
    · exact Handler.keeps_raise Failure.assertNotPaxos
    · exact Handler.keeps_emit trivial
  exact (kept self trivial).2

private theorem serveQueue_apart (inOrder : self.state.slots.InOrder log)
    (apart : self.hostAddressesKnown = true → self.HostsApart) :
    let outcome := serveQueue rewrite n self
    outcome.result = .ok () ∧ self.Reordered outcome.state ∧
      ∀ effect ∈ outcome.effects, Effect.Delivers effect := by
  have same := (serveQueue_translates rewrite apart n self
    ⟨rfl, rfl, rfl, rfl⟩).1
  have walked : serveQueue rewrite n self = _ := same
  dsimp only
  rw [walked]
  refine ⟨inOrder.completes, ⟨_, _, rfl, inOrder.processQueue⟩, ?_⟩
  intro effect member
  obtain ⟨origin, among, told⟩ := List.mem_flatMap.mp member
  obtain ⟨call, -, rfl⟩ := List.mem_map.mp among
  rcases List.mem_append.mp told with sent | handed
  · split at sent
    · obtain ⟨host, -, rfl⟩ := List.mem_map.mp sent
      trivial
    · cases sent
  · rw [List.mem_singleton.mp handed]
    trivial

private theorem serveQueue_idle (inOrder : self.state.slots.InOrder log)
    (notLearned :
      ¬ (self.state.slots.slotAt self.state.slots.cseq).learned = true) :
    serveQueue rewrite n self = ⟨.ok (), self, []⟩ := by
  have turn : ∀ fuel, serveWalk rewrite n fuel self = ⟨.ok (), self, []⟩ := by
    rintro (_ | fuel)
    · rfl
    · rw [Slots.slotAt, Slots.at?] at notLearned
      simp only [serveWalk, Handler.bind_apply, Handler.get_apply,
        Outcome.andThen_ok, Outcome.after_nil]
      cases found : self.state.slots.slots.lookup self.state.slots.cseq with
      | none => rfl
      | some slot =>
          rw [found, Option.getD_some] at notLearned
          simp [inOrder.not_processed, notLearned]
  exact turn _

private theorem serveQueue_clash (inOrder : self.state.slots.InOrder log)
    (known : self.hostAddressesKnown = true) (clash : ¬ self.HostsApart)
    (learned :
      (self.state.slots.slotAt self.state.slots.cseq).learned = true) :
    let outcome := serveQueue rewrite n self
    outcome.Raised ∧ outcome.state = self ∧
      ∀ effect ∈ outcome.effects, Effect.Delivers effect := by
  have found := Slots.at?_of_learned learned
  generalize self.state.slots.slotAt self.state.slots.cseq = slot
    at found learned
  obtain ⟨host, member, paxos⟩ : ∃ host ∈ self.hosts,
      host.1 ∈ self.paxosPorts := by
    simpa only [HostsApart, not_forall, exists_prop, not_not] using clash
  have stored := List.length_pos_of_mem (Slots.mem_keys_of_at? found)
  obtain ⟨fuel, length⟩ := Nat.exists_eq_succ_of_ne_zero stored.ne'
  obtain ⟨exception, raised⟩ := forwardTo_raises rewrite slot.vval self
    member paxos
  have refused : (processMessage rewrite n self.state.slots.cseq slot.vval
      self).result = .error exception := by
    rw [processMessage_known rewrite n _ _ self known, Handler.andThen_pure]
    simp [raised]
  have state := processMessage_state rewrite n self.state.slots.cseq slot.vval
    self
  have delivers := processMessage_delivers rewrite n self.state.slots.cseq
    slot.vval self
  have walked : serveQueue rewrite n self =
      ⟨.error exception, self, (processMessage rewrite n self.state.slots.cseq
        slot.vval self).effects⟩ := by
    rw [Slots.at?] at found
    simp only [serveQueue, Handler.bind_apply, Handler.get_apply,
      Outcome.andThen_ok, Outcome.after_nil, length, serveWalk, found,
      inOrder.not_processed, Bool.false_eq_true, if_false, learned, if_true]
    rw [Outcome.andThen, refused]
    simp only [state]
  rw [walked]
  exact ⟨⟨exception, rfl⟩, rfl, delivers⟩

/-- Walking the queue raises exactly if it hands a packet over and a host has
the address of a node. -/
theorem serveQueue_spec (inOrder : self.state.slots.InOrder log) :
    let outcome := serveQueue rewrite n self
    (self.Clashes → outcome.Raised) ∧
      (¬ self.Clashes → outcome.result = .ok ()) ∧
      self.Reordered outcome.state ∧
      ∀ effect ∈ outcome.effects, Effect.Delivers effect := by
  by_cases apart : self.hostAddressesKnown = true → self.HostsApart
  · have quiet : ¬ self.Clashes := by
      rintro ⟨known, clash, -⟩
      exact clash (apart known)
    obtain ⟨completes, rest⟩ :=
      serveQueue_apart rewrite (n := n) inOrder apart
    exact ⟨fun clashes => absurd clashes quiet, fun _ => completes, rest⟩
  · obtain ⟨known, clash⟩ := Classical.not_imp.mp apart
    by_cases learned :
        (self.state.slots.slotAt self.state.slots.cseq).learned = true
    · have clashes : self.Clashes := ⟨known, clash, learned⟩
      obtain ⟨raised, state, delivers⟩ :=
        serveQueue_clash rewrite (n := n) inOrder known clash learned
      exact ⟨fun _ => raised, absurd clashes, ⟨_, _, state, inOrder⟩, delivers⟩
    · have quiet : ¬ self.Clashes := fun clashes => learned clashes.2.2
      have idle := serveQueue_idle rewrite (n := n) inOrder learned
      dsimp only
      rw [idle]
      exact ⟨fun clashes => absurd clashes quiet, fun _ => rfl,
        ⟨_, _, rfl, inOrder⟩, List.forall_mem_nil _⟩

end Queue

section Vote

variable (rewrite : EthAddr → IPAddr → Option Bytes → Frame)
  {self : PaxosController} {log : List Handed} {n seqno : ℕ} {v : Bytes}

/-- The store with the own vote, once the own LEARN is counted. -/
private def counted (n seqno : ℕ) (v : Bytes) (self : PaxosController) :
    Slots :=
  ((self.state.slots.vote n seqno v).touch seqno).putSlot seqno
    (((self.state.slots.slotAt seqno).vote n v).admitted n self.mac)

private theorem admits_vote :
    ((self.state.slots.slotAt seqno).vote n v).Admits n self.mac ↔
      (self.state.slots.slotAt seqno).Admits n self.mac :=
  Iff.rfl

/-- The walk that follows the own LEARN raises exactly if the vote trips. -/
private theorem trips_iff (votes : self.Accepts n seqno)
    (admits : (self.state.slots.slotAt seqno).Admits n self.mac) :
    self.Trips n seqno ↔ ((self.voted n seqno v).withSlots
      (self.counted n seqno v)).Clashes := by
  have head : (self.counted n seqno v).slotAt self.state.slots.cseq =
      if self.state.slots.cseq = seqno then
        ((self.state.slots.slotAt seqno).vote n v).admitted n self.mac
      else self.state.slots.slotAt self.state.slots.cseq := by
    rw [counted, Slots.slotAt_putSlot, Slots.slotAt_touch, Slots.slotAt_vote]
    split
    · rfl
    · rfl
  have position : (self.counted n seqno v).cseq = self.state.slots.cseq := by
    simp [counted]
  have learned : (if self.state.slots.cseq = seqno then
        (self.state.slots.slotAt seqno).requiredLearns ≤
          (self.state.slots.slotAt seqno).votesIn n + 1
      else (self.state.slots.slotAt self.state.slots.cseq).learned = true) ↔
      ((self.counted n seqno v).slotAt
        self.state.slots.cseq).learned = true := by
    rw [head]
    split
    · exact (Slot.learned_admitted (admits_vote.mpr admits)).symm
    · exact Iff.rfl
  rw [Clashes, slots_withSlots, position, ← learned]
  constructor
  · rintro ⟨known, clash, -, -, handed⟩
    exact ⟨known, clash, handed⟩
  · rintro ⟨known, clash, handed⟩
    exact ⟨known, clash, votes.2, admits, handed⟩

/-- What a leader does for its own LEARN once it voted. -/
private theorem onLearnBy_own (inOrder : self.state.slots.InOrder log)
    (votes : self.Accepts n seqno)
    (fits : n ≤ UINT32_MAX ∧ seqno ≤ UINT32_MAX) :
    let outcome := onLearnBy (serveQueue rewrite) none
      (PaxosMessage.header n seqno) (self.voted n seqno v)
    (self.Trips n seqno → outcome.Raised) ∧
      (¬ self.Trips n seqno → outcome.result = .ok .halt) ∧
      (self.voted n seqno v).Reordered outcome.state ∧
      ∀ effect ∈ outcome.effects, Effect.Delivers effect := by
  have handled := onLearnBy_addressed (serveQueue rewrite)
    (PaxosMessage.unpackLearn_header fits.1 fits.2)
    (addressed_none (self.voted n seqno v))
  have sender : (getEtherAddrs none (self.voted n seqno v)).1 = self.mac :=
    rfl
  have slot : (self.voted n seqno v).state.slots.slotAt seqno =
      (self.state.slots.slotAt seqno).vote n v := by
    rw [slots_voted, Slots.slotAt_vote, if_pos rfl]
  rw [sender, slot, Slot.onLearn_eq, if_congr admits_vote rfl rfl] at handled
  dsimp only
  by_cases admits : (self.state.slots.slotAt seqno).Admits n self.mac
  · rw [if_pos admits] at handled
    have reached : onLearnBy (serveQueue rewrite) none
        (PaxosMessage.header n seqno) (self.voted n seqno v) =
          (serveQueue rewrite n ((self.voted n seqno v).withSlots
            (self.counted n seqno v))).andThen fun _ => pure .halt := handled
    have kept : ((self.voted n seqno v).withSlots
        (self.counted n seqno v)).state.slots.InOrder log :=
      inOrder.unaffected (by simp [counted]) (by simp [counted])
    obtain ⟨raises, completes, ⟨slots, log', state, inOrder'⟩, delivers⟩ :=
      serveQueue_spec rewrite (n := n) kept
    rw [reached, Handler.andThen_pure, trips_iff (v := v) votes admits]
    refine ⟨fun clashes => ?_, fun quiet => ?_, ⟨slots, log', state, inOrder'⟩,
      delivers⟩
    · obtain ⟨exception, raised⟩ := raises clashes
      exact ⟨exception, by rw [raised]; rfl⟩
    · rw [completes quiet]
      rfl
  · rw [if_neg admits] at handled
    have quiet : ¬ self.Trips n seqno := fun trips => admits trips.2.2.2.1
    rw [handled]
    refine ⟨fun trips => absurd trips quiet, fun _ => rfl,
      ⟨(self.state.slots.vote n seqno v).touch seqno, log, rfl, ?_⟩,
      List.forall_mem_nil _⟩
    exact inOrder.unaffected (by simp) (by simp)

/-- What a leader does for its own vote: it raises exactly if it trips, stays
what it was but for the store, and tells the others and the hosts only. -/
theorem onAcceptBy_serveQueue {message : Bytes}
    (inOrder : self.state.slots.InOrder log) (member : self.mac ∈ self.state.N)
    (decoded : PaxosMessage.unpackAccept message = .ok (n, seqno, v))
    (current : self.state.crnd = n) :
    let outcome := onAcceptBy (serveQueue rewrite) none message self
    (self.Trips n seqno → outcome.Raised) ∧
      (¬ self.Trips n seqno → outcome.result = .ok .halt) ∧
      self.Reordered outcome.state ∧
      ∀ effect ∈ outcome.effects, effect = .accepted n seqno v ∨
        effect ∈ self.announce PaxosMessage.LEARN
          (PaxosMessage.header n seqno) ∨ Effect.Delivers effect := by
  have fits := PaxosMessage.unpackAccept_le decoded
  have handled := onAcceptBy_addressed (serveQueue rewrite) decoded
    (addressed_none self)
  dsimp only
  rw [handled]
  by_cases votes : self.Accepts n seqno
  · obtain ⟨raises, completes, ⟨slots, log', state, inOrder'⟩, delivers⟩ :=
      onLearnBy_own rewrite (v := v) inOrder votes fits
    rw [if_pos votes, castVoteBy, if_pos member, Handler.andThen_pure]
    refine ⟨fun trips => ?_, fun quiet => ?_,
      ⟨slots, log', ?_, inOrder'⟩, ?_⟩
    · obtain ⟨exception, raised⟩ := raises trips
      exact ⟨exception, by simp only [Outcome.after_result, raised]; rfl⟩
    · simp only [Outcome.after_result, completes quiet]
      rfl
    · rw [Outcome.after_state, state]
      subst current
      rfl
    · intro effect told
      rw [Outcome.after_effects, List.mem_append, List.mem_cons] at told
      rcases told with (cast | announced) | served
      · exact .inl cast
      · exact .inr (.inl announced)
      · exact .inr (.inr (delivers effect served))
  · have quiet : ¬ self.Trips n seqno :=
      fun trips => votes ⟨current.le, trips.2.2.1⟩
    rw [if_neg votes]
    refine ⟨fun trips => absurd trips quiet, fun _ => rfl,
      ⟨_, log, rfl, ?_⟩, List.forall_mem_nil _⟩
    exact inOrder.unaffected (by simp) (by simp)

end Vote

end PaxosController

end SwitchPaxos

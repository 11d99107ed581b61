import SwitchPaxos.Controller.Handing

/-!
# What a store knows

A store knows of a sequence number once it holds a vote for it or is past it.
A sender vouches if its LEARN is counted only for what the store knows.  Where
every majority has a sender that vouches, each learned slot is known, and the
queue reaches only slots that hold a vote.
-/

namespace SwitchPaxos

namespace Slots

/-- The store is past the sequence number or holds a vote for it. -/
def Knows (slots : Slots) (seqno : ℕ) : Prop :=
  seqno < slots.cseq ∨ (slots.ballotAt seqno).1 ≠ none

/-- Only nodes are counted, and those that vouch only for what is known. -/
abbrev Informed (N : Finset EthAddr) (vouches : EthAddr → Prop)
    (slots : Slots) : Prop :=
  slots.Backed (fun src _ seqno => src ∈ N ∧ (vouches src → slots.Knows seqno))
    fun _ _ _ => True

/-- Every majority of the nodes has one that vouches. -/
def Overlap (N : Finset EthAddr) (vouches : EthAddr → Prop) : Prop :=
  ∀ Q ⊆ N, 1 + N.card / 2 ≤ Q.card → ∃ src ∈ Q, vouches src

variable {slots changed : Slots} {N : Finset EthAddr}
  {vouches : EthAddr → Prop} {answer : ℕ → Bool} {log : List Handed}
  {n seqno : ℕ}

theorem Knows.unaffected (known : slots.Knows seqno)
    (cseq : slots.cseq ≤ changed.cseq)
    (ballot : changed.ballotAt seqno = slots.ballotAt seqno) :
    changed.Knows seqno := by
  rcases known with behind | voted
  · exact .inl (behind.trans_le cseq)
  · right
    rw [ballot]
    exact voted

theorem knows_vote (v : Bytes) : (slots.vote n seqno v).Knows seqno := by
  right
  rw [ballotAt_vote, if_pos rfl]
  exact Option.some_ne_none n

theorem cseq_le_processQueue :
    slots.cseq ≤ (processQueue answer n slots).state.cseq := by
  apply processQueue_induction (fun reached _ => slots.cseq ≤ reached.cseq)
    _ _ [] le_rfl
  · intro reached log slot further _ _
    rw [cseq_pass]
    omega
  · intro reached log slot further _ _
    exact further

theorem cseq_le_learn {src : EthAddr} :
    slots.cseq ≤ (learn answer src n seqno slots).state.cseq := by
  rw [learn]
  cases (slots.slotAt seqno).onLearn n src with
  | none => simp
  | some slot =>
      have grows : ((slots.touch seqno).putSlot seqno slot).cseq ≤
          (processQueue answer n
            ((slots.touch seqno).putSlot seqno slot)).state.cseq :=
        cseq_le_processQueue
      simpa using grows

namespace Informed

theorem mono (informed : slots.Informed N vouches)
    (known : ∀ seqno, slots.Knows seqno → changed.Knows seqno) :
    slots.Backed (fun src _ seqno =>
      src ∈ N ∧ (vouches src → changed.Knows seqno)) fun _ _ _ => True :=
  Backed.mono informed
    (fun _ _ seqno heard => ⟨heard.1, fun vouch => known seqno (heard.2 vouch)⟩)
    fun _ _ _ voted => voted

theorem knows (informed : slots.Informed N vouches)
    (nodeCount : slots.nodeCount = N.card) (overlap : Overlap N vouches)
    (learned : (slots.slotAt seqno).learned = true) : slots.Knows seqno := by
  obtain ⟨Q, majority, heard⟩ := (informed seqno).quorum learned
  rw [nodeCount] at majority
  obtain ⟨src, member, vouch⟩ :=
    overlap Q (fun src member => (heard src member).1) majority
  exact (heard src member).2 vouch

/-- So a walk reaches only slots that hold a vote. -/
theorem voted_of_reaches (informed : slots.Informed N vouches)
    (nodeCount : slots.nodeCount = N.card) (overlap : Overlap N vouches)
    (reaches : slots.Reaches answer seqno) :
    (slots.ballotAt seqno).1 ≠ none := by
  obtain ⟨ahead, inLine, -⟩ := reaches
  rcases informed.knows nodeCount overlap (inLine seqno ahead le_rfl) with
    behind | voted
  · exact absurd behind (Nat.not_lt.mpr ahead)
  · exact voted

theorem counted (informed : slots.Informed N vouches) {src : EthAddr}
    {slot : Slot} (hears : src ∈ N ∧ (vouches src → slots.Knows seqno))
    (count : (slots.slotAt seqno).onLearn n src = some slot) :
    ((slots.touch seqno).putSlot seqno slot).Informed N vouches := by
  have same : ∀ other, ((slots.touch seqno).putSlot seqno slot).ballotAt
      other = slots.ballotAt other := by
    intro other
    rw [ballotAt, slotAt_putSlot, slotAt_touch]
    split
    · next here =>
        rw [Slot.ballot_onLearn count, here]
        rfl
    · rfl
  have known : ∀ other, slots.Knows other →
      ((slots.touch seqno).putSlot seqno slot).Knows other := by
    intro other known
    exact known.unaffected (by simp) (same other)
  intro other
  have earlier := informed.mono known
  rw [slotAt_putSlot, slotAt_touch, nodeCount_putSlot, nodeCount_touch]
  split
  · next here =>
      subst here
      exact (earlier other).onLearn ⟨hears.1, fun vouch =>
        known other (hears.2 vouch)⟩ count
  · exact earlier other

end Informed

end Slots

namespace StoreOperation

variable {slots : Slots} {N : Finset EthAddr} {vouches : EthAddr → Prop}
  {log : List Handed} {seqno : ℕ}

@[simp] theorem nodeCount_apply (operation : StoreOperation) :
    (operation.apply slots).state.nodeCount = slots.nodeCount := by
  cases operation <;> simp [apply]

theorem knows (inOrder : slots.InOrder log) (operation : StoreOperation)
    (known : slots.Knows seqno) :
    (operation.apply slots).state.Knows seqno := by
  cases operation with
  | touch other =>
      exact known.unaffected (by simp [apply]) (Slots.ballotAt_touch _ _ _)
  | queue answer n =>
      exact known.unaffected Slots.cseq_le_processQueue
        (Slots.ballotAt_processQueue _ _ _ _)
  | learn answer src n other =>
      exact known.unaffected Slots.cseq_le_learn
        (Slots.ballotAt_learn _ _ _ _ _ _)
  | vote n other v =>
      by_cases here : seqno = other
      · subst here
        exact Slots.knows_vote v
      · apply known.unaffected (by simp [apply])
        exact (Slots.ballotAt_vote ..).trans (if_neg here)
  | collect n =>
      -- Only what was processed is deleted, and the queue is past that.
      by_cases processed : slots.isProcessed n seqno = true
      · simp only [Slots.isProcessed, decide_eq_true_eq] at processed
        exact .inl (inOrder.behind n seqno processed)
      · apply known.unaffected (by simp [apply])
        exact (Slots.ballotAt_garbageCollect ..).trans (if_neg processed)

theorem knows_forEach (inOrder : slots.InOrder log)
    (operations : List StoreOperation) (known : slots.Knows seqno) :
    (Handler.forEach StoreOperation.apply operations slots).state.Knows
      seqno := by
  induction operations generalizing slots log with
  | nil => exact known
  | cons operation operations induction =>
      rw [forEach_cons inOrder, Outcome.after_state]
      exact induction (StoreOperation.inOrder inOrder operation).2
        (knows inOrder operation known)

/-- A LEARN is counted from a node, which vouches for nothing unknown. -/
def Told (N : Finset EthAddr) (vouches : EthAddr → Prop) :
    Slots → List StoreOperation → Prop
  | _, [] => True
  | slots, operation :: operations =>
      (match operation with
        | .learn _ src _ seqno =>
            src ∈ N ∧ (vouches src → slots.Knows seqno)
        | _ => True) ∧
      Told N vouches (operation.apply slots).state operations

/-- A store that is told of nothing unknown stays informed, and its queue
reaches only slots that hold a vote. -/
theorem informed (inOrder : slots.InOrder log)
    (informed : slots.Informed N vouches)
    (nodeCount : slots.nodeCount = N.card)
    (overlap : Slots.Overlap N vouches) (operation : StoreOperation)
    (told : Told N vouches slots [operation]) :
    (operation.apply slots).state.Informed N vouches ∧
      ∀ reached, operation.Reaches slots reached →
        (slots.ballotAt reached).1 ≠ none := by
  have known : ∀ seqno, slots.Knows seqno →
      (operation.apply slots).state.Knows seqno :=
    fun _ => knows inOrder operation
  have kept := informed.mono known
  cases operation with
  | touch seqno => exact ⟨kept.touch, fun _ reaches => reaches.elim⟩
  | vote n seqno v =>
      exact ⟨kept.vote trivial, fun _ reaches => reaches.elim⟩
  | collect n => exact ⟨kept.garbageCollect, fun _ reaches => reaches.elim⟩
  | queue answer n =>
      refine ⟨kept.processQueue answer, fun reached reaches => ?_⟩
      exact informed.voted_of_reaches nodeCount overlap reaches
  | learn answer src n seqno =>
      obtain ⟨⟨member, vouched⟩, -⟩ := told
      refine ⟨kept.learn ⟨member, fun vouch =>
        knows inOrder (.learn answer src n seqno) (vouched vouch)⟩ answer, ?_⟩
      rintro reached ⟨slot, count, reaches⟩
      have voted := (informed.counted ⟨member, vouched⟩ count).voted_of_reaches
        (by simpa using nodeCount) overlap reaches
      rw [Slots.ballotAt, Slots.slotAt_putSlot, Slots.slotAt_touch] at voted
      split at voted
      · next here =>
          rw [Slot.ballot_onLearn count, ← here] at voted
          exact voted
      · exact voted

theorem fetched_forEach (inOrder : slots.InOrder log)
    (informed : slots.Informed N vouches)
    (nodeCount : slots.nodeCount = N.card)
    (overlap : Slots.Overlap N vouches) (operations : List StoreOperation)
    (told : Told N vouches slots operations) :
    (Handler.forEach StoreOperation.apply operations slots).state.Informed N
      vouches ∧ Fetched slots operations := by
  induction operations generalizing slots log with
  | nil => exact ⟨informed, trivial⟩
  | cons operation operations induction =>
      obtain ⟨kept, reached⟩ := StoreOperation.informed inOrder informed
        nodeCount overlap operation ⟨told.1, trivial⟩
      obtain ⟨after, rest⟩ := induction
        (StoreOperation.inOrder inOrder operation).2 kept
        (by rw [nodeCount_apply]; exact nodeCount) told.2
      rw [forEach_cons inOrder, Outcome.after_state]
      exact ⟨after, reached, rest⟩

end StoreOperation

namespace PaxosController

variable {N : Finset EthAddr} {vouches : EthAddr → Prop}
  (self : PaxosController) (answer : ℕ → Bool)

/-- The own LEARN follows the own vote. -/
theorem told_acceptOperations (event : Option PacketIn) (message : Bytes)
    (member : self.mac ∈ N) :
    StoreOperation.Told N vouches self.state.slots
      (self.acceptOperations answer event message) := by
  unfold acceptOperations
  split
  · trivial
  · next n seqno v _ =>
      split
      · split
        · split
          · refine ⟨trivial, ⟨member, fun _ => ?_⟩, trivial⟩
            exact Slots.knows_vote v
          · exact ⟨trivial, trivial⟩
        · exact ⟨trivial, trivial⟩
      · trivial

theorem told_clientOperations (message : Bytes) (member : self.mac ∈ N) :
    StoreOperation.Told N vouches self.state.slots
      (self.clientOperations answer message) := by
  unfold clientOperations
  split
  · split
    · exact self.told_acceptOperations answer none _ member
    · trivial
  · trivial

/-- An ACCEPT of a round that is not over makes its sequence number known. -/
theorem knows_acceptOperations {event : Option PacketIn} {message : Bytes}
    {n seqno : ℕ} {v : Bytes} {log : List Handed}
    (inOrder : self.state.slots.InOrder log)
    (decoded : PaxosMessage.unpackAccept message = .ok (n, seqno, v))
    (addressed : self.Addressed event) (current : self.state.crnd ≤ n) :
    (Handler.forEach StoreOperation.apply
      (self.acceptOperations answer event message)
        self.state.slots).state.Knows seqno := by
  unfold acceptOperations
  rw [decoded]
  simp only [if_pos addressed]
  by_cases accepts : self.Accepts n seqno
  · rw [if_pos accepts]
    have first := (StoreOperation.inOrder inOrder (.vote n seqno v)).2
    split
    · rw [StoreOperation.forEach_cons inOrder, Outcome.after_state]
      exact StoreOperation.knows_forEach first _ (Slots.knows_vote v)
    · rw [StoreOperation.forEach_cons inOrder, Outcome.after_state]
      exact Slots.knows_vote v
  · rw [if_neg accepts]
    apply StoreOperation.knows_forEach inOrder
    right
    -- The vote of this round is there already.
    by_contra none
    apply accepts
    refine ⟨current, ?_⟩
    rw [Slots.vrnd_slotAt, none]
    exact (Option.some_ne_none n).symm

end PaxosController

end SwitchPaxos

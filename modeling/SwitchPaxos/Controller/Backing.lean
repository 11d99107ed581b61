import SwitchPaxos.Controller.Store

/-!
# What a store is backed by

A slot counts senders of LEARN messages and holds a vote.  A store is backed
by what was heard and what was voted if every sender it counts was heard in
the round of the slot, and every vote it holds was cast.  Each operation of
the store keeps this, and so does hearing or voting more.
-/

namespace SwitchPaxos

/-- A slot counts only what was heard in its round, out of the given number of
nodes, and holds no vote but one that was cast. -/
structure Slot.Backed (heard : EthAddr → ℕ → Prop) (voted : ℕ → Bytes → Prop)
    (nodeCount : ℕ) (slot : Slot) : Prop where
  count : slot.nodeCount = nodeCount
  learns : ∀ src ∈ slot.learns, heard src slot.hrnd
  ballot : slot.ballot = (none, none) ∨
    ∃ n v, slot.ballot = (some n, some v) ∧ voted n v

namespace Slot.Backed

variable {heard heard' : EthAddr → ℕ → Prop} {voted voted' : ℕ → Bytes → Prop}
  {nodeCount : ℕ} {slot slot' : Slot} {n : ℕ}

theorem new : (Slot.new none none nodeCount).Backed heard voted nodeCount where
  count := rfl
  learns := by
    intro src member
    exact absurd member (Finset.notMem_empty _)
  ballot := .inl rfl

theorem mono (backed : slot.Backed heard voted nodeCount)
    (hears : ∀ src n, heard src n → heard' src n)
    (votes : ∀ n v, voted n v → voted' n v) :
    slot.Backed heard' voted' nodeCount where
  count := backed.count
  learns := fun src member => hears _ _ (backed.learns src member)
  ballot := by
    rcases backed.ballot with empty | ⟨n, v, stored, cast⟩
    · exact .inl empty
    · exact .inr ⟨n, v, stored, votes _ _ cast⟩

theorem vote (backed : slot.Backed heard voted nodeCount) {v : Bytes}
    (cast : voted n v) : (slot.vote n v).Backed heard voted nodeCount where
  count := backed.count
  learns := backed.learns
  ballot := .inr ⟨n, v, rfl, cast⟩

theorem onLearn (backed : slot.Backed heard voted nodeCount) {src : EthAddr}
    (hears : heard src n) (counted : slot.onLearn n src = some slot') :
    slot'.Backed heard voted nodeCount := by
  obtain ⟨-, -, learns, subset, current, rfl⟩ := Slot.onLearn_some counted
  refine ⟨backed.count, ?_, backed.ballot⟩
  intro other member
  simp only [Finset.mem_insert] at member
  rcases member with rfl | earlier
  · exact hears
  · rcases current with same | empty
    · exact same ▸ backed.learns other (subset earlier)
    · exact absurd earlier (by simp [empty])

/-- The majority that a learned slot counts was heard. -/
theorem quorum (backed : slot.Backed heard voted nodeCount)
    (learned : slot.learned = true) :
    ∃ Q : Finset EthAddr, 1 + nodeCount / 2 ≤ Q.card ∧
      ∀ src ∈ Q, heard src slot.hrnd := by
  refine ⟨slot.learns, ?_, backed.learns⟩
  simp only [Slot.learned, requiredLearns, votes, backed.count,
    decide_eq_true_eq] at learned
  exact learned

end Slot.Backed

namespace Slots

/-- Every slot of a store, and every slot it would create, is backed. -/
def Backed (heard : EthAddr → ℕ → ℕ → Prop) (voted : ℕ → ℕ → Bytes → Prop)
    (slots : Slots) : Prop :=
  ∀ seqno, (slots.slotAt seqno).Backed (fun src n => heard src n seqno)
    (fun n v => voted n seqno v) slots.nodeCount

namespace Backed

variable {heard heard' : EthAddr → ℕ → ℕ → Prop}
  {voted voted' : ℕ → ℕ → Bytes → Prop} {slots : Slots} {n seqno : ℕ}

theorem new (nodeCount : ℕ) : (Slots.new nodeCount).Backed heard voted :=
  fun _ => Slot.Backed.new

theorem mono (backed : slots.Backed heard voted)
    (hears : ∀ src n seqno, heard src n seqno → heard' src n seqno)
    (votes : ∀ n seqno v, voted n seqno v → voted' n seqno v) :
    slots.Backed heard' voted' :=
  fun seqno => (backed seqno).mono (fun src n => hears src n seqno)
    fun n v => votes n seqno v

theorem vval (backed : slots.Backed heard voted) {v : Bytes}
    (stored : (slots.ballotAt seqno).2 = some v) : ∃ n, voted n seqno v := by
  rw [ballotAt] at stored
  rcases (backed seqno).ballot with empty | ⟨n, w, held, cast⟩
  · rw [empty] at stored
    cases stored
  · rw [held] at stored
    cases stored
    exact ⟨n, cast⟩

/-- A value that is handed over was voted for. -/
theorem handed_learn (backed : slots.Backed heard voted) (answer : ℕ → Bool)
    (src : EthAddr) (n seqno : ℕ) :
    ∀ call ∈ (Slots.learn answer src n seqno slots).effects, ∀ v,
      call.vval = some v → ∃ round, voted round call.seqno v := by
  intro call called v value
  rw [vval_learn _ _ _ called] at value
  exact backed.vval value

theorem handed_processQueue (backed : slots.Backed heard voted)
    (answer : ℕ → Bool) (n : ℕ) :
    ∀ call ∈ (Slots.processQueue answer n slots).effects, ∀ v,
      call.vval = some v → ∃ round, voted round call.seqno v := by
  intro call called v value
  rw [vval_processQueue _ _ called] at value
  exact backed.vval value

theorem touch (backed : slots.Backed heard voted) :
    (slots.touch seqno).Backed heard voted := by
  intro other
  rw [slotAt_touch, nodeCount_touch]
  exact backed other

theorem vote (backed : slots.Backed heard voted) {v : Bytes}
    (cast : voted n seqno v) :
    (slots.vote n seqno v).Backed heard voted := by
  intro other
  rw [slotAt_vote, nodeCount_vote]
  split
  · next same =>
      subst same
      exact (backed other).vote cast
  · exact backed other

theorem learn (backed : slots.Backed heard voted) {src : EthAddr}
    (hears : heard src n seqno) (answer : ℕ → Bool) :
    (learn answer src n seqno slots).state.Backed heard voted := by
  intro other
  rw [slotAt_learn, nodeCount_learn]
  split
  · next same =>
      subst same
      cases counted : (slots.slotAt other).onLearn n src with
      | none => exact backed other
      | some slot => exact (backed other).onLearn hears counted
  · exact backed other

theorem processQueue (backed : slots.Backed heard voted) (answer : ℕ → Bool) :
    (processQueue answer n slots).state.Backed heard voted := by
  intro other
  rw [slotAt_processQueue, nodeCount_processQueue]
  exact backed other

theorem garbageCollect (backed : slots.Backed heard voted) :
    (slots.garbageCollect n).Backed heard voted := by
  intro other
  rw [slotAt_garbageCollect, nodeCount_garbageCollect]
  split
  · exact Slot.Backed.new
  · exact backed other

end Backed

end Slots

end SwitchPaxos

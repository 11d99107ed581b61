import SwitchPaxos.Controller.Learner
import SwitchPaxos.Controller.Informed

/-!
# What a store has heard

The learner's half of a slot forgets: a later round clears the count, and a
slot that was processed is deleted.  As long as there is only one round, what
a store has heard of a sender it keeps until the slot is learned, and what is
learned until the queue is past it.
-/

namespace SwitchPaxos

namespace Slot

/-- The slot counts a sender in the round, or needs to count nobody. -/
def Hears (n : ℕ) (src : EthAddr) (slot : Slot) : Prop :=
  slot.learned = true ∨ (slot.hrnd = n ∧ src ∈ slot.learns)

variable {slot : Slot} {m n : ℕ} {src other : EthAddr}

theorem hear_of_learned (learned : slot.learned = true) :
    slot.hear (m, src) = slot := by
  rw [hear, onLearn_of_learned learned, Option.getD_none]

/-- A LEARN is counted unless its round is over. -/
theorem hears_hear (current : slot.hrnd ≤ n) :
    (slot.hear (n, src)).Hears n src := by
  cases learned : slot.learned with
  | true =>
      left
      rw [hear_of_learned learned]
      exact learned
  | false =>
      right
      rcases current.eq_or_lt with same | newer
      · by_cases duplicate : src ∈ slot.learns
        · rw [hear, onLearn_of_mem same duplicate]
          exact ⟨same, duplicate⟩
        · rw [hear, onLearn_of_not_mem learned same duplicate]
          exact ⟨same, Finset.mem_insert_self src slot.learns⟩
      · rw [hear, onLearn_of_gt learned newer]
        exact ⟨rfl, Finset.mem_singleton_self src⟩

theorem learned_hear (learned : slot.learned = true) :
    (slot.hear (m, other)).learned = true := by
  rw [hear_of_learned learned]
  exact learned

theorem Hears.hear (hears : slot.Hears n src) (notLater : m ≤ n) :
    (slot.hear (m, other)).Hears n src := by
  rcases hears with learned | ⟨current, heard⟩
  · exact .inl (learned_hear learned)
  cases notYet : slot.learned with
  | true => exact .inl (learned_hear notYet)
  | false =>
      right
      rcases notLater.eq_or_lt with same | stale
      · subst same
        by_cases duplicate : other ∈ slot.learns
        · rw [Slot.hear, onLearn_of_mem current duplicate]
          exact ⟨current, heard⟩
        · rw [Slot.hear, onLearn_of_not_mem notYet current duplicate]
          exact ⟨current, Finset.mem_insert_of_mem heard⟩
      · rw [Slot.hear, onLearn_of_lt (by omega)]
        exact ⟨current, heard⟩

theorem hrnd_hear_le (current : slot.hrnd ≤ n) (notLater : m ≤ n) :
    (slot.hear (m, src)).hrnd ≤ n := by
  rw [hear]
  cases counted : slot.onLearn m src with
  | none => exact current
  | some slot' =>
      obtain ⟨-, -, learns, -, -, rfl⟩ := onLearn_some counted
      exact notLater

theorem learned_of_hears {Q : Finset EthAddr}
    (majority : 1 + slot.nodeCount / 2 ≤ Q.card)
    (hears : ∀ src ∈ Q, slot.Hears n src) : slot.learned = true := by
  by_contra notYet
  have counted : Q ⊆ slot.learns := by
    intro src member
    exact ((hears src member).resolve_left notYet).2
  apply notYet
  exact decide_eq_true (majority.trans (Finset.card_le_card counted))

end Slot

namespace Slots

/-- No slot has heard of a round after this one. -/
def UpTo (n : ℕ) (slots : Slots) : Prop :=
  ∀ seqno, (slots.slotAt seqno).hrnd ≤ n

/-- The queue is past the sequence number, or its slot has heard the sender.
-/
def Hears (n : ℕ) (src : EthAddr) (seqno : ℕ) (slots : Slots) : Prop :=
  seqno < slots.cseq ∨ (slots.slotAt seqno).Hears n src

variable {slots changed : Slots} {n seqno : ℕ} {src : EthAddr}

theorem upTo_new (n nodeCount : ℕ) : (new nodeCount).UpTo n :=
  fun _ => Nat.zero_le n

theorem slotAt_learn_hear (answer : ℕ → Bool) (m other : ℕ) :
    (learn answer src m other slots).state.slotAt seqno =
      if seqno = other then (slots.slotAt other).hear (m, src)
      else slots.slotAt seqno :=
  slotAt_learn ..

theorem Hears.unaffected (hears : slots.Hears n src seqno)
    (cseq : slots.cseq ≤ changed.cseq)
    (slot : (slots.slotAt seqno).Hears n src →
      (changed.slotAt seqno).Hears n src) : changed.Hears n src seqno := by
  rcases hears with behind | heard
  · exact .inl (behind.trans_le cseq)
  · exact .inr (slot heard)

end Slots

namespace StoreOperation

variable {slots : Slots} {log : List Handed} {n seqno : ℕ} {src : EthAddr}

/-- What the operation counts is of no later round. -/
def NotAfter (n : ℕ) : StoreOperation → Prop
  | .learn _ _ m _ => m ≤ n
  | _ => True

theorem upTo (upTo : slots.UpTo n) (operation : StoreOperation)
    (notAfter : operation.NotAfter n) :
    (operation.apply slots).state.UpTo n := by
  intro seqno
  have before := upTo seqno
  cases operation with
  | touch other =>
      change ((slots.touch other).slotAt seqno).hrnd ≤ n
      rw [Slots.slotAt_touch]
      exact before
  | vote m other v =>
      change ((slots.vote m other v).slotAt seqno).hrnd ≤ n
      rw [Slots.slotAt_vote]
      split
      · exact upTo other
      · exact before
  | learn answer src m other =>
      rw [apply, Slots.slotAt_learn_hear]
      split
      · exact Slot.hrnd_hear_le (upTo other) notAfter
      · exact before
  | queue answer m =>
      rw [apply, Slots.slotAt_processQueue]
      exact before
  | collect m =>
      change ((slots.garbageCollect m).slotAt seqno).hrnd ≤ n
      rw [Slots.slotAt_garbageCollect]
      split
      · exact Nat.zero_le n
      · exact before

/-- Only slots that the queue is past are deleted. -/
theorem hears (inOrder : slots.InOrder log) (operation : StoreOperation)
    (notAfter : operation.NotAfter n) (hears : slots.Hears n src seqno) :
    (operation.apply slots).state.Hears n src seqno := by
  cases operation with
  | touch other =>
      apply hears.unaffected (slots.cseq_touch other).ge
      intro heard
      rw [Slots.slotAt_touch]
      exact heard
  | vote m other v =>
      apply hears.unaffected (slots.cseq_vote m other v).ge
      intro heard
      rw [Slots.slotAt_vote]
      split
      · next here =>
          subst here
          exact heard
      · exact heard
  | learn answer sender m other =>
      apply hears.unaffected Slots.cseq_le_learn
      intro heard
      rw [Slots.slotAt_learn_hear]
      split
      · next here =>
          subst here
          exact heard.hear notAfter
      · exact heard
  | queue answer m =>
      apply hears.unaffected Slots.cseq_le_processQueue
      intro heard
      rw [Slots.slotAt_processQueue]
      exact heard
  | collect m =>
      by_cases processed : slots.isProcessed m seqno = true
      · left
        simp only [Slots.isProcessed, decide_eq_true_eq] at processed
        exact inOrder.behind m seqno processed
      · apply hears.unaffected (slots.cseq_garbageCollect m).ge
        intro heard
        rw [Slots.slotAt_garbageCollect, if_neg processed]
        exact heard

theorem hears_learn (upTo : slots.UpTo n) (answer : ℕ → Bool) :
    ((learn answer src n seqno).apply slots).state.Hears n src seqno := by
  right
  rw [apply, Slots.slotAt_learn_hear, if_pos rfl]
  exact Slot.hears_hear (upTo seqno)

theorem upTo_forEach (inOrder : slots.InOrder log) (upTo : slots.UpTo n)
    (operations : List StoreOperation)
    (notAfter : ∀ operation ∈ operations, operation.NotAfter n) :
    (Handler.forEach apply operations slots).state.UpTo n := by
  induction operations generalizing slots log with
  | nil => exact upTo
  | cons operation operations induction =>
      rw [forEach_cons inOrder, Outcome.after_state]
      exact induction (StoreOperation.inOrder inOrder operation).2
        (StoreOperation.upTo upTo operation
          (notAfter operation List.mem_cons_self))
        fun other member => notAfter other (List.mem_cons_of_mem _ member)

theorem hears_forEach (inOrder : slots.InOrder log)
    (operations : List StoreOperation)
    (notAfter : ∀ operation ∈ operations, operation.NotAfter n)
    (heard : slots.Hears n src seqno) :
    (Handler.forEach apply operations slots).state.Hears n src seqno := by
  induction operations generalizing slots log with
  | nil => exact heard
  | cons operation operations induction =>
      rw [forEach_cons inOrder, Outcome.after_state]
      exact induction (StoreOperation.inOrder inOrder operation).2
        (fun other member => notAfter other (List.mem_cons_of_mem _ member))
        (hears inOrder operation (notAfter operation List.mem_cons_self) heard)

end StoreOperation

end SwitchPaxos

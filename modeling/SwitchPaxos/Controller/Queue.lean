import SwitchPaxos.Controller.NodeRun

/-!
# Order of processing

The position `cseq`, the slot map and the processed set are changed by every
operation of the store.  What ties them together is that the processed set
holds one pair for every sequence number behind `cseq` and none ahead of it;
a walk keeps this, and so it never meets a processed slot.
-/

namespace SwitchPaxos

/-- The sequence numbers `process_message` answered True for. -/
def processedSeqnos (log : List Handed) : List ℕ :=
  (log.filter (·.answer)).map (·.seqno)

@[simp] theorem processedSeqnos_nil : processedSeqnos [] = [] := rfl

theorem processedSeqnos_snoc (log : List Handed) (call : Handed) :
    processedSeqnos (log ++ [call]) =
      processedSeqnos log ++ if call.answer then [call.seqno] else [] := by
  cases answered : call.answer <;>
    simp [processedSeqnos, List.filter_append, answered]

namespace Slots

/-- What was processed is what lies behind the position of the queue. -/
structure InOrder (slots : Slots) (log : List Handed) : Prop where
  answered : processedSeqnos log = List.range slots.cseq
  once : ∀ seqno < slots.cseq, ∃! n, (n, seqno) ∈ slots.processed
  behind : ∀ n seqno, (n, seqno) ∈ slots.processed → seqno < slots.cseq

variable {slots changed : Slots} {log : List Handed} {answer : ℕ → Bool}
  {n : ℕ}

namespace InOrder

theorem new (nodeCount : ℕ) : (Slots.new nodeCount).InOrder [] where
  answered := rfl
  once := by
    intro seqno early
    exact absurd early (Nat.not_lt_zero _)
  behind := by
    intro n seqno member
    exact absurd member (Finset.notMem_empty _)

theorem unaffected (inOrder : slots.InOrder log)
    (cseq : changed.cseq = slots.cseq)
    (processed : changed.processed = slots.processed) :
    changed.InOrder log where
  answered := by rw [cseq]; exact inOrder.answered
  once := by rw [cseq, processed]; exact inOrder.once
  behind := by rw [cseq, processed]; exact inOrder.behind

theorem passed (inOrder : slots.InOrder log) (slot : Slot)
    (accepted : answer slots.cseq = true) :
    (slots.pass n).InOrder (log ++ [slots.offer answer n slot]) where
  answered := by
    rw [processedSeqnos_snoc, inOrder.answered]
    simp [offer, accepted, List.range_succ]
  once := by
    intro seqno early
    simp only [cseq_pass, processed_pass, Finset.mem_insert, Prod.mk.injEq]
      at early ⊢
    by_cases head : seqno = slots.cseq
    · refine ⟨n, .inl ⟨rfl, head⟩, ?_⟩
      rintro other (⟨same, -⟩ | member)
      · exact same
      · have := inOrder.behind other seqno member
        omega
    · obtain ⟨round, member, unique⟩ := inOrder.once seqno (by omega)
      refine ⟨round, .inr member, ?_⟩
      rintro other (⟨-, same⟩ | present)
      · exact absurd same head
      · exact unique other present
  behind := by
    intro round seqno member
    simp only [cseq_pass, processed_pass, Finset.mem_insert, Prod.mk.injEq]
      at member ⊢
    rcases member with ⟨-, rfl⟩ | member
    · omega
    · have := inOrder.behind round seqno member
      omega

theorem refused (inOrder : slots.InOrder log) {slot : Slot}
    (rejected : answer slots.cseq = false) :
    slots.InOrder (log ++ [slots.offer answer n slot]) where
  answered := by
    rw [processedSeqnos_snoc, inOrder.answered]
    simp [offer, rejected]
  once := inOrder.once
  behind := inOrder.behind

theorem processQueue (inOrder : slots.InOrder log) :
    (processQueue answer n slots).state.InOrder
      (log ++ (Slots.processQueue answer n slots).effects) :=
  processQueue_induction InOrder
    (fun _ _ slot inOrder _ accepted => inOrder.passed slot accepted)
    (fun _ _ _ inOrder _ rejected => inOrder.refused rejected) log inOrder

theorem not_processed (inOrder : slots.InOrder log) :
    slots.isProcessed n slots.cseq = false := by
  simp only [isProcessed, decide_eq_false_iff_not]
  intro member
  exact absurd (inOrder.behind _ _ member) (lt_irrefl _)

private theorem walk_completes (inOrder : slots.InOrder log) (fuel : ℕ) :
    (walk answer n fuel slots).result = .ok () := by
  induction fuel generalizing slots log with
  | zero => rfl
  | succ fuel induction =>
      rcases walk_succ answer n fuel slots with
        ⟨slot, _, turn⟩ | ⟨slot, _, processed, turn⟩ | ⟨_, turn⟩
      · rw [turn]
        by_cases accepted : answer slots.cseq = true
        · rw [if_pos accepted, Outcome.after_result]
          exact induction (inOrder.passed slot accepted)
        · rw [if_neg accepted]
      · rw [inOrder.not_processed] at processed
        cases processed
      · rw [turn]

/-- Neither assertion of the queue fires. -/
theorem completes (inOrder : slots.InOrder log) :
    (Slots.processQueue answer n slots).result = .ok () := by
  simpa [Slots.processQueue] using inOrder.walk_completes _

end InOrder

namespace Stopped

theorem unaffected (stopped : slots.Stopped log)
    (cseq : changed.cseq = slots.cseq)
    (head : ∀ slot, changed.at? slots.cseq = some slot → slot.learned = true →
      ∃ earlier, slots.at? slots.cseq = some earlier ∧
        earlier.learned = true) :
    changed.Stopped log := by
  intro slot found learned
  rw [cseq] at found ⊢
  obtain ⟨earlier, present, before⟩ := head slot found learned
  exact stopped earlier present before

theorem new (nodeCount : ℕ) : (Slots.new nodeCount).Stopped [] := by
  intro slot found
  rw [at?_new] at found
  cases found

theorem touch (stopped : slots.Stopped log) (seqno : ℕ) :
    (slots.touch seqno).Stopped log := by
  refine stopped.unaffected (by simp) ?_
  intro slot found learned
  rw [at?_touch] at found
  split at found
  · next head =>
      subst head
      rw [← Option.some.inj found] at learned
      exact ⟨_, at?_of_learned learned, learned⟩
  · exact ⟨slot, found, learned⟩

theorem vote (stopped : slots.Stopped log) (seqno : ℕ) (v : Bytes) :
    (slots.vote n seqno v).Stopped log := by
  -- A vote leaves the learner's half of the slot as `get_slot` found it.
  refine (stopped.touch seqno).unaffected (by simp) ?_
  intro slot found learned
  rw [at?_vote] at found
  rw [at?_touch]
  split at found
  · next head =>
      simp only [Option.some.injEq] at found
      subst found
      exact ⟨_, by rw [if_pos head], by simpa using learned⟩
  · next elsewhere => exact ⟨slot, by rw [if_neg elsewhere, found], learned⟩

theorem garbageCollect (stopped : slots.Stopped log) :
    (slots.garbageCollect n).Stopped log := by
  refine stopped.unaffected rfl ?_
  intro slot found learned
  rw [at?_garbageCollect] at found
  split at found
  · cases found
  · exact ⟨slot, found, learned⟩

/-- The last call of a walk that made any is also the last call of all. -/
private theorem append {calls : List Handed} (stopped : slots.Stopped calls) :
    slots.Stopped (log ++ calls) := by
  intro slot found learned
  obtain ⟨call, last, rest⟩ := stopped slot found learned
  exact ⟨call, by simp [last], rest⟩

theorem processQueue (inOrder : slots.InOrder log) :
    (processQueue answer n slots).state.Stopped
      (log ++ (Slots.processQueue answer n slots).effects) := by
  apply append
  apply processQueue_stopped
  rintro ⟨failure, raised⟩
  rw [inOrder.completes] at raised
  cases raised

end Stopped

/-- Between two steps: everything behind the position is processed in order,
and the slot at the position gives the queue a reason to stand still. -/
structure Settled (slots : Slots) (log : List Handed) : Prop where
  inOrder : slots.InOrder log
  stopped : slots.Stopped log

end Slots

namespace StoreOperation

variable {slots : Slots} {log : List Handed}

/-- No operation of the store raises, and each of them keeps the order. -/
theorem inOrder (inOrder : slots.InOrder log) (operation : StoreOperation) :
    (operation.apply slots).result = .ok () ∧
      (operation.apply slots).state.InOrder
        (log ++ (operation.apply slots).effects) := by
  cases operation with
  | touch seqno =>
      have kept : (slots.touch seqno).InOrder log :=
        inOrder.unaffected (by simp) (by simp)
      simpa [apply] using kept
  | vote n seqno v =>
      have kept : (slots.vote n seqno v).InOrder log :=
        inOrder.unaffected (by simp) (by simp)
      simpa [apply] using kept
  | collect n =>
      have kept : (slots.garbageCollect n).InOrder log :=
        inOrder.unaffected rfl rfl
      simpa [apply] using kept
  | queue answer n => exact ⟨inOrder.completes, inOrder.processQueue⟩
  | learn answer src n seqno =>
      simp only [apply, Slots.learn]
      cases (slots.slotAt seqno).onLearn n src with
      | none =>
          have kept : (slots.touch seqno).InOrder log :=
            inOrder.unaffected (by simp) (by simp)
          simpa using kept
      | some slot =>
          have counted : ((slots.touch seqno).putSlot seqno slot).InOrder log :=
            inOrder.unaffected (by simp) (by simp)
          exact ⟨counted.completes, counted.processQueue⟩

theorem settled (settled : slots.Settled log) (operation : StoreOperation) :
    (operation.apply slots).state.Settled
      (log ++ (operation.apply slots).effects) where
  inOrder := (inOrder settled.inOrder operation).2
  stopped := by
    cases operation with
    | touch seqno => simpa [apply] using settled.stopped.touch seqno
    | vote n seqno v => simpa [apply] using settled.stopped.vote seqno v
    | collect n => simpa [apply] using settled.stopped.garbageCollect
    | queue answer n => exact .processQueue settled.inOrder
    | learn answer src n seqno =>
        simp only [apply, Slots.learn]
        cases (slots.slotAt seqno).onLearn n src with
        | none => simpa using settled.stopped.touch seqno
        | some slot =>
            exact .processQueue
              (settled.inOrder.unaffected (by simp) (by simp))

theorem forEach_cons (inOrder : slots.InOrder log)
    (operation : StoreOperation) (operations : List StoreOperation) :
    Handler.forEach StoreOperation.apply (operation :: operations) slots =
      (Handler.forEach StoreOperation.apply operations
        (operation.apply slots).state).after
          (operation.apply slots).effects := by
  have completes := (StoreOperation.inOrder inOrder operation).1
  rcases reached : operation.apply slots with ⟨result, next, calls⟩
  rw [reached] at completes
  have completed : result = .ok () := completes
  simp [Handler.forEach, reached, completed]

theorem settled_forEach (settled : slots.Settled log)
    (operations : List StoreOperation) :
    let outcome := Handler.forEach StoreOperation.apply operations slots
    outcome.result = .ok () ∧
      outcome.state.Settled (log ++ outcome.effects) := by
  induction operations generalizing slots log with
  | nil => simpa [Handler.forEach] using settled
  | cons operation operations induction =>
      obtain ⟨completes, kept⟩ :=
        induction (StoreOperation.settled settled operation)
      rw [forEach_cons settled.inOrder]
      refine ⟨completes, ?_⟩
      rw [Outcome.after_effects, ← List.append_assoc]
      exact kept

theorem inOrder_forEach (inOrder : slots.InOrder log)
    (operations : List StoreOperation) :
    (Handler.forEach StoreOperation.apply operations slots).state.InOrder
      (log ++ (Handler.forEach StoreOperation.apply operations
        slots).effects) := by
  induction operations generalizing slots log with
  | nil => simpa [Handler.forEach] using inOrder
  | cons operation operations induction =>
      have kept := induction (StoreOperation.inOrder inOrder operation).2
      rw [forEach_cons inOrder, Outcome.after_effects, ← List.append_assoc]
      exact kept

end StoreOperation

namespace NodeRun

/-- The queue of a node between two events. -/
def Ordered (run : NodeRun) : Prop :=
  run.node.state.slots.Settled (calls run.log) ∧
    Failure.assertNotProcessed ∉ run.failures

theorem ordered_step (run : NodeRun) (event : NodeEvent)
    (ordered : run.Ordered) : (system.step run event).Ordered := by
  obtain ⟨settled, silent⟩ := ordered
  obtain ⟨slots, effects, failures⟩ := NodeEvent.actsBy run.node event
  obtain ⟨completes, kept⟩ := StoreOperation.settled_forEach settled
    (event.operations run.node)
  refine ⟨?_, ?_⟩
  · change (event.handle run.node).state.state.slots.Settled
      (calls (run.log ++ (event.handle run.node).effects))
    rw [calls_append, slots, effects]
    exact kept
  · change Failure.assertNotProcessed ∉ run.failures ++ _
    intro member
    rcases List.mem_append.mp member with earlier | raised
    · exact silent earlier
    · cases result : (event.handle run.node).result with
      | ok value => simp [result] at raised
      | error failure =>
          simp only [result, List.mem_singleton] at raised
          subst raised
          rcases failures _ result with stored | other
          · rw [completes] at stored
            cases stored
          · simp at other

/-- After any events the sequence numbers that were processed are those below
`cseq`, in order and each once, the processed set agrees with them, the
assertions of the queue never fired, and the head of the queue is absent, not
learned, or was refused by the last call of `process_message`. -/
theorem processed_in_order (node : PaxosController) (nodeCount : ℕ)
    (fresh : node.state.slots = Slots.new nodeCount)
    (events : List NodeEvent) :
    let run := after node events
    let slots := run.node.state.slots
    processedSeqnos (calls run.log) = List.range slots.cseq ∧
      (∀ seqno < slots.cseq, ∃! n, (n, seqno) ∈ slots.processed) ∧
      (∀ n seqno, slots.cseq ≤ seqno → (n, seqno) ∉ slots.processed) ∧
      Failure.assertNotProcessed ∉ run.failures ∧
      (∀ slot, slots.at? slots.cseq = some slot → slot.learned = true →
        ∃ call, (calls run.log).getLast? = some call ∧
          call.seqno = slots.cseq ∧ call.answer = false) := by
  have initial : (start node).Ordered := by
    refine ⟨?_, by simp [start]⟩
    change node.state.slots.Settled []
    rw [fresh]
    exact ⟨.new nodeCount, .new nodeCount⟩
  obtain ⟨⟨inOrder, stopped⟩, silent⟩ : (after node events).Ordered :=
    (always (start node) events).invariant
      (fun run event ordered _ => ordered_step run event ordered) initial
  refine ⟨inOrder.answered, inOrder.once, ?_, silent, stopped⟩
  intro n seqno ahead member
  exact absurd (inOrder.behind n seqno member) (Nat.not_lt.mpr ahead)

/-- A node that is refused once and then processes its first slot. -/
theorem processed_in_order_refused_once :
    let events : List NodeEvent :=
      [.accept (fun _ => false) ((Frame.accept 2 1 4 0 [7]).upcall 1),
        .learn (fun _ => false) ((Frame.learn 2 1 4 0).upcall 1),
        .pump fun _ => true, .collect 4]
    let run := after (.ready "S1" 1 {1, 2, 3} 4 none) events
    run.node.state.slots.cseq = 1 ∧
      processedSeqnos (calls run.log) = List.range 1 := by
  intro events run
  have position : run.node.state.slots.cseq = 1 := by decide
  have ordered : processedSeqnos (calls run.log) =
      List.range run.node.state.slots.cseq :=
    (processed_in_order (.ready "S1" 1 {1, 2, 3} 4 none) 3 rfl events).1
  exact ⟨position, position ▸ ordered⟩

end NodeRun

end SwitchPaxos

import SwitchPaxos.Controller.Slots

/-!
# The slot store as a machine

The handlers act on the store in five ways: they create a slot, record a vote,
count a LEARN and walk the queue, walk the queue alone, or collect garbage.
Each operation is described here by what it does to the slot of a given
sequence number, and the walk by a rule for the single call of
`process_message`.
-/

namespace SwitchPaxos.Slots

/-- The slot stored for a sequence number. -/
def at? (slots : Slots) (seqno : ℕ) : Option Slot := slots.slots.lookup seqno

/-- The slot stored for a sequence number, or the one `get_slot` creates. -/
def slotAt (slots : Slots) (seqno : ℕ) : Slot :=
  (slots.at? seqno).getD (Slot.new none none slots.nodeCount)

/-- The store after `get_slot`. -/
def touch (seqno : ℕ) (slots : Slots) : Slots := (slots.getSlot seqno).2

/-- The store after a vote. -/
def vote (n seqno : ℕ) (v : Bytes) (slots : Slots) : Slots :=
  (slots.touch seqno).putSlot seqno ((slots.slotAt seqno).vote n v)

/-- The store after one slot was processed. -/
def pass (n : ℕ) (slots : Slots) : Slots :=
  (slots.setProcessed n slots.cseq).advance

/-- What `on_learn` does to the store. -/
def learn (answer : ℕ → Bool) (src : EthAddr) (n seqno : ℕ) :
    Handler Slots Handed Failure Unit := fun slots =>
  match (slots.slotAt seqno).onLearn n src with
  | none => ⟨.ok (), slots.touch seqno, []⟩
  | some slot => processQueue answer n ((slots.touch seqno).putSlot seqno slot)

section Lookup

variable (slots : Slots) (n seqno other : ℕ) (slot : Slot) (v : Bytes)

theorem getSlot_eq :
    slots.getSlot seqno = (slots.slotAt seqno, slots.touch seqno) := by
  unfold touch slotAt getSlot at?
  cases slots.slots.lookup seqno <;> rfl

theorem at?_new (nodeCount : ℕ) : (new nodeCount).at? seqno = none := rfl

theorem at?_putSlot :
    (slots.putSlot seqno slot).at? other =
      if other = seqno then some slot else slots.at? other :=
  Dict.lookup_insert_eq _ _ _ _

theorem at?_touch :
    (slots.touch seqno).at? other =
      if other = seqno then some (slots.slotAt seqno) else slots.at? other := by
  unfold touch slotAt getSlot
  cases found : slots.slots.lookup seqno with
  | none =>
      rw [show slots.at? seqno = none from found]
      exact at?_putSlot _ _ _ _
  | some slot =>
      rw [show slots.at? seqno = some slot from found]
      by_cases same : other = seqno
      · subst same
        rw [if_pos rfl]
        exact found
      · rw [if_neg same]

theorem at?_vote :
    (slots.vote n seqno v).at? other =
      if other = seqno then some ((slots.slotAt seqno).vote n v)
      else slots.at? other := by
  rw [vote, at?_putSlot, at?_touch]
  split <;> rfl

@[simp] theorem at?_pass : (slots.pass n).at? seqno = slots.at? seqno := rfl

theorem at?_garbageCollect :
    (slots.garbageCollect n).at? seqno =
      if slots.isProcessed n seqno then none else slots.at? seqno :=
  Dict.lookup_discard _ _ _

@[simp] theorem cseq_touch : (slots.touch seqno).cseq = slots.cseq := by
  unfold touch getSlot; split <;> rfl

@[simp] theorem processed_touch :
    (slots.touch seqno).processed = slots.processed := by
  unfold touch getSlot; split <;> rfl

@[simp] theorem nodeCount_touch :
    (slots.touch seqno).nodeCount = slots.nodeCount := by
  unfold touch getSlot; split <;> rfl

@[simp] theorem cseq_putSlot :
    (slots.putSlot seqno slot).cseq = slots.cseq := rfl

@[simp] theorem processed_putSlot :
    (slots.putSlot seqno slot).processed = slots.processed := rfl

@[simp] theorem nodeCount_putSlot :
    (slots.putSlot seqno slot).nodeCount = slots.nodeCount := rfl

@[simp] theorem cseq_vote : (slots.vote n seqno v).cseq = slots.cseq := by
  simp [vote]

@[simp] theorem processed_vote :
    (slots.vote n seqno v).processed = slots.processed := by
  simp [vote]

@[simp] theorem nodeCount_vote :
    (slots.vote n seqno v).nodeCount = slots.nodeCount := by
  simp [vote]

@[simp] theorem cseq_pass : (slots.pass n).cseq = slots.cseq + 1 := rfl

@[simp] theorem processed_pass :
    (slots.pass n).processed = insert (n, slots.cseq) slots.processed := rfl

@[simp] theorem nodeCount_pass : (slots.pass n).nodeCount = slots.nodeCount :=
  rfl

@[simp] theorem cseq_garbageCollect :
    (slots.garbageCollect n).cseq = slots.cseq := rfl

@[simp] theorem processed_garbageCollect :
    (slots.garbageCollect n).processed = slots.processed := rfl

@[simp] theorem nodeCount_garbageCollect :
    (slots.garbageCollect n).nodeCount = slots.nodeCount := rfl

end Lookup

section Walk

variable {answer : ℕ → Bool} {n : ℕ}

/-- The slot at the head of the queue is learned and not yet processed in this
round, so a walk hands it to `process_message`. -/
def Offers (n : ℕ) (slots : Slots) (slot : Slot) : Prop :=
  slots.at? slots.cseq = some slot ∧ slot.learned ∧
    ¬ slots.isProcessed n slots.cseq

/-- The call of `process_message` for the slot at the head of the queue. -/
def offer (answer : ℕ → Bool) (n : ℕ) (slots : Slots) (slot : Slot) : Handed :=
  ⟨n, slots.cseq, slot.vval, answer slots.cseq⟩

theorem walk_succ (answer : ℕ → Bool) (n fuel : ℕ) (slots : Slots) :
    (∃ slot, slots.Offers n slot ∧
      walk answer n (fuel + 1) slots =
        if answer slots.cseq then
          (walk answer n fuel (slots.pass n)).after
            [slots.offer answer n slot]
        else ⟨.ok (), slots, [slots.offer answer n slot]⟩) ∨
    (∃ slot, slots.at? slots.cseq = some slot ∧
      slots.isProcessed n slots.cseq ∧
      walk answer n (fuel + 1) slots =
        ⟨.error .assertNotProcessed, slots, []⟩) ∨
    ((∀ slot, slots.at? slots.cseq = some slot → slot.learned = false) ∧
      walk answer n (fuel + 1) slots = ⟨.ok (), slots, []⟩) := by
  simp only [walk, Handler.bind_apply, Handler.get_apply, Outcome.andThen_ok,
    Outcome.after_nil]
  cases found : slots.slots.lookup slots.cseq with
  | none =>
      right; right
      exact ⟨by simp [at?, found], rfl⟩
  | some slot =>
      by_cases processed : slots.isProcessed n slots.cseq
      · right; left
        exact ⟨slot, found, processed, by simp [processed]⟩
      by_cases learned : slot.learned
      · left
        refine ⟨slot, ⟨found, learned, processed⟩, ?_⟩
        by_cases accepted : answer slots.cseq
        · simp [processed, learned, accepted, offer, pass]
        · simp [processed, learned, accepted, offer]
      · right; right
        simp only [Bool.not_eq_true] at learned
        refine ⟨?_, by simp [processed, learned]⟩
        intro other same
        rw [at?, found, Option.some.injEq] at same
        rw [← same, learned]

/-- A relation between stores and the calls made so far that every call of
`process_message` keeps is kept by a whole walk. -/
theorem walk_induction {motive : Slots → List Handed → Prop}
    (passed : ∀ slots log slot, motive slots log → slots.Offers n slot →
      answer slots.cseq = true →
      motive (slots.pass n) (log ++ [slots.offer answer n slot]))
    (refused : ∀ slots log slot, motive slots log → slots.Offers n slot →
      answer slots.cseq = false →
      motive slots (log ++ [slots.offer answer n slot]))
    {slots : Slots} {log : List Handed} (start : motive slots log)
    (fuel : ℕ) :
    motive (walk answer n fuel slots).state
      (log ++ (walk answer n fuel slots).effects) := by
  induction fuel generalizing slots log with
  | zero => simpa [walk] using start
  | succ fuel induction =>
      rcases walk_succ answer n fuel slots with
        ⟨slot, offers, turn⟩ | ⟨slot, _, _, turn⟩ | ⟨_, turn⟩
      · rw [turn]
        by_cases accepted : answer slots.cseq = true
        · simpa [accepted] using
            induction (passed _ _ _ start offers accepted)
        · simp only [Bool.not_eq_true] at accepted
          simpa [accepted] using refused _ _ _ start offers accepted
      · simpa [turn] using start
      · simpa [turn] using start

theorem processQueue_induction (motive : Slots → List Handed → Prop)
    (passed : ∀ slots log slot, motive slots log → slots.Offers n slot →
      answer slots.cseq = true →
      motive (slots.pass n) (log ++ [slots.offer answer n slot]))
    (refused : ∀ slots log slot, motive slots log → slots.Offers n slot →
      answer slots.cseq = false →
      motive slots (log ++ [slots.offer answer n slot]))
    {slots : Slots} (log : List Handed) (start : motive slots log) :
    motive (processQueue answer n slots).state
      (log ++ (processQueue answer n slots).effects) := by
  simpa [processQueue] using walk_induction passed refused start _

theorem mem_keys_of_at? {slots : Slots} {seqno : ℕ} {slot : Slot}
    (found : slots.at? seqno = some slot) : seqno ∈ slots.slots.keys := by
  have isSome : (slots.slots.lookup seqno).isSome := by
    rw [← at?, found]
    rfl
  exact AList.mem_keys.mpr (AList.lookup_isSome.mp isSome)

/-- How many stored slots a walk may still come across. -/
def ahead (slots : Slots) : ℕ :=
  (slots.slots.keys.filter (slots.cseq ≤ ·)).length

theorem ahead_pass {slots : Slots} {slot : Slot}
    (found : slots.at? slots.cseq = some slot) :
    (slots.pass n).ahead < slots.ahead := by
  have member := mem_keys_of_at? found
  have narrower : slots.slots.keys.filter (slots.cseq + 1 ≤ ·) =
      (slots.slots.keys.filter (slots.cseq ≤ ·)).filter
        (slots.cseq + 1 ≤ ·) := by
    rw [List.filter_filter]
    apply List.filter_congr
    intro key _
    simp only [← Bool.decide_and, decide_eq_decide]
    omega
  change (slots.slots.keys.filter (slots.cseq + 1 ≤ ·)).length < _
  rw [narrower]
  exact List.length_filter_lt_length_iff_exists.mpr
    ⟨slots.cseq, by simp [member], by simp⟩

/-- Why a walk came to an end: the head of the queue is absent or not learned,
or it was refused by the last call. -/
def Stopped (slots : Slots) (calls : List Handed) : Prop :=
  ∀ slot, slots.at? slots.cseq = some slot → slot.learned = true →
    ∃ call, calls.getLast? = some call ∧ call.seqno = slots.cseq ∧
      call.answer = false

private theorem walk_stopped {fuel : ℕ} {slots : Slots}
    (enough : slots.ahead ≤ fuel)
    (completed : ¬ (walk answer n fuel slots).Raised) :
    (walk answer n fuel slots).state.Stopped
      (walk answer n fuel slots).effects := by
  induction fuel generalizing slots with
  | zero =>
      intro slot found _
      change slots.at? slots.cseq = some slot at found
      have fewer := ahead_pass (n := n) found
      omega
  | succ fuel induction =>
      rcases walk_succ answer n fuel slots with
        ⟨slot, offers, turn⟩ | ⟨slot, _, _, turn⟩ | ⟨unlearned, turn⟩
      · rw [turn] at completed ⊢
        by_cases accepted : answer slots.cseq = true
        · simp only [accepted, if_true] at completed ⊢
          have fewer := ahead_pass (n := n) offers.1
          have enough : (slots.pass n).ahead ≤ fuel := by omega
          have rest := induction enough completed
          intro last found learned
          obtain ⟨call, final, same, refused⟩ := rest last found learned
          exact ⟨call, by simp [List.getLast?_cons, final], same, refused⟩
        · simp only [Bool.not_eq_true] at accepted
          intro _ _ _
          exact ⟨slots.offer answer n slot, by simp [accepted],
            by simp [accepted, offer], by simp [accepted, offer]⟩
      · rw [turn] at completed
        exact absurd (Outcome.raised_error _ _ _) completed
      · rw [turn]
        intro slot found learned
        rw [unlearned slot found] at learned
        cases learned

/-- A walk goes on until it has a reason to stop: it never runs out of turns.
-/
theorem processQueue_stopped {slots : Slots}
    (completed : ¬ (processQueue answer n slots).Raised) :
    (processQueue answer n slots).state.Stopped
      (processQueue answer n slots).effects := by
  simp only [processQueue, Handler.bind_apply, Handler.get_apply,
    Outcome.andThen_ok, Outcome.after_nil] at completed ⊢
  exact walk_stopped (List.length_filter_le _ _) completed

theorem at?_processQueue (slots : Slots) (seqno : ℕ) :
    (processQueue answer n slots).state.at? seqno = slots.at? seqno :=
  processQueue_induction
    (fun reached _ => reached.at? seqno = slots.at? seqno)
    (fun _ _ _ same _ _ => same) (fun _ _ _ same _ _ => same)
    [] rfl

end Walk

section SlotAt

variable (slots : Slots) (n seqno other : ℕ) (slot : Slot) (v : Bytes)

theorem slotAt_of_at? {slots : Slots} {seqno : ℕ} {slot : Slot}
    (found : slots.at? seqno = some slot) : slots.slotAt seqno = slot := by
  rw [slotAt, found]; rfl

/-- A slot that `get_slot` creates is not learned. -/
theorem at?_of_learned {slots : Slots} {seqno : ℕ}
    (learned : (slots.slotAt seqno).learned = true) :
    slots.at? seqno = some (slots.slotAt seqno) := by
  cases found : slots.at? seqno with
  | none =>
      rw [slotAt, found, Option.getD_none, Slot.not_learned_new] at learned
      cases learned
  | some slot => rw [slotAt_of_at? found]

theorem slotAt_putSlot :
    (slots.putSlot seqno slot).slotAt other =
      if other = seqno then slot else slots.slotAt other := by
  rw [slotAt, at?_putSlot]
  split <;> rfl

@[simp] theorem slotAt_touch :
    (slots.touch seqno).slotAt other = slots.slotAt other := by
  rw [slotAt, at?_touch, nodeCount_touch]
  split
  · next same =>
      subst same
      rfl
  · rfl

theorem slotAt_vote :
    (slots.vote n seqno v).slotAt other =
      if other = seqno then (slots.slotAt seqno).vote n v
      else slots.slotAt other := by
  rw [vote, slotAt_putSlot, slotAt_touch]

theorem slotAt_garbageCollect :
    (slots.garbageCollect n).slotAt seqno =
      if slots.isProcessed n seqno then Slot.new none none slots.nodeCount
      else slots.slotAt seqno := by
  rw [slotAt, at?_garbageCollect]
  split <;> rfl

@[simp] theorem nodeCount_processQueue (answer : ℕ → Bool) :
    (processQueue answer n slots).state.nodeCount = slots.nodeCount :=
  processQueue_induction
    (fun reached _ => reached.nodeCount = slots.nodeCount)
    (fun _ _ _ same _ _ => same) (fun _ _ _ same _ _ => same)
    [] rfl

@[simp] theorem slotAt_processQueue (answer : ℕ → Bool) :
    (processQueue answer n slots).state.slotAt seqno = slots.slotAt seqno := by
  rw [slotAt, at?_processQueue, nodeCount_processQueue]
  rfl

@[simp] theorem nodeCount_learn (answer : ℕ → Bool) (src : EthAddr) :
    (learn answer src n seqno slots).state.nodeCount = slots.nodeCount := by
  rw [learn]
  cases (slots.slotAt seqno).onLearn n src <;> simp

theorem slotAt_learn (answer : ℕ → Bool) (src : EthAddr) :
    (learn answer src n seqno slots).state.slotAt other =
      if other = seqno then
        ((slots.slotAt seqno).onLearn n src).getD (slots.slotAt seqno)
      else slots.slotAt other := by
  rw [learn]
  cases (slots.slotAt seqno).onLearn n src with
  | none =>
      rw [slotAt_touch]
      split
      · next same => rw [same]; rfl
      · rfl
  | some slot =>
      rw [slotAt_processQueue, slotAt_putSlot, slotAt_touch]
      rfl

end SlotAt

section Ballot

/-- The vote that is stored for a sequence number. -/
def ballotAt (slots : Slots) (seqno : ℕ) : Option ℕ × Option Bytes :=
  (slots.slotAt seqno).ballot

variable (slots : Slots) (n seqno other : ℕ) (v : Bytes)

theorem vrnd_slotAt :
    (slots.slotAt seqno).vrnd = (slots.ballotAt seqno).1 := rfl

theorem ballotAt_of_at? {slots : Slots} {seqno : ℕ} {slot : Slot}
    (found : slots.at? seqno = some slot) :
    slots.ballotAt seqno = slot.ballot := by
  rw [ballotAt, slotAt_of_at? found]

@[simp] theorem ballotAt_new (nodeCount : ℕ) :
    (new nodeCount).ballotAt seqno = (none, none) := rfl

@[simp] theorem ballotAt_touch :
    (slots.touch seqno).ballotAt other = slots.ballotAt other := by
  rw [ballotAt, slotAt_touch]
  rfl

theorem ballotAt_vote :
    (slots.vote n seqno v).ballotAt other =
      if other = seqno then (some n, some v) else slots.ballotAt other := by
  rw [ballotAt, slotAt_vote]
  split <;> rfl

theorem ballotAt_garbageCollect :
    (slots.garbageCollect n).ballotAt seqno =
      if slots.isProcessed n seqno then (none, none)
      else slots.ballotAt seqno := by
  rw [ballotAt, slotAt_garbageCollect]
  split <;> rfl

@[simp] theorem ballotAt_processQueue (answer : ℕ → Bool) :
    (processQueue answer n slots).state.ballotAt seqno =
      slots.ballotAt seqno := by
  rw [ballotAt, slotAt_processQueue]
  rfl

@[simp] theorem ballotAt_learn (answer : ℕ → Bool) (src : EthAddr) :
    (learn answer src n seqno slots).state.ballotAt other =
      slots.ballotAt other := by
  rw [ballotAt, slotAt_learn]
  split
  · next same =>
      subst same
      cases counted : (slots.slotAt other).onLearn n src with
      | none => rfl
      | some slot => exact Slot.ballot_onLearn counted
  · rfl

theorem vval_processQueue {answer : ℕ → Bool} {call : Handed}
    (member : call ∈ (processQueue answer n slots).effects) :
    call.vval = (slots.ballotAt call.seqno).2 := by
  let motive : Slots → List Handed → Prop := fun reached log =>
    (∀ seqno, reached.at? seqno = slots.at? seqno) ∧
      ∀ call ∈ log, call.vval = (slots.ballotAt call.seqno).2
  have turn : ∀ reached log slot, motive reached log →
      reached.Offers n slot →
      ∀ call ∈ log ++ [reached.offer answer n slot],
        call.vval = (slots.ballotAt call.seqno).2 := by
    rintro reached log slot ⟨same, earlier⟩ ⟨found, -, -⟩ call member
    rcases List.mem_append.mp member with before | new
    · exact earlier call before
    · obtain rfl := List.mem_singleton.mp new
      rw [same] at found
      rw [offer, ballotAt_of_at? found]
      rfl
  have handed := processQueue_induction motive
    (fun reached log slot kept offers _ =>
      ⟨kept.1, turn reached log slot kept offers⟩)
    (fun reached log slot kept offers _ =>
      ⟨kept.1, turn reached log slot kept offers⟩)
    [] ⟨fun _ => rfl, by simp⟩
  exact handed.2 call member

theorem vval_learn {answer : ℕ → Bool} {src : EthAddr} {call : Handed}
    (member : call ∈ (learn answer src n seqno slots).effects) :
    call.vval = (slots.ballotAt call.seqno).2 := by
  rw [learn] at member
  cases counted : (slots.slotAt seqno).onLearn n src with
  | none =>
      rw [counted] at member
      cases member
  | some slot =>
      rw [counted] at member
      rw [vval_processQueue _ _ member, ballotAt, slotAt_putSlot, slotAt_touch]
      split
      · next same =>
          rw [Slot.ballot_onLearn counted, same]
          rfl
      · rfl

end Ballot

section Reaches

variable {answer : ℕ → Bool} {n : ℕ} {slots : Slots}

/-- A walk reaches a sequence number if all slots from the position of the
queue up to it are learned and all slots before it are answered True. -/
def Reaches (answer : ℕ → Bool) (slots : Slots) (seqno : ℕ) : Prop :=
  slots.cseq ≤ seqno ∧
    (∀ earlier, slots.cseq ≤ earlier → earlier ≤ seqno →
      (slots.slotAt earlier).learned = true) ∧
    ∀ earlier, slots.cseq ≤ earlier → earlier < seqno → answer earlier = true

private theorem reaches_head (learned : (slots.slotAt slots.cseq).learned) :
    slots.Reaches answer slots.cseq := by
  refine ⟨le_rfl, ?_, ?_⟩
  · intro earlier from_head to_head
    obtain rfl : earlier = slots.cseq := by omega
    exact learned
  · intro earlier from_head before
    omega

private theorem reaches_pass {seqno : ℕ}
    (learned : (slots.slotAt slots.cseq).learned = true)
    (accepted : answer slots.cseq = true) :
    slots.Reaches answer seqno ↔
      seqno = slots.cseq ∨ (slots.pass n).Reaches answer seqno := by
  constructor
  · rintro ⟨ahead, inLine, answered⟩
    by_cases head : seqno = slots.cseq
    · exact .inl head
    · refine .inr ⟨?_, ?_, ?_⟩
      · rw [cseq_pass]
        omega
      · intro earlier after upTo
        rw [cseq_pass] at after
        exact inLine earlier (by omega) upTo
      · intro earlier after before
        rw [cseq_pass] at after
        exact answered earlier (by omega) before
  · rintro (rfl | ⟨ahead, inLine, answered⟩)
    · exact reaches_head learned
    · rw [cseq_pass] at ahead inLine answered
      refine ⟨by omega, ?_, ?_⟩
      · intro earlier after upTo
        by_cases head : earlier = slots.cseq
        · rw [head]
          exact learned
        · exact inLine earlier (by omega) upTo
      · intro earlier after before
        by_cases head : earlier = slots.cseq
        · rw [head]
          exact accepted
        · exact answered earlier (by omega) before

private theorem not_reaches {seqno : ℕ}
    (unlearned : ∀ slot, slots.at? slots.cseq = some slot →
      slot.learned = false) : ¬ slots.Reaches answer seqno := by
  rintro ⟨ahead, inLine, -⟩
  have learned := inLine slots.cseq le_rfl ahead
  rw [unlearned _ (at?_of_learned learned)] at learned
  cases learned

private theorem unprocessed_pass
    (unprocessed : ∀ seqno, slots.cseq ≤ seqno →
      ¬ slots.isProcessed n seqno = true) {seqno : ℕ}
    (after : (slots.pass n).cseq ≤ seqno) :
    ¬ (slots.pass n).isProcessed n seqno = true := by
  intro processed
  rw [cseq_pass] at after
  simp only [isProcessed, processed_pass, Finset.mem_insert,
    Prod.mk.injEq, true_and, decide_eq_true_eq] at processed
  rcases processed with here | earlier
  · omega
  · exact unprocessed seqno (by omega) (by simpa [isProcessed])

private theorem walk_handed {fuel : ℕ} (enough : slots.ahead ≤ fuel)
    (unprocessed : ∀ seqno, slots.cseq ≤ seqno →
      ¬ slots.isProcessed n seqno = true) (call : Handed) :
    call ∈ (walk answer n fuel slots).effects ↔
      slots.Reaches answer call.seqno ∧
        call = ⟨n, call.seqno, (slots.slotAt call.seqno).vval,
          answer call.seqno⟩ := by
  induction fuel generalizing slots with
  | zero =>
      have absent : slots.at? slots.cseq = none := by
        by_contra present
        obtain ⟨slot, found⟩ := Option.ne_none_iff_exists'.mp present
        have fewer := ahead_pass (n := n) found
        omega
      simp only [walk, Handler.pure_apply, List.not_mem_nil, false_iff]
      rintro ⟨reached, -⟩
      refine not_reaches ?_ reached
      intro slot found
      rw [absent] at found
      cases found
  | succ fuel induction =>
      rcases walk_succ answer n fuel slots with
        ⟨slot, ⟨found, learned, -⟩, turn⟩ | ⟨slot, -, processed, turn⟩ |
        ⟨unlearned, turn⟩
      · have head : slots.slotAt slots.cseq = slot := slotAt_of_at? found
        rw [← head] at learned
        have first : ∀ {rest : Prop}, (call = slots.offer answer n slot ∨ rest)
            ↔ (call.seqno = slots.cseq ∧ call = ⟨n, call.seqno,
              (slots.slotAt call.seqno).vval, answer call.seqno⟩) ∨ rest := by
          intro rest
          refine or_congr_left ⟨?_, ?_⟩
          · rintro rfl
            simp [offer, head]
          · rintro ⟨here, same⟩
            rw [same, here, head]
            rfl
        by_cases accepted : answer slots.cseq = true
        · have fewer := ahead_pass (n := n) found
          have later : ∀ seqno, (slots.pass n).cseq ≤ seqno →
              ¬ (slots.pass n).isProcessed n seqno = true :=
            fun _ => unprocessed_pass unprocessed
          have enough : (slots.pass n).ahead ≤ fuel := by omega
          have rest := induction enough later
          rw [turn, if_pos accepted, Outcome.after_effects,
            List.singleton_append, List.mem_cons, rest, first,
            reaches_pass (n := n) learned accepted, or_and_right]
          rfl
        · rw [turn, if_neg accepted, List.mem_singleton,
            ← or_false (call = _), first, or_false]
          refine and_congr_left fun _ => ⟨?_, ?_⟩
          · intro here
            rw [here]
            exact reaches_head learned
          · rintro ⟨ahead, -, answered⟩
            by_contra later
            exact accepted (answered slots.cseq le_rfl (by omega))
      · exact absurd processed (unprocessed _ le_rfl)
      · rw [turn]
        simp only [List.not_mem_nil, false_iff]
        exact fun handed => not_reaches unlearned handed.1

/-- A walk hands over exactly the slots it reaches, each with its value. -/
theorem mem_processQueue (unprocessed : ∀ seqno, slots.cseq ≤ seqno →
      ¬ slots.isProcessed n seqno = true) (call : Handed) :
    call ∈ (processQueue answer n slots).effects ↔
      slots.Reaches answer call.seqno ∧
        call = ⟨n, call.seqno, (slots.slotAt call.seqno).vval,
          answer call.seqno⟩ := by
  simp only [processQueue, Handler.bind_apply, Handler.get_apply,
    Outcome.andThen_ok, Outcome.after_nil]
  exact walk_handed (List.length_filter_le _ _) unprocessed call

end Reaches

end SwitchPaxos.Slots

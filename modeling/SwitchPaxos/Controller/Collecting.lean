import SwitchPaxos.Controller.Queue

/-!
# Garbage collection and the queue

Slots that were processed are collected in the background, and a late message
creates a collected slot anew.  The queue never looks back: a store that is
collected and one that is not agree on everything from the position of the
queue on.  That needs a consumer like the one of `process_queue`, which stops
only at a slot that it leaves unmarked: a slot that is marked and not passed is
collected from under the queue.
-/

namespace SwitchPaxos

/-- What a consumer does with a slot that the generator yields: it marks it as
processed and asks for the next one, or stops, with or without marking it. -/
inductive Verdict where
  | goOn
  | stop
  | markAndStop
deriving DecidableEq

namespace Slots

/-- A loop over the generator `queue(n)` with any consumer, and the sequence
numbers and slots the generator yields. -/
def consume (verdict : ℕ → Slot → Verdict) (n : ℕ) :
    ℕ → Handler Slots (ℕ × Slot) Failure Unit
  | 0 => pure ()
  | fuel + 1 => do
      let slots ← Handler.get
      match slots.slots.lookup slots.cseq with
      | none => pure ()
      | some slot =>
          if slots.isProcessed n slots.cseq then
            Handler.raise .assertNotProcessed
          else if slot.learned then do
            Handler.emit (slots.cseq, slot)
            match verdict slots.cseq slot with
            | .goOn => do
                Handler.modify (setProcessed n slots.cseq)
                Handler.modify advance
                consume verdict n fuel
            | .stop => pure ()
            | .markAndStop => Handler.modify (setProcessed n slots.cseq)
          else pure ()

/-- Each stored slot is yielded at most once in a walk. -/
def consumeQueue (verdict : ℕ → Slot → Verdict) (n : ℕ) :
    Handler Slots (ℕ × Slot) Failure Unit := do
  let slots ← Handler.get
  consume verdict n slots.slots.keys.length

/-- The consumer of `process_queue`, which breaks off where `process_message`
answers False. -/
def processes (answer : ℕ → Bool) (seqno : ℕ) (_slot : Slot) : Verdict :=
  if answer seqno then .goOn else .stop

/-- `get_slot` and an update of the slot it returns. -/
def update (seqno : ℕ) (change : Slot → Slot) (slots : Slots) : Slots :=
  let (slot, slots) := slots.getSlot seqno
  slots.putSlot seqno (change slot)

section Consume

variable {verdict : ℕ → Slot → Verdict} {n : ℕ}

theorem consume_succ (verdict : ℕ → Slot → Verdict) (n fuel : ℕ)
    (slots : Slots) :
    consume verdict n (fuel + 1) slots =
      match slots.at? slots.cseq with
      | none => ⟨.ok (), slots, []⟩
      | some slot =>
          if slots.isProcessed n slots.cseq then
            ⟨.error .assertNotProcessed, slots, []⟩
          else if slot.learned then
            match verdict slots.cseq slot with
            | .goOn =>
                (consume verdict n fuel (slots.pass n)).after
                  [(slots.cseq, slot)]
            | .stop => ⟨.ok (), slots, [(slots.cseq, slot)]⟩
            | .markAndStop =>
                ⟨.ok (), slots.setProcessed n slots.cseq,
                  [(slots.cseq, slot)]⟩
          else ⟨.ok (), slots, []⟩ := by
  simp only [consume, at?, Handler.bind_apply, Handler.get_apply,
    Outcome.andThen_ok, Outcome.after_nil]
  cases slots.slots.lookup slots.cseq with
  | none => rfl
  | some slot =>
      simp only [Handler.ite_apply, Handler.bind_apply, Handler.emit_apply,
        Handler.raise_apply, Handler.pure_apply, Outcome.andThen_ok]
      split
      · rfl
      · split
        · cases verdict slots.cseq slot <;> rfl
        · rfl

/-- `process_queue` asks `process_message` about the value of the slot. -/
theorem processQueue_eq (answer : ℕ → Bool) (n : ℕ) (slots : Slots) :
    processQueue answer n slots =
      let outcome := consumeQueue (processes answer) n slots
      ⟨outcome.result, outcome.state, outcome.effects.map fun yielded =>
        ⟨n, yielded.1, yielded.2.vval, answer yielded.1⟩⟩ := by
  have turns : ∀ fuel slots, walk answer n fuel slots =
      let outcome := consume (processes answer) n fuel slots
      ⟨outcome.result, outcome.state, outcome.effects.map fun yielded =>
        ⟨n, yielded.1, yielded.2.vval, answer yielded.1⟩⟩ := by
    intro fuel
    induction fuel with
    | zero => exact fun _ => rfl
    | succ fuel induction =>
        intro slots
        rw [consume_succ]
        simp only [walk, at?, Handler.bind_apply, Handler.get_apply,
          Outcome.andThen_ok, Outcome.after_nil]
        cases slots.slots.lookup slots.cseq with
        | none => rfl
        | some slot =>
            simp only [Handler.ite_apply, Handler.bind_apply,
              Handler.emit_apply, Handler.modify_apply, Handler.raise_apply,
              Handler.pure_apply, Outcome.andThen_ok, Outcome.after_nil,
              induction, processes]
            split
            · rfl
            · split
              · split <;> rfl
              · rfl
  exact turns _ slots

private theorem at?_of_ahead {slots : Slots} (none_ahead : slots.ahead ≤ 0) :
    slots.at? slots.cseq = none := by
  by_contra present
  obtain ⟨slot, found⟩ := Option.ne_none_iff_exists'.mp present
  have fewer := ahead_pass (n := 0) found
  omega

/-- Any number of turns does that lets the walk come to its end. -/
theorem consume_enough {fuel fuel' : ℕ} {slots : Slots}
    (enough : slots.ahead ≤ fuel) (enough' : slots.ahead ≤ fuel') :
    consume verdict n fuel slots = consume verdict n fuel' slots := by
  induction fuel generalizing fuel' slots with
  | zero =>
      cases fuel' with
      | zero => rfl
      | succ fuel' =>
          rw [consume_succ, at?_of_ahead enough]
          rfl
  | succ fuel induction =>
      cases fuel' with
      | zero =>
          rw [consume_succ, at?_of_ahead enough']
          rfl
      | succ fuel' =>
          rw [consume_succ, consume_succ]
          cases found : slots.at? slots.cseq with
          | none => rfl
          | some slot =>
              have fewer := ahead_pass (n := n) found
              have rest : consume verdict n fuel (slots.pass n) =
                  consume verdict n fuel' (slots.pass n) :=
                induction (by omega) (by omega)
              simp only [rest]

end Consume

/-- The stores are the same from the position of the queue on, and everything
processed is behind it. -/
structure Agree (collected full : Slots) : Prop where
  cseq : collected.cseq = full.cseq
  processed : collected.processed = full.processed
  nodeCount : collected.nodeCount = full.nodeCount
  ahead : ∀ seqno, full.cseq ≤ seqno → collected.at? seqno = full.at? seqno
  behind : ∀ n seqno, full.isProcessed n seqno = true → seqno < full.cseq

theorem at?_update (seqno other : ℕ) (change : Slot → Slot) (slots : Slots) :
    (slots.update seqno change).at? other =
      if other = seqno then some (change (slots.slotAt seqno))
      else slots.at? other := by
  rw [update, getSlot_eq, at?_putSlot, at?_touch]
  split <;> rfl

namespace Agree

variable {collected full : Slots}

theorem new (nodeCount : ℕ) :
    (Slots.new nodeCount).Agree (Slots.new nodeCount) where
  cseq := rfl
  processed := rfl
  nodeCount := rfl
  ahead := fun _ _ => rfl
  behind := by
    intro n seqno processed
    simp [isProcessed, Slots.new] at processed

theorem garbageCollect (agree : collected.Agree full) (n : ℕ) :
    (collected.garbageCollect n).Agree full := by
  refine ⟨agree.cseq, agree.processed, agree.nodeCount, ?_, agree.behind⟩
  intro seqno ahead
  rw [at?_garbageCollect, if_neg, agree.ahead seqno ahead]
  intro processed
  have same : full.isProcessed n seqno = true := by
    rwa [isProcessed, ← agree.processed]
  exact absurd (agree.behind n seqno same) (Nat.not_lt.mpr ahead)

/-- An update of a passed slot, which may find it as it was or anew, does not
matter any more. -/
theorem update (agree : collected.Agree full) (seqno : ℕ)
    (change : Slot → Slot) :
    (collected.update seqno change).Agree (full.update seqno change) := by
  have cseq : ∀ slots : Slots,
      (slots.update seqno change).cseq = slots.cseq := by
    intro slots
    rw [Slots.update, getSlot_eq, cseq_putSlot, cseq_touch]
  have processed : ∀ slots : Slots,
      (slots.update seqno change).processed = slots.processed := by
    intro slots
    rw [Slots.update, getSlot_eq, processed_putSlot, processed_touch]
  have nodeCount : ∀ slots : Slots,
      (slots.update seqno change).nodeCount = slots.nodeCount := by
    intro slots
    rw [Slots.update, getSlot_eq, nodeCount_putSlot, nodeCount_touch]
  constructor
  · rw [cseq, cseq, agree.cseq]
  · rw [processed, processed, agree.processed]
  · rw [nodeCount, nodeCount, agree.nodeCount]
  · intro other ahead
    rw [cseq] at ahead
    rw [at?_update, at?_update, agree.ahead other ahead]
    split
    · next here =>
        subst here
        rw [slotAt, slotAt, agree.ahead other ahead, agree.nodeCount]
    · rfl
  · intro n other isProcessed
    rw [Slots.isProcessed, processed] at isProcessed
    rw [cseq]
    exact agree.behind n other isProcessed

theorem pass (agree : collected.Agree full) (n : ℕ) :
    (collected.pass n).Agree (full.pass n) := by
  constructor
  · rw [cseq_pass, cseq_pass, agree.cseq]
  · rw [processed_pass, processed_pass, agree.processed, agree.cseq]
  · exact agree.nodeCount
  · intro seqno ahead
    rw [cseq_pass] at ahead
    exact agree.ahead seqno (by omega)
  · intro m seqno processed
    rw [isProcessed, processed_pass, decide_eq_true_eq, Finset.mem_insert]
      at processed
    rw [cseq_pass]
    rcases processed with head | earlier
    · rw [(Prod.mk.inj head).2]
      omega
    · have before := agree.behind m seqno (decide_eq_true earlier)
      omega

variable {verdict : ℕ → Slot → Verdict} {n : ℕ}
  (passes : ∀ seqno slot, verdict seqno slot ≠ .markAndStop)

include passes

/-- Walks over both stores yield the same, end in the same way and leave the
stores as alike as they were. -/
theorem consume (agree : collected.Agree full) (fuel : ℕ) :
    let ours := Slots.consume verdict n fuel collected
    let theirs := Slots.consume verdict n fuel full
    ours.result = theirs.result ∧ ours.effects = theirs.effects ∧
      ours.state.Agree theirs.state := by
  induction fuel generalizing collected full with
  | zero => exact ⟨rfl, rfl, agree⟩
  | succ fuel induction =>
      have head : collected.at? collected.cseq = full.at? full.cseq := by
        rw [agree.cseq]
        exact agree.ahead _ le_rfl
      have processed : collected.isProcessed n collected.cseq =
          full.isProcessed n full.cseq := by
        rw [isProcessed, isProcessed, agree.cseq, agree.processed]
      simp only [consume_succ, head, processed]
      cases full.at? full.cseq with
      | none => exact ⟨rfl, rfl, agree⟩
      | some slot =>
          simp only [agree.cseq]
          split
          · exact ⟨rfl, rfl, agree⟩
          · split
            · cases here : verdict full.cseq slot with
              | goOn =>
                  obtain ⟨result, effects, state⟩ := induction (agree.pass n)
                  refine ⟨result, ?_, state⟩
                  simp only [Outcome.after_effects, effects]
              | stop => exact ⟨rfl, rfl, agree⟩
              | markAndStop => exact absurd here (passes full.cseq slot)
            · exact ⟨rfl, rfl, agree⟩

theorem consumeQueue (agree : collected.Agree full) :
    let ours := Slots.consumeQueue verdict n collected
    let theirs := Slots.consumeQueue verdict n full
    ours.result = theirs.result ∧ ours.effects = theirs.effects ∧
      ours.state.Agree theirs.state := by
  have enough : ∀ slots : Slots, slots.ahead ≤ slots.slots.keys.length :=
    fun slots => List.length_filter_le _ _
  -- The stores may need different numbers of turns, so both get enough.
  let fuel := max collected.slots.keys.length full.slots.keys.length
  have ours : Slots.consumeQueue verdict n collected =
      Slots.consume verdict n fuel collected :=
    consume_enough (enough collected)
      ((enough collected).trans (le_max_left _ _))
  have theirs : Slots.consumeQueue verdict n full =
      Slots.consume verdict n fuel full :=
    consume_enough (enough full) ((enough full).trans (le_max_right _ _))
  rw [ours, theirs]
  exact agree.consume passes fuel

end Agree

end Slots

/-- The operations on a store: a slot is found or created and then updated,
the queue is walked, or processed slots of a round are collected. -/
inductive QueueOperation where
  | update (seqno : ℕ) (change : Slot → Slot)
  | walk (verdict : ℕ → Slot → Verdict) (n : ℕ)
  | collect (n : ℕ)

namespace QueueOperation

def apply : QueueOperation → Handler Slots (ℕ × Slot) Failure Unit
  | .update seqno change => Handler.modify (Slots.update seqno change)
  | .walk verdict n => Slots.consumeQueue verdict n
  | .collect n => Handler.modify (Slots.garbageCollect n)

def collects : QueueOperation → Bool
  | .collect _ => true
  | _ => false

/-- A consumer that marks a slot asks for the next one, as `process_queue`
does. -/
def Passes : QueueOperation → Prop
  | .walk verdict _ => ∀ seqno slot, verdict seqno slot ≠ .markAndStop
  | _ => True

theorem passes_processes (answer : ℕ → Bool) (n : ℕ) :
    (walk (Slots.processes answer) n).Passes := by
  intro seqno slot
  rw [Slots.processes]
  split <;> simp

end QueueOperation

/-- A store and everything its walks yielded. -/
structure QueueRun where
  slots : Slots
  yielded : List (ℕ × Slot)

namespace QueueRun

/-- An exception ends the operation, not the run. -/
def step (run : QueueRun) (operation : QueueOperation) : QueueRun :=
  let outcome := operation.apply run.slots
  { slots := outcome.state
    yielded := run.yielded ++ outcome.effects }

/-- A new store after the operations. -/
def after (nodeCount : ℕ) (operations : List QueueOperation) : QueueRun :=
  operations.foldl step { slots := Slots.new nodeCount, yielded := [] }

/-- The runs yielded the same, from stores that agree. -/
structure Alike (collected full : QueueRun) : Prop where
  slots : collected.slots.Agree full.slots
  yielded : collected.yielded = full.yielded

theorem Alike.step {collected full : QueueRun} (alike : collected.Alike full)
    {operation : QueueOperation} (passes : operation.Passes)
    (kept : operation.collects = false) :
    (collected.step operation).Alike (full.step operation) := by
  cases operation with
  | update seqno change =>
      refine ⟨alike.slots.update seqno change, ?_⟩
      exact congrArg (· ++ []) alike.yielded
  | walk verdict n =>
      obtain ⟨-, effects, state⟩ :=
        alike.slots.consumeQueue (n := n) passes
      refine ⟨state, ?_⟩
      exact congrArg₂ (· ++ ·) alike.yielded effects
  | collect n => cases kept

theorem Alike.foldl {collected full : QueueRun} (alike : collected.Alike full)
    {operations : List QueueOperation}
    (passes : ∀ operation ∈ operations, operation.Passes) :
    (operations.foldl QueueRun.step collected).Alike
      ((operations.filter fun operation => !operation.collects).foldl
        QueueRun.step full) := by
  induction operations generalizing collected full with
  | nil => exact alike
  | cons operation operations induction =>
      obtain ⟨here, rest⟩ := List.forall_mem_cons.mp passes
      cases kept : operation.collects with
      | false =>
          rw [List.filter_cons_of_pos (by simp [kept])]
          exact induction (alike.step here kept) rest
      | true =>
          rw [List.filter_cons_of_neg (by simp [kept])]
          refine induction ?_ rest
          cases operation with
          | collect n =>
              refine ⟨alike.slots.garbageCollect n, ?_⟩
              rw [← alike.yielded]
              exact List.append_nil _
          | update seqno change => cases kept
          | walk verdict n => cases kept

/-- Whether and when garbage is collected makes no difference to what the
walks yield and to where the queue ends up, if no consumer stops at a slot that
it marked. -/
theorem collecting_unnoticed (nodeCount : ℕ)
    (operations : List QueueOperation)
    (passes : ∀ operation ∈ operations, operation.Passes) :
    let kept := operations.filter fun operation => !operation.collects
    (after nodeCount operations).yielded = (after nodeCount kept).yielded ∧
      (after nodeCount operations).slots.cseq =
        (after nodeCount kept).slots.cseq := by
  have initial : Alike { slots := Slots.new nodeCount, yielded := [] }
      { slots := Slots.new nodeCount, yielded := [] } :=
    ⟨Slots.Agree.new nodeCount, rfl⟩
  have alike := initial.foldl passes
  exact ⟨alike.yielded, alike.slots.cseq⟩

/-- The first slot is learned and processed in round 4 and collected, and a
late message creates it anew. -/
theorem collecting_unnoticed_anew :
    let operations : List QueueOperation :=
      [.update 0 (Slot.updateLearns 2), .walk (Slots.processes fun _ => true) 4,
        .collect 4, .update 0 (Slot.updateLearns 3),
        .update 1 (Slot.updateLearns 2),
        .walk (Slots.processes fun seqno => seqno = 0) 4]
    let kept := operations.filter fun operation => !operation.collects
    (after 0 operations).slots.cseq = 1 ∧
      (after 0 operations).yielded = (after 0 kept).yielded ∧
      (after 0 operations).slots.cseq = (after 0 kept).slots.cseq := by
  intro operations kept
  have passes : ∀ operation ∈ operations, operation.Passes := by
    intro operation member
    simp only [operations, List.mem_cons, List.not_mem_nil, or_false] at member
    rcases member with rfl | rfl | rfl | rfl | rfl | rfl
    · trivial
    · exact QueueOperation.passes_processes _ 4
    · trivial
    · trivial
    · trivial
    · exact QueueOperation.passes_processes _ 4
  exact ⟨by decide, collecting_unnoticed 0 operations passes⟩

/-- A consumer marks the first slot in round 4 and stops.  If the slot is
collected then, the queue has come to its end; if not, round 5 yields it
again. -/
theorem marked_slot_is_lost :
    let operations : List QueueOperation :=
      [.update 0 (Slot.updateLearns 2), .walk (fun _ _ => .markAndStop) 4,
        .collect 4, .walk (fun _ _ => .goOn) 5]
    let kept := operations.filter fun operation => !operation.collects
    (after 0 operations).yielded.length = 1 ∧
      (after 0 kept).yielded.length = 2 ∧
      (after 0 operations).slots.cseq ≠ (after 0 kept).slots.cseq := by
  refine ⟨?_, ?_, ?_⟩
  · decide
  · decide
  · decide

end QueueRun

end SwitchPaxos

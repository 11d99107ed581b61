import SwitchPaxos.Controller.Accountable
import SwitchPaxos.Controller.Queue

/-!
# What is handed to the hosts

`queue` looks only at the learner's half of a slot.  The LEARN messages of the
others can form a majority before the ACCEPT arrives; a slot that the walk
reaches then is handed over without a value.  No other value than the one the
leader numbered is ever handed over.
-/

namespace SwitchPaxos

/-- A stored round comes with a value, and no round with none. -/
abbrev Slots.Paired (slots : Slots) : Prop :=
  slots.Backed (fun _ _ _ => True) fun _ _ _ => True

theorem Slots.Paired.iff {slots : Slots} (paired : slots.Paired) (seqno : ℕ) :
    (slots.ballotAt seqno).2 ≠ none ↔ (slots.ballotAt seqno).1 ≠ none := by
  rw [Slots.ballotAt]
  rcases (paired seqno).ballot with empty | ⟨n, v, stored, -⟩
  · simp [empty]
  · simp [stored]

namespace StoreOperation

variable {slots : Slots} {log : List Handed}

/-- The operation walks the queue, and the walk reaches a sequence number. -/
def Reaches : StoreOperation → Slots → ℕ → Prop
  | .learn answer src n seqno, slots, reached =>
      ∃ slot, (slots.slotAt seqno).onLearn n src = some slot ∧
        ((slots.touch seqno).putSlot seqno slot).Reaches answer reached
  | .queue answer _, slots, reached => slots.Reaches answer reached
  | _, _, _ => False

/-- Every walk of the operations reaches only slots that hold a vote. -/
def Fetched : Slots → List StoreOperation → Prop
  | _, [] => True
  | slots, operation :: operations =>
      (∀ reached, operation.Reaches slots reached →
        (slots.ballotAt reached).1 ≠ none) ∧
      Fetched (operation.apply slots).state operations

theorem paired (paired : slots.Paired) (operation : StoreOperation) :
    (operation.apply slots).state.Paired := by
  cases operation with
  | touch seqno => exact paired.touch
  | vote n seqno v => exact paired.vote trivial
  | learn answer src n seqno => exact paired.learn trivial answer
  | queue answer n => exact paired.processQueue answer
  | collect n => exact paired.garbageCollect

private theorem handed_queue {answer : ℕ → Bool} {n : ℕ}
    (inOrder : slots.InOrder log) :
    (∀ call ∈ (Slots.processQueue answer n slots).effects,
      call.vval ≠ none) ↔
    ∀ reached, slots.Reaches answer reached →
      (slots.ballotAt reached).2 ≠ none := by
  have unprocessed : ∀ seqno, slots.cseq ≤ seqno →
      ¬ slots.isProcessed n seqno = true := by
    intro seqno ahead processed
    simp only [Slots.isProcessed, decide_eq_true_eq] at processed
    exact absurd (inOrder.behind n seqno processed) (Nat.not_lt.mpr ahead)
  constructor
  · intro filled reached reaches
    exact filled ⟨n, reached, (slots.slotAt reached).vval, answer reached⟩
      ((Slots.mem_processQueue unprocessed _).mpr ⟨reaches, rfl⟩)
  · intro filled call member
    obtain ⟨reaches, same⟩ :=
      (Slots.mem_processQueue unprocessed call).mp member
    rw [same]
    exact filled call.seqno reaches

/-- The calls of an operation all come with a value exactly when all the slots
it reaches hold one. -/
theorem handed (inOrder : slots.InOrder log) (operation : StoreOperation) :
    (∀ call ∈ (operation.apply slots).effects, call.vval ≠ none) ↔
    ∀ reached, operation.Reaches slots reached →
      (slots.ballotAt reached).2 ≠ none := by
  cases operation with
  | touch seqno => simp [apply, Reaches]
  | vote n seqno v => simp [apply, Reaches]
  | collect n => simp [apply, Reaches]
  | queue answer n => exact handed_queue inOrder
  | learn answer src n seqno =>
      simp only [apply, Slots.learn, Reaches]
      cases counted : (slots.slotAt seqno).onLearn n src with
      | none => simp
      | some slot =>
          have kept : ((slots.touch seqno).putSlot seqno slot).InOrder log :=
            inOrder.unaffected (by simp) (by simp)
          have same : ∀ reached,
              ((slots.touch seqno).putSlot seqno slot).ballotAt reached =
                slots.ballotAt reached := by
            intro reached
            rw [Slots.ballotAt, Slots.slotAt_putSlot, Slots.slotAt_touch]
            split
            · next here =>
                rw [Slot.ballot_onLearn counted, here]
                rfl
            · rfl
          rw [handed_queue kept]
          simp only [same, Option.some.injEq, exists_eq_left']

theorem handed_forEach (inOrder : slots.InOrder log) (paired : slots.Paired)
    (operations : List StoreOperation) :
    (∀ call ∈ (Handler.forEach StoreOperation.apply operations slots).effects,
      call.vval ≠ none) ↔ Fetched slots operations := by
  induction operations generalizing slots log with
  | nil => simp [Handler.forEach, Fetched]
  | cons operation operations induction =>
      have kept := (StoreOperation.inOrder inOrder operation).2
      have first := handed inOrder operation
      have rest := induction kept (StoreOperation.paired paired operation)
      rw [forEach_cons inOrder, Outcome.after_effects]
      simp only [List.mem_append, or_imp, forall_and]
      rw [first, rest, Fetched]
      simp only [paired.iff]

end StoreOperation

/-- What an event of a cluster does to the store of the node, for a message
of the kinds that are delivered there. -/
def ClusterEvent.operations (self : PaxosController) :
    ClusterEvent → List StoreOperation
  | .deliver answer event =>
      if self.dispatches event then
        if event.parsed.type = PaxosMessage.ACCEPT then
          self.acceptOperations answer event event.parsed.payload
        else if event.parsed.type = PaxosMessage.CLIENT then
          self.clientOperations answer event.parsed.payload
        else self.learnOperations answer event event.parsed.payload
      else []
  | .pump answer => [.queue answer self.state.crnd]
  | .collect n => [.collect n]

/-- A client packet, a request to vote or the news of a vote. -/
def ClusterEvent.Known : ClusterEvent → Prop
  | .deliver _ event => event.parsed.type = PaxosMessage.ACCEPT ∨
      event.parsed.type = PaxosMessage.CLIENT ∨
        event.parsed.type = PaxosMessage.LEARN
  | _ => True

theorem ClusterEvent.actsBy (self : PaxosController)
    (joined : self.joined = true) (event : ClusterEvent)
    (known : event.Known) :
    ActsBy (event.operations self) self (event.handle self) := by
  cases event with
  | pump answer => exact actsBy_pump self answer
  | collect n => exact actsBy_collect self n
  | deliver answer event =>
      refine ActsBy.forget self ?_ fun _ => ()
      have isKnown :
          PaxosMessage.isKnownPaxosType event.parsed.type = true := by
        rcases known with type | type | type <;> rw [type] <;> decide
      have notAccept : PaxosMessage.CLIENT ≠ PaxosMessage.ACCEPT := by decide
      have noAccept : PaxosMessage.LEARN ≠ PaxosMessage.ACCEPT := by decide
      have noClient : PaxosMessage.LEARN ≠ PaxosMessage.CLIENT := by decide
      rcases PaxosController.handlePaxos_cases answer self isKnown with
        ⟨dispatched, handled⟩ | ⟨ignored, result, harmless, handled⟩
      · rw [handled, operations, if_pos dispatched]
        rcases known with type | type | type
        · rw [type, if_pos rfl, PaxosController.dispatchPaxos_accept joined]
          exact actsBy_onAccept self answer event event.parsed.payload
        · rw [type, if_neg notAccept, if_pos rfl,
            PaxosController.dispatchPaxos_client joined]
          exact actsBy_onClient self answer event event.parsed.payload
        · rw [type, if_neg noAccept, if_neg noClient,
            PaxosController.dispatchPaxos_learn joined]
          exact actsBy_onLearn self answer event event.parsed.payload
      · rw [handled, operations, if_neg (by simp [ignored])]
        exact actsBy_nothing self result fun failure raised =>
          .inl (harmless failure raised)

namespace Cluster

/-- Everything that was handed to the hosts is the packet with that number. -/
def HandsOverNumbered (cluster : Cluster) : Prop :=
  ∀ mac call, (mac, Effect.handed call) ∈ cluster.log →
    ∃ v, call.vval = some v ∧ (call.seqno, v) ∈ numbers cluster.log

/-- The queue walks of an action reach only slots for which the node has the
vote, and with it the value. -/
def Fetches (cluster : Cluster) (action : ClusterAction) : Prop :=
  StoreOperation.Fetched (cluster.nodes action.mac).state.slots
    (action.event.operations (cluster.nodes action.mac))

/-- The nodes can be held to what they sent, and their queues are in order. -/
structure Orderly (N : Finset EthAddr) (leader : EthAddr)
    (cluster : Cluster) : Prop where
  accountable : cluster.Accountable N leader
  inOrder : ∀ mac ∈ N, ∃ log, (cluster.nodes mac).state.slots.InOrder log

variable {N : Finset EthAddr} {leader : EthAddr} {cluster : Cluster}
  {action : ClusterAction}

theorem Accountable.known (accountable : cluster.Accountable N leader)
    (enabled : Enabled N cluster action) : action.event.Known := by
  obtain ⟨mac, event⟩ := action
  obtain ⟨-, arrives⟩ := enabled
  cases event with
  | pump answer => trivial
  | collect n => trivial
  | deliver answer event =>
      rcases arrives with client | sent
      · exact .inr (.inl client)
      · rcases accountable.frames event.parsed sent with
          ⟨n, seqno, v, same, -⟩ | ⟨n, seqno, v, same, -⟩
        · left
          rw [same]
          rfl
        · right; right
          rw [same]
          rfl

theorem Accountable.actsBy (accountable : cluster.Accountable N leader)
    (enabled : Enabled N cluster action) :
    ActsBy (action.event.operations (cluster.nodes action.mac))
      (cluster.nodes action.mac)
      (action.event.handle (cluster.nodes action.mac)) :=
  ClusterEvent.actsBy _ (accountable.formed.joined _ enabled.1) _
    (accountable.known enabled)

theorem Orderly.step (orderly : cluster.Orderly N leader)
    (enabled : Enabled N cluster action) :
    (cluster.step action).Orderly N leader where
  accountable := orderly.accountable.step enabled
  inOrder := by
    intro mac member
    obtain ⟨state, -, -⟩ := orderly.accountable.actsBy enabled
    rw [Cluster.step, record, nodes_put]
    split
    · next here =>
        subst here
        obtain ⟨log, inOrder⟩ := orderly.inOrder _ member
        rw [state]
        exact ⟨_, StoreOperation.inOrder_forEach inOrder _⟩
    · exact orderly.inOrder mac member

/-- The calls of a step come with a value exactly when the step fetches. -/
theorem Orderly.fetches_iff (orderly : cluster.Orderly N leader)
    (enabled : Enabled N cluster action) :
    (∀ call, Effect.handed call ∈
        (action.event.handle (cluster.nodes action.mac)).effects →
      call.vval ≠ none) ↔ cluster.Fetches action := by
  obtain ⟨-, effects, -⟩ := orderly.accountable.actsBy enabled
  obtain ⟨log, inOrder⟩ := orderly.inOrder _ enabled.1
  have paired : (cluster.nodes action.mac).state.slots.Paired :=
    (orderly.accountable.stores _ enabled.1).mono (fun _ _ _ _ => trivial)
      fun _ _ _ _ => trivial
  have filled := StoreOperation.handed_forEach inOrder paired
    (action.event.operations (cluster.nodes action.mac))
  rw [← effects] at filled
  rw [Fetches, ← filled]
  have member : ∀ {call : Handed} {log : List Effect},
      call ∈ calls log ↔ Effect.handed call ∈ log := by
    intro call log
    simp only [calls, List.mem_filterMap]
    constructor
    · rintro ⟨effect, present, same⟩
      cases effect <;> simp [Effect.handed?] at same
      rw [← same]
      exact present
    · intro present
      exact ⟨_, present, rfl⟩
  simp only [member]

/-- A step keeps to numbered packets exactly when it fetches. -/
theorem Orderly.handsOver_step_iff (orderly : cluster.Orderly N leader)
    (enabled : Enabled N cluster action) :
    (cluster.step action).HandsOverNumbered ↔
      cluster.HandsOverNumbered ∧ cluster.Fetches action := by
  rw [← orderly.fetches_iff enabled]
  have log : ∀ mac effect, (mac, effect) ∈ (cluster.step action).log ↔
      (mac, effect) ∈ cluster.log ∨ (mac = action.mac ∧ effect ∈
        (action.event.handle (cluster.nodes action.mac)).effects) := by
    intro mac effect
    exact mem_log_put ..
  constructor
  · intro numbered
    refine ⟨?_, ?_⟩
    · intro mac call earlier
      obtain ⟨v, value, -⟩ := numbered mac call ((log _ _).mpr (.inl earlier))
      exact ⟨v, value, orderly.accountable.handed mac call v earlier value⟩
    · intro call called
      obtain ⟨v, value, -⟩ := numbered action.mac call
        ((log _ _).mpr (.inr ⟨rfl, called⟩))
      simp [value]
  · rintro ⟨numbered, filled⟩ mac call member
    rcases (log _ _).mp member with earlier | ⟨-, called⟩
    · obtain ⟨v, value, given⟩ := numbered mac call earlier
      exact ⟨v, value, mem_numbers_put given⟩
    · obtain ⟨v, value⟩ := Option.ne_none_iff_exists'.mp (filled call called)
      exact ⟨v, value, (orderly.accountable.step enabled).handed mac call v
        member value⟩

/-- In a run everything handed to the hosts is the packet the leader gave that
number exactly when no queue walk reaches a slot without a vote. -/
theorem handsOverNumbered_iff_fetches (starts : cluster.Starts N leader)
    {actions : List ClusterAction} (run : (system N).Run cluster actions) :
    ((system N).after cluster actions).HandsOverNumbered ↔
      (system N).Each Fetches cluster actions := by
  have initial : cluster.Orderly N leader := by
    refine ⟨starts.accountable, ?_⟩
    intro mac member
    rw [starts.slots mac member]
    exact ⟨[], .new N.card⟩
  have silent : cluster.HandsOverNumbered := by
    intro mac call member
    rw [starts.log] at member
    cases member
  exact run.property_iff_each HandsOverNumbered Fetches
    (fun _ _ orderly enabled => orderly.step enabled)
    (fun _ _ orderly enabled => orderly.handsOver_step_iff enabled) initial
    silent

/-- The leader hands over the first client packet once it has the vote of
another node, and it has its own vote by then. -/
theorem handsOverNumbered_iff_fetches_first :
    let actions : List ClusterAction :=
      [⟨1, .deliver (fun _ => true) ((Frame.client 9 1 [7]).upcall 1)⟩,
        ⟨2, .deliver (fun _ => true) ((Frame.accept 1 2 4 0 [7]).upcall 1)⟩,
        ⟨1, .deliver (fun _ => true) ((Frame.learn 2 1 4 0).upcall 1)⟩]
    (1, Effect.handed ⟨4, 0, some [7], true⟩) ∈
      ((system {1, 2, 3}).after three actions).log ∧
    (system {1, 2, 3}).Each Fetches three actions := by
  intro actions
  refine ⟨by decide, ?_⟩
  apply (handsOverNumbered_iff_fetches three_starts (by decide)).mp
  intro mac call member
  have called : call ∈ calls (((system {1, 2, 3}).after three
      actions).log.map Prod.snd) :=
    List.mem_filterMap.mpr
      ⟨Effect.handed call, List.mem_map_of_mem member, rfl⟩
  have only : ∀ other ∈ calls (((system {1, 2, 3}).after three
      actions).log.map Prod.snd), other = ⟨4, 0, some [7], true⟩ := by
    decide
  rw [only call called]
  exact ⟨[7], rfl, by decide⟩

/-- Two LEARN messages overtake the ACCEPT: the third node hands over a slot
whose value it has not received. -/
theorem learns_overtake_accept :
    ∃ actions, (system {1, 2, 3}).Run three actions ∧
      (3, Effect.handed ⟨4, 0, none, true⟩) ∈
        ((system {1, 2, 3}).after three actions).log ∧
      ¬ ((system {1, 2, 3}).after three actions).HandsOverNumbered := by
  refine ⟨[⟨1, .deliver (fun _ => true) ((Frame.client 9 1 [7]).upcall 1)⟩,
    ⟨2, .deliver (fun _ => true) ((Frame.accept 1 2 4 0 [7]).upcall 1)⟩,
    ⟨3, .deliver (fun _ => true) ((Frame.learn 1 3 4 0).upcall 1)⟩,
    ⟨3, .deliver (fun _ => true) ((Frame.learn 2 3 4 0).upcall 1)⟩],
    by decide, by decide, ?_⟩
  intro numbered
  obtain ⟨v, value, -⟩ := numbered 3 ⟨4, 0, none, true⟩ (by decide)
  cases value

end Cluster

end SwitchPaxos

import SwitchPaxos.Controller.NodeRun

/-!
# The acceptor over a run

The memory of a vote is the slot it is stored in, and `crnd` for older rounds.
A vote of the current round is forgotten when its slot is garbage collected:
`garbageCollect` deletes a processed slot together with the vote in it, and a
further ACCEPT of that round finds a new slot.
-/

namespace SwitchPaxos

/-- An event deletes the slot of a sequence number. -/
def NodeEvent.collects : NodeEvent → Slots → ℕ → Bool
  | .collect n, slots, seqno => slots.isProcessed n seqno
  | _, _, _ => false

/-- The rounds and sequence numbers of the votes an event deletes. -/
def NodeEvent.evicts (event : NodeEvent) (slots : Slots) : List (ℕ × ℕ) :=
  slots.slots.keys.filterMap fun seqno =>
    if event.collects slots seqno then
      (slots.ballotAt seqno).1.map fun n => (n, seqno)
    else none

theorem NodeEvent.mem_evicts {event : NodeEvent} {slots : Slots} {n seqno : ℕ} :
    (n, seqno) ∈ event.evicts slots ↔
      event.collects slots seqno = true ∧
        (slots.ballotAt seqno).1 = some n := by
  simp only [evicts, List.mem_filterMap]
  constructor
  · rintro ⟨key, -, found⟩
    split at found
    · next collected =>
        simp only [Option.map_eq_some_iff, Prod.mk.injEq] at found
        obtain ⟨round, stored, rfl, rfl⟩ := found
        exact ⟨collected, stored⟩
    · cases found
  · rintro ⟨collected, stored⟩
    refine ⟨seqno, ?_, by simp [collected, stored]⟩
    have present : (slots.slots.lookup seqno).isSome := by
      cases found : slots.slots.lookup seqno with
      | some slot => rfl
      | none =>
          have absent : slots.at? seqno = none := found
          simp [Slots.ballotAt, Slots.slotAt, absent] at stored
    exact AList.mem_keys.mpr (AList.lookup_isSome.mp present)

section Votes

variable {self : PaxosController} {answer : ℕ → Bool}

theorem ballotAt_castVote (n seqno other : ℕ) (v : Bytes) :
    (self.castVote answer n seqno v).state.state.slots.ballotAt other =
      if other = seqno then (some n, some v)
      else self.state.slots.ballotAt other := by
  rw [PaxosController.castVote_state, PaxosController.slots_withSlots,
    PaxosController.castSlots]
  split
  · rw [Slots.ballotAt_learn, Slots.ballotAt_vote]
  · rw [Slots.ballotAt_vote]

theorem votes_castVote (n seqno : ℕ) (v : Bytes) :
    votes (self.castVote answer n seqno v).effects = [(n, seqno, v)] := by
  rw [PaxosController.castVote]
  split
  · simp [PaxosController.learnFrom_apply]
  · rfl

/-- One event leaves the votes of the other slots where they are.  It casts at
most one vote, in a round that is not behind `crnd` and that the slot does not
hold already. -/
theorem NodeEvent.votes_cases (event : NodeEvent) (self : PaxosController) :
    (∃ answer upcall n seqno v, event = .accept answer upcall ∧
      PaxosMessage.unpackAccept upcall.parsed.payload = .ok (n, seqno, v) ∧
      self.Addressed upcall ∧ self.Accepts n seqno ∧
      votes (event.handle self).effects = [(n, seqno, v)] ∧
      (event.handle self).state.state.crnd = n ∧
      ∀ other, (event.handle self).state.state.slots.ballotAt other =
        if other = seqno then (some n, some v)
        else self.state.slots.ballotAt other) ∨
    (votes (event.handle self).effects = [] ∧
      (event.handle self).state.state.crnd = self.state.crnd ∧
      ∀ other, (event.handle self).state.state.slots.ballotAt other =
        if event.collects self.state.slots other then (none, none)
        else self.state.slots.ballotAt other) := by
  cases event with
  | accept answer upcall =>
      simp only [NodeEvent.handle, Handler.bind_apply, Handler.andThen_pure]
      rcases PaxosController.onAccept_cases answer upcall
        upcall.parsed.payload self with
        ⟨n, seqno, v, decoded, addressed, accepts, handled⟩ |
        ⟨result, slots, kept, handled⟩
      · left
        refine ⟨answer, upcall, n, seqno, v, rfl, decoded, addressed, accepts,
          ?_⟩
        rw [handled]
        refine ⟨votes_castVote n seqno v, ?_, ?_⟩
        · simp [PaxosController.castVote_state]
        · intro other
          exact ballotAt_castVote n seqno other v
      · right
        rw [handled]
        refine ⟨rfl, rfl, ?_⟩
        intro other
        rcases kept with rfl | ⟨seqno, rfl⟩
        · rfl
        · exact Slots.ballotAt_touch _ _ _
  | learn answer upcall =>
      right
      simp only [NodeEvent.handle, Handler.bind_apply, Handler.andThen_pure]
      rcases PaxosController.onLearn_cases answer upcall
        upcall.parsed.payload self with
        ⟨n, seqno, decoded, addressed, handled⟩ | ⟨result, handled⟩
      · rw [handled, PaxosController.learnFrom_apply]
        refine ⟨votes_handed _, rfl, ?_⟩
        intro other
        exact Slots.ballotAt_learn _ _ _ _ _ _
      · rw [handled]
        exact ⟨rfl, rfl, fun other => rfl⟩
  | pump answer =>
      right
      refine ⟨votes_handed _, rfl, ?_⟩
      intro other
      exact Slots.ballotAt_processQueue _ _ _ _
  | collect n =>
      right
      refine ⟨rfl, rfl, ?_⟩
      intro other
      exact Slots.ballotAt_garbageCollect _ _ _

end Votes

/-- The rounds of the votes for a sequence number strictly increase. -/
def RoundsIncrease (log : List (ℕ × ℕ × Bytes)) : Prop :=
  log.Pairwise fun earlier later =>
    earlier.2.1 = later.2.1 → earlier.1 < later.1

theorem roundsIncrease_snoc {log : List (ℕ × ℕ × Bytes)} {n seqno : ℕ}
    {v : Bytes} :
    RoundsIncrease (log ++ [(n, seqno, v)]) ↔
      RoundsIncrease log ∧ ∀ round w, (round, seqno, w) ∈ log → round < n := by
  unfold RoundsIncrease
  rw [List.pairwise_append]
  simp only [List.pairwise_singleton, List.mem_singleton, true_and,
    forall_eq, Prod.forall]
  refine and_congr_right fun _ => ⟨?_, ?_⟩
  · intro behind round w member
    exact behind round seqno w member rfl
  · rintro behind round other w member rfl
    exact behind round w member

theorem RoundsIncrease.value_eq {log : List (ℕ × ℕ × Bytes)}
    (increase : RoundsIncrease log) {n seqno : ℕ} {v w : Bytes}
    (first : (n, seqno, v) ∈ log) (second : (n, seqno, w) ∈ log) : v = w := by
  by_contra different
  have apart : (n, seqno, v) ≠ (n, seqno, w) := by
    rintro ⟨⟩
    exact different rfl
  obtain ⟨i, early, here⟩ := List.getElem_of_mem first
  obtain ⟨j, late, there⟩ := List.getElem_of_mem second
  have ordered := List.pairwise_iff_getElem.mp increase
  rcases lt_trichotomy i j with before | rfl | before
  · have step := ordered i j early late before
    rw [here, there] at step
    exact lt_irrefl _ (step rfl)
  · exact apart (here.symm.trans there)
  · have step := ordered j i late early before
    rw [here, there] at step
    exact lt_irrefl _ (step rfl)

/-- A run of a node, with the votes that were deleted with their slots. -/
structure AcceptorRun where
  run : NodeRun
  evicted : List (ℕ × ℕ)

namespace AcceptorRun

def start (node : PaxosController) : AcceptorRun :=
  { run := NodeRun.start node, evicted := [] }

def system : System AcceptorRun NodeEvent :=
  { Enabled := fun _ _ => True
    step := fun state event =>
      { run := NodeRun.system.step state.run event
        evicted := state.evicted ++
          event.evicts state.run.node.state.slots } }

theorem always (state : AcceptorRun) (events : List NodeEvent) :
    system.Run state events := by
  induction events generalizing state with
  | nil => trivial
  | cons event events induction => exact ⟨trivial, induction _⟩

theorem run_after (state : AcceptorRun) (events : List NodeEvent) :
    (system.after state events).run =
      NodeRun.system.after state.run events := by
  induction events generalizing state with
  | nil => rfl
  | cons event events induction => exact induction _

/-- An ACCEPT that reaches the acceptor, in a round that is not behind `crnd`,
is not one the node voted for in a slot that was garbage collected since. -/
def Remembers (state : AcceptorRun) (event : NodeEvent) : Prop :=
  ∀ answer upcall n seqno v, event = .accept answer upcall →
    PaxosMessage.unpackAccept upcall.parsed.payload = .ok (n, seqno, v) →
    state.run.node.Addressed upcall → state.run.node.state.crnd ≤ n →
    (n, seqno) ∉ state.evicted

/-- Where the votes of a run are kept. -/
structure Kept (state : AcceptorRun) : Prop where
  voted_le : ∀ n seqno v, (n, seqno, v) ∈ votes state.run.log →
    n ≤ state.run.node.state.crnd
  stored_voted : ∀ n seqno,
    (state.run.node.state.slots.ballotAt seqno).1 = some n →
    ∃ v, (n, seqno, v) ∈ votes state.run.log
  remembered : ∀ n seqno v, (n, seqno, v) ∈ votes state.run.log →
    n < state.run.node.state.crnd ∨
      (state.run.node.state.slots.ballotAt seqno).1 = some n ∨
      (n, seqno) ∈ state.evicted
  evicted_voted : ∀ n seqno, (n, seqno) ∈ state.evicted →
    ∃ v, (n, seqno, v) ∈ votes state.run.log
  -- A vote that was deleted and is stored again was cast twice.
  recast : ∀ n seqno, (n, seqno) ∈ state.evicted →
    (state.run.node.state.slots.ballotAt seqno).1 = some n →
    ¬ RoundsIncrease (votes state.run.log)

theorem start_kept (node : PaxosController) (nodeCount : ℕ)
    (fresh : node.state.slots = Slots.new nodeCount) : (start node).Kept := by
  have empty : ∀ seqno, ((start node).run.node.state.slots.ballotAt seqno).1 =
      none := by
    intro seqno
    change (node.state.slots.ballotAt seqno).1 = none
    rw [fresh, Slots.ballotAt_new]
  constructor
  · intro n seqno v member
    cases member
  · intro n seqno stored
    rw [empty] at stored
    cases stored
  · intro n seqno v member
    cases member
  · intro n seqno member
    cases member
  · intro n seqno member
    cases member

variable {state : AcceptorRun} {event : NodeEvent}

theorem votes_step :
    votes (system.step state event).run.log =
      votes state.run.log ++ votes (event.handle state.run.node).effects :=
  votes_append _ _

theorem evicted_step :
    (system.step state event).evicted =
      state.evicted ++ event.evicts state.run.node.state.slots := rfl

/-- The slot of a number that is accepted may hold a vote of an earlier round,
which the new one overtakes. -/
private theorem Kept.lt_of_stored (kept : state.Kept) {n seqno : ℕ}
    (accepts : state.run.node.Accepts n seqno) {round : ℕ} {w : Bytes}
    (voted : (round, seqno, w) ∈ votes state.run.log)
    (stored : (state.run.node.state.slots.ballotAt seqno).1 = some round) :
    round < n := by
  obtain ⟨ahead, unvoted⟩ := accepts
  rw [Slots.vrnd_slotAt, stored] at unvoted
  have bound := kept.voted_le _ _ _ voted
  have different : round ≠ n := fun same => unvoted (by rw [same])
  omega

private theorem kept_vote (kept : state.Kept) {answer : ℕ → Bool}
    {upcall : PacketIn} {n seqno : ℕ} {v : Bytes}
    (accepts : state.run.node.Accepts n seqno)
    (cast : votes (NodeEvent.handle (.accept answer upcall)
      state.run.node).effects = [(n, seqno, v)])
    (crnd : (NodeEvent.handle (.accept answer upcall)
      state.run.node).state.state.crnd = n)
    (ballots : ∀ other, (NodeEvent.handle (.accept answer upcall)
      state.run.node).state.state.slots.ballotAt other =
        if other = seqno then (some n, some v)
        else state.run.node.state.slots.ballotAt other) :
    (system.step state (.accept answer upcall)).Kept := by
  have ahead := accepts.1
  have same : (system.step state (.accept answer upcall)).run.node =
      (NodeEvent.handle (.accept answer upcall) state.run.node).state := rfl
  have evicted : (system.step state (.accept answer upcall)).evicted =
      state.evicted := by
    rw [evicted_step]
    simp [NodeEvent.evicts, NodeEvent.collects]
  have log : votes (system.step state (.accept answer upcall)).run.log =
      votes state.run.log ++ [(n, seqno, v)] := by
    rw [votes_step, cast]
  constructor
  · intro round other w member
    rw [log, List.mem_append, List.mem_singleton] at member
    rw [same, crnd]
    rcases member with earlier | new
    · exact (kept.voted_le _ _ _ earlier).trans ahead
    · cases new
      exact le_rfl
  · intro round other stored
    rw [same, ballots] at stored
    rw [log]
    split at stored
    · next here =>
        cases stored
        exact ⟨v, by simp [here]⟩
    · obtain ⟨w, member⟩ := kept.stored_voted _ _ stored
      exact ⟨w, by simp [member]⟩
  · intro round other w member
    rw [log, List.mem_append, List.mem_singleton] at member
    rw [same, crnd, ballots, evicted]
    rcases member with earlier | new
    · rcases kept.remembered _ _ _ earlier with behind | stored | gone
      · exact .inl (behind.trans_le ahead)
      · by_cases here : other = seqno
        · subst here
          exact .inl (kept.lt_of_stored accepts earlier stored)
        · right; left
          rw [if_neg here, stored]
      · exact .inr (.inr gone)
    · cases new
      right; left
      rw [if_pos rfl]
  · intro round other member
    rw [evicted] at member
    obtain ⟨w, voted⟩ := kept.evicted_voted _ _ member
    exact ⟨w, by rw [log]; simp [voted]⟩
  · intro round other member stored
    rw [evicted] at member
    rw [same, ballots] at stored
    rw [log, roundsIncrease_snoc]
    rintro ⟨increase, below⟩
    split at stored
    · next here =>
        cases stored
        obtain ⟨w, voted⟩ := kept.evicted_voted _ _ member
        exact lt_irrefl _ (below _ w (here ▸ voted))
    · exact kept.recast _ _ member stored increase

private theorem kept_silent (kept : state.Kept)
    (cast : votes (event.handle state.run.node).effects = [])
    (crnd : (event.handle state.run.node).state.state.crnd =
      state.run.node.state.crnd)
    (ballots : ∀ other,
      (event.handle state.run.node).state.state.slots.ballotAt other =
        if event.collects state.run.node.state.slots other then (none, none)
        else state.run.node.state.slots.ballotAt other) :
    (system.step state event).Kept := by
  have same : (system.step state event).run.node =
      (event.handle state.run.node).state := rfl
  have log : votes (system.step state event).run.log =
      votes state.run.log := by
    rw [votes_step, cast, List.append_nil]
  have stored_before : ∀ {round other},
      ((system.step state event).run.node.state.slots.ballotAt other).1 =
        some round →
      event.collects state.run.node.state.slots other = false ∧
        (state.run.node.state.slots.ballotAt other).1 = some round := by
    intro round other stored
    rw [same, ballots] at stored
    cases collected : event.collects state.run.node.state.slots other with
    | true => simp [collected] at stored
    | false => exact ⟨rfl, by simpa [collected] using stored⟩
  constructor
  · intro round other w member
    rw [log] at member
    rw [same, crnd]
    exact kept.voted_le _ _ _ member
  · intro round other stored
    rw [log]
    exact kept.stored_voted _ _ (stored_before stored).2
  · intro round other w member
    rw [log] at member
    rw [same, crnd, ballots, evicted_step, List.mem_append,
      NodeEvent.mem_evicts]
    rcases kept.remembered _ _ _ member with behind | stored | gone
    · exact .inl behind
    · cases collected : event.collects state.run.node.state.slots other with
      | true => exact .inr (.inr (.inr ⟨rfl, stored⟩))
      | false => exact .inr (.inl (by simpa using stored))
    · exact .inr (.inr (.inl gone))
  · intro round other member
    rw [evicted_step, List.mem_append, NodeEvent.mem_evicts] at member
    rw [log]
    rcases member with earlier | ⟨-, stored⟩
    · exact kept.evicted_voted _ _ earlier
    · exact kept.stored_voted _ _ stored
  · intro round other member stored
    obtain ⟨uncollected, before⟩ := stored_before stored
    rw [evicted_step, List.mem_append, NodeEvent.mem_evicts] at member
    rw [log]
    rcases member with earlier | ⟨collected, -⟩
    · exact kept.recast _ _ earlier before
    · rw [uncollected] at collected
      cases collected

theorem kept_step (kept : state.Kept) : (system.step state event).Kept := by
  rcases NodeEvent.votes_cases event state.run.node with
    ⟨answer, upcall, n, seqno, v, rfl, -, -, accepts, cast, crnd, ballots⟩ |
    ⟨cast, crnd, ballots⟩
  · exact kept_vote kept accepts cast crnd ballots
  · exact kept_silent kept cast crnd ballots

/-- A step keeps the rounds increasing exactly when it meets the condition. -/
theorem increase_step_iff (kept : state.Kept) :
    RoundsIncrease (votes (system.step state event).run.log) ↔
      RoundsIncrease (votes state.run.log) ∧ state.Remembers event := by
  rw [votes_step]
  constructor
  · intro increase
    have before : RoundsIncrease (votes state.run.log) :=
      (List.pairwise_append.mp increase).1
    refine ⟨before, ?_⟩
    rintro answer upcall n seqno v rfl decoded addressed ahead gone
    obtain ⟨w, voted⟩ := kept.evicted_voted _ _ gone
    have accepts : state.run.node.Accepts n seqno := by
      refine ⟨ahead, ?_⟩
      rw [Slots.vrnd_slotAt]
      intro stored
      exact kept.recast _ _ gone stored before
    have cast : votes (NodeEvent.handle (.accept answer upcall)
        state.run.node).effects = [(n, seqno, v)] := by
      simp only [NodeEvent.handle, Handler.bind_apply, Handler.andThen_pure,
        PaxosController.onAccept_addressed answer decoded addressed,
        if_pos accepts]
      exact votes_castVote n seqno v
    rw [cast, roundsIncrease_snoc] at increase
    exact lt_irrefl _ (increase.2 _ w voted)
  · rintro ⟨increase, remembers⟩
    rcases NodeEvent.votes_cases event state.run.node with
      ⟨answer, upcall, n, seqno, v, rfl, decoded, addressed, accepts, cast,
        crnd, ballots⟩ | ⟨cast, crnd, ballots⟩
    · have ahead := accepts.1
      rw [cast, roundsIncrease_snoc]
      refine ⟨increase, ?_⟩
      intro round w voted
      rcases kept.remembered _ _ _ voted with behind | stored | gone
      · exact behind.trans_le ahead
      · exact kept.lt_of_stored accepts voted stored
      · have bound := kept.voted_le _ _ _ voted
        have different : round ≠ n := by
          rintro rfl
          exact remembers answer upcall round seqno v rfl decoded addressed
            ahead gone
        omega
    · rw [cast, List.append_nil]
      exact increase

end AcceptorRun

theorem crnd_le_handle (event : NodeEvent) (self : PaxosController) :
    self.state.crnd ≤ (event.handle self).state.state.crnd := by
  rcases NodeEvent.votes_cases event self with
    ⟨answer, upcall, n, seqno, v, rfl, -, -, accepts, -, crnd, -⟩ |
    ⟨-, crnd, -⟩
  · rw [crnd]
    exact accepts.1
  · rw [crnd]

theorem crnd_le_after (run : NodeRun) (events : List NodeEvent) :
    run.node.state.crnd ≤
      (NodeRun.system.after run events).node.state.crnd := by
  induction events generalizing run with
  | nil => exact le_rfl
  | cons event events induction =>
      have rest := induction (NodeRun.system.step run event)
      exact (crnd_le_handle event run.node).trans rest

/-- What an acceptor promises over a run: one value for each round and
sequence number, increasing rounds for each sequence number, and a current
round that never falls and that no stored vote is ahead of. -/
structure VotesOnce (node : PaxosController) (events : List NodeEvent) :
    Prop where
  oneValue : ∀ n seqno v w,
    (n, seqno, v) ∈ votes (NodeRun.after node events).log →
    (n, seqno, w) ∈ votes (NodeRun.after node events).log → v = w
  increase : RoundsIncrease (votes (NodeRun.after node events).log)
  crnd_le : ∀ earlier later, events = earlier ++ later →
    (NodeRun.after node earlier).node.state.crnd ≤
      (NodeRun.after node events).node.state.crnd
  vrnd_le : ∀ seqno slot n,
    (NodeRun.after node events).node.state.slots.at? seqno = some slot →
    slot.vrnd = some n → n ≤ (NodeRun.after node events).node.state.crnd

/-- A node keeps its promises in exactly those runs in which no ACCEPT of a
vote that was garbage collected comes back. -/
theorem votesOnce_iff_remembers (node : PaxosController) (nodeCount : ℕ)
    (fresh : node.state.slots = Slots.new nodeCount)
    (events : List NodeEvent) :
    VotesOnce node events ↔
      AcceptorRun.system.Each AcceptorRun.Remembers (AcceptorRun.start node)
        events := by
  have run := AcceptorRun.always (AcceptorRun.start node) events
  have initial := AcceptorRun.start_kept node nodeCount fresh
  have reached : (AcceptorRun.system.after (AcceptorRun.start node)
      events).run = NodeRun.after node events := AcceptorRun.run_after _ _
  have kept := run.invariant (fun _ _ kept _ => AcceptorRun.kept_step kept)
    initial
  have exactly := run.property_iff_each
    (fun state : AcceptorRun => RoundsIncrease (votes state.run.log))
    AcceptorRun.Remembers
    (fun _ _ kept _ => AcceptorRun.kept_step kept)
    (fun _ _ kept _ => AcceptorRun.increase_step_iff kept) initial .nil
  rw [reached] at exactly
  rw [← exactly]
  refine ⟨VotesOnce.increase, fun increase => ?_⟩
  refine ⟨fun n seqno v w => increase.value_eq, increase, ?_, ?_⟩
  · rintro earlier later rfl
    have rest := crnd_le_after (NodeRun.after node earlier) later
    rwa [NodeRun.after, ← System.after_append] at rest
  · intro seqno slot n found stored
    rw [← reached] at found ⊢
    have ballot := Slots.ballotAt_of_at? found
    obtain ⟨v, voted⟩ := kept.stored_voted n seqno (by
      rw [ballot]
      exact stored)
    exact kept.voted_le _ _ _ voted

/-- A node votes, processes the slot, collects it, and votes for the slot of
the next sequence number. -/
theorem votesOnce_iff_remembers_next :
    VotesOnce (.ready "S1" 1 {1, 2, 3} 4 none)
      [.accept (fun _ => true) ((Frame.accept 2 1 4 0 [7]).upcall 1),
        .learn (fun _ => true) ((Frame.learn 2 1 4 0).upcall 1),
        .collect 4,
        .accept (fun _ => true) ((Frame.accept 2 1 4 1 [8]).upcall 1)] := by
  refine (votesOnce_iff_remembers (.ready "S1" 1 {1, 2, 3} 4 none) 3 rfl
    _).mpr ⟨?_, ?_, ?_, ?_, trivial⟩
  · rintro answer upcall n seqno v - - - - gone
    cases gone
  · rintro answer upcall n seqno v - - - - gone
    cases gone
  · rintro answer upcall n seqno v - - - - gone
    cases gone
  · rintro answer upcall n seqno v ⟨⟩ decoded - - gone
    have carried : PaxosMessage.unpackAccept
        (Frame.accept 2 1 4 1 [8]).payload = .ok (4, 1, [8]) := by decide
    cases carried.symm.trans decoded
    revert gone
    decide

/-- A vote whose slot was processed and collected in the background is cast
again, for another value in the same round. -/
theorem collected_vote_is_forgotten :
    let node := PaxosController.ready "S1" 1 {1, 2, 3} 4 none
    let events : List NodeEvent :=
      [.accept (fun _ => true) ((Frame.accept 2 1 4 0 [7]).upcall 1),
        .learn (fun _ => true) ((Frame.learn 2 1 4 0).upcall 1),
        .pump fun _ => true, .collect 4,
        .accept (fun _ => true) ((Frame.accept 2 1 4 0 [8]).upcall 1)]
    votes (NodeRun.after node events).log = [(4, 0, [7]), (4, 0, [8])] ∧
      ¬ VotesOnce node events := by
  intro node events
  have cast : votes (NodeRun.after node events).log =
      [(4, 0, [7]), (4, 0, [8])] := by decide
  refine ⟨cast, fun once => ?_⟩
  have same := once.oneValue 4 0 [7] [8] (by simp [cast]) (by simp [cast])
  simp at same

end SwitchPaxos

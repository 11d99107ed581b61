import SwitchPaxos.Controller.Diligence

/-!
# What a majority learns

If everything that the nodes of a majority with the leader in it sent one
another has arrived, each of them has learned whatever the leader numbered.
-/

namespace SwitchPaxos.Cluster

namespace Diligent

variable {N : Finset EthAddr} {leader : EthAddr} {r : ℕ}
  {arrived : Frame → Prop} {cluster : Cluster}

section Majority

variable {Q : Finset EthAddr} {mac : EthAddr} {seqno : ℕ} {v : Bytes}

/-- Everyone in the majority votes for a packet once it was asked to. -/
theorem voted_of_asked (diligent : cluster.Diligent N leader r arrived)
    (subset : Q ⊆ N) (leads : leader ∈ Q)
    (heard : ∀ frame ∈ cluster.frames, frame.src ∈ Q → frame.dst ∈ Q →
      arrived frame) (small : seqno ≤ UINT32_MAX)
    (given : (seqno, v) ∈ numbers cluster.log) (member : mac ∈ Q) :
    cluster.Voted mac r seqno v := by
  obtain ⟨voted, sent⟩ := diligent.asked seqno small v given
  by_cases here : mac = leader
  · rw [here]
    exact voted
  · have request := sent mac (subset member) here
    have handled := diligent.handled _ (heard _ request leads member)
    exact handled.voted seqno small v rfl

theorem hears_of_told (diligent : cluster.Diligent N leader r arrived)
    (subset : Q ⊆ N)
    (heard : ∀ frame ∈ cluster.frames, frame.src ∈ Q → frame.dst ∈ Q →
      arrived frame) (small : seqno ≤ UINT32_MAX) {src : EthAddr}
    (voter : src ∈ Q) (voted : cluster.Voted src r seqno v)
    (member : mac ∈ Q) :
    (cluster.nodes mac).state.slots.Hears r src seqno := by
  obtain ⟨-, own, -, told⟩ := diligent.votes src r seqno v voted
  by_cases here : mac = src
  · rw [here]
    exact own
  · have report := told mac (subset member) here
    have handled := diligent.handled _ (heard _ report voter member)
    exact handled.heard seqno small rfl

/-- A vote that the queue is not past is still there, with the packet. -/
theorem stored_of_voted (diligent : cluster.Diligent N leader r arrived)
    (member : mac ∈ N) (voted : cluster.Voted mac r seqno v)
    (ahead : ¬ seqno < (cluster.nodes mac).state.slots.cseq) :
    ∃ slot, (cluster.nodes mac).state.slots.at? seqno = some slot ∧
      slot.vval = some v := by
  obtain ⟨-, -, known, -⟩ := diligent.votes mac r seqno v voted
  have held := known.resolve_left ahead
  cases found : (cluster.nodes mac).state.slots.at? seqno with
  | none =>
      rw [Slots.ballotAt, Slots.slotAt, found] at held
      exact absurd rfl held
  | some slot =>
      refine ⟨slot, rfl, ?_⟩
      have accountable := diligent.orderly.accountable
      rw [Slots.ballotAt_of_at? found] at held
      have backed := accountable.stores mac member seqno
      rw [Slots.slotAt_of_at? found] at backed
      rcases backed.ballot with empty | ⟨n, w, ballot, cast⟩
      · rw [empty] at held
        exact absurd rfl held
      · have same := accountable.value_eq (accountable.voted _ _ _ _ cast)
          (accountable.voted _ _ _ _ voted)
        rw [← same]
        exact congrArg Prod.snd ballot

theorem learned (diligent : cluster.Diligent N leader r arrived)
    (subset : Q ⊆ N) (leads : leader ∈ Q)
    (majority : 1 + N.card / 2 ≤ Q.card)
    (heard : ∀ frame ∈ cluster.frames, frame.src ∈ Q → frame.dst ∈ Q →
      arrived frame) (small : seqno ≤ UINT32_MAX)
    (given : (seqno, v) ∈ numbers cluster.log) (member : mac ∈ Q) :
    seqno < (cluster.nodes mac).state.slots.cseq ∨
      ∃ slot, (cluster.nodes mac).state.slots.at? seqno = some slot ∧
        slot.learned = true ∧ slot.vval = some v := by
  by_cases behind : seqno < (cluster.nodes mac).state.slots.cseq
  · exact .inl behind
  right
  have voted : ∀ src ∈ Q, cluster.Voted src r seqno v := fun src voter =>
    diligent.voted_of_asked subset leads heard small given voter
  obtain ⟨slot, found, value⟩ := diligent.stored_of_voted (subset member)
    (voted mac member) behind
  refine ⟨slot, found, ?_, value⟩
  have isNode := subset member
  have count := diligent.orderly.accountable.stores mac isNode seqno
  rw [Slots.slotAt_of_at? found,
    diligent.orderly.accountable.nodeCount mac isNode] at count
  apply Slot.learned_of_hears
  · rw [count.count]
    exact majority
  · intro src voter
    have hears := (diligent.hears_of_told subset heard small voter
      (voted src voter) member).resolve_left behind
    rw [Slots.slotAt_of_at? found] at hears
    exact hears

end Majority

end Diligent

variable {N Q : Finset EthAddr} {leader : EthAddr} {cluster : Cluster}
  {actions : List ClusterAction}

theorem Starts.diligent (starts : cluster.Starts N leader)
    (rounds : ∀ mac ∈ N, (cluster.nodes mac).state.crnd ≤
      (cluster.nodes leader).state.crnd) :
    cluster.Diligent N leader (cluster.nodes leader).state.crnd
      (Arrived []) := by
  have silent := starts.log
  constructor
  · refine ⟨starts.accountable, fun mac member => ?_⟩
    rw [starts.slots mac member]
    exact ⟨[], .new N.card⟩
  · rfl
  · exact rounds
  · intro mac member
    rw [starts.slots mac member]
    exact Slots.upTo_new _ _
  · intro frame sent
    rw [frames, silent] at sent
    cases sent
  · intro mac n seqno v voted
    rw [Voted, silent] at voted
    cases voted
  · intro seqno small v given
    rw [silent] at given
    cases given
  · rintro frame ⟨action, impossible, -⟩
    cases impossible

theorem Run.diligent (starts : cluster.Starts N leader)
    (rounds : ∀ mac ∈ N, (cluster.nodes mac).state.crnd ≤
      (cluster.nodes leader).state.crnd)
    (bounded : (cluster.nodes leader).state.crnd ≤ UINT32_MAX)
    (run : (system N).Run cluster actions) :
    ((system N).after cluster actions).Diligent N leader
      (cluster.nodes leader).state.crnd (Arrived actions) := by
  have kept : ∀ (state : Cluster) earlier action,
      state.Diligent N leader (cluster.nodes leader).state.crnd
        (Arrived earlier) →
      Enabled N state action →
      (state.step action).Diligent N leader
        (cluster.nodes leader).state.crnd (Arrived (earlier ++ [action])) := by
    intro state earlier action diligent enabled
    apply (diligent.step bounded enabled).fewer
    rintro frame ⟨bringer, member, brings⟩
    rcases List.mem_append.mp member with before | now
    · exact .inl ⟨bringer, before, brings⟩
    · cases List.mem_singleton.mp now
      exact .inr brings
  exact run.history kept (starts.diligent rounds)

theorem Run.inOrder (starts : cluster.Starts N leader)
    (run : (system N).Run cluster actions) :
    let reached := (system N).after cluster actions
    ∀ mac ∈ N, (reached.nodes mac).state.slots.InOrder
      (calls (reached.logOf mac)) := by
  have initial : cluster.Accountable N leader ∧ ∀ mac ∈ N,
      (cluster.nodes mac).state.slots.InOrder (calls (cluster.logOf mac)) := by
    refine ⟨starts.accountable, ?_⟩
    intro mac member
    rw [starts.slots mac member, logOf, starts.log]
    exact .new N.card
  have kept : ∀ (state : Cluster) action,
      (state.Accountable N leader ∧ ∀ mac ∈ N,
        (state.nodes mac).state.slots.InOrder (calls (state.logOf mac))) →
      Enabled N state action →
      ((state.step action).Accountable N leader ∧ ∀ mac ∈ N,
        ((state.step action).nodes mac).state.slots.InOrder
          (calls ((state.step action).logOf mac))) := by
    rintro state action ⟨accountable, inOrder⟩ enabled
    exact ⟨accountable.step enabled,
      accountable.inOrder_step enabled inOrder⟩
  exact (run.invariant kept initial).2

/-- Whatever a queue has passed was handed to the hosts: the packet with that
number, or nothing if the node did not hold it. -/
theorem Run.passed (starts : cluster.Starts N leader)
    (run : (system N).Run cluster actions) {mac : EthAddr} (member : mac ∈ N)
    {seqno : ℕ} {v : Bytes}
    (given : (seqno, v) ∈ numbers ((system N).after cluster actions).log)
    (behind : seqno <
      (((system N).after cluster actions).nodes mac).state.slots.cseq) :
    ∃ call, (mac, Effect.handed call) ∈
        ((system N).after cluster actions).log ∧
      call.answer = true ∧ call.seqno = seqno ∧
        (call.vval = none ∨ call.vval = some v) := by
  have accountable := Run.accountable starts run
  have processed : seqno ∈ processedSeqnos
      (calls (((system N).after cluster actions).logOf mac)) := by
    rw [(Run.inOrder starts run mac member).answered]
    exact List.mem_range.mpr behind
  obtain ⟨call, accepted, number⟩ := List.mem_map.mp processed
  obtain ⟨called, answer⟩ := List.mem_filter.mp accepted
  have logged : (mac, Effect.handed call) ∈
      ((system N).after cluster actions).log := by
    obtain ⟨effect, did, same⟩ := List.mem_filterMap.mp called
    cases effect with
    | handed other =>
        cases same
        exact mem_logOf.mp did
    | _ => cases same
  refine ⟨call, logged, answer, number, ?_⟩
  cases held : call.vval with
  | none => exact .inl rfl
  | some w =>
      have numbered := accountable.handed mac call w logged held
      rw [number] at numbered
      rw [accountable.value_eq numbered given]
      exact .inr rfl

/-- However frames are delayed, repeated and swapped, and whatever happens to
the other nodes: once all that the nodes of a majority sent one another has
arrived, each of them has voted for every packet that their leader numbered, and
either has learned it and holds it, or has passed it and handed it to its hosts,
or handed over nothing in its place. -/
theorem majority_learns (starts : cluster.Starts N leader)
    (rounds : ∀ mac ∈ N, (cluster.nodes mac).state.crnd ≤
      (cluster.nodes leader).state.crnd)
    (bounded : (cluster.nodes leader).state.crnd ≤ UINT32_MAX)
    (run : (system N).Run cluster actions) (subset : Q ⊆ N)
    (leads : leader ∈ Q) (majority : 1 + N.card / 2 ≤ Q.card)
    (heard : ∀ frame ∈ ((system N).after cluster actions).frames,
      frame.src ∈ Q → frame.dst ∈ Q → Arrived actions frame) :
    let reached := (system N).after cluster actions
    ∀ mac ∈ Q, ∀ seqno v, (seqno, v) ∈ numbers reached.log →
      seqno ≤ UINT32_MAX →
        reached.Voted mac (cluster.nodes leader).state.crnd seqno v ∧
        ((seqno < (reached.nodes mac).state.slots.cseq ∧
          ∃ call, (mac, Effect.handed call) ∈ reached.log ∧
            call.answer = true ∧ call.seqno = seqno ∧
              (call.vval = none ∨ call.vval = some v)) ∨
        ∃ slot, (reached.nodes mac).state.slots.at? seqno = some slot ∧
          slot.learned = true ∧ slot.vval = some v) := by
  intro reached mac member seqno v given small
  have diligent := Run.diligent starts rounds bounded run
  refine ⟨diligent.voted_of_asked subset leads heard small given member, ?_⟩
  rcases diligent.learned subset leads majority heard small given member with
    behind | learned
  · exact .inl
      ⟨behind, Run.passed starts run (subset member) given behind⟩
  · exact .inr learned

/-- The third node is down, and the second one learns the packet before its
background thread hands it over. -/
theorem majority_learns_two :
    let actions : List ClusterAction :=
      [⟨1, .deliver (fun _ => false) ((Frame.client 9 1 [7]).upcall 1)⟩,
        ⟨2, .deliver (fun _ => false) ((Frame.accept 1 2 4 0 [7]).upcall 1)⟩,
        ⟨1, .deliver (fun _ => false) ((Frame.learn 2 1 4 0).upcall 1)⟩,
        ⟨2, .deliver (fun _ => false) ((Frame.learn 1 2 4 0).upcall 1)⟩]
    let reached := (system {1, 2, 3}).after three actions
    ∃ slot, (reached.nodes 2).state.slots.at? 0 = some slot ∧
      slot.learned = true ∧ slot.vval = some [7] := by
  intro actions reached
  have run : (system {1, 2, 3}).Run three actions := by decide
  have subset : ({1, 2} : Finset EthAddr) ⊆ {1, 2, 3} := by decide
  have heard : ∀ frame ∈ reached.frames,
      frame.src ∈ ({1, 2} : Finset EthAddr) →
      frame.dst ∈ ({1, 2} : Finset EthAddr) → Arrived actions frame := by
    decide +kernel
  have waits : ¬ 0 < (reached.nodes 2).state.slots.cseq := by decide
  exact (majority_learns three_starts Network.three_starts.rounds (by decide)
    run subset (by decide) (by decide) heard 2 (by decide) 0 [7] (by decide)
    (by decide)).2.resolve_left fun passed => waits passed.1

end SwitchPaxos.Cluster

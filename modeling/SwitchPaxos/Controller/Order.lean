import SwitchPaxos.Controller.InStep

/-!
# The order of the packets

Nodes stay in step, so what each of them has processed is a prefix of the
client packets in the order in which the leader numbered them.
-/

namespace SwitchPaxos.Network

variable {N : Finset EthAddr} {leader : EthAddr} {network : Network}

namespace InStep

variable {action : ClusterAction}

theorem nodes_step (mac : EthAddr) :
    (network.step action).cluster.nodes mac =
      if mac = action.mac then
        (action.event.handle (network.cluster.nodes action.mac)).state
      else network.cluster.nodes mac :=
  Cluster.nodes_put ..

theorem channels_step : (network.step action).channels =
    (network.taken action).send action.mac (·.dst) (sentFrames
      (action.event.handle (network.cluster.nodes action.mac)).effects) :=
  rfl

private theorem rounds_step (inStep : network.InStep N leader)
    (enabled : Enabled N network action) :
    ((network.step action).cluster.nodes leader).state.crnd =
        (network.cluster.nodes leader).state.crnd ∧
      ∀ mac ∈ N, ((network.step action).cluster.nodes mac).state.crnd ≤
        (network.cluster.nodes leader).state.crnd := by
  have changed : (action.event.handle
        (network.cluster.nodes action.mac)).state.state.crnd =
          (network.cluster.nodes leader).state.crnd ∨
      (action.event.handle
        (network.cluster.nodes action.mac)).state.state.crnd =
          (network.cluster.nodes action.mac).state.crnd := by
    rcases inStep.publishes enabled with
      quiet | ⟨n, seqno, v, requests, own, published⟩
    · exact .inr quiet.crnd
    · exact published.crnd.imp_left fun same => same.trans published.round
  constructor
  · rw [nodes_step]
    split
    · next here =>
        rw [← here] at changed ⊢
        exact or_self_iff.mp changed
    · rfl
  · intro mac member
    rw [nodes_step]
    split
    · next here =>
        rcases changed with same | same
        · exact same.le
        · rw [same]
          exact inStep.rounds _ enabled.1
    · exact inStep.rounds mac member

private theorem own_frames (inStep : network.InStep N leader)
    (enabled : Enabled N network action) :
    ∀ frame ∈ sentFrames (action.event.handle
      (network.cluster.nodes action.mac)).effects,
      frame.src = action.mac := by
  have own := inStep.accountable.formed.mac _ enabled.1
  intro frame member
  rcases inStep.publishes enabled with
    quiet | ⟨n, seqno, v, requests, log, published⟩
  · rw [quiet.frames] at member
    cases member
  · rw [published.frames, List.mem_append] at member
    rcases member with request | report
    · rcases published.cause with ⟨-, none, -⟩ | ⟨-, all⟩
      · rw [none] at request
        cases request
      · rw [all] at request
        obtain ⟨dst, -, rfl⟩ := List.mem_map.mp request
        exact own
    · rcases published.casts.frames with none | all
      · rw [none] at report
        cases report
      · rw [all] at report
        obtain ⟨dst, -, rfl⟩ := List.mem_map.mp report
        exact own

private theorem asked_step (inStep : network.InStep N leader)
    (enabled : Enabled N network action) :
    ∀ frame ∈ (network.step action).cluster.frames,
      frame.type = PaxosMessage.ACCEPT → ∀ n seqno v,
        PaxosMessage.unpackAccept frame.payload = .ok (n, seqno, v) →
        frame.dst ≠ leader ∧
          n = (network.cluster.nodes leader).state.crnd ∧
          ((network.step action).cluster.nodes
            leader).state.slots.Knows seqno := by
  intro frame member type n seqno v decoded
  rw [frames_step, List.mem_append] at member
  rcases member with earlier | new
  · obtain ⟨other, round, known⟩ :=
      inStep.asked frame earlier type n seqno v decoded
    exact ⟨other, round, inStep.knows enabled known⟩
  · rcases inStep.publishes enabled with
      quiet | ⟨round, position, w, requests, log, published⟩
    · rw [quiet.frames] at new
      cases new
    · rw [published.frames, List.mem_append] at new
      rcases new with request | report
      · rcases published.cause with ⟨-, none, -⟩ | ⟨leads, all⟩
        · rw [none] at request
          cases request
        · rw [all] at request
          obtain ⟨dst, others, rfl⟩ := List.mem_map.mp request
          have header := PaxosMessage.unpackAccept_header published.fits.1
            published.fits.2 w
          cases header.symm.trans decoded
          refine ⟨?_, published.round, ?_⟩
          · have other := ((PaxosController.mem_others _).mp others).2
            rw [inStep.accountable.formed.mac _ enabled.1, leads] at other
            exact other
          · rw [nodes_step, if_pos leads.symm]
            exact published.known
      · have notLearn : PaxosMessage.LEARN ≠ PaxosMessage.ACCEPT := by decide
        rcases published.casts.frames with none | all
        · rw [none] at report
          cases report
        · rw [all] at report
          obtain ⟨dst, -, rfl⟩ := List.mem_map.mp report
          exact absurd type notLearn

private theorem voted_step (inStep : network.InStep N leader)
    (enabled : Enabled N network action) :
    ∀ mac n seqno v, (network.step action).cluster.Voted mac n seqno v →
      ((network.step action).cluster.nodes mac).state.slots.Knows seqno ∧
        ((network.step action).cluster.nodes
          leader).state.slots.Knows seqno := by
  intro mac n seqno v voted
  rcases (Cluster.voted_put ..).mp voted with earlier | ⟨rfl, new⟩
  · obtain ⟨own, learnt⟩ := inStep.voted mac n seqno v earlier
    exact ⟨inStep.knows enabled own, inStep.knows enabled learnt⟩
  · have cast : (n, seqno, v) ∈ votes (action.event.handle
        (network.cluster.nodes action.mac)).effects :=
      List.mem_filterMap.mpr ⟨_, new, rfl⟩
    rcases inStep.publishes enabled with
      quiet | ⟨round, position, w, requests, log, published⟩
    · rw [quiet.votes] at cast
      cases cast
    · rw [published.votes] at cast
      cases published.casts.votes _ cast
      have known : ((network.step action).cluster.nodes
          action.mac).state.slots.Knows seqno := by
        rw [nodes_step, if_pos rfl]
        exact published.known
      refine ⟨known, ?_⟩
      rcases published.cause with ⟨-, -, learnt⟩ | ⟨leads, -⟩
      · exact inStep.knows enabled learnt
      · rw [← leads]
        exact known

/-- A request that is taken out of its channel leaves the node knowing its
number, so what is left in the channel is still heralded. -/
private theorem heralded_taken (inStep : network.InStep N leader)
    (enabled : Enabled N network action) {mac : EthAddr} (member : mac ∈ N) :
    Heralded Frame.Requests Frame.Reports
      ((network.step action).cluster.nodes mac).state.slots.Knows
      (network.taken action leader mac) := by
  have before := inStep.heralded mac member
  have more : ∀ seqno, (network.cluster.nodes mac).state.slots.Knows seqno →
      ((network.step action).cluster.nodes mac).state.slots.Knows seqno :=
    fun _ => inStep.knows enabled
  obtain ⟨at_, event⟩ := action
  cases event with
  | pump answer => exact before.mono more
  | collect n => exact before.mono more
  | deliver answer event =>
      simp only [taken]
      split
      · exact before.mono more
      · next notClient =>
          by_cases here : leader = event.parsed.src ∧ mac = at_
          · obtain ⟨rfl, rfl⟩ := here
            rw [Channels.receive_self]
            apply before.tail more
            rintro frame oldest seqno ⟨type, n, v, decoded⟩
            have head := enabled.2.resolve_left notClient
            cases head.symm.trans oldest
            obtain ⟨round, position, w, own, again, published⟩ :=
              inStep.publishes_request enabled type
            cases again.symm.trans decoded
            rw [nodes_step, if_pos rfl]
            exact published.known
          · rw [Channels.receive_of_ne here]
            exact before.mono more

/-- The leader reports a vote only behind the request for it. -/
private theorem heralded_step (inStep : network.InStep N leader)
    (enabled : Enabled N network action) :
    ∀ mac ∈ N, Heralded Frame.Requests Frame.Reports
      ((network.step action).cluster.nodes mac).state.slots.Knows
      ((network.step action).channels leader mac) := by
  intro mac member
  have before := inStep.heralded_taken enabled member
  rw [channels_step]
  by_cases sends : leader = action.mac
  · rw [sends, Channels.send_self, heralded_append]
    rw [sends] at before
    refine ⟨before, ?_⟩
    rcases inStep.publishes enabled with
      quiet | ⟨n, seqno, v, requests, log, published⟩
    · rw [quiet.frames]
      trivial
    · rcases published.cause with ⟨other, -⟩ | ⟨-, all⟩
      · exact absurd sends.symm other
      rw [published.frames, List.filter_append]
      have asks : ∀ frame ∈ requests, frame.Requests seqno ∧
          frame.type = PaxosMessage.ACCEPT := by
        intro frame request
        rw [all] at request
        obtain ⟨dst, -, rfl⟩ := List.mem_map.mp request
        exact ⟨Frame.requests_accept published.fits, rfl⟩
      apply heralded_announce
      · intro frame request position report
        have notAccept : PaxosMessage.LEARN ≠ PaxosMessage.ACCEPT := by decide
        have accept := (asks frame (List.mem_filter.mp request).1).2
        exact notAccept (report.1.symm.trans accept)
      · intro frame report position told
        obtain ⟨report, here⟩ := List.mem_filter.mp report
        rcases published.casts.frames with none | reports
        · rw [none] at report
          cases report
        · rw [reports] at report
          obtain ⟨dst, others, rfl⟩ := List.mem_map.mp report
          cases Frame.reports_learn published.fits told
          refine ⟨Frame.accept (network.cluster.nodes action.mac).mac dst n
            seqno v, List.mem_filter.mpr ⟨?_, here⟩,
            Frame.requests_accept published.fits⟩
          rw [all]
          exact List.mem_map_of_mem others
  · rw [Channels.send_of_ne sends]
    exact before

theorem step (inStep : network.InStep N leader) (three : N.card = 3)
    (leads : leader ∈ N) (enabled : Enabled N network action) :
    (network.step action).InStep N leader := by
  have enabledThere := inStep.sent.enabled enabled
  have acts := inStep.actsBy enabled
  have inOrder := inStep.inOrder _ enabled.1
  obtain ⟨informed, fetched⟩ := StoreOperation.fetched_forEach inOrder
    (inStep.informed _ enabled.1)
    (inStep.accountable.nodeCount _ enabled.1)
    (overlap three leads enabled.1)
    (action.event.operations (network.cluster.nodes action.mac))
    (inStep.told enabled)
  obtain ⟨round, rounds⟩ := inStep.rounds_step enabled
  constructor
  · exact inStep.accountable.step enabledThere
  · exact inStep.accountable.inOrder_step enabledThere inStep.inOrder
  · exact inStep.sent.step (inStep.own_frames enabled)
  · rw [round]
    exact rounds
  · rw [round]
    exact inStep.asked_step enabled
  · exact inStep.voted_step enabled
  · exact inStep.heralded_step enabled
  · intro mac member
    rw [nodes_step]
    split
    · next here =>
        rw [acts.1, here]
        exact informed
    · exact inStep.informed mac member
  · exact (inStep.orderly.handsOver_step_iff enabledThere).mpr
      ⟨inStep.numbered, fetched⟩

end InStep

theorem Starts.inStep (starts : network.Starts N leader) :
    network.InStep N leader := by
  have silent := starts.cluster.log
  have empty := starts.cluster.slots
  constructor
  · exact starts.cluster.accountable
  · intro mac member
    rw [empty mac member, Cluster.logOf, silent]
    exact .new N.card
  · intro src dst frame member
    rw [starts.channels] at member
    cases member
  · exact starts.rounds
  · intro frame member
    rw [Cluster.frames, silent] at member
    cases member
  · intro mac n seqno v voted
    rw [Cluster.Voted, silent] at voted
    cases voted
  · intro mac member
    rw [starts.channels]
    trivial
  · intro mac member
    rw [empty mac member]
    exact .new N.card
  · intro mac call member
    rw [silent] at member
    cases member

/-- A run over links without loss is a run of the cluster. -/
theorem InStep.run_cluster (inStep : network.InStep N leader)
    (three : N.card = 3) (leads : leader ∈ N) {actions : List ClusterAction}
    (run : (system N).Run network actions) :
    (Cluster.system N).Run network.cluster actions ∧
      ((system N).after network actions).cluster =
        (Cluster.system N).after network.cluster actions := by
  induction actions generalizing network with
  | nil => exact ⟨trivial, rfl⟩
  | cons action actions induction =>
      obtain ⟨rest, same⟩ := induction (inStep.step three leads run.1) run.2
      exact ⟨⟨inStep.sent.enabled run.1, rest⟩, same⟩

/-- What a node processed is a prefix of what the leader numbered. -/
theorem InStep.processed_packets (inStep : network.InStep N leader)
    {mac : EthAddr} (member : mac ∈ N) :
    network.cluster.processed mac <+: network.cluster.packets.map some := by
  let answered := (calls (network.cluster.logOf mac)).filter (·.answer)
  let entries := answered.map fun call => (call.seqno, call.vval.getD [])
  have numbered : ∀ call ∈ answered, ∃ v, call.vval = some v ∧
      (call.seqno, v) ∈ numbers network.cluster.log := by
    intro call answer
    obtain ⟨effect, logged, handed⟩ :=
      List.mem_filterMap.mp (List.mem_filter.mp answer).1
    cases effect <;> simp only [Effect.handed?, reduceCtorEq,
      Option.some.injEq] at handed
    subst handed
    exact inStep.numbered mac _ (Cluster.mem_logOf.mp logged)
  have keys : entries.map Prod.fst = List.range'
      0 (network.cluster.nodes mac).state.slots.cseq := by
    rw [← List.range_eq_range', ← (inStep.inOrder mac member).answered]
    simp [entries, answered, processedSeqnos, Function.comp_def]
  have subset : ∀ entry ∈ entries, entry ∈ numbers network.cluster.log := by
    intro entry present
    obtain ⟨call, answer, rfl⟩ := List.mem_map.mp present
    obtain ⟨v, value, given⟩ := numbered call answer
    rw [value]
    exact given
  have values : network.cluster.processed mac =
      (entries.map Prod.snd).map some := by
    rw [Cluster.processed, List.map_map, List.map_map]
    apply List.map_congr_left
    intro call answer
    obtain ⟨v, value, -⟩ := numbered call answer
    simp [value]
  rw [values, Cluster.packets]
  apply List.IsPrefix.map
  apply List.IsPrefix.map
  exact prefix_of_consecutive inStep.accountable.increasing
    (fun _ _ => Nat.zero_le _) keys subset

/-- Three nodes over links that lose nothing and keep the order process
prefixes of the client packets in the order in which the leader handled them,
and so prefixes of one another. -/
theorem processed_agrees (three : N.card = 3)
    (starts : network.Starts N leader) {actions : List ClusterAction}
    (run : (system N).Run network actions) :
    let cluster := ((system N).after network actions).cluster
    (∀ mac ∈ N, cluster.processed mac <+: cluster.packets.map some) ∧
      ∀ mac ∈ N, ∀ other ∈ N,
        cluster.processed mac <+: cluster.processed other ∨
          cluster.processed other <+: cluster.processed mac := by
  have inStep : ((system N).after network actions).InStep N leader :=
    run.invariant
      (fun _ _ inStep enabled => inStep.step three starts.member enabled)
      starts.inStep
  refine ⟨fun mac member => inStep.processed_packets member, ?_⟩
  intro mac member other otherMember
  exact List.prefix_or_prefix_of_prefix (inStep.processed_packets member)
    (inStep.processed_packets otherMember)

/-- The second node processes a packet that the third one has yet to hear of.
-/
theorem processed_agrees_first :
    let actions : List ClusterAction :=
      [⟨1, .deliver (fun _ => true) ((Frame.client 9 1 [7]).upcall 1)⟩,
        ⟨1, .deliver (fun _ => true) ((Frame.client 9 1 [8]).upcall 1)⟩,
        ⟨2, .deliver (fun _ => true) ((Frame.accept 1 2 4 0 [7]).upcall 1)⟩,
        ⟨2, .deliver (fun _ => true) ((Frame.learn 1 2 4 0).upcall 1)⟩]
    let cluster := ((system {1, 2, 3}).after three actions).cluster
    cluster.processed 2 = [some [7]] ∧ cluster.packets = [[7], [8]] ∧
      [some [7]] <+: ([[7], [8]] : List Bytes).map some := by
  intro actions cluster
  have processed : cluster.processed 2 = [some [7]] := by decide
  have packets : cluster.packets = [[7], [8]] := by decide
  have run : (system {1, 2, 3}).Run three actions := by decide
  have before := (processed_agrees (by decide) three_starts run).1 2 (by simp)
  exact ⟨processed, packets, processed ▸ packets ▸ before⟩

end SwitchPaxos.Network

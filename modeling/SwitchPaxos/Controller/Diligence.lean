import SwitchPaxos.Controller.Answering

/-!
# Diligence

The leader asks all others for whatever it numbers, every vote is reported to
all others, a request that arrived made its receiver vote, and a report that
arrived was heard.  No step undoes any of this, in whatever order frames come
and however often.
-/

namespace SwitchPaxos

/-- The action brings a frame to the node it is addressed to. -/
def ClusterAction.Brings (action : ClusterAction) (frame : Frame) : Prop :=
  action.mac = frame.dst ∧
    match action.event with
    | .deliver _ event => event.parsed = frame
    | _ => False

instance (frame : Frame) : (action : ClusterAction) →
    Decidable (action.Brings frame)
  | ⟨mac, .deliver _ event⟩ =>
      inferInstanceAs (Decidable (mac = frame.dst ∧ event.parsed = frame))
  | ⟨mac, .pump _⟩ => inferInstanceAs (Decidable (mac = frame.dst ∧ False))
  | ⟨mac, .collect _⟩ => inferInstanceAs (Decidable (mac = frame.dst ∧ False))

/-- The frame arrived at some time. -/
def Arrived (actions : List ClusterAction) (frame : Frame) : Prop :=
  ∃ action ∈ actions, action.Brings frame

instance (actions : List ClusterAction) (frame : Frame) :
    Decidable (Arrived actions frame) :=
  inferInstanceAs (Decidable (∃ action ∈ actions, action.Brings frame))

namespace Cluster

/-- A request that was handled made its receiver vote, and a report that was
handled was heard. -/
structure Handled (r : ℕ) (cluster : Cluster) (frame : Frame) : Prop where
  voted : ∀ seqno ≤ UINT32_MAX, ∀ v,
    frame = Frame.accept frame.src frame.dst r seqno v →
      cluster.Voted frame.dst r seqno v
  heard : ∀ seqno ≤ UINT32_MAX,
    frame = Frame.learn frame.src frame.dst r seqno →
      (cluster.nodes frame.dst).state.slots.Hears r frame.src seqno

/-- There is one round, the leader asked all others for whatever it numbered,
every vote was reported, and what arrived was handled. -/
structure Diligent (N : Finset EthAddr) (leader : EthAddr) (r : ℕ)
    (arrived : Frame → Prop) (cluster : Cluster) : Prop where
  orderly : cluster.Orderly N leader
  leads : (cluster.nodes leader).state.crnd = r
  rounds : ∀ mac ∈ N, (cluster.nodes mac).state.crnd ≤ r
  upTo : ∀ mac ∈ N, (cluster.nodes mac).state.slots.UpTo r
  requests : ∀ frame ∈ cluster.frames, frame.type = PaxosMessage.ACCEPT →
    ∀ n seqno v,
      PaxosMessage.unpackAccept frame.payload = .ok (n, seqno, v) → n = r
  votes : ∀ mac n seqno v, cluster.Voted mac n seqno v →
    n = r ∧ (cluster.nodes mac).state.slots.Hears r mac seqno ∧
      (cluster.nodes mac).state.slots.Knows seqno ∧
      ∀ dst ∈ N, dst ≠ mac → Frame.learn mac dst r seqno ∈ cluster.frames
  asked : ∀ seqno ≤ UINT32_MAX, ∀ v, (seqno, v) ∈ numbers cluster.log →
    cluster.Voted leader r seqno v ∧ ∀ dst ∈ N, dst ≠ leader →
      Frame.accept leader dst r seqno v ∈ cluster.frames
  handled : ∀ frame, arrived frame → cluster.Handled r frame

/-- What a step owes the others. -/
structure Duty (N : Finset EthAddr) (leader : EthAddr) (r : ℕ)
    (cluster : Cluster) (action : ClusterAction) : Prop where
  notAfter : ∀ operation ∈
    action.event.operations (cluster.nodes action.mac), operation.NotAfter r
  crnd : ((cluster.step action).nodes action.mac).state.crnd = r ∨
    ((cluster.step action).nodes action.mac).state.crnd =
      (cluster.nodes action.mac).state.crnd
  own : ∀ frame ∈ sentFrames
    (action.event.handle (cluster.nodes action.mac)).effects,
      frame.src = action.mac
  requests : ∀ frame ∈ sentFrames
      (action.event.handle (cluster.nodes action.mac)).effects,
    frame.type = PaxosMessage.ACCEPT → ∀ n seqno v,
      PaxosMessage.unpackAccept frame.payload = .ok (n, seqno, v) → n = r
  votes : ∀ n seqno v, (n, seqno, v) ∈ SwitchPaxos.votes
      (action.event.handle (cluster.nodes action.mac)).effects →
    n = r ∧ ((cluster.step action).nodes action.mac).state.slots.Hears r
        action.mac seqno ∧
      ((cluster.step action).nodes action.mac).state.slots.Knows seqno ∧
      ∀ dst ∈ N, dst ≠ action.mac → Frame.learn action.mac dst r seqno ∈
        sentFrames (action.event.handle (cluster.nodes action.mac)).effects
  asked : ∀ seqno ≤ UINT32_MAX, ∀ v, (seqno, v) ∈
      (action.event.handle (cluster.nodes action.mac)).effects.filterMap
        Effect.numbered? →
    (cluster.step action).Voted leader r seqno v ∧
      ∀ dst ∈ N, dst ≠ leader → Frame.accept leader dst r seqno v ∈
        sentFrames (action.event.handle (cluster.nodes action.mac)).effects
  handled : ∀ frame, action.Brings frame →
    (cluster.step action).Handled r frame

namespace Diligent

variable {N : Finset EthAddr} {leader : EthAddr} {r : ℕ}
  {arrived : Frame → Prop} {cluster : Cluster} {action : ClusterAction}

theorem nodes_step (mac : EthAddr) :
    (cluster.step action).nodes mac =
      if mac = action.mac then
        (action.event.handle (cluster.nodes action.mac)).state
      else cluster.nodes mac :=
  nodes_put ..

theorem frames_step : (cluster.step action).frames = cluster.frames ++
    sentFrames (action.event.handle (cluster.nodes action.mac)).effects :=
  frames_put ..

/-- What a store has heard and what it knows outlasts a step. -/
theorem stores_step (diligent : cluster.Diligent N leader r arrived)
    (enabled : Enabled N cluster action)
    (duty : cluster.Duty N leader r action) (mac src : EthAddr) (seqno : ℕ) :
    ((cluster.nodes mac).state.slots.Hears r src seqno →
      ((cluster.step action).nodes mac).state.slots.Hears r src seqno) ∧
    ((cluster.nodes mac).state.slots.Knows seqno →
      ((cluster.step action).nodes mac).state.slots.Knows seqno) := by
  rw [nodes_step]
  split
  · next here =>
      subst here
      obtain ⟨log, inOrder⟩ := diligent.orderly.inOrder _ enabled.1
      rw [(diligent.orderly.accountable.actsBy enabled).1]
      exact ⟨StoreOperation.hears_forEach inOrder _ duty.notAfter,
        StoreOperation.knows_forEach inOrder _⟩
  · exact ⟨id, id⟩

theorem step_of_duty (diligent : cluster.Diligent N leader r arrived)
    (enabled : Enabled N cluster action)
    (duty : cluster.Duty N leader r action) :
    (cluster.step action).Diligent N leader r
      fun frame => arrived frame ∨ action.Brings frame := by
  have kept := diligent.stores_step enabled duty
  have older : ∀ frame ∈ cluster.frames,
      frame ∈ (cluster.step action).frames := by
    intro frame sent
    rw [frames_step]
    exact List.mem_append_left _ sent
  have newer : ∀ frame ∈ sentFrames
      (action.event.handle (cluster.nodes action.mac)).effects,
      frame ∈ (cluster.step action).frames := by
    intro frame sent
    rw [frames_step]
    exact List.mem_append_right _ sent
  have round : ∀ mac, ((cluster.step action).nodes mac).state.crnd = r ∨
      ((cluster.step action).nodes mac).state.crnd =
        (cluster.nodes mac).state.crnd := by
    intro mac
    by_cases here : mac = action.mac
    · rw [here]
      exact duty.crnd
    · rw [nodes_step, if_neg here]
      exact .inr rfl
  constructor
  · exact diligent.orderly.step enabled
  · exact (round leader).elim id fun same => same.trans diligent.leads
  · intro mac member
    rcases round mac with same | same
    · exact same.le
    · rw [same]
      exact diligent.rounds mac member
  · intro mac member
    rw [nodes_step]
    split
    · obtain ⟨log, inOrder⟩ := diligent.orderly.inOrder _ enabled.1
      rw [(diligent.orderly.accountable.actsBy enabled).1]
      exact StoreOperation.upTo_forEach inOrder
        (diligent.upTo _ enabled.1) _ duty.notAfter
    · exact diligent.upTo mac member
  · intro frame sent
    rw [frames_step] at sent
    rcases List.mem_append.mp sent with earlier | new
    · exact diligent.requests frame earlier
    · exact duty.requests frame new
  · intro mac n seqno v voted
    rcases (voted_put ..).mp voted with earlier | ⟨rfl, new⟩
    · obtain ⟨same, heard, known, told⟩ := diligent.votes mac n seqno v earlier
      exact ⟨same, (kept mac mac seqno).1 heard, (kept mac mac seqno).2 known,
        fun dst member other => older _ (told dst member other)⟩
    · obtain ⟨same, heard, known, told⟩ :=
        duty.votes n seqno v (mem_votes.mpr new)
      exact ⟨same, heard, known,
        fun dst member other => newer _ (told dst member other)⟩
  · intro seqno small v given
    rw [Cluster.step, record, numbers_put, List.mem_append] at given
    rcases given with earlier | new
    · obtain ⟨voted, sent⟩ := diligent.asked seqno small v earlier
      exact ⟨voted.put, fun dst member other =>
        older _ (sent dst member other)⟩
    · obtain ⟨voted, sent⟩ := duty.asked seqno small v new
      exact ⟨voted, fun dst member other => newer _ (sent dst member other)⟩
  · intro frame arrives
    rcases arrives with earlier | now
    · obtain ⟨voted, heard⟩ := diligent.handled frame earlier
      exact ⟨fun seqno small v same => (voted seqno small v same).put,
        fun seqno small same => (kept _ _ _).1 (heard seqno small same)⟩
    · exact duty.handled frame now

private theorem sent_frame (diligent : cluster.Diligent N leader r arrived)
    {frame : Frame} (sent : frame ∈ cluster.frames) :
    (∃ seqno v, frame = Frame.accept frame.src frame.dst r seqno v ∧
      (r ≤ UINT32_MAX ∧ seqno ≤ UINT32_MAX) ∧
      (seqno, v) ∈ numbers cluster.log) ∨
    (∃ seqno v, frame = Frame.learn frame.src frame.dst r seqno ∧
      (r ≤ UINT32_MAX ∧ seqno ≤ UINT32_MAX) ∧
      cluster.Voted frame.src r seqno v) := by
  rcases diligent.orderly.accountable.frames frame sent with
    ⟨n, seqno, v, same, fits, numbered⟩ |
    ⟨n, seqno, v, same, fits, member, voted⟩
  · left
    have decoded : PaxosMessage.unpackAccept frame.payload =
        .ok (n, seqno, v) := by
      rw [same]
      exact PaxosMessage.unpackAccept_header fits.1 fits.2 v
    have accept : frame.type = PaxosMessage.ACCEPT := by
      rw [same]
      rfl
    obtain rfl := diligent.requests frame sent accept n seqno v decoded
    exact ⟨seqno, v, same, fits, numbered⟩
  · right
    obtain ⟨rfl, -⟩ := diligent.votes _ n seqno v voted
    exact ⟨seqno, v, same, fits, voted⟩

private theorem notAfter (diligent : cluster.Diligent N leader r arrived)
    (enabled : Enabled N cluster action) : ∀ operation ∈
      action.event.operations (cluster.nodes action.mac),
        operation.NotAfter r := by
  obtain ⟨mac, event⟩ := action
  obtain ⟨member, arrives⟩ := enabled
  cases event with
  | pump answer => simp [ClusterEvent.operations, StoreOperation.NotAfter]
  | collect n => simp [ClusterEvent.operations, StoreOperation.NotAfter]
  | deliver answer event =>
      have notLearn : PaxosMessage.LEARN ≠ PaxosMessage.ACCEPT := by decide
      have notAccept : PaxosMessage.CLIENT ≠ PaxosMessage.ACCEPT := by decide
      simp only [ClusterEvent.operations]
      split_ifs with dispatches accept client
      · apply PaxosController.notAfter_acceptOperations
        intro n seqno v decoded
        rcases arrives with isClient | sent
        · exact absurd (isClient.symm.trans accept) notAccept
        · exact (diligent.requests _ sent accept n seqno v decoded).le
      · intro operation among
        have own := (cluster.nodes mac).notAfter_clientOperations answer
          event.parsed.payload operation among
        have bound := diligent.rounds mac member
        cases operation with
        | learn _ _ _ _ => exact own.trans bound
        | _ => trivial
      · apply PaxosController.notAfter_learnOperations
        intro n seqno decoded
        rcases diligent.sent_frame (arrives.resolve_left client) with
          ⟨position, v, same, -⟩ | ⟨position, v, same, fits, -⟩
        · rw [same] at accept
          exact absurd rfl accept
        · rw [same] at decoded
          have header := PaxosMessage.unpackLearn_header fits.1 fits.2
          cases header.symm.trans decoded
          exact le_rfl
      · simp

/-- A step that nobody sees anything of, and that takes no number that could
be sent. -/
private theorem duty_quiet (diligent : cluster.Diligent N leader r arrived)
    (enabled : Enabled N cluster action)
    (quiet : Quiet (cluster.nodes action.mac)
      (action.event.handle (cluster.nodes action.mac)))
    (unsent : ∀ entry ∈ (action.event.handle
      (cluster.nodes action.mac)).effects.filterMap Effect.numbered?,
        UINT32_MAX < entry.1)
    (handled : ∀ frame, action.Brings frame →
      (cluster.step action).Handled r frame) :
    cluster.Duty N leader r action where
  notAfter := diligent.notAfter enabled
  crnd := by
    right
    rw [nodes_step, if_pos rfl]
    exact quiet.crnd
  own := by
    intro frame sent
    rw [quiet.frames] at sent
    cases sent
  requests := by
    intro frame sent
    rw [quiet.frames] at sent
    cases sent
  votes := by
    intro n seqno v voted
    rw [quiet.votes] at voted
    cases voted
  asked := by
    intro seqno small v numbered
    exact absurd (unsent _ numbered) (Nat.not_lt_of_le small)
  handled := handled

section Deliver

variable {mac : EthAddr} {answer : ℕ → Bool} {event : PacketIn}

private theorem own (diligent : cluster.Diligent N leader r arrived)
    (member : mac ∈ N) :
    (cluster.nodes mac).mac = mac ∧ (cluster.nodes mac).state.N = N ∧
      (cluster.nodes mac).mac ∈ (cluster.nodes mac).state.N := by
  have mine := diligent.orderly.accountable.formed.mac mac member
  have all := diligent.orderly.accountable.formed.nodes mac member
  refine ⟨mine, all, ?_⟩
  rw [mine, all]
  exact member

private theorem duty_ignored (diligent : cluster.Diligent N leader r arrived)
    (enabled : Enabled N cluster ⟨mac, .deliver answer event⟩)
    {result : Except Failure Reply}
    (idle : PaxosController.handlePaxos answer event (cluster.nodes mac) =
      ⟨result, cluster.nodes mac, []⟩)
    (handled : ∀ frame,
      ClusterAction.Brings ⟨mac, .deliver answer event⟩ frame →
      (cluster.step ⟨mac, .deliver answer event⟩).Handled r frame) :
    cluster.Duty N leader r ⟨mac, .deliver answer event⟩ := by
  apply diligent.duty_quiet enabled _ _ handled
  · rw [ClusterEvent.handle_deliver, idle, Handler.andThen_pure]
    exact ⟨rfl, rfl, rfl⟩
  · rw [ClusterEvent.handle_deliver, idle, Handler.andThen_pure]
    simp

private theorem duty_reports (diligent : cluster.Diligent N leader r arrived)
    (enabled : Enabled N cluster action) {seqno : ℕ} {v : Bytes}
    {inner : Outcome PaxosController Effect Failure Reply}
    (reports : Reports (cluster.nodes action.mac) r seqno v inner)
    (same : (action.event.handle (cluster.nodes action.mac)).state =
        inner.state ∧
      SwitchPaxos.votes (action.event.handle
        (cluster.nodes action.mac)).effects =
          SwitchPaxos.votes inner.effects)
    {asks : List Frame} (frames : sentFrames
      (action.event.handle (cluster.nodes action.mac)).effects =
        asks ++ sentFrames inner.effects)
    (asking : ∀ frame ∈ asks, frame.src = action.mac ∧ ∀ n position w,
      PaxosMessage.unpackAccept frame.payload = .ok (n, position, w) → n = r)
    (asked : ∀ position ≤ UINT32_MAX, ∀ w, (position, w) ∈
      (action.event.handle (cluster.nodes action.mac)).effects.filterMap
        Effect.numbered? →
      (cluster.step action).Voted leader r position w ∧
        ∀ dst ∈ N, dst ≠ leader →
          Frame.accept leader dst r position w ∈ asks)
    (handled : (cluster.step action).Voted action.mac r seqno v →
      ∀ frame, action.Brings frame → (cluster.step action).Handled r frame) :
    cluster.Duty N leader r action := by
  obtain ⟨mine, all, -⟩ := diligent.own enabled.1
  have cast : (cluster.step action).Voted action.mac r seqno v := by
    apply (voted_put ..).mpr
    right
    refine ⟨rfl, mem_votes.mp ?_⟩
    rw [same.2, reports.votes]
    exact List.mem_singleton_self _
  have after : ((cluster.step action).nodes action.mac) = inner.state := by
    rw [nodes_step, if_pos rfl]
    exact same.1
  constructor
  · exact diligent.notAfter enabled
  · left
    rw [after]
    exact reports.crnd
  · intro frame sent
    rw [frames, reports.frames] at sent
    rcases List.mem_append.mp sent with ask | report
    · exact (asking frame ask).1
    · obtain ⟨dst, -, rfl⟩ := List.mem_map.mp report
      exact mine
  · intro frame sent accept n position w decoded
    rw [frames, reports.frames] at sent
    rcases List.mem_append.mp sent with ask | report
    · exact (asking frame ask).2 n position w decoded
    · obtain ⟨dst, -, rfl⟩ := List.mem_map.mp report
      have notAccept : PaxosMessage.LEARN ≠ PaxosMessage.ACCEPT := by decide
      exact absurd accept notAccept
  · intro n position w voted
    rw [same.2, reports.votes, List.mem_singleton] at voted
    cases voted
    have heard := reports.hears
    rw [mine] at heard
    rw [after]
    refine ⟨rfl, heard, reports.knows, fun dst member other => ?_⟩
    rw [frames, reports.frames, mine]
    apply List.mem_append_right
    apply List.mem_map_of_mem
    apply (PaxosController.mem_others _).mpr
    rw [mine, all]
    exact ⟨member, other⟩
  · intro position small w numbered
    obtain ⟨voted, sent⟩ := asked position small w numbered
    refine ⟨voted, fun dst member other => ?_⟩
    rw [frames]
    exact List.mem_append_left _ (sent dst member other)
  · exact handled cast

private theorem duty_accept (diligent : cluster.Diligent N leader r arrived)
    (enabled : Enabled N cluster ⟨mac, .deliver answer event⟩) {seqno : ℕ}
    {v : Bytes}
    (accept : event.parsed =
      Frame.accept event.parsed.src event.parsed.dst r seqno v)
    (fits : r ≤ UINT32_MAX ∧ seqno ≤ UINT32_MAX)
    (numbered : (seqno, v) ∈ numbers cluster.log) :
    cluster.Duty N leader r ⟨mac, .deliver answer event⟩ := by
  have member := enabled.1
  obtain ⟨mine, all, known⟩ := diligent.own member
  have type : event.parsed.type = PaxosMessage.ACCEPT := by
    rw [accept]
    rfl
  have decoded : PaxosMessage.unpackAccept event.parsed.payload =
      .ok (r, seqno, v) := by
    rw [accept]
    exact PaxosMessage.unpackAccept_header fits.1 fits.2 v
  have brought : ∀ state : Cluster,
      ((event.parsed.dst = mac) → state.Voted mac r seqno v) →
      ∀ frame, ClusterAction.Brings ⟨mac, .deliver answer event⟩ frame →
        state.Handled r frame := by
    rintro state voted frame ⟨here, rfl⟩
    constructor
    · intro position small w same
      rw [same] at decoded
      have header := PaxosMessage.unpackAccept_header fits.1 small w
      cases header.symm.trans decoded
      exact here ▸ voted here.symm
    · intro position small same
      rw [same] at type
      have notAccept : PaxosMessage.LEARN ≠ PaxosMessage.ACCEPT := by decide
      exact absurd type notAccept
  rcases (cluster.nodes mac).handlePaxos_accept answer
    (diligent.orderly.accountable.formed.joined mac member) type decoded with
    ⟨addressed, handled⟩ | ⟨ignored, result, idle⟩
  · obtain ⟨log, inOrder⟩ := diligent.orderly.inOrder mac member
    rcases (cluster.nodes mac).onAccept_reports answer decoded addressed known
      (diligent.rounds mac member) inOrder (diligent.upTo mac member) with
      reports | ⟨stored, touched⟩
    · have frames : sentFrames ((ClusterEvent.deliver answer event).handle
          (cluster.nodes mac)).effects = [] ++ sentFrames
            (PaxosController.onAccept answer event event.parsed.payload
              (cluster.nodes mac)).effects := by
        rw [ClusterEvent.handle_deliver, handled, Handler.andThen_pure]
        rfl
      apply diligent.duty_reports enabled reports _ frames
      · exact List.forall_mem_nil _
      · intro position small w new
        rw [ClusterEvent.handle_deliver, handled, Handler.andThen_pure] at new
        change (position, w) ∈ List.filterMap Effect.numbered?
          (PaxosController.onAccept answer (some event) event.parsed.payload
            (cluster.nodes mac)).effects at new
        rw [PaxosController.numbered?_onAccept] at new
        cases new
      · intro cast
        exact brought _ fun _ => cast
      · rw [ClusterEvent.handle_deliver, handled, Handler.andThen_pure]
        exact ⟨rfl, rfl⟩
    · -- There is a vote of this round, and it is for the same packet.
      have before : cluster.Voted mac r seqno v := by
        have backed := (diligent.orderly.accountable.stores mac member seqno)
        rcases backed.ballot with empty | ⟨n, w, held, voted⟩
        · rw [Slots.ballotAt, empty] at stored
          cases stored
        · rw [Slots.ballotAt, held] at stored
          cases stored
          have given := diligent.orderly.accountable.voted mac r seqno w voted
          rw [diligent.orderly.accountable.value_eq numbered given]
          exact voted
      rw [touched] at handled
      apply diligent.duty_quiet enabled
      · rw [ClusterEvent.handle_deliver, handled, Handler.andThen_pure]
        exact ⟨rfl, rfl, rfl⟩
      · rw [ClusterEvent.handle_deliver, handled, Handler.andThen_pure]
        simp
      · exact brought _ fun _ => before.put
  · apply diligent.duty_ignored enabled idle
    apply brought
    intro here
    exact absurd (.inl (here.trans mine.symm)) ignored

private theorem duty_learn (diligent : cluster.Diligent N leader r arrived)
    (enabled : Enabled N cluster ⟨mac, .deliver answer event⟩) {seqno : ℕ}
    (learn : event.parsed =
      Frame.learn event.parsed.src event.parsed.dst r seqno)
    (fits : r ≤ UINT32_MAX ∧ seqno ≤ UINT32_MAX) :
    cluster.Duty N leader r ⟨mac, .deliver answer event⟩ := by
  have member := enabled.1
  obtain ⟨mine, -, -⟩ := diligent.own member
  have type : event.parsed.type = PaxosMessage.LEARN := by
    rw [learn]
    rfl
  have decoded : PaxosMessage.unpackLearn event.parsed.payload =
      .ok (r, seqno) := by
    rw [learn]
    exact PaxosMessage.unpackLearn_header fits.1 fits.2
  have brought : ∀ state : Cluster,
      ((event.parsed.dst = mac) →
        (state.nodes mac).state.slots.Hears r event.parsed.src seqno) →
      ∀ frame, ClusterAction.Brings ⟨mac, .deliver answer event⟩ frame →
        state.Handled r frame := by
    rintro state heard frame ⟨here, rfl⟩
    constructor
    · intro position small w same
      rw [same] at type
      have notLearn : PaxosMessage.ACCEPT ≠ PaxosMessage.LEARN := by decide
      exact absurd type notLearn
    · intro position small same
      rw [same] at decoded
      have header := PaxosMessage.unpackLearn_header fits.1 small
      cases header.symm.trans decoded
      exact here ▸ heard here.symm
  rcases (cluster.nodes mac).handlePaxos_learn answer
    (diligent.orderly.accountable.formed.joined mac member) type decoded with
    ⟨addressed, handled⟩ | ⟨ignored, result, idle⟩
  · rw [PaxosController.learnFrom_apply] at handled
    apply diligent.duty_quiet enabled
    · rw [ClusterEvent.handle_deliver, handled, Handler.andThen_pure]
      exact ⟨sentFrames_handed _, votes_handed _, rfl⟩
    · rw [ClusterEvent.handle_deliver, handled, Handler.andThen_pure]
      change ∀ entry ∈ List.filterMap Effect.numbered?
        (List.map Effect.handed _), _
      rw [numbered?_handed]
      exact List.forall_mem_nil _
    · apply brought
      intro here
      rw [nodes_step, if_pos rfl, ClusterEvent.handle_deliver, handled,
        Handler.andThen_pure]
      exact StoreOperation.hears_learn (diligent.upTo mac member) answer
  · apply diligent.duty_ignored enabled idle
    apply brought
    intro here
    exact absurd (.inl (here.trans mine.symm)) ignored

private theorem duty_client (diligent : cluster.Diligent N leader r arrived)
    (bounded : r ≤ UINT32_MAX)
    (enabled : Enabled N cluster ⟨mac, .deliver answer event⟩)
    (type : event.parsed.type = PaxosMessage.CLIENT) :
    cluster.Duty N leader r ⟨mac, .deliver answer event⟩ := by
  have member := enabled.1
  obtain ⟨mine, all, known⟩ := diligent.own member
  have current := diligent.rounds mac member
  have joined := diligent.orderly.accountable.formed.joined mac member
  have neither : ∀ state : Cluster, ∀ frame,
      ClusterAction.Brings ⟨mac, .deliver answer event⟩ frame →
        state.Handled r frame := by
    rintro state frame ⟨-, rfl⟩
    constructor
    · intro position small w same
      rw [same] at type
      have notClient : PaxosMessage.ACCEPT ≠ PaxosMessage.CLIENT := by decide
      exact absurd type notClient
    · intro position small same
      rw [same] at type
      have notClient : PaxosMessage.LEARN ≠ PaxosMessage.CLIENT := by decide
      exact absurd type notClient
  have isKnown : PaxosMessage.isKnownPaxosType event.parsed.type = true := by
    rw [type]
    decide
  rcases PaxosController.handlePaxos_cases answer (cluster.nodes mac) isKnown
    with ⟨-, handled⟩ | ⟨-, result, -, idle⟩
  · rw [type, PaxosController.dispatchPaxos_client joined] at handled
    rcases (cluster.nodes mac).onClient_asks answer event event.parsed.payload
      known (current.trans bounded) with
      ⟨quiet, unsent⟩ |
      ⟨last, v, isleader, present, small, inner, same, state, frames, votes,
        numbered⟩
    · apply diligent.duty_quiet enabled _ _ (neither _)
      · rw [ClusterEvent.handle_deliver, handled, Handler.andThen_pure]
        exact ⟨quiet.frames, quiet.votes, quiet.crnd⟩
      · rw [ClusterEvent.handle_deliver, handled, Handler.andThen_pure]
        exact unsent
    · obtain rfl :=
        diligent.orderly.accountable.formed.isleader mac member isleader
      have round := diligent.leads
      rw [round] at same frames
      obtain ⟨log, inOrder⟩ := diligent.orderly.inOrder mac member
      have decoded := PaxosMessage.unpackAccept_header bounded small v
      have nobody := PaxosController.addressed_none
        ((cluster.nodes mac).withClient last event.port)
      have ready := ((cluster.nodes mac).withClient last
        event.port).onAccept_reports answer decoded nobody known current
          inOrder (diligent.upTo mac member)
      rcases ready with reports | ⟨stored, -⟩
      · rw [← same] at reports
        have own : Reports (cluster.nodes mac) r last.nextSeqno.1 v inner :=
          ⟨reports.votes, reports.frames, reports.hears, reports.knows,
            reports.crnd⟩
        have sent : sentFrames ((ClusterEvent.deliver answer event).handle
            (cluster.nodes mac)).effects =
              ((cluster.nodes mac).others.map fun dst => Frame.accept
                (cluster.nodes mac).mac dst r last.nextSeqno.1 v) ++
                sentFrames inner.effects := by
          rw [ClusterEvent.handle_deliver, handled, Handler.andThen_pure]
          exact frames
        apply diligent.duty_reports enabled own _ sent
        · intro frame ask
          obtain ⟨dst, -, rfl⟩ := List.mem_map.mp ask
          refine ⟨mine, fun n position w carried => ?_⟩
          cases decoded.symm.trans carried
          rfl
        · intro position fits w given
          rw [ClusterEvent.handle_deliver, handled, Handler.andThen_pure]
            at given
          cases numbered _ given
          constructor
          · apply (voted_put ..).mpr
            right
            refine ⟨rfl, mem_votes.mp ?_⟩
            rw [ClusterEvent.handle_deliver, handled, Handler.andThen_pure]
            change _ ∈ SwitchPaxos.votes (PaxosController.onClient answer event
              event.parsed.payload (cluster.nodes mac)).effects
            rw [votes, reports.votes]
            exact List.mem_singleton_self _
          · intro dst isNode other
            rw [mine]
            apply List.mem_map_of_mem
            apply (PaxosController.mem_others _).mpr
            rw [mine, all]
            exact ⟨isNode, other⟩
        · exact fun _ => neither _
        · rw [ClusterEvent.handle_deliver, handled, Handler.andThen_pure]
          exact ⟨state, votes⟩
      · -- The number is new, so there is no vote for it yet.
        have backed := diligent.orderly.accountable.stores mac member
          last.nextSeqno.1
        rcases backed.ballot with empty | ⟨n, w, held, voted⟩
        · change ((cluster.nodes mac).state.slots.slotAt
            last.nextSeqno.1).ballot.1 = _ at stored
          rw [empty] at stored
          cases stored
        · have given := diligent.orderly.accountable.voted _ _ _ _ voted
          have below := diligent.orderly.accountable.given_lt present given
          exact absurd below (lt_irrefl _)
  · exact diligent.duty_ignored enabled idle (neither _)

end Deliver

theorem duty (diligent : cluster.Diligent N leader r arrived)
    (bounded : r ≤ UINT32_MAX) (enabled : Enabled N cluster action) :
    cluster.Duty N leader r action := by
  obtain ⟨mac, event⟩ := action
  cases event with
  | pump answer =>
      apply diligent.duty_quiet enabled
      · exact ⟨sentFrames_handed _, votes_handed _, rfl⟩
      · change ∀ entry ∈ List.filterMap Effect.numbered?
          (List.map Effect.handed _), _
        rw [numbered?_handed]
        exact List.forall_mem_nil _
      · rintro frame ⟨-, impossible⟩
        cases impossible
  | collect n =>
      apply diligent.duty_quiet enabled
      · exact ⟨rfl, rfl, rfl⟩
      · exact List.forall_mem_nil _
      · rintro frame ⟨-, impossible⟩
        cases impossible
  | deliver answer event =>
      rcases enabled.2 with client | sent
      · exact diligent.duty_client bounded enabled client
      · rcases diligent.sent_frame sent with
          ⟨seqno, v, accept, fits, numbered⟩ | ⟨seqno, v, learn, fits, -⟩
        · exact diligent.duty_accept enabled accept fits numbered
        · exact diligent.duty_learn enabled learn fits

theorem step (diligent : cluster.Diligent N leader r arrived)
    (bounded : r ≤ UINT32_MAX) (enabled : Enabled N cluster action) :
    (cluster.step action).Diligent N leader r
      fun frame => arrived frame ∨ action.Brings frame :=
  diligent.step_of_duty enabled (diligent.duty bounded enabled)

theorem fewer {arrived' : Frame → Prop}
    (diligent : cluster.Diligent N leader r arrived)
    (fewer : ∀ frame, arrived' frame → arrived frame) :
    cluster.Diligent N leader r arrived' :=
  { diligent with
    handled := fun frame arrives => diligent.handled frame
      (fewer frame arrives) }

end Diligent

end Cluster

end SwitchPaxos

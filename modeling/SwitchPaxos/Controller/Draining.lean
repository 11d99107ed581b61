import SwitchPaxos.Base.Load
import SwitchPaxos.Base.Reach
import SwitchPaxos.Controller.Majority
import SwitchPaxos.Controller.Numbering
import SwitchPaxos.Controller.Order

/-!
# Draining the channels

Over links that lose nothing, the nodes of a majority can always be led to
empty the channels between them: a request that arrives is answered by less
than it weighs, and a report by nothing.  What is left then is to pump.
-/

namespace SwitchPaxos

/-- A request weighs more than all reports of the vote that it asks for. -/
def Frame.weight (N : Finset EthAddr) (frame : Frame) : ℕ :=
  if frame.type = PaxosMessage.ACCEPT then N.card + 1 else 1

theorem Frame.sum_weight_learn (N : Finset EthAddr) (src : EthAddr)
    (n seqno : ℕ) (others : List EthAddr) :
    ((others.map fun dst => Frame.learn src dst n seqno).map
      (Frame.weight N)).sum = others.length := by
  have each : ∀ dst, (Frame.learn src dst n seqno).weight N = 1 := by
    intro dst
    have notAccept : PaxosMessage.LEARN ≠ PaxosMessage.ACCEPT := by decide
    exact if_neg notAccept
  simp [Function.comp_def, each]

theorem PaxosController.length_others_le (self : PaxosController) :
    self.others.length ≤ self.state.N.card := by
  have among : self.others.toFinset ⊆ self.state.N := by
    intro mac member
    exact ((self.mem_others).mp (List.mem_toFinset.mp member)).1
  rw [← List.toFinset_card_of_nodup self.others_nodup]
  exact Finset.card_le_card among

namespace Network

/-- The frame was sent and is not under way any more. -/
def Gone (network : Network) (frame : Frame) : Prop :=
  frame ∈ network.cluster.frames ∧
    frame ∉ network.channels frame.src frame.dst

/-- What is under way was sent by one node to another, and what is not under
way any more was handled. -/
structure Working (N : Finset EthAddr) (leader : EthAddr) (r : ℕ)
    (network : Network) : Prop where
  sent : network.Sent
  diligent : network.cluster.Diligent N leader r network.Gone

variable {N Q : Finset EthAddr} {leader : EthAddr} {r : ℕ}
  {network : Network} {action : ClusterAction}

theorem gone_step
    (duty : network.cluster.Duty N leader r action) {frame : Frame}
    (enabled : Enabled N network action)
    (gone : (network.step action).Gone frame) :
    network.Gone frame ∨ action.Brings frame := by
  obtain ⟨sent, absent⟩ := gone
  rw [InStep.channels_step, Channels.mem_send, not_or] at absent
  obtain ⟨taken, notSent⟩ := absent
  rw [frames_step, List.mem_append] at sent
  rcases sent with earlier | new
  · by_cases before : frame ∈ network.channels frame.src frame.dst
    · right
      obtain ⟨mac, event⟩ := action
      cases event with
      | pump answer => exact absurd before taken
      | collect n => exact absurd before taken
      | deliver answer event =>
          simp only [Network.taken] at taken
          split at taken
          · exact absurd before taken
          · next notClient =>
              by_cases here : frame.src = event.parsed.src ∧ frame.dst = mac
              · obtain ⟨src, dst⟩ := here
                have oldest := enabled.2.resolve_left notClient
                rw [src, dst, Channels.receive_self] at taken
                rw [src, dst] at before
                cases queue : network.channels event.parsed.src mac with
                | nil =>
                    rw [queue] at before
                    cases before
                | cons first rest =>
                    rw [queue] at oldest before taken
                    cases oldest
                    rcases List.mem_cons.mp before with same | later
                    · exact ⟨dst.symm, same.symm⟩
                    · exact absurd later taken
              · rw [Channels.receive_of_ne here] at taken
                exact absurd before taken
    · exact .inl ⟨earlier, before⟩
  · exact absurd ⟨duty.own frame new, new, rfl⟩ notSent

namespace Working

theorem step (working : network.Working N leader r) (bounded : r ≤ UINT32_MAX)
    (enabled : Enabled N network action) :
    (network.step action).Working N leader r := by
  have enabledThere := working.sent.enabled enabled
  have duty := working.diligent.duty bounded enabledThere
  refine ⟨working.sent.step duty.own, ?_⟩
  apply (working.diligent.step_of_duty enabledThere duty).fewer
  intro frame gone
  exact gone_step duty enabled gone

/-- What a frame from a channel makes its receiver send weighs less than the
frame. -/
theorem replies (working : network.Working N leader r) {answer : ℕ → Bool}
    {event : PacketIn} {mac : EthAddr} (member : mac ∈ N)
    (sent : event.parsed ∈ network.cluster.frames) :
    ((sentFrames ((ClusterEvent.deliver answer event).handle
      (network.cluster.nodes mac)).effects).map (Frame.weight N)).sum <
        event.parsed.weight N := by
  have accountable := working.diligent.orderly.accountable
  have joined := accountable.formed.joined mac member
  have all := accountable.formed.nodes mac member
  have own : (network.cluster.nodes mac).mac ∈
      (network.cluster.nodes mac).state.N := by
    rw [all, accountable.formed.mac mac member]
    exact member
  have size := (network.cluster.nodes mac).length_others_le
  rw [all] at size
  rw [ClusterEvent.handle_deliver, Handler.andThen_pure]
  rcases accountable.frames event.parsed sent with
    ⟨n, seqno, v, same, fits, -⟩ | ⟨n, seqno, v, same, fits, -⟩
  · have type : event.parsed.type = PaxosMessage.ACCEPT := by
      rw [same]
      rfl
    have decoded : PaxosMessage.unpackAccept event.parsed.payload =
        .ok (n, seqno, v) := by
      rw [same]
      exact PaxosMessage.unpackAccept_header fits.1 fits.2 v
    have heavy : event.parsed.weight N = N.card + 1 := if_pos type
    rw [heavy]
    rcases (network.cluster.nodes mac).handlePaxos_accept answer joined type
      decoded with ⟨addressed, handled⟩ | ⟨-, result, idle⟩
    · have casts := ((network.cluster.nodes mac).onAccept_casts answer decoded
        addressed own).1
      rw [handled]
      rcases casts.frames with none | reports
      · simp only [none, List.map_nil, List.sum_nil]
        omega
      · simp only [reports, Frame.sum_weight_learn]
        omega
    · rw [idle]
      simp only [sentFrames_nil, List.map_nil, List.sum_nil]
      omega
  · have type : event.parsed.type = PaxosMessage.LEARN := by
      rw [same]
      rfl
    have decoded : PaxosMessage.unpackLearn event.parsed.payload =
        .ok (n, seqno) := by
      rw [same]
      exact PaxosMessage.unpackLearn_header fits.1 fits.2
    have notAccept : ¬ event.parsed.type = PaxosMessage.ACCEPT := by
      rw [type]
      decide
    have light : event.parsed.weight N = 1 := if_neg notAccept
    rw [light]
    rcases (network.cluster.nodes mac).handlePaxos_learn answer joined type
      decoded with ⟨-, handled⟩ | ⟨-, result, idle⟩
    · rw [handled, PaxosController.learnFrom_apply]
      simp only [sentFrames_handed, List.map_nil, List.sum_nil]
      omega
    · rw [idle]
      simp only [sentFrames_nil, List.map_nil, List.sum_nil]
      omega

end Working

/-- A node of the set does something, and it is not that a client packet
arrives. -/
def Inside (Q : Finset EthAddr) (action : ClusterAction) : Prop :=
  action.mac ∈ Q ∧ ∀ answer event, action.event = .deliver answer event →
    event.parsed.type ≠ PaxosMessage.CLIENT

/-- Nothing is under way between nodes of the set. -/
def Drained (Q : Finset EthAddr) (network : Network) : Prop :=
  ∀ src ∈ Q, ∀ dst ∈ Q, network.channels src dst = []

namespace Working

/-- As long as something is under way, its receiver can be led to handle it,
and less is under way then. -/
theorem exists_lighter (working : network.Working N leader r)
    (subset : Q ⊆ N) (busy : ¬ network.Drained Q) :
    ∃ action, Enabled N network action ∧ Inside Q action ∧
      (network.step action).channels.load (Frame.weight N) Q <
        network.channels.load (Frame.weight N) Q := by
  simp only [Drained, not_forall] at busy
  obtain ⟨src, sender, dst, receiver, waiting⟩ := busy
  obtain ⟨frame, oldest⟩ : ∃ frame,
      (network.channels src dst).head? = some frame := by
    cases queue : network.channels src dst with
    | nil => exact absurd queue waiting
    | cons frame rest => exact ⟨frame, rfl⟩
  obtain ⟨sent, sentBy, -⟩ :=
    working.sent src dst frame (List.mem_of_head? oldest)
  have notClient : frame.type ≠ PaxosMessage.CLIENT := by
    have noAccept : PaxosMessage.ACCEPT ≠ PaxosMessage.CLIENT := by decide
    have noLearn : PaxosMessage.LEARN ≠ PaxosMessage.CLIENT := by decide
    rcases working.diligent.orderly.accountable.frames frame sent with
      ⟨n, seqno, v, same, -⟩ | ⟨n, seqno, v, same, -⟩
    · rw [same]
      exact noAccept
    · rw [same]
      exact noLearn
  refine ⟨⟨dst, .deliver (fun _ => true) (frame.upcall 0)⟩,
    ⟨subset receiver, .inr ?_⟩, ⟨receiver, ?_⟩, ?_⟩
  · change (network.channels frame.src dst).head? = some frame
    rw [sentBy]
    exact oldest
  · rintro answer event same
    cases same
    exact notClient
  · have taken : network.taken
        ⟨dst, .deliver (fun _ => true) (frame.upcall 0)⟩ =
          network.channels.receive src dst := by
      rw [← sentBy]
      exact if_neg notClient
    have lighter : (network.channels.receive src dst).load (Frame.weight N) Q +
        frame.weight N = network.channels.load (Frame.weight N) Q :=
      Channels.load_receive sender receiver oldest
    rw [InStep.channels_step, taken]
    refine (Channels.load_send_le _ _).trans_lt ?_
    rw [← lighter]
    apply Nat.add_lt_add_left
    exact working.replies (subset receiver) sent

/-- The channels inside a set of nodes can be emptied. -/
theorem leads_to_drained (working : network.Working N leader r)
    (bounded : r ≤ UINT32_MAX) (subset : Q ⊆ N) :
    ∃ finish, (system N).Leads (Inside Q) network finish ∧
      finish.Drained Q :=
  System.Leads.of_decreasing
    (fun state : Network => state.channels.load (Frame.weight N) Q)
    (fun _ _ working enabled => Working.step working bounded enabled)
    (fun _ working busy => Working.exists_lighter working subset busy)
    working

end Working

end Network

/-- A pump that is never refused goes on to the first slot that is not
learned. -/
theorem Slots.InOrder.halts {slots : Slots} {log : List Handed}
    (inOrder : slots.InOrder log) (n : ℕ) :
    let pumped := (Slots.processQueue (fun _ => true) n slots).state
    ∀ slot, pumped.at? pumped.cseq = some slot → slot.learned = false := by
  intro pumped slot found
  have accepted : ∀ call ∈ (Slots.processQueue (fun _ => true) n slots).effects,
      call.answer = true := by
    apply Slots.processQueue_induction (fun _ calls => ∀ call ∈ calls,
      call.answer = true) _ _ [] (List.forall_mem_nil _)
    · intro reached calls head before _ _ call member
      rcases List.mem_append.mp member with earlier | last
      · exact before call earlier
      · rw [List.mem_singleton.mp last]
        rfl
    · intro reached calls head _ _ refused
      cases refused
  have completes : ¬ (Slots.processQueue (fun _ => true) n slots).Raised := by
    rintro ⟨failure, raised⟩
    rw [inOrder.completes] at raised
    cases raised
  by_contra learned
  rw [Bool.not_eq_false] at learned
  obtain ⟨call, last, -, refused⟩ :=
    Slots.processQueue_stopped completes slot found learned
  rw [accepted call (List.mem_of_getLast? last)] at refused
  cases refused

namespace Network

variable {N Q : Finset EthAddr} {leader : EthAddr} {r : ℕ}
  {network : Network} {action : ClusterAction}

/-- The nodes are in step and do their duty, and no number is missing. -/
structure Steady (N : Finset EthAddr) (leader : EthAddr) (r : ℕ)
    (network : Network) : Prop where
  inStep : network.InStep N leader
  working : network.Working N leader r
  inLine : network.cluster.InLine leader

namespace Steady

theorem step (steady : network.Steady N leader r) (three : N.card = 3)
    (leads : leader ∈ N) (bounded : r ≤ UINT32_MAX)
    (enabled : Enabled N network action)
    (serves : network.cluster.Serves leader action) :
    (network.step action).Steady N leader r where
  inStep := steady.inStep.step three leads enabled
  working := steady.working.step bounded enabled
  inLine := steady.inLine.step steady.inStep.accountable
    (steady.working.sent.enabled enabled) serves

theorem serves_of_inside (inside : Inside Q action) :
    network.cluster.Serves leader action := by
  obtain ⟨mac, event⟩ := action
  cases event with
  | pump answer => trivial
  | collect n => trivial
  | deliver answer event =>
      intro _ client
      exact absurd client (inside.2 answer event rfl)

theorem numbers_of_inside (steady : network.Steady N leader r)
    (enabled : Enabled N network action) (inside : Inside Q action) :
    numbers (network.step action).cluster.log =
      numbers network.cluster.log := by
  have enabledThere := steady.working.sent.enabled enabled
  have accountable := steady.inStep.accountable
  have numbered : numbers (network.step action).cluster.log =
      numbers network.cluster.log ++ (action.event.handle
        (network.cluster.nodes action.mac)).effects.filterMap
          Effect.numbered? := Cluster.numbers_put ..
  rcases action.event.takes _ (accountable.formed.joined _ enabled.1)
    (accountable.known enabledThere)
    (fun answer event same client _ =>
      absurd client (inside.2 answer event same)) with
    ⟨-, none⟩ | ⟨⟨answer, event, same, client⟩, -⟩
  · rw [numbered, none, List.append_nil]
  · exact absurd client (inside.2 answer event same)

/-- A node whose queue is at a slot that is not learned has processed
everything, where all that was sent inside the majority has arrived. -/
theorem processed_of_halted (steady : network.Steady N leader r)
    (few : network.cluster.packets.length ≤ UINT32_MAX + 1) (subset : Q ⊆ N)
    (leads : leader ∈ Q) (majority : 1 + N.card / 2 ≤ Q.card)
    (drained : network.Drained Q) {mac : EthAddr} (member : mac ∈ Q)
    (halted : ∀ slot, (network.cluster.nodes mac).state.slots.at?
        (network.cluster.nodes mac).state.slots.cseq = some slot →
      slot.learned = false) :
    network.cluster.processed mac = network.cluster.packets.map some := by
  have before := steady.inStep.processed_packets (subset member)
  have inOrder := steady.inStep.inOrder mac (subset member)
  have position : (network.cluster.processed mac).length =
      (network.cluster.nodes mac).state.slots.cseq := by
    have passed := congrArg List.length inOrder.answered
    rw [List.length_range] at passed
    rw [← passed]
    simp [Cluster.processed, processedSeqnos]
  apply before.eq_of_length_le
  rw [List.length_map, position]
  by_contra short
  have small : (network.cluster.nodes mac).state.slots.cseq <
      (numbers network.cluster.log).length := by
    simpa [Cluster.packets] using short
  obtain ⟨v, given⟩ : ∃ v,
      ((network.cluster.nodes mac).state.slots.cseq, v) ∈
        numbers network.cluster.log := by
    have among : (network.cluster.nodes mac).state.slots.cseq ∈
        (numbers network.cluster.log).map Prod.fst := by
      rw [steady.inLine.keys]
      exact List.mem_range.mpr small
    obtain ⟨entry, given, same⟩ := List.mem_map.mp among
    exact ⟨entry.2, same ▸ given⟩
  have fits : (network.cluster.nodes mac).state.slots.cseq ≤ UINT32_MAX := by
    have bound : (numbers network.cluster.log).length ≤ UINT32_MAX + 1 := by
      simpa [Cluster.packets] using few
    omega
  have arrived : ∀ frame ∈ network.cluster.frames, frame.src ∈ Q →
      frame.dst ∈ Q → network.Gone frame := by
    intro frame sent src dst
    refine ⟨sent, ?_⟩
    rw [drained _ src _ dst]
    exact List.not_mem_nil
  rcases steady.working.diligent.learned subset leads majority arrived fits
    given member with behind | ⟨slot, found, learned, -⟩
  · exact absurd behind (lt_irrefl _)
  · rw [halted slot found] at learned
    cases learned

/-- A pump that is never refused. -/
def pumped (mac : EthAddr) : ClusterAction := ⟨mac, .pump fun _ => true⟩

theorem drained_pumped {mac : EthAddr} (drained : network.Drained Q) :
    (network.step (pumped mac)).Drained Q := by
  have silent : sentFrames ((pumped mac).event.handle
      (network.cluster.nodes mac)).effects = [] := sentFrames_handed _
  intro src sender dst receiver
  rw [InStep.channels_step]
  change Channels.send _ _ (sentFrames ((pumped mac).event.handle
    (network.cluster.nodes mac)).effects) network.channels src dst = []
  rw [silent, Channels.send_nil]
  exact drained src sender dst receiver

theorem processed_pumped (steady : network.Steady N leader r)
    (next : (network.step (pumped mac)).Steady N leader r)
    (few : network.cluster.packets.length ≤ UINT32_MAX + 1) (subset : Q ⊆ N)
    (leads : leader ∈ Q) (majority : 1 + N.card / 2 ≤ Q.card)
    (drained : network.Drained Q) (member : mac ∈ Q)
    (same : (network.step (pumped mac)).cluster.packets =
      network.cluster.packets) :
    (network.step (pumped mac)).cluster.processed mac =
      network.cluster.packets.map some := by
  rw [← same] at few ⊢
  apply next.processed_of_halted few subset leads majority
    (drained_pumped drained) member
  have inOrder := steady.inStep.inOrder mac (subset member)
  have after : (network.step (pumped mac)).cluster.nodes mac =
      (PaxosController.pump (fun _ => true)
        (network.cluster.nodes mac)).state := by
    rw [InStep.nodes_step]
    exact if_pos rfl
  rw [after]
  exact inOrder.halts _

theorem processed_pumped_of_ne {mac other : EthAddr} (different : other ≠ mac) :
    (network.step (pumped mac)).cluster.processed other =
      network.cluster.processed other := by
  have untouched : (network.step (pumped mac)).cluster.logOf other =
      network.cluster.logOf other := by
    have log := network.cluster.logOf_put mac other
      ((pumped mac).event.handle (network.cluster.nodes mac)).state
      ((pumped mac).event.handle (network.cluster.nodes mac)).effects
    rw [if_neg different, List.append_nil] at log
    exact log
  rw [Cluster.processed, untouched, Cluster.processed]

/-- From a steady state a majority can be led to process everything. -/
theorem leads_to_processed (steady : network.Steady N leader r)
    (three : N.card = 3) (bounded : r ≤ UINT32_MAX)
    (few : network.cluster.packets.length ≤ UINT32_MAX + 1) (subset : Q ⊆ N)
    (leads : leader ∈ Q) (majority : 1 + N.card / 2 ≤ Q.card) :
    ∃ finish, (system N).Leads (Inside Q) network finish ∧
      ∀ mac ∈ Q, finish.cluster.processed mac =
        network.cluster.packets.map some := by
  let Kept := fun state : Network => state.Steady N leader r ∧
    state.cluster.packets = network.cluster.packets
  have kept : ∀ state action, Kept state → Enabled N state action →
      Inside Q action → Kept (state.step action) := by
    rintro state action ⟨steady, same⟩ enabled inside
    refine ⟨steady.step three (subset leads) bounded enabled
      (serves_of_inside inside), ?_⟩
    rw [← same, Cluster.packets, steady.numbers_of_inside enabled inside,
      Cluster.packets]
  have enabled : ∀ state mac, mac ∈ Q → Enabled N state (pumped mac) :=
    fun state mac member => ⟨subset member, trivial⟩
  have inside : ∀ mac, mac ∈ Q → Inside Q (pumped mac) := by
    intro mac member
    refine ⟨member, ?_⟩
    rintro answer event impossible
    cases impossible
  obtain ⟨idle, led, drained⟩ :=
    steady.working.leads_to_drained bounded subset
  have start : Kept idle := led.invariant kept ⟨steady, rfl⟩
  let Done := fun (pumped : List EthAddr) (state : Network) => Kept state ∧
    state.Drained Q ∧ ∀ mac ∈ pumped, state.cluster.processed mac =
      network.cluster.packets.map some
  -- One node after the other is pumped.
  have each : ∀ earlier mac rest state, Q.toList = earlier ++ mac :: rest →
      Done earlier state →
      ∃ later, (system N).Leads (Inside Q) state later ∧
        Done (earlier ++ [mac]) later := by
    rintro earlier mac rest state split ⟨⟨steady, same⟩, drained, processed⟩
    have member : mac ∈ Q := by
      rw [← Finset.mem_toList, split]
      simp
    have next := kept state _ ⟨steady, same⟩ (enabled state mac member)
      (inside mac member)
    refine ⟨_, .single (enabled state mac member) (inside mac member), next,
      drained_pumped drained, ?_⟩
    intro other among
    by_cases here : other = mac
    · subst here
      rw [← same]
      exact processed_pumped steady next.1 (same ▸ few) subset leads majority
        drained member (next.2.trans same.symm)
    · refine (processed_pumped_of_ne here).trans ?_
      rcases List.mem_append.mp among with before | last
      · exact processed other before
      · exact absurd (List.mem_singleton.mp last) here
  obtain ⟨finish, further, -, -, processed⟩ :=
    System.Leads.forEach Done Q.toList each
      ⟨start, drained, List.forall_mem_nil _⟩
  refine ⟨finish, led.trans further, fun mac member => ?_⟩
  exact processed mac (Finset.mem_toList.mpr member)

end Steady

theorem Starts.steady (starts : network.Starts N leader)
    (fresh : (network.cluster.nodes leader).leader =
      some { seqno := none }) :
    network.Steady N leader (network.cluster.nodes leader).state.crnd where
  inStep := starts.inStep
  working := by
    refine ⟨starts.inStep.sent, ?_⟩
    apply (starts.cluster.diligent starts.rounds).fewer
    rintro frame ⟨sent, -⟩
    rw [Cluster.frames, starts.cluster.log] at sent
    cases sent
  inLine := by
    constructor
    · rw [starts.cluster.log]
      rfl
    · rw [starts.cluster.log]
      exact fresh

/-- Three nodes over links that lose nothing: whatever happened so far, and if
the third node does nothing any more, the leader and one other node can be led
to process all client packets that the leader numbered, in order. -/
theorem majority_processes (three : N.card = 3)
    (starts : network.Starts N leader)
    (fresh : (network.cluster.nodes leader).leader = some { seqno := none })
    (bounded : (network.cluster.nodes leader).state.crnd ≤ UINT32_MAX)
    {actions : List ClusterAction} (run : (system N).Run network actions)
    (served : (system N).Each
      (fun state action => state.cluster.Serves leader action) network actions)
    (few : ((system N).after network actions).cluster.packets.length ≤
      UINT32_MAX + 1)
    (subset : Q ⊆ N) (leads : leader ∈ Q) (majority : 2 ≤ Q.card) :
    let reached := (system N).after network actions
    ∃ later, (system N).Run reached later ∧
      (∀ action ∈ later, Inside Q action) ∧
      ∀ mac ∈ Q, ((system N).after reached later).cluster.processed mac =
        reached.cluster.packets.map some := by
  intro reached
  have steady : reached.Steady N leader
      (network.cluster.nodes leader).state.crnd :=
    run.property_of_each _ served (fun _ _ (_ : True) _ => trivial)
      (fun _ _ _ enabled serves steady =>
        Steady.step steady three starts.member bounded enabled serves)
      trivial (starts.steady fresh)
  have quorum : 1 + N.card / 2 ≤ Q.card := by
    rw [three]
    exact majority
  obtain ⟨_, ⟨later, further, inside, rfl⟩, processed⟩ :=
    steady.leads_to_processed three bounded few subset leads quorum
  exact ⟨later, further, inside, processed⟩

instance (leader : EthAddr) (cluster : Cluster) :
    (action : ClusterAction) → Decidable (cluster.Serves leader action)
  | ⟨mac, .deliver _ event⟩ => inferInstanceAs (Decidable (mac = leader →
      event.parsed.type = PaxosMessage.CLIENT →
        8 ≤ event.parsed.payload.length))
  | ⟨_, .pump _⟩ => inferInstanceAs (Decidable True)
  | ⟨_, .collect _⟩ => inferInstanceAs (Decidable True)

/-- The first and the second node process two packets of which the third node
never hears. -/
theorem majority_processes_two :
    let reached := (system {1, 2, 3}).after three
      [⟨1, .deliver (fun _ => false) ((Frame.client 9 1 [7]).upcall 1)⟩,
        ⟨1, .deliver (fun _ => false) ((Frame.client 9 1 [8]).upcall 1)⟩]
    ∃ later, (system {1, 2, 3}).Run reached later ∧
      (∀ action ∈ later, Inside {1, 2} action) ∧
      ∀ mac ∈ ({1, 2} : Finset EthAddr),
        ((system {1, 2, 3}).after reached later).cluster.processed mac =
          [some [7], some [8]] := by
  intro reached
  have run : (system {1, 2, 3}).Run three
      [⟨1, .deliver (fun _ => false) ((Frame.client 9 1 [7]).upcall 1)⟩,
        ⟨1, .deliver (fun _ => false) ((Frame.client 9 1 [8]).upcall 1)⟩] := by
    decide
  have served : (system {1, 2, 3}).Each
      (fun state action => state.cluster.Serves 1 action) three
      [⟨1, .deliver (fun _ => false) ((Frame.client 9 1 [7]).upcall 1)⟩,
        ⟨1, .deliver (fun _ => false) ((Frame.client 9 1 [8]).upcall 1)⟩] := by
    decide
  have packets : reached.cluster.packets = [[7], [8]] := by decide
  have few : reached.cluster.packets.length ≤ UINT32_MAX + 1 := by
    rw [packets]
    decide
  have subset : ({1, 2} : Finset EthAddr) ⊆ {1, 2, 3} := by decide
  obtain ⟨later, further, inside, processed⟩ := majority_processes (by decide)
    three_starts rfl (by decide) run served few subset (by decide) (by decide)
  refine ⟨later, further, inside, fun mac member => ?_⟩
  rw [processed mac member, packets]
  rfl

end Network

end SwitchPaxos

import SwitchPaxos.Switch.Learning

/-!
# Learning addresses next to flows

`_handle_PacketIn` learns the port and the IP address of a sender from the
frames the switch hands up.  A flow forwards frames that the controller does
not get to see, and the flows of a pair of addresses are installed as soon as
both ports are known: frames that are no IP packets are enough for that.
-/

namespace SwitchPaxos

namespace BaselineController

variable (self : BaselineController) (event : PacketIn)

theorem macip_learnPort (mac : EthAddr) (port : Port) :
    (self.learnPort mac port).macip = self.macip := by
  unfold learnPort; split <;> rfl

@[simp] theorem learnIpAddresses_learnSender :
    (self.learnSender event).learnIpAddresses = self.learnIpAddresses := by
  unfold learnSender learnIp learnPort
  dsimp only
  split <;> split <;> (try split) <;> rfl

theorem mem_macip_learnIp (mac other : EthAddr) (ip : IPAddr) :
    other ∈ (self.learnIp mac ip).macip ↔ other ∈ self.macip ∨ mac = other := by
  unfold learnIp
  split
  · next known =>
      constructor
      · exact .inl
      · rintro (earlier | rfl)
        · exact earlier
        · exact known
  · rw [AList.mem_insert, or_comm, eq_comm]

theorem mem_macip_learnSender (learns : self.learnIpAddresses = true)
    (mac : EthAddr) :
    mac ∈ (self.learnSender event).macip ↔
      mac ∈ self.macip ∨ (event.srcip ≠ none ∧ event.parsed.src = mac) := by
  have flag : (self.learnPort event.parsed.src
      event.port).learnIpAddresses = true := by
    rw [← learns, learnPort]
    split <;> rfl
  unfold learnSender
  dsimp only
  rw [flag]
  cases address : event.srcip with
  | none => simp [macip_learnPort]
  | some ip =>
      simp only [mem_macip_learnIp, macip_learnPort]
      simp

end BaselineController

namespace LearningSwitch

/-- Frames cross the switch, by a flow that matches or by an upcall where none
does, and the connection to the controller stays. -/
def Crosses (switch : LearningSwitch) : LearningEvent → Prop
  | .matched event flow =>
      flow ∈ switch.table ∧ flow.Matches event.parsed
  | .upcall event => ¬ switch.table.Handles event.parsed
  | .connectionDown _ => False
  | _ => True

instance (switch : LearningSwitch) :
    (event : LearningEvent) → Decidable (Crosses switch event)
  | .matched event flow => inferInstanceAs
      (Decidable (flow ∈ switch.table ∧ flow.Matches event.parsed))
  | .upcall event => inferInstanceAs
      (Decidable (¬ switch.table.Handles event.parsed))
  | .handle => inferInstanceAs (Decidable True)
  | .expire _ => inferInstanceAs (Decidable True)
  | .connectionDown _ => inferInstanceAs (Decidable False)

def traffic : System LearningSwitch LearningEvent :=
  { Enabled := Crosses
    step := step }

instance (switch : LearningSwitch) (events : List LearningEvent) :
    Decidable (traffic.Run switch events) :=
  inferInstanceAs (Decidable (System.Each traffic Crosses switch events))

/-- The sender of each IP packet that crossed the switch is in `macip`, and in
`macports` with a port it sent from. -/
def AddressesKnown (switch : LearningSwitch) : Prop :=
  ∀ entry ∈ switch.forwarded, entry.1.srcip ≠ none →
    entry.1.parsed.src ∈ switch.controller.macip ∧
      ∃ other ∈ switch.forwarded, other.1.parsed.src = entry.1.parsed.src ∧
        switch.controller.macports.lookup entry.1.parsed.src =
          some other.1.port

/-- The frame that the controller handles with an event. -/
def handled? (switch : LearningSwitch) : LearningEvent → Option PacketIn
  | .handle => switch.pending.head?
  | _ => none

/-- The frames that the controller handles over events, in their order. -/
def handled (switch : LearningSwitch) : List LearningEvent → List PacketIn
  | [] => []
  | event :: events =>
      (switch.handled? event).toList ++ (switch.step event).handled events

/-- An IP packet of the sender of a frame. -/
def Introduces (event other : PacketIn) : Prop :=
  other.srcip ≠ none ∧ other.parsed.src = event.parsed.src

instance (event other : PacketIn) : Decidable (Introduces event other) :=
  inferInstanceAs (Decidable (_ ∧ _))

theorem append_handled? (frames : List PacketIn) (switch : LearningSwitch)
    {event : LearningEvent} (other : event ≠ .handle) :
    frames ++ (switch.handled? event).toList = frames := by
  rw [handled?, Option.toList_none, List.append_nil]
  exact other

theorem handled_append (switch : LearningSwitch)
    (first second : List LearningEvent) :
    switch.handled (first ++ second) =
      switch.handled first ++ (traffic.after switch first).handled second := by
  induction first generalizing switch with
  | nil => rfl
  | cons event first induction =>
      rw [List.cons_append, handled, handled, induction, List.append_assoc]
      rfl

theorem handled_snoc (switch : LearningSwitch) (events : List LearningEvent)
    (event : LearningEvent) :
    switch.handled (events ++ [event]) = switch.handled events ++
      ((traffic.after switch events).handled? event).toList := by
  rw [handled_append, handled, handled, List.append_nil]

instance (switch : LearningSwitch) : Decidable switch.AddressesKnown :=
  inferInstanceAs (Decidable (∀ entry ∈ switch.forwarded,
    entry.1.srcip ≠ none → entry.1.parsed.src ∈ switch.controller.macip ∧
      ∃ other ∈ switch.forwarded, other.1.parsed.src = entry.1.parsed.src ∧
        switch.controller.macports.lookup entry.1.parsed.src =
          some other.1.port))

/-- The controller knows what the frames it handled say. -/
structure Learns (handled : List PacketIn) (switch : LearningSwitch) :
    Prop where
  learnIpAddresses : switch.controller.learnIpAddresses = true
  macip : ∀ mac, mac ∈ switch.controller.macip ↔
    ∃ event ∈ handled, event.srcip ≠ none ∧ event.parsed.src = mac
  macports : ∀ event ∈ handled, ∃ port,
    switch.controller.macports.lookup event.parsed.src = some port
  ports : ∀ mac port, switch.controller.macports.lookup mac = some port →
    ∃ event ∈ handled, event.parsed.src = mac ∧ event.port = port
  forwarded : ∀ event ∈ handled, ∃ entry ∈ switch.forwarded, entry.1 = event

namespace Learns

variable {switch : LearningSwitch} {frames : List PacketIn}

theorem congr (learns : switch.Learns frames) {later : LearningSwitch}
    (same : later.controller = switch.controller)
    (more : switch.forwarded ⊆ later.forwarded) : later.Learns frames := by
  refine ⟨?_, ?_, ?_, ?_, ?_⟩
  · rw [same]; exact learns.learnIpAddresses
  · rw [same]; exact learns.macip
  · rw [same]; exact learns.macports
  · rw [same]; exact learns.ports
  · intro event member
    obtain ⟨entry, earlier, frame⟩ := learns.forwarded event member
    exact ⟨entry, more earlier, frame⟩

theorem handle (learns : switch.Learns frames) {event : PacketIn}
    {pending : List PacketIn} (queue : switch.pending = event :: pending) :
    (switch.step .handle).Learns (frames ++ [event]) := by
  rw [step, queue]
  simp only [run, BaselineController.handlePacketIn_apply]
  refine ⟨?_, ?_, ?_, ?_, ?_⟩
  · rw [BaselineController.learnIpAddresses_learnSender]
    exact learns.learnIpAddresses
  · intro mac
    rw [BaselineController.mem_macip_learnSender _ _ learns.learnIpAddresses,
      learns.macip]
    simp [or_and_right, exists_or]
  · intro other member
    rw [BaselineController.macports_learnSender,
      BaselineController.lookup_learnPort]
    rcases List.mem_append.mp member with earlier | here
    · split
      · exact ⟨_, rfl⟩
      · exact learns.macports other earlier
    · rw [List.mem_singleton.mp here, if_pos rfl]
      exact ⟨_, rfl⟩
  · intro mac port lookup
    rw [BaselineController.macports_learnSender,
      BaselineController.lookup_learnPort] at lookup
    by_cases same : mac = event.parsed.src
    · rw [if_pos same] at lookup
      cases known : switch.controller.macports.lookup event.parsed.src with
      | none =>
          rw [known] at lookup
          exact ⟨event, by simp, same.symm, Option.some.inj lookup⟩
      | some found =>
          rw [known] at lookup
          obtain ⟨other, member, src, sent⟩ := learns.ports _ _ known
          exact ⟨other, List.mem_append_left _ member, src.trans same.symm,
            sent.trans (Option.some.inj lookup)⟩
    · rw [if_neg same] at lookup
      obtain ⟨other, member, sent⟩ := learns.ports _ _ lookup
      exact ⟨other, List.mem_append_left _ member, sent⟩
  · intro other member
    rcases List.mem_append.mp member with earlier | here
    · obtain ⟨entry, before, frame⟩ := learns.forwarded other earlier
      exact ⟨entry, List.mem_append_left _ before, frame⟩
    · exact ⟨_, List.mem_append_right _ List.mem_cons_self,
        (List.mem_singleton.mp here).symm⟩

theorem step (learns : switch.Learns frames) {event : LearningEvent}
    (crosses : switch.Crosses event) :
    (switch.step event).Learns
      (frames ++ (switch.handled? event).toList) := by
  cases event with
  | matched event flow =>
      rw [append_handled? frames switch LearningEvent.noConfusion]
      exact learns.congr rfl (List.subset_append_left _ _)
  | upcall event =>
      rw [append_handled? frames switch LearningEvent.noConfusion]
      exact learns.congr rfl (List.Subset.refl _)
  | handle =>
      rcases queue : switch.pending with _ | ⟨event, pending⟩
      · rw [LearningSwitch.step, handled?, queue]
        simpa using learns
      · rw [handled?, queue]
        exact learns.handle queue
  | expire flow =>
      rw [append_handled? frames switch LearningEvent.noConfusion]
      exact learns.congr rfl (List.Subset.refl _)
  | connectionDown arrives => exact crosses.elim

/-- The senders of IP packets are known if IP packets of theirs were handled.
-/
theorem addressesKnown_iff (learns : switch.Learns frames) :
    switch.AddressesKnown ↔
      ∀ entry ∈ switch.forwarded, entry.1.srcip ≠ none →
        ∃ other ∈ frames, Introduces entry.1 other := by
  constructor
  · intro known entry member packet
    exact (learns.macip _).mp (known entry member packet).1
  · intro introduced entry member packet
    obtain ⟨other, among, ip, src⟩ := introduced entry member packet
    refine ⟨(learns.macip _).mpr ⟨other, among, ip, src⟩, ?_⟩
    obtain ⟨port, lookup⟩ := learns.macports other among
    rw [src] at lookup
    obtain ⟨sent, sentAmong, sender, sentPort⟩ := learns.ports _ _ lookup
    obtain ⟨line, before, frame⟩ := learns.forwarded sent sentAmong
    refine ⟨line, before, ?_, ?_⟩
    · rw [frame, sender]
    · rw [lookup, frame, sentPort]

end Learns

theorem started_learns (addFlows clearFlowsOnStartup : Bool) :
    (started addFlows true clearFlowsOnStartup).Learns [] := by
  have fresh : (started addFlows true clearFlowsOnStartup).controller =
      BaselineController.new addFlows true := by
    cases addFlows <;> cases clearFlowsOnStartup <;> rfl
  refine ⟨?_, ?_, ?_, ?_, ?_⟩
  · rw [fresh]; rfl
  · intro mac
    rw [fresh]
    simp [BaselineController.new]
  · intro event member
    cases member
  · intro mac port lookup
    rw [fresh] at lookup
    cases lookup
  · intro event member
    cases member

theorem learns_after {switch : LearningSwitch} {events : List LearningEvent}
    (learns : switch.Learns []) (run : traffic.Run switch events) :
    (traffic.after switch events).Learns (switch.handled events) := by
  induction events using List.reverseRecOn with
  | nil => exact learns
  | append_singleton events event induction =>
      obtain ⟨earlier, crosses⟩ := System.each_snoc.mp run
      rw [System.after_append, handled_snoc]
      exact (induction earlier).step crosses

/-- One more event: the addresses stay known unless a flow takes an IP packet
of a sender that the controller has not heard of. -/
theorem addressesKnown_step {switch : LearningSwitch}
    {frames : List PacketIn} (learns : switch.Learns frames)
    {event : LearningEvent} (crosses : switch.Crosses event)
    (known : switch.AddressesKnown) :
    (switch.step event).AddressesKnown ↔
      ∀ packet flow, event = .matched packet flow → packet.srcip ≠ none →
        ∃ other ∈ frames, Introduces packet other := by
  have before := learns.addressesKnown_iff.mp known
  rw [(learns.step crosses).addressesKnown_iff]
  cases event with
  | matched packet flow =>
      rw [append_handled? frames switch LearningEvent.noConfusion]
      constructor
      · rintro introduced _ _ ⟨⟩ ip
        exact introduced (packet, [(packet.parsed, flow.port)])
          (List.mem_append_right _ List.mem_cons_self) ip
      · intro introduced entry member ip
        rcases List.mem_append.mp member with earlier | here
        · exact before entry earlier ip
        · obtain rfl := List.mem_singleton.mp here
          exact introduced packet flow rfl ip
  | upcall packet =>
      rw [append_handled? frames switch LearningEvent.noConfusion]
      exact ⟨fun _ _ _ other => LearningEvent.noConfusion other,
        fun _ => before⟩
  | handle =>
      refine ⟨fun _ _ _ other => LearningEvent.noConfusion other,
        fun _ => ?_⟩
      rcases queue : switch.pending with _ | ⟨packet, pending⟩
      · rw [step, handled?, queue]
        simpa using before
      · intro entry member ip
        simp only [handled?, queue, List.head?_cons, Option.toList_some]
        simp only [step, queue, run] at member
        rcases List.mem_append.mp member with earlier | here
        · obtain ⟨other, among, introduces⟩ := before entry earlier ip
          exact ⟨other, List.mem_append_left _ among, introduces⟩
        · obtain rfl := List.mem_singleton.mp here
          exact ⟨packet, List.mem_append_right _ List.mem_cons_self, ip, rfl⟩
  | expire flow =>
      rw [append_handled? frames switch LearningEvent.noConfusion]
      exact ⟨fun _ _ _ other => LearningEvent.noConfusion other,
        fun _ => before⟩
  | connectionDown arrives => exact crosses.elim

/-- The senders of the IP packets that crossed the switch are known in every
state of a run exactly if each IP packet that a flow takes comes after one of
the same sender that the controller handled. -/
theorem addressesKnown_after_iff (addFlows clearFlowsOnStartup : Bool)
    {events : List LearningEvent}
    (run : traffic.Run (started addFlows true clearFlowsOnStartup) events) :
    (∀ before, before <+: events →
      (traffic.after (started addFlows true clearFlowsOnStartup)
        before).AddressesKnown) ↔
    ∀ before packet flow, before ++ [.matched packet flow] <+: events →
      packet.srcip ≠ none →
        ∃ other ∈ (started addFlows true clearFlowsOnStartup).handled before,
          Introduces packet other := by
  have learns := started_learns addFlows clearFlowsOnStartup
  induction events using List.reverseRecOn with
  | nil =>
      constructor
      · intro _ before packet flow within
        simp at within
      · intro _ before within
        rw [List.prefix_nil.mp within]
        intro entry member
        cases addFlows <;> cases clearFlowsOnStartup <;> cases member
  | append_singleton events event induction =>
      obtain ⟨earlier, crosses⟩ := System.each_snoc.mp run
      have last := addressesKnown_step (learns_after learns earlier) crosses
      constructor
      · intro known prior packet flow within ip
        have knownBefore : ∀ prior, prior <+: events → _ := fun prior within =>
          known prior (within.trans (List.prefix_append _ _))
        rcases List.prefix_concat_iff.mp within with whole | within
        · obtain ⟨rfl, here⟩ := List.append_inj' whole rfl
          have reached := known _ (List.prefix_refl _)
          rw [System.after_append] at reached
          exact (last (knownBefore _ (List.prefix_refl _))).mp reached packet
            flow (List.singleton_inj.mp here).symm ip
        · exact (induction earlier).mp knownBefore prior packet flow within ip
      · intro introduced prior within
        have knownBefore := (induction earlier).mpr
          fun prior packet flow within => introduced prior packet flow
            (within.trans (List.prefix_append _ _))
        rcases List.prefix_concat_iff.mp within with rfl | within
        · rw [System.after_append]
          refine (last (knownBefore _ (List.prefix_refl _))).mpr ?_
          rintro packet flow rfl
          exact introduced events packet flow (List.prefix_refl _)
        · exact knownBefore prior within

/-- Two hosts: the first asks for the address of the second by an ARP
broadcast, and they exchange a ping. -/
def ping : List LearningEvent :=
  let request := ⟨1, ⟨1, ETHER_BROADCAST, 0x0806, []⟩, none⟩
  let reply := ⟨2, ⟨2, 1, 0x0806, []⟩, none⟩
  let echo := ⟨1, ⟨1, 2, 0x0800, []⟩, some 0x0A000001⟩
  let echoReply := ⟨2, ⟨2, 1, 0x0800, []⟩, some 0x0A000002⟩
  [.matched request ⟨none, ETHER_BROADCAST, OFPP_ALL⟩, .upcall reply, .handle,
    .upcall echo, .handle, .matched echoReply ⟨some 2, 1, 1⟩]

/-- The controller never learns the IP address of the second host: the flows
that the ARP reply and the echo request install take its echo reply. -/
theorem ping_hides_sender :
    let switch := traffic.after (started true true true) ping
    traffic.Run (started true true true) ping ∧
      (∃ entry ∈ switch.forwarded,
        entry.1.parsed.src = 2 ∧ entry.1.srcip ≠ none) ∧
      2 ∉ switch.controller.macip ∧ ¬ switch.AddressesKnown := by
  decide

/-- Had the second host sent an IP packet before the flows were installed, its
echo reply could take them. -/
theorem addressesKnown_after_iff_ping :
    let greeting : PacketIn := ⟨2, ⟨2, 1, 0x0800, []⟩, some 0x0A000002⟩
    let echo : PacketIn := ⟨1, ⟨1, 2, 0x0800, []⟩, some 0x0A000001⟩
    let before : List LearningEvent :=
      [.upcall greeting, .handle, .upcall echo, .handle]
    (∃ other ∈ (started true true true).handled before,
      Introduces greeting other) ∧
    (traffic.after (started true true true)
      (before ++ [.matched greeting ⟨some 2, 1, 1⟩])).AddressesKnown := by
  intro greeting echo before
  have run : traffic.Run (started true true true)
      (before ++ [.matched greeting ⟨some 2, 1, 1⟩]) := by decide
  have known : ∀ prior ∈ List.inits
      (before ++ [.matched greeting ⟨some 2, 1, 1⟩]),
      (traffic.after (started true true true) prior).AddressesKnown := by
    decide
  refine ⟨?_, known _ (by simp)⟩
  refine (addressesKnown_after_iff true true run).mp ?_ before greeting _
    (List.prefix_refl _) (Option.some_ne_none _)
  intro prior within
  exact known prior ((List.mem_inits _ _).mpr within)

/-- A controller that installs no flows gets to see every frame. -/
structure Upcalls (switch : LearningSwitch) : Prop where
  addFlows : switch.controller.addFlows = false
  table : switch.table = []

theorem Upcalls.step {switch : LearningSwitch} (upcalls : switch.Upcalls)
    {event : LearningEvent} (crosses : switch.Crosses event) :
    (switch.step event).Upcalls := by
  cases event with
  | matched event flow => exact ⟨upcalls.addFlows, upcalls.table⟩
  | upcall event => exact ⟨upcalls.addFlows, upcalls.table⟩
  | handle =>
      rcases queue : switch.pending with _ | ⟨event, pending⟩
      · rw [LearningSwitch.step, queue]
        exact upcalls
      · obtain ⟨kept, noFlow⟩ :=
          BaselineController.keeps_handlePacketIn event _ upcalls.addFlows
        rw [LearningSwitch.step, queue]
        refine ⟨kept, ?_⟩
        have within : switch.table.executeAll
            (BaselineController.handlePacketIn event
              switch.controller).effects ⊆ switch.table :=
          FlowTable.executeAll_subset noFlow
        change switch.table.executeAll _ = []
        rw [upcalls.table] at within ⊢
        exact List.subset_nil.mp within
  | expire flow =>
      refine ⟨upcalls.addFlows, ?_⟩
      rw [LearningSwitch.step, upcalls.table]
      rfl
  | connectionDown arrives => exact crosses.elim

theorem addressesKnown_of_upcalls (clearFlowsOnStartup : Bool)
    {events : List LearningEvent}
    (run : traffic.Run (started false true clearFlowsOnStartup) events) :
    (traffic.after (started false true clearFlowsOnStartup)
      events).AddressesKnown := by
  have upcalls : ∀ events, traffic.Run
      (started false true clearFlowsOnStartup) events →
      (traffic.after (started false true clearFlowsOnStartup)
        events).Upcalls := by
    intro events run
    refine run.invariant (fun _ _ upcalls crosses => upcalls.step crosses) ?_
    cases clearFlowsOnStartup <;> exact ⟨rfl, rfl⟩
  induction events using List.reverseRecOn with
  | nil =>
      intro entry member
      cases clearFlowsOnStartup <;> cases member
  | append_singleton events event induction =>
      obtain ⟨earlier, crosses⟩ := System.each_snoc.mp run
      have learns := learns_after (started_learns false clearFlowsOnStartup)
        earlier
      rw [System.after_append]
      refine (addressesKnown_step learns crosses (induction earlier)).mpr ?_
      rintro packet flow rfl
      have member : flow ∈ _ := crosses.1
      rw [(upcalls events earlier).table] at member
      cases member

end LearningSwitch

end SwitchPaxos

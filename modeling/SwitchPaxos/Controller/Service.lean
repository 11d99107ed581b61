import SwitchPaxos.Base.Simulation
import SwitchPaxos.Controller.Forgetting
import SwitchPaxos.Controller.Order

/-!
# A service for hosts

The nodes of a network serve the hosts behind their switches: `process_queue`
calls `process_message`, and what the Paxos controller does not halt goes to
the learning switch, which learns about the hosts from it.  Whatever it
forwards, and however much is known about the hosts, the messages and the slot
stores are those of a network whose nodes answer for `process_message`.
-/

namespace SwitchPaxos

namespace PaxosController

/-- A frame that the Paxos controller leaves to the learning switch: it is not
a Paxos message, or one that is under way to somebody else. -/
def overhears (event : PacketIn) (self : PaxosController) : Bool :=
  !PaxosMessage.isKnownPaxosType event.parsed.type || !self.dispatches event

end PaxosController

/-- What can happen at a node of a service. -/
inductive ServiceEvent where
  | deliver (event : PacketIn)
  | pump
  | collect (n : ℕ)

structure ServiceAction where
  mac : EthAddr
  event : ServiceEvent

/-- The nodes with all that their Paxos controllers did, and what the learning
switches told their switches. -/
structure Service where
  network : Network
  forwarded : List (EthAddr × SwitchCommand)

namespace ServiceEvent

/-- The node that `process_message` gets to see. -/
def finds (node : PaxosController) : ServiceEvent → PaxosController
  | .deliver event => node.asked event
  | _ => node

/-- The event at a node that answers for `process_message`, unless it concerns
the learning switch only. -/
def seen (node : PaxosController) : ServiceEvent → Option ClusterEvent
  | .deliver event =>
      if node.overhears event then none
      else some
        (.deliver (fun _ => (node.asked event).hostAddressesKnown) event)
  | .pump => some (.pump fun _ => node.hostAddressesKnown)
  | .collect n => some (.collect n)

section Handle

variable (rewrite : EthAddr → IPAddr → Option Bytes → Frame)

def handle : ServiceEvent → PaxosController.Handler Reply
  | .deliver event =>
      PaxosController.handlePaxosBy (PaxosController.serveQueue rewrite) event
  | .pump => do
      PaxosController.pumpBy (PaxosController.serveQueue rewrite)
      return .halt
  | .collect n => do
      PaxosController.collect n
      return .halt

end Handle

end ServiceEvent

namespace Service

def node (mac : EthAddr) (service : Service) : PaxosController :=
  service.network.cluster.nodes mac

/-- The channels once the frame that arrives was taken out. -/
def taken (service : Service) (action : ServiceAction) :
    Channels EthAddr Frame :=
  match action.event with
  | .deliver event =>
      if event.parsed.type = PaxosMessage.CLIENT ∨
          (service.node action.mac).overhears event = true then
        service.network.channels
      else service.network.channels.receive event.parsed.src action.mac
  | _ => service.network.channels

/-- A Paxos controller did something. -/
def record (mac : EthAddr) (channels : Channels EthAddr Frame)
    (outcome : Outcome PaxosController Effect Failure Reply)
    (service : Service) : Service :=
  { service with
    network :=
      { cluster := service.network.cluster.record mac outcome
        channels := channels.send mac (·.dst) (sentFrames outcome.effects) } }

/-- A frame goes on to the learning switch. -/
def pass (mac : EthAddr) (event : PacketIn) (service : Service) : Service :=
  let node := service.node mac
  let outcome := BaselineController.handlePacketIn event node.switch
  { network :=
      { service.network with
        cluster := service.network.cluster.put mac
          { node with switch := outcome.state } [] }
    forwarded := service.forwarded ++
      outcome.effects.map fun command => (mac, command) }

section System

variable (rewrite : EthAddr → IPAddr → Option Bytes → Frame)

def step (service : Service) (action : ServiceAction) : Service :=
  let outcome := action.event.handle rewrite (service.node action.mac)
  let next := service.record action.mac (service.taken action) outcome
  match action.event, outcome.result with
  | .deliver event, .ok .pass => next.pass action.mac event
  | _, _ => next

/-- Client packets come from outside, and so does what a node overhears; other
than that the oldest frame from a node arrives. -/
def Enabled (N : Finset EthAddr) (service : Service) (action : ServiceAction) :
    Prop :=
  action.mac ∈ N ∧
    match action.event with
    | .deliver event =>
        (event.parsed.type = PaxosMessage.CLIENT ∨
          (service.node action.mac).overhears event = true) ∨
        (service.network.channels event.parsed.src action.mac).head? =
          some event.parsed
    | _ => True

def system (N : Finset EthAddr) : System Service ServiceAction :=
  { Enabled := Enabled N
    step := step rewrite }

end System

/-- The assertion of `process_message` holds: once a node knows its hosts, none
of them has the address of a Paxos node. -/
def Apart (service : Service) (action : ServiceAction) : Prop :=
  let found := action.event.finds (service.node action.mac)
  found.hostAddressesKnown = true → found.HostsApart

section Decide

variable (rewrite : EthAddr → IPAddr → Option Bytes → Frame)
  (N : Finset EthAddr) (service : Service)

instance (action : ServiceAction) : Decidable (service.Apart action) :=
  inferInstanceAs (Decidable (_ → ∀ host ∈ _, _))

instance : (action : ServiceAction) → Decidable (Enabled N service action)
  | ⟨mac, .deliver event⟩ => inferInstanceAs (Decidable (mac ∈ N ∧
      ((event.parsed.type = PaxosMessage.CLIENT ∨
          (service.node mac).overhears event = true) ∨
        (service.network.channels event.parsed.src mac).head? =
          some event.parsed)))
  | ⟨mac, .pump⟩ => inferInstanceAs (Decidable (mac ∈ N ∧ True))
  | ⟨mac, .collect _⟩ => inferInstanceAs (Decidable (mac ∈ N ∧ True))

instance (actions : List ServiceAction) :
    Decidable ((system rewrite N).Run service actions) :=
  inferInstanceAs (Decidable (System.Each (system rewrite N) (Enabled N)
    service actions))

end Decide

/-- The network without the switches. -/
def forget (service : Service) : Network :=
  { cluster :=
      { nodes := fun mac => (service.node mac).forget
        log := service.network.cluster.log.flatMap fun entry =>
          entry.2.blur.map fun effect => (entry.1, effect) }
    channels := service.network.channels }

/-- An action at the nodes that answer for `process_message`. -/
def seen (service : Service) (action : ServiceAction) :
    Option ClusterAction :=
  (action.event.seen (service.node action.mac)).map fun event =>
    ⟨action.mac, event⟩

end Service

namespace PaxosController

variable {self : PaxosController} {event : PacketIn}

/-- What a node overhears changes nothing, whatever is reported of it. -/
theorem handlePaxosBy_overheard (queue : ℕ → Handler Unit)
    (overheard : self.overhears event = true) :
    ∃ result, handlePaxosBy queue event self = ⟨result, self, []⟩ := by
  cases known : PaxosMessage.isKnownPaxosType event.parsed.type with
  | false =>
      refine ⟨.ok .pass, ?_⟩
      simp [handlePaxosBy, known]
  | true =>
      have ignored : self.dispatches event = false := by
        simpa [overhears, known] using overheard
      by_cases told : event.parsed.type = PaxosMessage.ACCEPT ∨
          event.parsed.type = PaxosMessage.LEARN
      · refine ⟨(PaxosMessage.unpackAccept event.parsed.payload).map
          fun _ => .pass, ?_⟩
        simp [handlePaxosBy, known, ignored, told]
      · refine ⟨.ok .pass, ?_⟩
        simp [handlePaxosBy, known, ignored, told]

theorem hostsApart_asked :
    (self.asked event).HostsApart ↔ self.HostsApart := by
  unfold asked
  split <;> exact Iff.rfl

end PaxosController

section Seen

variable (rewrite : EthAddr → IPAddr → Option Bytes → Frame)
  {self : PaxosController} {event : ServiceEvent} {other : ClusterEvent}

theorem ServiceEvent.heard {frame : PacketIn}
    (same : (deliver frame).seen self = some other) :
    self.overhears frame = false ∧ other =
      .deliver (fun _ => (self.asked frame).hostAddressesKnown) frame := by
  rw [seen] at same
  split at same
  · cases same
  · next heard =>
      rw [Bool.not_eq_true] at heard
      cases same
      exact ⟨heard, rfl⟩

/-- An event does to a node without its switch what it does to the node, but
for ports and packets to hosts. -/
theorem ServiceEvent.seen_handle (same : event.seen self = some other)
    (notJoin : ∀ frame, event = .deliver frame →
      frame.parsed.type ≠ PaxosMessage.JOIN)
    (apart : (event.finds self).hostAddressesKnown = true →
      (event.finds self).HostsApart) :
    let outcome := event.handle rewrite self
    let outcome' := other.handle self.forget
    outcome'.state = outcome.state.forget ∧
      outcome'.effects = outcome.effects.flatMap Effect.blur := by
  cases event with
  | deliver frame =>
      obtain ⟨-, rfl⟩ := heard same
      have serves := PaxosController.handlePaxosBy_serveQueue rewrite self
        frame (notJoin frame rfl)
        fun known => PaxosController.hostsApart_asked.mp (apart known)
      have forgets := PaxosController.handlePaxos_forget
        (fun _ => (self.asked frame).hostAddressesKnown) self frame
        (notJoin frame rfl)
      simp only [handle, ClusterEvent.handle, Handler.bind_apply,
        Handler.andThen_pure, serves, forgets,
        PaxosController.flatMap_served_blur, and_self]
  | pump =>
      cases same
      have serves := PaxosController.pumpBy_serveQueue rewrite self apart
      have forgets := PaxosController.pump_forget
        (fun _ => self.hostAddressesKnown) self
      simp only [handle, ClusterEvent.handle, Handler.bind_apply,
        Handler.andThen_pure, serves, forgets,
        PaxosController.flatMap_served_blur, and_self]
  | collect n =>
      cases same
      exact ⟨rfl, rfl⟩

end Seen

namespace Service

section Simulation

variable {N : Finset EthAddr} {leader : EthAddr} (service : Service)
  (mac : EthAddr)

theorem forget_record (channels : Channels EthAddr Frame)
    (outcome : Outcome PaxosController Effect Failure Reply) :
    (service.record mac channels outcome).forget =
      { cluster := service.forget.cluster.put mac outcome.state.forget
          (outcome.effects.flatMap Effect.blur)
        channels := channels.send mac (·.dst)
          (sentFrames outcome.effects) } := by
  have nodes : (service.record mac channels outcome).forget.cluster.nodes =
      (service.forget.cluster.put mac outcome.state.forget
        (outcome.effects.flatMap Effect.blur)).nodes := by
    funext other
    rw [Cluster.nodes_put]
    change ((service.network.cluster.record mac outcome).nodes other).forget =
      _
    rw [Cluster.record, Cluster.nodes_put]
    split <;> rfl
  have log : (service.record mac channels outcome).forget.cluster.log =
      (service.forget.cluster.put mac outcome.state.forget
        (outcome.effects.flatMap Effect.blur)).log := by
    change List.flatMap _ (_ ++ _) = _ ++ _
    rw [List.flatMap_append, List.flatMap_map, List.map_flatMap]
    rfl
  rw [Network.mk.injEq]
  exact ⟨congrArg₂ Cluster.mk nodes log, rfl⟩

theorem forget_pass (event : PacketIn) :
    (service.pass mac event).forget = service.forget := by
  have nodes : (service.pass mac event).forget.cluster.nodes =
      service.forget.cluster.nodes := by
    funext other
    change ((service.network.cluster.put mac _ []).nodes other).forget =
      (service.network.cluster.nodes other).forget
    rw [Cluster.nodes_put]
    split
    · next here =>
        rw [here]
        rfl
    · rfl
  have log : (service.pass mac event).forget.cluster.log =
      service.forget.cluster.log := by
    change List.flatMap _ (_ ++ []) = _
    rw [List.append_nil]
    rfl
  rw [Network.mk.injEq]
  exact ⟨congrArg₂ Cluster.mk nodes log, rfl⟩

variable {service} {action : ServiceAction}
  (rewrite : EthAddr → IPAddr → Option Bytes → Frame)

theorem forget_step :
    (service.step rewrite action).forget =
      (service.record action.mac (service.taken action)
        (action.event.handle rewrite (service.node action.mac))).forget := by
  unfold step
  dsimp only
  split
  · exact forget_pass ..
  · rfl

private theorem forget_unseen (unseen : service.seen action = none) :
    (service.step rewrite action).forget = service.forget := by
  rw [forget_step, forget_record]
  obtain ⟨at_, event⟩ := action
  cases event with
  | pump => cases unseen
  | collect n => cases unseen
  | deliver event =>
      by_cases overheard : (service.node at_).overhears event = true
      · obtain ⟨result, handled⟩ := PaxosController.handlePaxosBy_overheard
          (PaxosController.serveQueue rewrite) overheard
        simp only [ServiceEvent.handle, handled, taken, overheard, or_true,
          if_true, List.flatMap_nil, sentFrames_nil, Channels.send_nil]
        have same : service.forget.cluster.put at_ (service.node at_).forget
            [] = service.forget.cluster := by
          apply congrArg₂ Cluster.mk
          · exact Function.update_eq_self at_ service.forget.cluster.nodes
          · exact List.append_nil _
        rw [same]
        rfl
      · simp [seen, ServiceEvent.seen, overheard] at unseen

section Shown

variable {mac : EthAddr} {event : ServiceEvent} {other : ClusterEvent}
  (same : event.seen (service.node mac) = some other)

include same

private theorem enabled_seen (enabled : Enabled N service ⟨mac, event⟩) :
    Network.Enabled N service.forget ⟨mac, other⟩ := by
  refine ⟨enabled.1, ?_⟩
  cases event with
  | pump =>
      cases same
      trivial
  | collect n =>
      cases same
      trivial
  | deliver frame =>
      obtain ⟨heard, rfl⟩ := ServiceEvent.heard same
      rcases enabled.2 with (client | overheard) | oldest
      · exact .inl client
      · exact absurd (heard.symm.trans overheard) Bool.false_ne_true
      · exact .inr oldest

private theorem taken_seen :
    service.taken ⟨mac, event⟩ = service.forget.taken ⟨mac, other⟩ := by
  cases event with
  | pump =>
      cases same
      rfl
  | collect n =>
      cases same
      rfl
  | deliver frame =>
      obtain ⟨heard, rfl⟩ := ServiceEvent.heard same
      simp only [Service.taken, Network.taken, heard, Bool.false_eq_true,
        or_false]
      rfl

end Shown

theorem notJoin {mac : EthAddr} {frame : PacketIn}
    (inStep : service.forget.InStep N leader)
    (enabled : Enabled N service ⟨mac, .deliver frame⟩) :
    frame.parsed.type ≠ PaxosMessage.JOIN := by
  intro join
  rcases enabled.2 with (client | overheard) | oldest
  · rw [join] at client
    exact absurd client (by decide)
  · have known : PaxosMessage.isKnownPaxosType PaxosMessage.JOIN = true := by
      decide
    simp [PaxosController.overhears, PaxosController.dispatches, join,
      known] at overheard
  · have enabledThere : Network.Enabled N service.forget
        ⟨mac, .deliver (fun _ => true) frame⟩ := ⟨enabled.1, .inr oldest⟩
    have known := inStep.accountable.known (inStep.sent.enabled enabledThere)
    simp only [ClusterEvent.Known, join] at known
    revert known
    decide

/-- A service does what a network does whose nodes answer for
`process_message` by whether they know their hosts. -/
theorem simulates :
    (system rewrite N).Simulates (Network.system N)
      (fun network => network.InStep N leader) Apart forget seen := by
  intro service action inStep enabled apart
  cases shown : service.seen action with
  | none => exact forget_unseen rewrite shown
  | some move =>
      obtain ⟨mac, event⟩ := action
      obtain ⟨other, same, rfl⟩ := Option.map_eq_some_iff.mp shown
      obtain ⟨state, effects⟩ := ServiceEvent.seen_handle rewrite same (by
        rintro frame rfl
        exact notJoin inStep enabled) apart
      refine ⟨enabled_seen same enabled, ?_⟩
      change (service.step rewrite ⟨mac, event⟩).forget = _
      rw [forget_step, forget_record, taken_seen same, ← effects, ← state,
        ← sentFrames_blur, ← effects]
      rfl

end Simulation

end Service

end SwitchPaxos

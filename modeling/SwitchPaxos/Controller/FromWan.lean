import SwitchPaxos.Controller.Draining
import SwitchPaxos.Controller.Hosts
import SwitchPaxos.Controller.Start
import SwitchPaxos.Controller.Wan
import SwitchPaxos.Wire.RoundTrip

/-!
# From the WAN to the hosts

The WAN controller wraps the packets of clients and has its switch output them
on the port to the switch of the leader, over a link that loses nothing and
keeps the order.  The leader numbers what comes over the link, and the nodes
send it to the hosts.
-/

namespace SwitchPaxos

/-- The CLIENT message that leaves through a port. -/
def WanEffect.clientOn? (port : Port) : WanEffect → Option Frame
  | .client frame output =>
      if LeavesOn none output port then some frame else none
  | _ => none

/-- The WAN controller, the CLIENT messages under way to the leader, the
packets they were wrapped around so far, and the nodes. -/
structure WanService where
  wan : WANController
  link : List Frame
  offered : List Bytes
  service : Service

inductive WanAction where
  | upcall (event : WanPacketIn)
  | act (action : ServiceAction)

/-- The client message that a node acts on. -/
def Service.client? (service : Service) (action : ServiceAction) :
    Option Frame :=
  match action.event with
  | .deliver event =>
      if event.parsed.type = PaxosMessage.CLIENT ∧
          (service.node action.mac).overhears event = false then
        some event.parsed
      else none
  | _ => none

namespace WanService

section System

variable (rewrite : EthAddr → IPAddr → Option Bytes → Frame) (port : Port)

/-- The port of the WAN switch is the one to the switch of the leader. -/
def step (state : WanService) : WanAction → WanService
  | .upcall event =>
      let outcome := WANController.handlePacketIn event state.wan
      let clients := outcome.effects.filterMap (WanEffect.clientOn? port)
      { state with
        wan := outcome.state
        link := state.link ++ clients
        offered := state.offered ++ clients.map fun _ => event.parsed.raw }
  | .act action =>
      { state with
        link :=
          if (state.service.client? action).isSome then state.link.tail
          else state.link
        service := state.service.step rewrite action }

/-- Client messages only come over the link, the oldest first. -/
def Enabled (N : Finset EthAddr) (leader : EthAddr) (state : WanService) :
    WanAction → Prop
  | .upcall _ => True
  | .act action => Service.Enabled N state.service action ∧
      ∀ frame, state.service.client? action = some frame →
        action.mac = leader ∧ state.link.head? = some frame

def system (N : Finset EthAddr) (leader : EthAddr) :
    System WanService WanAction :=
  { Enabled := Enabled N leader
    step := step rewrite port }

end System

/-- A condition on what the nodes do. -/
def At (condition : Service → ServiceAction → Prop) (state : WanService) :
    WanAction → Prop
  | .upcall _ => True
  | .act action => condition state.service action

end WanService

namespace WANController

/-- A CLIENT message is wrapped around the packet that came in. -/
def Wraps (event : WanPacketIn) (effect : WanEffect) : Prop :=
  ∀ frame port, effect = .client frame port → frame = wrapped event

theorem keeps_forward (event : WanPacketIn) (frame : Frame) (port : Port) :
    SwitchPaxos.Handler.Keeps (fun _ : WANController => True) (Wraps event)
      (forward frame port) := by
  apply Handler.keeps_emit
  rintro _ _ ⟨⟩

theorem keeps_forwardToWan (event : WanPacketIn) :
    SwitchPaxos.Handler.Keeps (fun _ : WANController => True) (Wraps event)
      (forwardToWan event) := by
  refine Handler.keeps_get fun node _ => ?_
  split
  · exact (keeps_forward event _ _).bind fun _ => Handler.keeps_pure _
  · exact (Handler.keeps_forEach _ fun port =>
      keeps_forward event _ port).bind fun _ => Handler.keeps_pure _

theorem keeps_route (event : WanPacketIn) :
    SwitchPaxos.Handler.Keeps (fun _ : WANController => True) (Wraps event)
      (route event) := by
  refine Handler.keeps_get fun node _ => ?_
  split
  · refine Handler.Keeps.bind ?_ fun _ => Handler.keeps_pure _
    refine (Handler.keeps_lift _).bind fun _ => ?_
    refine Handler.keeps_get fun _ _ => Handler.keeps_emit ?_
    rintro _ _ ⟨⟩
  · refine Handler.Keeps.ite (fun _ => ?_) fun _ => ?_
    · refine Handler.keeps_get fun node _ => ?_
      split
      · exact Handler.keeps_pure _
      · refine (Handler.keeps_emit ?_).bind fun _ => Handler.keeps_pure _
        rintro _ _ ⟨⟩
        rfl
    refine Handler.Keeps.ite (fun _ => keeps_forwardToWan event) fun _ => ?_
    refine Handler.Keeps.ite (fun _ => keeps_forwardToWan event) fun _ => ?_
    refine Handler.Keeps.ite (fun _ => ?_) fun _ => ?_
    · exact (keeps_forward event _ _).bind fun _ => Handler.keeps_pure _
    · exact (keeps_forward event _ _).bind fun _ => Handler.keeps_pure _

/-- What goes to the leader is wrapped around what came in. -/
theorem clients_wrapped (event : WanPacketIn) (self : WANController)
    (port : Port) : ∀ frame ∈ (handlePacketIn event self).effects.filterMap
      (WanEffect.clientOn? port), frame = wrapped event := by
  have keeps : SwitchPaxos.Handler.Keeps (fun _ : WANController => True)
      (Wraps event) (handlePacketIn event) := by
    refine (Handler.keeps_modify fun _ _ => trivial).bind fun _ => ?_
    refine (Handler.keeps_modify fun _ _ => trivial).bind fun _ => ?_
    exact keeps_route event
  intro frame member
  obtain ⟨effect, sent, here⟩ := List.mem_filterMap.mp member
  cases effect with
  | client other out =>
      rw [WanEffect.clientOn?] at here
      split at here
      · cases here
        exact (keeps self trivial).2 _ sent frame out rfl
      · cases here
  | forward other out => cases here
  | announce other out => cases here

end WANController

/-- What a CLIENT message carries. -/
def Frame.content (frame : Frame) : Bytes := frame.payload.drop 8

theorem long_packClient (v : Bytes) :
    8 ≤ (PaxosMessage.packClient v).length := by
  rw [PaxosMessage.packClient, List.length_append]
  exact Nat.le_add_right_of_le (by decide)

theorem content_wrapped (event : WanPacketIn) :
    (WANController.wrapped event).content = event.parsed.raw := by
  have long := long_packClient event.parsed.raw
  have decoded :=
    PaxosMessage.unpackClient_packClient event.parsed.raw
  rw [PaxosMessage.unpackClient, if_pos long] at decoded
  exact Except.ok.inj decoded

namespace PaxosController

theorem stable_isleader :
    Stable (fun _ => True) (fun self => self.isleader = true) := by
  refine ⟨?_, ?_, ?_, ?_, ?_, ?_⟩
  · exact fun _ _ isleader => isleader
  · exact fun _ _ isleader => isleader
  · exact fun _ _ isleader => isleader
  · exact fun _ _ _ isleader => isleader
  · exact fun _ _ _ _ isleader => isleader
  · exact fun _ _ _ _ isleader => isleader

end PaxosController

namespace Network

variable {N : Finset EthAddr} {leader : EthAddr} {network : Network}
  {action : ClusterAction}

/-- The nodes are in step, and the leader numbers what it gets. -/
structure Leading (N : Finset EthAddr) (leader : EthAddr)
    (network : Network) : Prop where
  inStep : network.InStep N leader
  inLine : network.cluster.InLine leader
  isleader : (network.cluster.nodes leader).isleader = true

theorem isleader_step
    (isleader : (network.cluster.nodes leader).isleader = true) :
    ((network.step action).cluster.nodes leader).isleader = true := by
  rw [InStep.nodes_step]
  split
  · next here =>
      rw [here] at isleader
      obtain ⟨mac, event⟩ := action
      cases event with
      | deliver answer event =>
          have keeps : Handler.Keeps (fun self => self.isleader = true)
              Effect.NoFlow (PaxosController.handlePaxos answer event) :=
            PaxosController.stable_isleader.keeps_handlePaxos answer trivial
          rw [ClusterEvent.handle, Handler.bind_apply, Handler.andThen_pure]
          exact (keeps _ isleader).1
      | pump answer => exact isleader
      | collect n => exact isleader
  · exact isleader

theorem Leading.step (leading : network.Leading N leader) (three : N.card = 3)
    (leads : leader ∈ N) (enabled : Enabled N network action)
    (serves : network.cluster.Serves leader action) :
    (network.step action).Leading N leader where
  inStep := leading.inStep.step three leads enabled
  inLine := leading.inLine.step leading.inStep.accountable
    (leading.inStep.sent.enabled enabled) serves
  isleader := isleader_step leading.isleader

theorem packets_step : (network.step action).cluster.packets =
    network.cluster.packets ++ ((action.event.handle
      (network.cluster.nodes action.mac)).effects.filterMap
        Effect.numbered?).map Prod.snd := by
  have numbered := Cluster.numbers_put network.cluster action.mac
    (action.event.handle (network.cluster.nodes action.mac)).state
    (action.event.handle (network.cluster.nodes action.mac)).effects
  exact (congrArg (List.map Prod.snd) numbered).trans List.map_append

/-- Nothing but a client packet gets a number. -/
theorem Leading.packets_other (leading : network.Leading N leader)
    (enabled : Enabled N network action)
    (other : ∀ answer event, action.event = .deliver answer event →
      event.parsed.type ≠ PaxosMessage.CLIENT) :
    (network.step action).cluster.packets = network.cluster.packets := by
  have enabledThere := leading.inStep.sent.enabled enabled
  have accountable := leading.inStep.accountable
  rw [packets_step]
  rcases action.event.takes _ (accountable.formed.joined _ enabled.1)
    (accountable.known enabledThere)
    (fun answer event same client _ => absurd client (other answer event same))
    with ⟨-, none⟩ | ⟨⟨answer, event, same, client⟩, -⟩
  · rw [none, List.map_nil, List.append_nil]
  · exact absurd client (other answer event same)

theorem Leading.packets_client (leading : network.Leading N leader)
    (leads : leader ∈ N) {answer : ℕ → Bool} {event : PacketIn}
    (type : event.parsed.type = PaxosMessage.CLIENT)
    (dispatches : (network.cluster.nodes leader).dispatches event = true)
    (long : 8 ≤ event.parsed.payload.length) :
    (network.step ⟨leader, .deliver answer event⟩).cluster.packets =
      network.cluster.packets ++ [event.parsed.content] := by
  have joined := leading.inStep.accountable.formed.joined leader leads
  have known : PaxosMessage.isKnownPaxosType event.parsed.type = true := by
    rw [type]
    decide
  have handled : PaxosController.handlePaxos answer event
      (network.cluster.nodes leader) = PaxosController.onClient answer event
        event.parsed.payload (network.cluster.nodes leader) := by
    rcases PaxosController.handlePaxos_cases answer
      (network.cluster.nodes leader) known with ⟨-, handled⟩ | ⟨ignored, -⟩
    · rw [handled, type, PaxosController.dispatchPaxos_client joined]
    · rw [dispatches] at ignored
      cases ignored
  obtain ⟨-, given⟩ := PaxosController.onClient_gives
    (network.cluster.nodes leader) answer event ⟨leading.isleader, joined⟩
    leading.inLine.next (v := event.parsed.content) (if_pos long)
  rw [packets_step, ClusterEvent.handle, Handler.bind_apply,
    Handler.andThen_pure, handled, given]
  rfl

end Network

namespace Service

variable {N : Finset EthAddr} {leader : EthAddr} {service : Service}
  {action : ServiceAction}

theorem client?_eq_some {frame : Frame} :
    service.client? action = some frame ↔
      ∃ event, action.event = .deliver event ∧ event.parsed = frame ∧
        frame.type = PaxosMessage.CLIENT ∧
          (service.node action.mac).overhears event = false := by
  obtain ⟨mac, event⟩ := action
  cases event with
  | deliver event =>
      simp only [client?, Option.ite_none_right_eq_some, Option.some.injEq,
        ServiceEvent.deliver.injEq, exists_eq_left']
      constructor
      · rintro ⟨⟨type, heard⟩, rfl⟩
        exact ⟨rfl, type, heard⟩
      · rintro ⟨rfl, type, heard⟩
        exact ⟨⟨type, heard⟩, rfl⟩
  | pump => simp [client?]
  | collect n => simp [client?]

private theorem serves_seen {mac : EthAddr} {event : ServiceEvent}
    {other : ClusterEvent}
    (same : event.seen (service.node mac) = some other)
    (clients : ∀ frame, service.client? ⟨mac, event⟩ = some frame →
      mac = leader ∧ 8 ≤ frame.payload.length) :
    service.forget.cluster.Serves leader ⟨mac, other⟩ := by
  cases event with
  | pump =>
      cases same
      trivial
  | collect n =>
      cases same
      trivial
  | deliver frame =>
      obtain ⟨heard, rfl⟩ := ServiceEvent.heard same
      intro _ type
      exact (clients frame.parsed
        (client?_eq_some.mpr ⟨frame, rfl, rfl, type, heard⟩)).2

variable (rewrite : EthAddr → IPAddr → Option Bytes → Frame)

/-- The leader gives each client message it acts on the next number. -/
theorem leading_step (leading : service.forget.Leading N leader)
    (three : N.card = 3) (leads : leader ∈ N)
    (enabled : Enabled N service action) (apart : service.Apart action)
    (clients : ∀ frame, service.client? action = some frame →
      action.mac = leader ∧ 8 ≤ frame.payload.length) :
    (service.step rewrite action).forget.Leading N leader ∧
      (service.step rewrite action).network.cluster.packets =
        service.network.cluster.packets ++
          (service.client? action).toList.map Frame.content := by
  have matched := simulates rewrite service action leading.inStep enabled apart
  rw [← packets_forget, ← packets_forget]
  cases shown : service.seen action with
  | none =>
      rw [shown] at matched
      have same : (service.step rewrite action).forget = service.forget :=
        matched
      have nothing : service.client? action = none := by
        obtain ⟨mac, event⟩ := action
        rw [Option.eq_none_iff_forall_not_mem]
        intro frame acts
        obtain ⟨event, rfl, -, -, heard⟩ := client?_eq_some.mp acts
        simp [seen, ServiceEvent.seen, heard] at shown
      rw [same, nothing]
      exact ⟨leading, (List.append_nil _).symm⟩
  | some move =>
      obtain ⟨mac, event⟩ := action
      obtain ⟨other, same, rfl⟩ := Option.map_eq_some_iff.mp shown
      rw [shown] at matched
      obtain ⟨possible, stepped⟩ := matched
      have stepped : (service.step rewrite ⟨mac, event⟩).forget =
        service.forget.step ⟨mac, other⟩ := stepped
      rw [stepped]
      refine ⟨leading.step three leads possible (serves_seen same clients), ?_⟩
      cases acts : service.client? ⟨mac, event⟩ with
      | none =>
          rw [leading.packets_other possible]
          · exact (List.append_nil _).symm
          · rintro answer frame rfl type
            cases event with
            | pump => cases same
            | collect n => cases same
            | deliver frame' =>
                obtain ⟨heard, given⟩ := ServiceEvent.heard same
                cases given
                have acts' := client?_eq_some.mpr
                  ⟨frame, rfl, rfl, type, heard⟩
                cases acts.symm.trans acts'
      | some frame =>
          obtain ⟨rfl, long⟩ := clients frame acts
          obtain ⟨event, rfl, rfl, type, heard⟩ := client?_eq_some.mp acts
          obtain ⟨-, rfl⟩ := ServiceEvent.heard same
          apply leading.packets_client leads type _ long
          simp only [PaxosController.overhears, Bool.or_eq_false_iff,
            Bool.not_eq_false'] at heard
          exact heard.2

end Service

namespace WanService

variable {N : Finset EthAddr} {leader : EthAddr} {state : WanService}
  {action : WanAction} (rewrite : EthAddr → IPAddr → Option Bytes → Frame)
  {linkPort : Port}

/-- Each packet that was wrapped is under way to the leader, or it has a number
there. -/
structure Conveys (N : Finset EthAddr) (leader : EthAddr)
    (state : WanService) : Prop where
  leading : state.service.forget.Leading N leader
  link : ∀ frame ∈ state.link, 8 ≤ frame.payload.length
  offered : state.offered = state.service.network.cluster.packets ++
    state.link.map Frame.content

theorem Conveys.step (conveys : state.Conveys N leader) (three : N.card = 3)
    (leads : leader ∈ N)
    (enabled : (system rewrite linkPort N leader).Enabled state action)
    (apart : state.At Service.Apart action) :
    (state.step rewrite linkPort action).Conveys N leader := by
  cases action with
  | upcall event =>
      have wrapped := WANController.clients_wrapped event state.wan linkPort
      refine ⟨conveys.leading, ?_, ?_⟩
      · intro frame member
        rcases List.mem_append.mp member with earlier | new
        · exact conveys.link frame earlier
        · rw [wrapped frame new]
          exact long_packClient event.parsed.raw
      · have contents : ((WANController.handlePacketIn event
            state.wan).effects.filterMap
              (WanEffect.clientOn? linkPort)).map Frame.content =
            ((WANController.handlePacketIn event
              state.wan).effects.filterMap
                (WanEffect.clientOn? linkPort)).map
                  fun _ => event.parsed.raw := by
          apply List.map_congr_left
          intro frame member
          rw [wrapped frame member, content_wrapped]
        simp only [WanService.step, conveys.offered, List.map_append, contents,
          List.append_assoc]
  | act action =>
      obtain ⟨possible, oldest⟩ := enabled
      have clients : ∀ frame, state.service.client? action = some frame →
          action.mac = leader ∧ 8 ≤ frame.payload.length := by
        intro frame acts
        obtain ⟨here, first⟩ := oldest frame acts
        exact ⟨here, conveys.link frame (List.mem_of_head? first)⟩
      obtain ⟨leading, packets⟩ := Service.leading_step rewrite
        conveys.leading three leads possible apart clients
      refine ⟨leading, ?_, ?_⟩
      · intro frame member
        apply conveys.link
        simp only [WanService.step] at member
        split at member
        · exact List.mem_of_mem_tail member
        · exact member
      · have remaining : state.link.map Frame.content =
            (state.service.client? action).toList.map Frame.content ++
              (state.step rewrite linkPort (.act action)).link.map
                Frame.content := by
          simp only [WanService.step]
          cases acts : state.service.client? action with
          | none => rfl
          | some frame =>
              obtain ⟨rest, first⟩ :=
                List.head?_eq_some_iff.mp (oldest frame acts).2
              rw [first]
              rfl
        change state.offered = (state.service.step rewrite
          action).network.cluster.packets ++ _
        rw [packets, conveys.offered, List.append_assoc, ← remaining]

/-- A host is up to date with its node. -/
def UpToDate (knows : EthAddr → IPAddr → Prop) (mac : EthAddr) (port : Port)
    (state : WanService) : Prop :=
  List.Forall₂ (Readdressed rewrite knows) (state.service.received mac port)
    (state.service.network.cluster.processed mac)

/-- At some time in a run the node knew the host on a port by these addresses.
-/
def Knew (linkPort : Port) (N : Finset EthAddr) (leader : EthAddr)
    (state : WanService) (actions : List WanAction) (mac : EthAddr)
    (port : Port) (address : EthAddr) (dstip : IPAddr) : Prop :=
  ∃ earlier later, actions = earlier ++ later ∧
    (((system rewrite linkPort N leader).after state earlier).service.node
      mac).hostOn port = some (address, dstip)

theorem conveys_after (three : N.card = 3) (leads : leader ∈ N)
    (conveys : state.Conveys N leader) {actions : List WanAction}
    (run : (system rewrite linkPort N leader).Run state actions)
    (apart : (system rewrite linkPort N leader).Each (At Service.Apart) state
      actions)
    {mac : EthAddr} {port : Port}
    (host : (system rewrite linkPort N leader).Each
      (At (Service.HostOn mac port)) state actions)
    {knows : EthAddr → IPAddr → Prop}
    (known : ∀ address dstip,
      Knew rewrite linkPort N leader state actions mac port address dstip →
        knows address dstip)
    (upToDate : state.UpToDate rewrite knows mac port) :
    let finish := (system rewrite linkPort N leader).after state actions
    finish.Conveys N leader ∧ finish.UpToDate rewrite knows mac port := by
  induction actions generalizing state with
  | nil => exact ⟨conveys, upToDate⟩
  | cons action actions induction =>
      apply induction (conveys.step rewrite three leads run.1 apart.1) run.2
        apart.2 host.2
      · rintro address dstip ⟨earlier, later, rfl, found⟩
        exact known address dstip ⟨action :: earlier, later, rfl, found⟩
      · cases action with
        | upcall event => exact upToDate
        | act action =>
            exact Service.received_step rewrite conveys.leading.inStep run.1.1
              apart.1 host.1 (fun address dstip found =>
                known address dstip ⟨[], _, rfl, found⟩) upToDate

/-- Nothing has happened yet: the nodes have joined, and the leader is ready
for its first number. -/
structure Starts (N : Finset EthAddr) (leader : EthAddr)
    (state : WanService) : Prop where
  network : state.service.network.Starts N leader
  isleader : (state.service.node leader).isleader = true
  fresh : (state.service.node leader).leader = some { seqno := none }
  link : state.link = []
  offered : state.offered = []

theorem Starts.conveys (starts : state.Starts N leader) :
    state.Conveys N leader := by
  have silent := starts.network.cluster.log
  have empty : state.service.forget.cluster.log = [] := by
    simp only [Service.forget, silent]
    rfl
  refine ⟨⟨(Service.forget_starts starts.network).inStep, ?_,
    starts.isleader⟩, ?_, ?_⟩
  · constructor
    · rw [empty]
      rfl
    · rw [empty]
      exact starts.fresh
  · intro frame member
    rw [starts.link] at member
    cases member
  · rw [starts.link, starts.offered, Cluster.packets, silent]
    rfl

/-- The WAN switch is just started, and three nodes have a host each. -/
def threeNodes : WanService :=
  { wan := .new switchS1
    link := []
    offered := []
    service := Service.threeHosts }

/-- A node announces itself to the WAN switch. -/
def joinUpcall : WanPacketIn :=
  { port := 1
    single := by decide
    parsed :=
      { src := 1, dst := ETHER_BROADCAST, type := PaxosMessage.JOIN
        payload := [] }
    transport := false }

/-- A client on 10.0.0.21 sends a UDP packet to 10.0.0.11. -/
def clientUpcall : WanPacketIn :=
  { port := 2
    single := by decide
    parsed :=
      { src := 21, dst := 11, type := 0x0800
        payload := [0x45, 0, 0, 29, 0, 1, 0, 0, 64, 17, 102, 176, 10, 0, 0, 21,
          10, 0, 0, 11, 16, 0, 16, 1, 0, 9, 0, 0, 7] }
    transport := true }

/-- The packet gets to the host of the second node. -/
def firstOffer : List WanAction :=
  let raw := clientUpcall.parsed.raw
  [.upcall joinUpcall, .upcall clientUpcall,
    .act ⟨2, .deliver (ControlledSwitch.packetOf 12 11 2 1)⟩,
    .act ⟨1, .deliver ((WANController.wrapped clientUpcall).upcall 5)⟩,
    .act ⟨2, .deliver ((Frame.accept 1 2 4 0 raw).upcall 4)⟩,
    .act ⟨2, .deliver ((Frame.learn 1 2 4 0).upcall 4)⟩]

instance (N : Finset EthAddr) (leader : EthAddr) (state : WanService) :
    (action : WanAction) → Decidable (Enabled N leader state action)
  | .upcall _ => inferInstanceAs (Decidable True)
  | .act action => inferInstanceAs (Decidable (_ ∧
      ∀ frame ∈ state.service.client? action, _))

instance (N : Finset EthAddr) (leader : EthAddr) (state : WanService)
    (actions : List WanAction) :
    Decidable ((system rewrite linkPort N leader).Run state actions) :=
  inferInstanceAs (Decidable (System.Each (system rewrite linkPort N leader)
    (Enabled N leader) state actions))

instance (condition : Service → ServiceAction → Prop)
    [∀ service action, Decidable (condition service action)]
    (state : WanService) :
    (action : WanAction) → Decidable (state.At condition action)
  | .upcall _ => inferInstanceAs (Decidable True)
  | .act action => inferInstanceAs (Decidable (condition state.service action))

theorem firstOffer_runs :
    let system := system PacketLibrary.ipv4.rewrite 1 {1, 2, 3} 1
    system.Run threeNodes firstOffer ∧
      system.Each (At Service.Apart) threeNodes firstOffer ∧
      system.Each (At (Service.HostOn 2 1)) threeNodes firstOffer := by
  refine ⟨?_, ?_, ?_⟩
  · decide +kernel
  · decide +kernel
  · decide +kernel

end WanService

end SwitchPaxos

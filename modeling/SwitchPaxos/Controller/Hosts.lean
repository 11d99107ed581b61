import SwitchPaxos.Controller.Rewriting
import SwitchPaxos.Controller.Service
import Mathlib.Data.List.Forall2

/-!
# What the hosts get

A host is sent a packet for each call of `process_message` that was answered
True.  As the nodes process the client packets in the order in which the leader
numbered them, that is what any host gets to see of them.
-/

namespace SwitchPaxos

/-- What is left of an effect if nothing is sent to hosts, and if whether the
hosts are known is the only answer. -/
def Effect.mute (known : Bool) : Effect → List Effect
  | .command (.packetOut _ _) => []
  | .handed call => if call.answer = known then [.handed call] else []
  | effect => [effect]

/-- The effect stays if nothing is sent to hosts. -/
def Effect.Mute (known : Bool) (effect : Effect) : Prop :=
  effect.mute known = [effect]

namespace PaxosController

variable {known : Bool} {self : PaxosController} {event : PacketIn}

theorem mute_of_mem {effects : List Effect} {effect : Effect}
    (member : effect ∈ effects.flatMap (Effect.mute known)) :
    effect.Mute known := by
  obtain ⟨origin, -, mute⟩ := List.mem_flatMap.mp member
  rcases origin with _ | _ | _ | _ | call | (_ | _ | _ | _)
  case handed =>
    simp only [Effect.mute] at mute
    split at mute
    · next same =>
        rw [List.mem_singleton.mp mute]
        exact if_pos same
    · cases mute
  case command.packetOut => cases mute
  all_goals
    rw [List.mem_singleton.mp mute]
    rfl

private theorem viewed_mute (known : Bool) :
    Viewed (fun _ => True) (fun switch => switch) (Effect.mute known) where
  state _ _ _ := trivial
  leader _ _ _ := trivial
  toSelf _ _ := rfl
  numbered _ _ := rfl
  accepted _ _ _ := rfl
  sent _ _ _ _ := rfl

private theorem processQueue_mute (n : ℕ) :
    Handler.Translates (fun _ => True) (fun _ => True)
      (withSwitch fun switch => switch) (Effect.mute known)
      (processQueue (fun _ => known) n) (processQueue (fun _ => known) n) := by
  intro self _
  have answered : ∀ call ∈
      (Slots.processQueue (fun _ => known) n self.state.slots).effects,
      call.answer = known := by
    apply Slots.processQueue_induction (fun _ calls => ∀ call ∈ calls,
      call.answer = known) _ _ [] (List.forall_mem_nil _)
    all_goals
      intro reached calls slot before _ _ call member
      rcases List.mem_append.mp member with earlier | last
      · exact before call earlier
      · rw [List.mem_singleton.mp last]
        rfl
  have mute : (((Slots.processQueue (fun _ => known) n
      self.state.slots).effects).map Effect.handed).flatMap
        (Effect.mute known) =
      ((Slots.processQueue (fun _ => known) n
        self.state.slots).effects).map Effect.handed := by
    rw [List.flatMap_map, List.map_eq_flatMap]
    apply List.flatMap_congr
    intro call member
    exact if_pos (answered call member)
  refine ⟨?_, fun _ _ => trivial⟩
  simp only [processQueue, onSlots, Handler.zoom, mute]
  rfl

/-- Handling a message sends nothing to hosts, and hands packets over with the
answer there is. -/
theorem handlePaxos_mute (notJoin : event.parsed.type ≠ PaxosMessage.JOIN) :
    ∀ effect ∈ (handlePaxos (fun _ => known) event self).effects,
      effect.Mute known := by
  have walks := @processQueue_mute known
  have translates := (viewed_mute known).handlePaxos (viewed_mute known) event
    notJoin rfl (fun _ _ _ => trivial) (fun _ => walks) (fun _ => walks)
  rw [handlePaxosBy_processQueue] at translates
  have same := congrArg Outcome.effects (translates self trivial).1
  intro effect member
  exact mute_of_mem (same ▸ member)

theorem pump_mute :
    ∀ effect ∈ (pump (fun _ => known) self).effects, effect.Mute known := by
  have same := congrArg Outcome.effects
    (@processQueue_mute known self.state.crnd self trivial).1
  intro effect member
  exact mute_of_mem (same ▸ member)

end PaxosController

/-- `process_message` sends a frame out of a port. -/
def Effect.deliveredOn? (port : Port) : Effect → Option Frame
  | .command (.packetOut frame out) => if out = port then some frame else none
  | _ => none

def deliveredOn (port : Port) (log : List Effect) : List Frame :=
  log.filterMap (Effect.deliveredOn? port)

/-- The packets that `process_message` answered True for. -/
def answered (log : List Effect) : List (Option Bytes) :=
  ((calls log).filter (·.answer)).map (·.vval)

section Delivered

variable (rewrite : EthAddr → IPAddr → Option Bytes → Frame)

/-- The frame is the packet with the addresses of a host that is known. -/
def Readdressed (known : EthAddr → IPAddr → Prop) (frame : Frame)
    (v : Option Bytes) : Prop :=
  ∃ mac dstip, known mac dstip ∧ frame = rewrite mac dstip v

variable (port : Port) (first second : List Effect)
  (hosts : List (EthAddr × IPAddr × Port)) (v : Option Bytes)

theorem deliveredOn_append : deliveredOn port (first ++ second) =
    deliveredOn port first ++ deliveredOn port second :=
  List.filterMap_append

theorem answered_append :
    answered (first ++ second) = answered first ++ answered second := by
  simp [answered]

theorem deliveredOn_deliveries :
    deliveredOn port (hosts.map (PaxosController.delivery rewrite v)) =
      PaxosController.framesOn port
        (hosts.map (PaxosController.delivery rewrite v)) := by
  rw [deliveredOn, PaxosController.framesOn, List.filterMap_map,
    List.filterMap_map]
  rfl

theorem answered_deliveries :
    answered (hosts.map (PaxosController.delivery rewrite v)) = [] := by
  have silent : calls (hosts.map (PaxosController.delivery rewrite v)) =
      [] := by
    rw [calls, List.filterMap_map]
    exact List.filterMap_eq_nil_iff.mpr fun _ _ => rfl
  rw [answered, silent]
  rfl

variable {known : Bool} {self : PaxosController} {port}
  {knows : EthAddr → IPAddr → Prop}

/-- For each effect the host on a counted port is sent what was answered True
for. -/
private theorem deliveredOn_effect {effect : Effect}
    (stays : effect.Mute known)
    (counted : known = true → port ∈ self.countedPorts)
    (hosts : ∀ mac dstip, self.hostOn port = some (mac, dstip) →
      knows mac dstip) :
    List.Forall₂ (Readdressed rewrite knows)
      (deliveredOn port (PaxosController.served rewrite self.hosts effect))
      (answered (PaxosController.served rewrite self.hosts effect)) := by
  rcases effect with _ | _ | _ | _ | call | (_ | _ | _ | _)
  case handed =>
    have same : call.answer = known := by
      by_contra other
      rw [Effect.Mute, Effect.mute, if_neg other] at stays
      cases stays
    rw [PaxosController.served, deliveredOn_append, answered_append]
    cases answer : call.answer with
    | false =>
        have refused : answered [.handed call] = [] := by
          simp [answered, calls, Effect.handed?, answer]
        rw [refused]
        exact .nil
    | true =>
        obtain ⟨mac, dstip, host, sent⟩ :=
          PaxosController.framesOn_counted rewrite call.vval self
            (counted (same.symm.trans answer))
        have accepted : answered [.handed call] = [call.vval] := by
          simp [answered, calls, Effect.handed?, answer]
        rw [if_pos rfl, deliveredOn_deliveries, answered_deliveries, sent,
          accepted]
        exact .cons ⟨mac, dstip, hosts mac dstip host, rfl⟩ .nil
  case command.packetOut => cases stays
  all_goals exact .nil

theorem deliveredOn_served {effects : List Effect}
    (mute : ∀ effect ∈ effects, effect.Mute known)
    (counted : known = true → port ∈ self.countedPorts)
    (hosts : ∀ mac dstip, self.hostOn port = some (mac, dstip) →
      knows mac dstip) :
    let log := effects.flatMap (PaxosController.served rewrite self.hosts)
    List.Forall₂ (Readdressed rewrite knows) (deliveredOn port log)
      (answered log) := by
  induction effects with
  | nil => exact .nil
  | cons effect effects induction =>
      obtain ⟨stays, others⟩ := List.forall_mem_cons.mp mute
      dsimp only
      rw [List.flatMap_cons, deliveredOn_append, answered_append]
      exact List.rel_append (deliveredOn_effect rewrite stays counted hosts)
        (induction others)

end Delivered

namespace Service

/-- What the host on a port of a node is sent for client packets. -/
def received (mac : EthAddr) (port : Port) (service : Service) : List Frame :=
  deliveredOn port (service.network.cluster.logOf mac)

/-- Once the node knows its hosts, one of them is on the port. -/
def HostOn (mac : EthAddr) (port : Port) (service : Service)
    (action : ServiceAction) : Prop :=
  let found := action.event.finds (service.node action.mac)
  action.mac = mac → found.hostAddressesKnown = true →
    port ∈ found.countedPorts

instance (mac : EthAddr) (port : Port) (service : Service)
    (action : ServiceAction) : Decidable (service.HostOn mac port action) :=
  inferInstanceAs (Decidable (_ → _ → _))

section Forget

variable (service : Service) (mac : EthAddr)

theorem logOf_forget : service.forget.cluster.logOf mac =
    (service.network.cluster.logOf mac).flatMap Effect.blur := by
  simp only [Cluster.logOf, forget]
  induction service.network.cluster.log with
  | nil => rfl
  | cons entry log induction =>
      rw [List.flatMap_cons, List.filter_append, List.map_append, induction]
      by_cases here : entry.1 = mac
      · simp [here, List.filter_map, Function.comp_def]
      · simp [here, List.filter_map, Function.comp_def]

theorem processed_forget : service.forget.cluster.processed mac =
    service.network.cluster.processed mac := by
  rw [Cluster.processed, Cluster.processed, logOf_forget, calls_blur]

theorem packets_forget : service.forget.cluster.packets =
    service.network.cluster.packets := by
  have same : numbers service.forget.cluster.log =
      numbers service.network.cluster.log := by
    rw [numbers, numbers, forget, List.filterMap_flatMap,
      List.filterMap_eq_flatMap_toList]
    apply List.flatMap_congr
    rintro ⟨at_, _ | _ | _ | _ | _ | (_ | _ | _ | _)⟩ _ <;> rfl
  rw [Cluster.packets, Cluster.packets, same]

end Forget

section Step

variable {N : Finset EthAddr} {leader : EthAddr} {service : Service}
  {action : ServiceAction} (rewrite : EthAddr → IPAddr → Option Bytes → Frame)

theorem logOf_step (mac : EthAddr) :
    (service.step rewrite action).network.cluster.logOf mac =
      service.network.cluster.logOf mac ++
        if mac = action.mac then
          (action.event.handle rewrite (service.node action.mac)).effects
        else [] := by
  have recorded := service.network.cluster.logOf_put action.mac mac
    (action.event.handle rewrite (service.node action.mac)).state
    (action.event.handle rewrite (service.node action.mac)).effects
  unfold step
  dsimp only
  split
  · refine (Cluster.logOf_put ..).trans ?_
    rw [ite_self, List.append_nil]
    exact recorded
  · exact recorded

/-- What a handler does is what it does while it answers for
`process_message`, and what it sends to the hosts then. -/
private theorem handle_served {mac : EthAddr} {event : ServiceEvent}
    (inStep : service.forget.InStep N leader)
    (enabled : Enabled N service ⟨mac, event⟩)
    (apart : service.Apart ⟨mac, event⟩) :
    let self := service.node mac
    ∃ effects : List Effect, (∀ effect ∈ effects,
        effect.Mute (event.finds self).hostAddressesKnown) ∧
      (event.handle rewrite self).effects =
        effects.flatMap (PaxosController.served rewrite self.hosts) := by
  intro self
  cases event with
  | deliver frame =>
      have other := notJoin inStep enabled
      have serves := PaxosController.handlePaxosBy_serveQueue rewrite self
        frame other
        fun known => PaxosController.hostsApart_asked.mp (apart known)
      refine ⟨_, @PaxosController.handlePaxos_mute _ self frame other, ?_⟩
      rw [ServiceEvent.handle, serves]
      rfl
  | pump =>
      have serves := PaxosController.pumpBy_serveQueue rewrite self apart
      refine ⟨_, @PaxosController.pump_mute _ self, ?_⟩
      rw [ServiceEvent.handle, Handler.bind_apply, serves,
        Handler.andThen_pure]
      rfl
  | collect n => exact ⟨[], List.forall_mem_nil _, rfl⟩

theorem finds_hosts (event : ServiceEvent) (self : PaxosController) :
    (event.finds self).countedPorts = self.countedPorts := by
  cases event with
  | deliver frame =>
      unfold ServiceEvent.finds PaxosController.asked
      dsimp only
      split <;> rfl
  | pump => rfl
  | collect n => rfl

/-- A host stays up to date with its node. -/
theorem received_step {mac : EthAddr} {port : Port}
    {knows : EthAddr → IPAddr → Prop}
    (inStep : service.forget.InStep N leader)
    (enabled : Enabled N service action) (apart : service.Apart action)
    (host : service.HostOn mac port action)
    (known : ∀ address dstip,
      (service.node mac).hostOn port = some (address, dstip) →
        knows address dstip)
    (received : List.Forall₂ (Readdressed rewrite knows)
      (service.received mac port) (service.network.cluster.processed mac)) :
    List.Forall₂ (Readdressed rewrite knows)
      ((service.step rewrite action).received mac port)
      ((service.step rewrite action).network.cluster.processed mac) := by
  obtain ⟨at_, event⟩ := action
  change List.Forall₂ _ (deliveredOn port _) (answered _)
  rw [logOf_step, deliveredOn_append, answered_append]
  apply List.rel_append received
  split
  · next here =>
      subst here
      obtain ⟨effects, mute, same⟩ :=
        handle_served rewrite inStep enabled apart
      rw [same]
      refine deliveredOn_served rewrite mute ?_ known
      intro found
      rw [← finds_hosts event]
      exact host rfl found
  · exact .nil

end Step

section Run

variable {N : Finset EthAddr} {leader : EthAddr} {service : Service}
  (rewrite : EthAddr → IPAddr → Option Bytes → Frame)

theorem forget_starts (starts : service.network.Starts N leader) :
    service.forget.Starts N leader := by
  obtain ⟨⟨⟨macs, nodes, joined, isleader⟩, slots, log⟩, channels, member,
    rounds⟩ := starts
  refine ⟨⟨⟨macs, nodes, joined, isleader⟩, slots, ?_⟩, channels, member,
    rounds⟩
  simp only [forget, log]
  rfl

/-- Three nodes that serve their hosts do, message by message, what three nodes
do that answer for `process_message`. -/
theorem served_as_answered (three : N.card = 3)
    (starts : service.network.Starts N leader) {actions : List ServiceAction}
    (run : (system rewrite N).Run service actions)
    (apart : (system rewrite N).Each Apart service actions) :
    let moves := (system rewrite N).trace seen service actions
    (Network.system N).Run service.forget moves ∧
      ((system rewrite N).after service actions).forget =
        (Network.system N).after service.forget moves := by
  have inStep := (forget_starts starts).inStep
  exact (simulates rewrite).run
    (fun _ _ inStep enabled => inStep.step three starts.member enabled) inStep
    run apart

/-- At some time in a run the node knew the host on a port by these addresses.
-/
def Knew (N : Finset EthAddr) (service : Service)
    (actions : List ServiceAction) (mac : EthAddr) (port : Port)
    (address : EthAddr) (dstip : IPAddr) : Prop :=
  ∃ earlier later, actions = earlier ++ later ∧
    (((system rewrite N).after service earlier).node mac).hostOn port =
      some (address, dstip)

theorem received_after (three : N.card = 3) (leads : leader ∈ N)
    (inStep : service.forget.InStep N leader) {actions : List ServiceAction}
    (run : (system rewrite N).Run service actions)
    (apart : (system rewrite N).Each Apart service actions) {mac : EthAddr}
    {port : Port}
    (host : (system rewrite N).Each (HostOn mac port) service actions)
    {knows : EthAddr → IPAddr → Prop}
    (known : ∀ address dstip,
      Knew rewrite N service actions mac port address dstip →
        knows address dstip)
    (received : List.Forall₂ (Readdressed rewrite knows)
      (service.received mac port) (service.network.cluster.processed mac)) :
    let finish := (system rewrite N).after service actions
    finish.forget.InStep N leader ∧ List.Forall₂ (Readdressed rewrite knows)
      (finish.received mac port) (finish.network.cluster.processed mac) := by
  induction actions generalizing service with
  | nil => exact ⟨inStep, received⟩
  | cons action actions induction =>
      have received' := received_step rewrite inStep run.1 apart.1 host.1
        (fun address dstip found =>
          known address dstip ⟨[], _, rfl, found⟩) received
      obtain ⟨inStep', -⟩ := (simulates rewrite).step
        (fun _ _ inStep enabled => inStep.step three leads enabled) inStep
        run.1 apart.1
      refine induction inStep' run.2 apart.2 host.2 ?_ received'
      rintro address dstip ⟨earlier, later, rfl, found⟩
      exact known address dstip ⟨action :: earlier, later, rfl, found⟩

theorem received_packets (three : N.card = 3)
    (starts : service.network.Starts N leader) {actions : List ServiceAction}
    (run : (system rewrite N).Run service actions)
    (apart : (system rewrite N).Each Apart service actions) {mac : EthAddr}
    (member : mac ∈ N) {port : Port}
    (host : (system rewrite N).Each (HostOn mac port) service actions) :
    let finish := (system rewrite N).after service actions
    ∃ sofar, sofar <+: finish.network.cluster.packets ∧
      List.Forall₂
        (Readdressed rewrite (Knew rewrite N service actions mac port))
        (finish.received mac port) (sofar.map some) := by
  intro finish
  have silent : service.network.cluster.logOf mac = [] := by
    rw [Cluster.logOf, starts.cluster.log]
    rfl
  obtain ⟨inStep, received⟩ := received_after rewrite three starts.member
    (forget_starts starts).inStep run apart host (fun _ _ known => known) (by
      rw [Service.received, Cluster.processed, silent]
      exact .nil)
  have order := inStep.processed_packets member
  rw [processed_forget, packets_forget] at order
  refine ⟨_, List.take_prefix
    (finish.network.cluster.processed mac).length _, ?_⟩
  rw [List.map_take, ← List.prefix_iff_eq_take.mp order]
  exact received

end Run

section Hosts

variable {N : Finset EthAddr} {leader : EthAddr} {service : Service}
  (library : PacketLibrary)

/-- The frame is the packet, sent to a host by addresses that are known and with
nothing else rewritten but checksums. -/
def Delivered (knows : EthAddr → IPAddr → Prop) (frame : Frame)
    (v : Option Bytes) : Prop :=
  ∃ mac dstip packet, knows mac dstip ∧
    Parsed.Redirected mac dstip (library.ethernet v) packet ∧
      frame = library.frame packet

theorem delivered_of_readdressed {knows : EthAddr → IPAddr → Prop}
    {frame : Frame} {v : Option Bytes}
    (readdressed : Readdressed library.rewrite knows frame v) :
    Delivered library knows frame v := by
  obtain ⟨mac, dstip, known, rfl⟩ := readdressed
  exact ⟨mac, dstip, _, known, library.redirected mac dstip v, rfl⟩

/-- Whichever nodes two hosts are behind, they are sent the same packets, each
of them once and in the order in which the leader numbered them.  Nothing but
destinations is rewritten, to addresses that the nodes knew the hosts by.  One
of the hosts may be ahead of the other. -/
theorem hosts_agree (three : N.card = 3)
    (starts : service.network.Starts N leader) {actions : List ServiceAction}
    (run : (system library.rewrite N).Run service actions)
    (apart : (system library.rewrite N).Each Apart service actions)
    {mac other : EthAddr} (member : mac ∈ N) (otherMember : other ∈ N)
    {port otherPort : Port}
    (host : (system library.rewrite N).Each (HostOn mac port) service actions)
    (otherHost : (system library.rewrite N).Each (HostOn other otherPort)
      service actions) :
    let finish := (system library.rewrite N).after service actions
    let knew := Knew library.rewrite N service actions
    ∃ first second,
      List.Forall₂ (Delivered library (knew mac port))
        (finish.received mac port) (first.map some) ∧
      List.Forall₂ (Delivered library (knew other otherPort))
        (finish.received other otherPort) (second.map some) ∧
      first <+: finish.network.cluster.packets ∧
      second <+: finish.network.cluster.packets ∧
      (first <+: second ∨ second <+: first) := by
  intro finish knew
  obtain ⟨first, order, received⟩ :=
    received_packets library.rewrite three starts run apart member host
  obtain ⟨second, otherOrder, otherReceived⟩ :=
    received_packets library.rewrite three starts run apart otherMember
      otherHost
  refine ⟨first, second, ?_, ?_, order, otherOrder,
    List.prefix_or_prefix_of_prefix order otherOrder⟩
  · exact received.imp fun _ _ => delivered_of_readdressed library
  · exact otherReceived.imp fun _ _ => delivered_of_readdressed library

end Hosts

/-- A node that joined, with a host on port 1 and the other nodes behind port
4. -/
def hostNode (name : String) (own : EthAddr) (ports : Finset Port)
    (others : List EthAddr) (crnd : ℕ) (leader : Option Leader) :
    PaxosController :=
  { PaxosController.ready name own {1, 2, 3} crnd leader with
    connection :=
      { ports := insert 65534 ports
        desc := fun _ => ⟨own, name⟩
        nonempty := Finset.insert_nonempty _ _ }
    paxosPorts := Dict.display (others.map fun mac => (mac, 4)) }

/-- Three nodes with a host each, and the WAN on port 5 of the first one. -/
def threeHosts : Service :=
  { network :=
      { cluster :=
          { nodes := fun mac =>
              if mac = 1 then
                hostNode "S1" 1 {1, 4, 5} [2, 3] 4 (some { seqno := none })
              else if mac = 2 then hostNode "S2" 2 {1, 4} [1, 3] 2 none
              else hostNode "S3" 3 {1, 4} [1, 2] 3 none
            log := [] }
        channels := fun _ _ => [] }
    forwarded := [] }

theorem threeHosts_starts : threeHosts.network.Starts {1, 2, 3} 1 := by
  have each : ∀ {holds : EthAddr → Prop}, holds 1 → holds 2 → holds 3 →
      ∀ mac ∈ ({1, 2, 3} : Finset EthAddr), holds mac := by
    intro holds first second third mac member
    simp only [Finset.mem_insert, Finset.mem_singleton] at member
    rcases member with rfl | rfl | rfl
    · exact first
    · exact second
    · exact third
  refine ⟨⟨⟨each rfl rfl rfl, each rfl rfl rfl, each rfl rfl rfl,
    each ?_ ?_ ?_⟩, each rfl rfl rfl, rfl⟩, fun _ _ => rfl, by simp,
    each ?_ ?_ ?_⟩
  · intro _
    rfl
  · intro isleader
    exact absurd isleader (by decide)
  · intro isleader
    exact absurd isleader (by decide)
  · exact le_refl 4
  · exact (by decide : 2 ≤ 4)
  · exact (by decide : 3 ≤ 4)

/-- The hosts of the first two nodes send something, so their nodes know them;
then a client packet comes in. -/
def firstPacket (v : Bytes) : List ServiceAction :=
  [⟨1, .deliver (ControlledSwitch.packetOf 11 12 1 1)⟩,
    ⟨2, .deliver (ControlledSwitch.packetOf 12 11 2 1)⟩,
    ⟨1, .deliver ((Frame.client 21 11 v).upcall 5)⟩,
    ⟨2, .deliver ((Frame.accept 1 2 4 0 v).upcall 4)⟩,
    ⟨2, .deliver ((Frame.learn 1 2 4 0).upcall 4)⟩,
    ⟨1, .deliver ((Frame.learn 2 1 4 0).upcall 4)⟩]

/-- The nodes know their hosts by the time they process the packet. -/
theorem firstPacket_runs :
    let system := system ControlledSwitch.readdressed {1, 2, 3}
    system.Run threeHosts (firstPacket [7]) ∧
      system.Each Apart threeHosts (firstPacket [7]) ∧
      system.Each (HostOn 1 1) threeHosts (firstPacket [7]) ∧
      system.Each (HostOn 2 1) threeHosts (firstPacket [7]) := by
  refine ⟨?_, ?_, ?_, ?_⟩
  · decide +kernel
  · decide +kernel
  · decide +kernel
  · decide +kernel

theorem served_as_answered_first :
    let system := system ControlledSwitch.readdressed {1, 2, 3}
    let moves := system.trace seen threeHosts (firstPacket [7])
    moves.length = 4 ∧
      (Network.system {1, 2, 3}).Run threeHosts.forget moves ∧
      (system.after threeHosts (firstPacket [7])).forget =
        (Network.system {1, 2, 3}).after threeHosts.forget moves := by
  intro system moves
  obtain ⟨run, apart, -⟩ := firstPacket_runs
  refine ⟨by decide +kernel, ?_⟩
  exact served_as_answered ControlledSwitch.readdressed (by decide)
    threeHosts_starts run apart

/-- A client on 10.0.0.21 sends an IP datagram to 10.0.0.11. -/
def datagram : Bytes :=
  [0, 0, 0, 0, 0, 11, 0, 0, 0, 0, 0, 21, 8, 0, 0x45, 0, 0, 21, 0, 1, 0, 0, 64,
    253, 101, 204, 10, 0, 0, 21, 10, 0, 0, 11, 7]

theorem datagram_runs :
    let system := system PacketLibrary.ipv4.rewrite {1, 2, 3}
    system.Run threeHosts (firstPacket datagram) ∧
      system.Each Apart threeHosts (firstPacket datagram) ∧
      system.Each (HostOn 1 1) threeHosts (firstPacket datagram) ∧
      system.Each (HostOn 2 1) threeHosts (firstPacket datagram) := by
  refine ⟨?_, ?_, ?_, ?_⟩
  · decide +kernel
  · decide +kernel
  · decide +kernel
  · decide +kernel

/-- The packet is sent to each host with its addresses and a new checksum. -/
theorem hosts_agree_first :
    let finish := (system PacketLibrary.ipv4.rewrite {1, 2, 3}).after
      threeHosts (firstPacket datagram)
    let knew := Knew PacketLibrary.ipv4.rewrite {1, 2, 3} threeHosts
      (firstPacket datagram)
    finish.received 1 1 = [⟨21, 11, 0x0800, [0x45, 0, 0, 21, 0, 1, 0, 0, 64,
        253, 111, 214, 10, 0, 0, 21, 0, 0, 0, 1, 7]⟩] ∧
      finish.received 2 1 = [⟨21, 12, 0x0800, [0x45, 0, 0, 21, 0, 1, 0, 0, 64,
        253, 111, 213, 10, 0, 0, 21, 0, 0, 0, 2, 7]⟩] ∧
      ∃ first second,
        List.Forall₂ (Delivered PacketLibrary.ipv4 (knew 1 1))
          (finish.received 1 1) (first.map some) ∧
        List.Forall₂ (Delivered PacketLibrary.ipv4 (knew 2 1))
          (finish.received 2 1) (second.map some) ∧
        first <+: finish.network.cluster.packets ∧
        second <+: finish.network.cluster.packets ∧
        (first <+: second ∨ second <+: first) := by
  obtain ⟨run, apart, host, otherHost⟩ := datagram_runs
  dsimp only
  refine ⟨by decide +kernel, by decide +kernel, ?_⟩
  exact hosts_agree PacketLibrary.ipv4 (by decide) threeHosts_starts run apart
    (by simp) (by simp) host otherHost

end Service

end SwitchPaxos

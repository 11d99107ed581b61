import SwitchPaxos.Base.Sorted
import SwitchPaxos.Controller.Flows

/-!
# Delivery to the hosts

`process_message` sends a packet the nodes agreed on to the hosts, once it
knows the addresses of all of them.  Whether it does is decided by a count:
the ports with a known host against the number of ports that are left when
those to Paxos nodes, to the WAN and to the switch itself are taken off.
-/

namespace SwitchPaxos.PaxosController

/-- The loops over the ports skip links to Paxos nodes and the interface of
the switch. -/
def skips (port : Port) (self : PaxosController) : Bool :=
  port ∈ self.paxosPorts.values || 65000 < port

/-- The addresses of the host on a port, if there is one address only and its
IP address is known. -/
def hostOn (port : Port) (self : PaxosController) :
    Option (EthAddr × IPAddr) :=
  match self.switch.portToMac port with
  | some [mac] => (self.switch.macToIp mac).map fun ip => (mac, ip)
  | _ => none

/-- The ports `host_addresses_known` counts. -/
def countedPorts (self : PaxosController) : Finset Port :=
  self.connection.ports.filter fun port =>
    self.skips port = false ∧ (self.hostOn port).isSome

def wanPorts (self : PaxosController) : ℕ :=
  if self.wanPort.isSome then 1 else 0

def hostAddressesKnown (self : PaxosController) : Bool :=
  let count := self.countedPorts.card
  let paxosPorts := self.paxosPorts.values.toFinset.card
  let totalPorts := self.connection.ports.card
  let switchPorts := 1
  let expected : ℤ := totalPorts - paxosPorts - self.wanPorts - switchPorts
  (count : ℤ) = expected

def hosts (self : PaxosController) : List (EthAddr × IPAddr × Port) :=
  (sorted self.connection.ports).filterMap fun port =>
    if self.skips port then none
    else (self.hostOn port).map fun host => (host.1, host.2, port)

section ProcessMessage

-- `rewrite_destinations`: the addresses of a host, and the packet to rewrite.
variable (rewrite : EthAddr → IPAddr → Option Bytes → Frame)

/-- The body of the loop of `process_message`. -/
def forwardTo (v : Option Bytes) (host : EthAddr × IPAddr × Port) :
    Handler Unit := do
  let self ← Handler.get
  if host.1 ∈ self.paxosPorts then Handler.raise .assertNotPaxos
  else Handler.emit (.command (.packetOut (rewrite host.1 host.2.1 v) host.2.2))

/-- The round and the sequence number are for the log only. -/
def processMessage (_n _seqno : ℕ) (v : Option Bytes) : Handler Bool := do
  let self ← Handler.get
  if !self.hostAddressesKnown then return false
  else do
    Handler.forEach (forwardTo rewrite v) self.hosts
    return true

end ProcessMessage

/-- The ports with a host behind them. -/
def endHostPorts (self : PaxosController) : Finset Port :=
  self.connection.ports.filter fun port =>
    port ≤ 65000 ∧ port ∉ self.paxosPorts.values ∧ self.wanPort ≠ some port

/-- The frames that are output on a port. -/
def framesOn (port : Port) (effects : List Effect) : List Frame :=
  effects.filterMap fun effect =>
    match effect with
    | .command (.packetOut frame out) => if out = port then some frame else none
    | .sent frame out => if out = port then some frame else none
    | _ => none

/-- If `process_message` returns `True`, each host was sent the packet once,
with rewritten addresses, and nobody else was sent anything. -/
def Delivers (rewrite : EthAddr → IPAddr → Option Bytes → Frame)
    (n seqno : ℕ) (v : Option Bytes) (self : PaxosController) : Prop :=
  (processMessage rewrite n seqno v self).result = .ok true →
    (∀ port ∈ self.endHostPorts, ∃ mac dstip,
      framesOn port (processMessage rewrite n seqno v self).effects =
        [rewrite mac dstip v]) ∧
    ∀ port ∉ self.endHostPorts,
      framesOn port (processMessage rewrite n seqno v self).effects = []

/-- No host has the address of a Paxos node, as the loop asserts. -/
def HostsApart (self : PaxosController) : Prop :=
  ∀ host ∈ self.hosts, host.1 ∉ self.paxosPorts

/-- The count cannot go wrong: the port to the WAN is not counted as a host,
and the ports are those with a host, those to Paxos nodes, the one to the WAN
and the one of the switch. -/
structure Accounted (node : PaxosController) : Prop where
  wanNotCounted : ∀ port ∈ node.countedPorts, node.wanPort ≠ some port
  ports : node.connection.ports.card =
    node.endHostPorts.card + node.paxosPorts.values.toFinset.card +
      node.wanPorts + 1

section Counting

variable (self : PaxosController) {port : Port}

theorem mem_countedPorts :
    port ∈ self.countedPorts ↔
      port ∈ self.connection.ports ∧ self.skips port = false ∧
        (self.hostOn port).isSome := by
  simp [countedPorts]

theorem mem_endHostPorts :
    port ∈ self.endHostPorts ↔
      port ∈ self.connection.ports ∧ self.skips port = false ∧
        self.wanPort ≠ some port := by
  simp only [endHostPorts, skips, Finset.mem_filter, Bool.or_eq_false_iff,
    decide_eq_false_iff_not, Nat.not_lt]
  constructor
  · rintro ⟨member, small, notPaxos, notWan⟩
    exact ⟨member, ⟨notPaxos, small⟩, notWan⟩
  · rintro ⟨member, ⟨notPaxos, small⟩, notWan⟩
    exact ⟨member, small, notPaxos, notWan⟩

theorem hostAddressesKnown_iff :
    self.hostAddressesKnown = true ↔
      self.countedPorts.card + self.paxosPorts.values.toFinset.card +
        self.wanPorts + 1 = self.connection.ports.card := by
  rw [hostAddressesKnown, decide_eq_true_iff]
  omega

/-- Once the count is as expected, the counted ports are those with a host
behind them exactly if nothing in the count can go wrong. -/
theorem countedPorts_eq_iff (known : self.hostAddressesKnown = true) :
    self.countedPorts = self.endHostPorts ↔ self.Accounted := by
  rw [hostAddressesKnown_iff] at known
  constructor
  · intro same
    refine ⟨?_, by rw [← same]; omega⟩
    intro port counted
    rw [same, mem_endHostPorts] at counted
    exact counted.2.2
  · rintro ⟨wanNotCounted, ports⟩
    apply Finset.eq_of_subset_of_card_le
    · intro port counted
      have notWan := wanNotCounted port counted
      obtain ⟨member, notSkipped, _⟩ := self.mem_countedPorts.mp counted
      exact self.mem_endHostPorts.mpr ⟨member, notSkipped, notWan⟩
    · omega

end Counting

section Sending

variable (rewrite : EthAddr → IPAddr → Option Bytes → Frame) (n seqno : ℕ)
  (v : Option Bytes) (self : PaxosController)

/-- What is sent to one host. -/
def delivery (host : EthAddr × IPAddr × Port) : Effect :=
  .command (.packetOut (rewrite host.1 host.2.1 v) host.2.2)

theorem processMessage_postponed (unknown : self.hostAddressesKnown = false) :
    processMessage rewrite n seqno v self = ⟨.ok false, self, []⟩ := by
  simp [processMessage, unknown]

theorem processMessage_known (known : self.hostAddressesKnown = true) :
    processMessage rewrite n seqno v self =
      (Handler.forEach (forwardTo rewrite v) self.hosts self).andThen
        fun _ => pure true := by
  simp [processMessage, known]

theorem processMessage_sends (known : self.hostAddressesKnown = true)
    (apart : self.HostsApart) :
    processMessage rewrite n seqno v self =
      ⟨.ok true, self, self.hosts.map (delivery rewrite v)⟩ := by
  have sends := Handler.forEach_emit (delivery rewrite v)
    (forwardTo rewrite v) self self.hosts (by
      intro host member
      simp [forwardTo, apart host member, delivery])
  simp [processMessage_known rewrite n seqno v self known, sends]

theorem forwardTo_raises {hosts : List (EthAddr × IPAddr × Port)}
    {host : EthAddr × IPAddr × Port} (member : host ∈ hosts)
    (paxos : host.1 ∈ self.paxosPorts) :
    (Handler.forEach (forwardTo rewrite v) hosts self).Raised := by
  induction hosts with
  | nil => exact absurd member List.not_mem_nil
  | cons first hosts induction =>
      by_cases stops : first.1 ∈ self.paxosPorts
      · simp [Handler.forEach, forwardTo, stops]
      · have later : host ∈ hosts := by
          rcases List.mem_cons.mp member with rfl | later
          · exact absurd paxos stops
          · exact later
        simpa [Handler.forEach, forwardTo, stops] using induction later

theorem processMessage_returns_iff :
    (processMessage rewrite n seqno v self).result = .ok true ↔
      self.hostAddressesKnown = true ∧ self.HostsApart := by
  constructor
  · intro returns
    by_cases known : self.hostAddressesKnown = true
    · refine ⟨known, ?_⟩
      intro host member paxos
      obtain ⟨exception, raised⟩ :=
        forwardTo_raises rewrite v self member paxos
      rw [processMessage_known rewrite n seqno v self known,
        Handler.andThen_pure] at returns
      simp [raised] at returns
    · rw [Bool.not_eq_true] at known
      rw [processMessage_postponed rewrite n seqno v self known] at returns
      cases returns
  · rintro ⟨known, apart⟩
    rw [processMessage_sends rewrite n seqno v self known apart]

/-- `process_message` leaves the node as it is, which is why the walk of the
queue may take its answers from a function. -/
theorem processMessage_state :
    (processMessage rewrite n seqno v self).state = self := by
  have kept : Handler.Keeps (fun node => node = self) (fun _ => True)
      (processMessage rewrite n seqno v) := by
    refine Handler.keeps_get fun node _ => ?_
    refine Handler.Keeps.ite (fun _ => Handler.keeps_pure false) fun _ => ?_
    refine (Handler.keeps_forEach _ fun host => ?_).bind fun _ =>
      Handler.keeps_pure true
    refine Handler.keeps_get fun node _ => ?_
    refine Handler.Keeps.ite (fun _ => ?_) fun _ => ?_
    · exact Handler.keeps_raise Failure.assertNotPaxos
    · exact Handler.keeps_emit trivial
  exact (kept self rfl).1

theorem framesOn_deliveries (port : Port) :
    framesOn port (self.hosts.map (delivery rewrite v)) =
      if port ∈ self.countedPorts then
        ((self.hostOn port).map fun host => rewrite host.1 host.2 v).toList
      else [] := by
  have picked := filterMap_pick (sorted_nodup self.connection.ports) port
    fun other =>
      if self.skips other then none
      else (self.hostOn other).map fun host => rewrite host.1 host.2 v
  have pointwise : ∀ other, ((if self.skips other then none
      else (self.hostOn other).map fun host => (host.1, host.2, other)).bind
        fun host => if host.2.2 = port then
          some (rewrite host.1 host.2.1 v) else none) =
      if other = port then
        (if self.skips other then none
        else (self.hostOn other).map fun host => rewrite host.1 host.2 v)
      else none := by
    intro other
    by_cases skipped : self.skips other = true
    · simp [skipped]
    · by_cases same : other = port
      · subst same
        cases self.hostOn other <;> simp [skipped]
      · cases self.hostOn other <;> simp [skipped, same]
  have composed : framesOn port (self.hosts.map (delivery rewrite v)) =
      (sorted self.connection.ports).filterMap fun other =>
        if other = port then
          (if self.skips other then none
          else (self.hostOn other).map fun host => rewrite host.1 host.2 v)
        else none := by
    rw [← funext pointwise]
    simp only [framesOn, hosts, List.filterMap_map, List.filterMap_filterMap]
    rfl
  rw [composed, picked]
  by_cases member : port ∈ self.connection.ports
  · by_cases skipped : self.skips port = true
    · simp [member, skipped, mem_countedPorts]
    · cases host : self.hostOn port <;>
        simp [member, skipped, mem_countedPorts, host]
  · simp [member, mem_countedPorts]

theorem framesOn_counted {port : Port} (counted : port ∈ self.countedPorts) :
    ∃ mac dstip, self.hostOn port = some (mac, dstip) ∧
      framesOn port (self.hosts.map (delivery rewrite v)) =
        [rewrite mac dstip v] := by
  obtain ⟨host, found⟩ :=
    Option.isSome_iff_exists.mp (self.mem_countedPorts.mp counted).2.2
  refine ⟨host.1, host.2, found, ?_⟩
  rw [framesOn_deliveries, if_pos counted, found]
  rfl

theorem deliveries_iff :
    ((∀ port ∈ self.endHostPorts, ∃ mac dstip,
        framesOn port (self.hosts.map (delivery rewrite v)) =
          [rewrite mac dstip v]) ∧
      ∀ port ∉ self.endHostPorts,
        framesOn port (self.hosts.map (delivery rewrite v)) = []) ↔
      self.countedPorts = self.endHostPorts := by
  constructor
  · rintro ⟨once, nowhere⟩
    ext port
    by_cases counted : port ∈ self.countedPorts
    · obtain ⟨mac, dstip, -, sent⟩ := framesOn_counted rewrite v self counted
      refine ⟨fun _ => ?_, fun _ => counted⟩
      by_contra other
      rw [nowhere port other] at sent
      cases sent
    · refine ⟨fun member => absurd member counted, ?_⟩
      intro host
      obtain ⟨mac, dstip, sent⟩ := once port host
      rw [framesOn_deliveries, if_neg counted] at sent
      cases sent
  · intro same
    rw [← same]
    refine ⟨?_, ?_⟩
    · intro port counted
      obtain ⟨mac, dstip, -, sent⟩ := framesOn_counted rewrite v self counted
      exact ⟨mac, dstip, sent⟩
    · intro port notCounted
      rw [framesOn_deliveries, if_neg notCounted]

/-- `process_message` delivers exactly if nothing in the count can go wrong
when it returns `True`. -/
theorem delivers_iff :
    self.Delivers rewrite n seqno v ↔
      (self.hostAddressesKnown = true → self.HostsApart →
        self.Accounted) := by
  rw [Delivers, processMessage_returns_iff, and_imp]
  constructor
  · intro delivers known apart
    have sent := delivers known apart
    rw [processMessage_sends rewrite n seqno v self known apart,
      deliveries_iff, countedPorts_eq_iff self known] at sent
    exact sent
  · intro accounted known apart
    rw [processMessage_sends rewrite n seqno v self known apart,
      deliveries_iff, countedPorts_eq_iff self known]
    exact accounted known apart

end Sending

/-- Frames come in on the ports of a switch but for its own. -/
def Wired (connection : Connection) (port : Port) : Prop :=
  port ∈ connection.ports ∧ port ≤ 65000

/-- All ports a node has learned are ports of its switch. -/
structure Placed (connection : Connection) (node : PaxosController) :
    Prop where
  sameSwitch : node.connection = connection
  paxosPorts : ∀ port ∈ node.paxosPorts.values, Wired connection port
  wanPort : ∀ port, node.wanPort = some port → Wired connection port

section Placed

variable {connection : Connection} {self : PaxosController}

theorem stable_placed : Stable (Wired connection) (Placed connection) := by
  refine ⟨?_, ?_, ?_, ?_, ?_, ?_⟩
  · exact fun self _ placed => ⟨placed.1, placed.2, placed.3⟩
  · exact fun self _ placed => ⟨placed.1, placed.2, placed.3⟩
  · exact fun self _ placed => ⟨placed.1, placed.2, placed.3⟩
  · intro self port wired placed
    refine ⟨placed.1, placed.2, ?_⟩
    rintro _ ⟨⟩
    exact wired
  · intro self mac port wired placed
    refine ⟨placed.1, ?_, placed.3⟩
    intro other member
    rcases Dict.mem_values_insert member with rfl | known
    · exact wired
    · exact placed.paxosPorts other known
  · exact fun self _ _ _ placed => ⟨placed.1, placed.2, placed.3⟩

theorem placed_onSwitch (operation : BaselineController.Handler α) :
    Handler.Keeps (Placed connection) (fun _ => True)
      (onSwitch operation) := by
  refine (Handler.keeps_anything operation).zoom ?_ ?_ ?_
  · exact fun _ _ => trivial
  · exact fun _ _ placed _ => ⟨placed.1, placed.2, placed.3⟩
  · exact fun _ _ => trivial

/-- The links to Paxos nodes and to the WAN, as ports of the switch. -/
private def links (self : PaxosController) : Finset Port :=
  self.paxosPorts.values.toFinset ∪ self.wanPort.toFinset

private theorem card_wanPort :
    self.wanPort.toFinset.card = self.wanPorts := by
  rw [wanPorts]
  cases self.wanPort <;> rfl

private theorem card_endHostPorts (placed : self.Placed connection)
    (own : (connection.ports.filter fun port => 65000 < port).card = 1) :
    self.endHostPorts.card + self.links.card + 1 =
      self.connection.ports.card := by
  obtain ⟨rfl, paxosPorts, wanPort⟩ := placed
  have within : self.links ⊆
      self.connection.ports.filter fun port => ¬ 65000 < port := by
    intro port member
    rw [Finset.mem_filter, Nat.not_lt]
    rcases Finset.mem_union.mp member with paxos | wan
    · exact paxosPorts port (List.mem_toFinset.mp paxos)
    · exact wanPort port (Option.mem_toFinset.mp wan)
  have hosts : self.endHostPorts =
      (self.connection.ports.filter fun port => ¬ 65000 < port) \
        self.links := by
    ext port
    simp only [endHostPorts, links, Finset.mem_filter, Finset.mem_sdiff,
      Finset.mem_union, List.mem_toFinset, Option.mem_toFinset, Option.mem_def,
      Nat.not_lt, not_or]
    exact and_assoc.symm
  have removed := Finset.card_sdiff_add_card_eq_card within
  have split := Finset.card_filter_add_card_filter_not
    (s := self.connection.ports) fun port => 65000 < port
  rw [hosts]
  omega

/-- On a switch with one port of its own, the ports add up unless the WAN is
behind a Paxos port. -/
theorem accounted_iff (placed : self.Placed connection)
    (own : (connection.ports.filter fun port => 65000 < port).card = 1) :
    self.Accounted ↔ ∀ port, self.wanPort = some port →
      port ∉ self.paxosPorts.values ∧ self.hostOn port = none := by
  have total := card_endHostPorts placed own
  have apart : self.links.card =
      self.paxosPorts.values.toFinset.card + self.wanPorts ↔
        ∀ port, self.wanPort = some port → port ∉ self.paxosPorts.values := by
    rw [← card_wanPort, links, Finset.card_union_eq_card_add_card,
      Finset.disjoint_right]
    simp only [Option.mem_toFinset, Option.mem_def, List.mem_toFinset]
  obtain ⟨rfl, _, wired⟩ := placed
  constructor
  · rintro ⟨notCounted, ports⟩ port wan
    have notPaxos := apart.mp (by omega) port wan
    refine ⟨notPaxos, ?_⟩
    by_contra host
    refine notCounted port (self.mem_countedPorts.mpr ?_) wan
    have small : ¬ 65000 < port := Nat.not_lt.mpr (wired port wan).2
    exact ⟨(wired port wan).1, by simp [skips, notPaxos, small],
      Option.isSome_iff_ne_none.mpr host⟩
  · intro separate
    refine ⟨?_, ?_⟩
    · intro port counted wan
      have host := (self.mem_countedPorts.mp counted).2.2
      rw [(separate port wan).2] at host
      cases host
    · have disjoint := apart.mpr fun port wan => (separate port wan).1
      omega

end Placed

end SwitchPaxos.PaxosController

namespace SwitchPaxos.ControlledSwitch

open PaxosController

variable {nId : ℕ} {connection : Connection} {addFlows : Bool}
  {earlier : FlowTable}

/-- The node has learned ports of its switch only. -/
def KnowsPorts (connection : Connection) (switch : ControlledSwitch) : Prop :=
  switch.node.Placed connection

theorem started_knowsPorts :
    (started nId connection addFlows earlier).KnowsPorts connection := by
  refine ⟨rfl, ?_, ?_⟩
  · intro port member
    exact absurd member List.not_mem_nil
  · rintro _ ⟨⟩

theorem step_knowsPorts {switch : ControlledSwitch} {event : SwitchEvent}
    (knows : switch.KnowsPorts connection)
    (enabled : (system (Wired connection)).Enabled switch event) :
    (switch.step event).KnowsPorts connection := by
  cases event with
  | frame answer event =>
      have keeps : Handler.Keeps (Placed connection) (fun _ => True)
          (packetIn answer event) :=
        stable_placed.keeps_packetIn answer (fun _ _ => trivial) enabled
          (placed_onSwitch (BaselineController.handlePacketIn event))
      rw [step]
      split
      · exact knows
      · exact (keeps switch.node knows).1
  | expire flow => exact knows
  | acts activity =>
      have keeps : Handler.Keeps (Placed connection) (fun _ => True)
          activity.handle :=
        stable_placed.keeps_activity (fun _ _ => trivial)
          (placed_onSwitch BaselineController.connectionDown) activity
      exact (keeps switch.node knows).1

theorem knowsPorts_after {history : List SwitchEvent}
    (run : (system (Wired connection)).Run
      (started nId connection addFlows earlier) history) :
    ((system (Wired connection)).after
      (started nId connection addFlows earlier) history).KnowsPorts
        connection :=
  run.invariant (fun _ _ knows enabled => step_knowsPorts knows enabled)
    started_knowsPorts

/-- The node after what happened at its switch. -/
def nodeAfter (nId : ℕ) (connection : Connection) (addFlows : Bool)
    (earlier : FlowTable) (history : List SwitchEvent) : PaxosController :=
  ((system fun _ => True).after (started nId connection addFlows earlier)
    history).node

section Delivers

variable (rewrite : EthAddr → IPAddr → Option Bytes → Frame) (n seqno : ℕ)
  (v : Option Bytes)

/-- On a switch as they are wired, delivery goes wrong exactly if the port to
the WAN is one to a Paxos node too, or has a known host of its own. -/
theorem delivers_wired_iff {history : List SwitchEvent}
    (run : (system (Wired connection)).Run
      (started nId connection addFlows earlier) history)
    (own : (connection.ports.filter fun port => 65000 < port).card = 1) :
    let node := nodeAfter nId connection addFlows earlier history
    node.Delivers rewrite n seqno v ↔
      (node.hostAddressesKnown = true → node.HostsApart →
        ∀ port, node.wanPort = some port →
          port ∉ node.paxosPorts.values ∧ node.hostOn port = none) := by
  intro node
  have placed : node.Placed connection := knowsPorts_after run
  rw [delivers_iff, accounted_iff placed own]

/-- Whatever happened at a switch before, `process_message` delivers exactly
if nothing in the count can go wrong when it returns `True`. -/
theorem delivers_after_iff (nId : ℕ) (connection : Connection)
    (addFlows : Bool) (earlier : FlowTable) (history : List SwitchEvent) :
    let node := nodeAfter nId connection addFlows earlier history
    node.Delivers rewrite n seqno v ↔
      (node.hostAddressesKnown = true → node.HostsApart → node.Accounted) :=
  delivers_iff rewrite n seqno v _

end Delivers

/-- An IP packet from one host to another. -/
def packetOf (src dst : EthAddr) (srcip : IPAddr) (port : Port) : PacketIn :=
  { port
    parsed := { src, dst, type := 0x0800, payload := [] }
    srcip := some srcip }

/-- A client packet from the WAN, wrapped in a CLIENT message. -/
def clientOf (src dst : EthAddr) (port : Port) : PacketIn :=
  { port
    parsed :=
      { src
        dst
        type := PaxosMessage.CLIENT
        payload := [0, 0, 0, 0, 0, 0, 0, 0, 7] }
    srcip := none }

/-- S1 joins the others and starts its round.  Two of its hosts and a client
in the WAN send something, the third host does not; then a packet of the client
for that host comes in. -/
def silentHost : List SwitchEvent :=
  [.acts .joinBlock,
    .frame (fun _ => false) (joinOf 2 2 4),
    .frame (fun _ => false) (joinOf 3 3 4),
    .acts .joinBlock, .acts .createLeader, .acts .pickNext,
    .frame (fun _ => false) (packetOf 11 12 1 1),
    .frame (fun _ => false) (packetOf 12 11 2 2),
    .frame (fun _ => false) (packetOf 21 11 9 5),
    .frame (fun _ => false) (clientOf 21 13 5)]

/-- `rewrite_destinations` for a packet that is its own payload. -/
def readdressed (mac : EthAddr) (_dstip : IPAddr) (v : Option Bytes) : Frame :=
  { src := 21, dst := mac, type := 0x0800, payload := v.getD [] }

/-- The client in the WAN stands in for the host nobody has heard of: the
packet goes out to the WAN, and never to that host. -/
theorem silent_host_is_missed :
    let node := nodeAfter 1 switchS1 false [] silentHost
    let outcome := processMessage readdressed 4 0 (some [7]) node
    outcome.result = .ok true ∧ 3 ∈ node.endHostPorts ∧
      framesOn 3 outcome.effects = [] ∧ 5 ∉ node.endHostPorts ∧
      framesOn 5 outcome.effects = [readdressed 21 9 (some [7])] ∧
      ¬ node.Delivers readdressed 4 0 (some [7]) := by
  intro node outcome
  have observed : outcome.result = .ok true ∧ 3 ∈ node.endHostPorts ∧
      framesOn 3 outcome.effects = [] ∧ 5 ∉ node.endHostPorts ∧
      framesOn 5 outcome.effects = [readdressed 21 9 (some [7])] := by
    decide +kernel
  obtain ⟨returns, host, nothing, wan, sent⟩ := observed
  refine ⟨returns, host, nothing, wan, sent, ?_⟩
  intro delivers
  obtain ⟨mac, dstip, once⟩ := (delivers returns).1 3 host
  have missed : framesOn 3 outcome.effects =
      [readdressed mac dstip (some [7])] := once
  rw [nothing] at missed
  cases missed

end SwitchPaxos.ControlledSwitch

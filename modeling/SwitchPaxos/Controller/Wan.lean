import SwitchPaxos.Base.Keeps
import SwitchPaxos.Base.Run
import SwitchPaxos.Controller.Node

/-!
# The controller of the WAN switch

`WANController` sits between the clients and the Paxos network.  It wraps
packets for the network in CLIENT messages and outputs packets from the
network on the WAN side.  It tells the two apart by the destination address
alone, so a packet from the network whose destination it does not know goes to
the port of the network again.  A switch does not output a packet where it came
in, so it leaves there in a CLIENT message only.
-/

namespace SwitchPaxos

/-- The bytes of a frame on the wire. -/
def Frame.raw (frame : Frame) : Bytes :=
  frame.dst.toRaw ++ frame.src.toRaw ++ bigEndian 2 frame.type.toNat ++
    frame.payload

/-- An upcall of the WAN switch: the frame, and whether the packet library
finds a UDP or TCP header in it.  No frame comes in on all ports. -/
structure WanPacketIn where
  port : Port
  single : port ≠ OFPP_ALL
  parsed : Frame
  transport : Bool

/-- The frames the WAN controller has its switch output. -/
inductive WanEffect where
  /-- `forward`: the frame of the upcall, as it came in. -/
  | forward (frame : Frame) (port : Port)
  /-- `wrap_and_send_to_paxos`: a CLIENT message. -/
  | client (frame : Frame) (port : Port)
  /-- `ask_for_paxos_announce`: a JOIN that all nodes answer. -/
  | announce (frame : Frame) (port : Port)
deriving DecidableEq

structure WANController where
  connection : Connection
  paxosPort : Option Port
  wanMacports : Dict EthAddr Port

namespace WANController

abbrev Handler (α : Type) : Type :=
  SwitchPaxos.Handler WANController WanEffect Failure α

def new (connection : Connection) : WANController :=
  { connection, paxosPort := none, wanMacports := ∅ }

def mac (self : WANController) : EthAddr :=
  (self.connection.desc
    (self.connection.ports.max' self.connection.nonempty)).hwAddr

def forward (packetIn : Frame) (port : Port) : Handler Unit :=
  Handler.emit (.forward packetIn port)

def toWanAddr (event : WanPacketIn) (self : WANController) : Bool :=
  event.parsed.dst ∈ self.wanMacports

def toPaxosAddr (event : WanPacketIn) (self : WANController) : Bool :=
  !self.toWanAddr event

def fromPaxosPort (event : WanPacketIn) (self : WANController) : Bool :=
  some event.port = self.paxosPort

def fromWanPort (event : WanPacketIn) (self : WANController) : Bool :=
  !self.fromPaxosPort event

def askForPaxosAnnounce : Handler Unit := do
  let payload ← Handler.lift
    (PaxosMessage.packJoin 0 ETHER_BROADCAST.toRaw)
  let self ← Handler.get
  Handler.emit (.announce
    { src := self.mac
      dst := ETHER_BROADCAST
      type := PaxosMessage.JOIN
      payload } OFPP_ALL)

/-- The CLIENT message around a frame. -/
def wrapped (event : WanPacketIn) : Frame :=
  { event.parsed with
    type := PaxosMessage.CLIENT
    payload := PaxosMessage.packClient event.parsed.raw }

def wrapAndSendToPaxos (event : WanPacketIn) : Handler Reply := do
  let self ← Handler.get
  match self.paxosPort with
  | none => return .halt
  | some paxosPort => do
      Handler.emit (.client (wrapped event) paxosPort)
      return .halt

def forwardToWan (event : WanPacketIn) : Handler Reply := do
  let self ← Handler.get
  match self.wanMacports.lookup event.parsed.dst with
  | some port => do
      forward event.parsed port
      return .pass
  | none => do
      Handler.forEach (fun port => forward event.parsed port)
        self.wanMacports.values
      return .pass

/-- The port of the Paxos network is learned from the first JOIN. -/
def learnPaxosPort (event : WanPacketIn) (self : WANController) :
    WANController :=
  if self.paxosPort = none ∧ event.parsed.type = PaxosMessage.JOIN then
    { self with paxosPort := some event.port }
  else self

/-- Once the Paxos network is known, senders on other ports are WAN nodes. -/
def learnWanPort (event : WanPacketIn) (self : WANController) :
    WANController :=
  if self.paxosPort ≠ none ∧
      PaxosMessage.isPaxosType event.parsed.type = false ∧
      some event.port ≠ self.paxosPort ∧
      event.parsed.src ∉ self.wanMacports then
    { self with
      wanMacports := self.wanMacports.insert event.parsed.src event.port }
  else self

/-- The part of `_handle_PacketIn` after the ports are learned. -/
def route (event : WanPacketIn) : Handler Reply := do
  let packet := event.parsed
  let self ← Handler.get
  match self.paxosPort with
  | none => do
      askForPaxosAnnounce
      return .halt
  | some paxosPort =>
      -- Packets bound to Paxos that are UDP or TCP
      if self.toPaxosAddr event ∧ event.transport = true then
        wrapAndSendToPaxos event
      -- Packets from Paxos are sent to the WAN side only
      else if self.toWanAddr event then forwardToWan event
      else if self.fromWanPort event ∧ self.toWanAddr event then
        forwardToWan event
      else if packet.dst = ETHER_BROADCAST then do
        forward packet OFPP_ALL
        return .halt
      else do
        forward packet paxosPort
        return .halt

def handlePacketIn (event : WanPacketIn) : Handler Reply := do
  Handler.modify (learnPaxosPort event)
  Handler.modify (learnWanPort event)
  route event

/-- Upcalls come in one after the other. -/
def system : System WANController WanPacketIn :=
  { Enabled := fun _ _ => True
    step := fun self event => (handlePacketIn event self).state }

/-- Nothing is sent to the Paxos network because of a packet that came from
there, neither as it is nor in a CLIENT message. -/
def StaysApart (self : WANController) (event : WanPacketIn) : Prop :=
  ∀ port, self.paxosPort = some port → event.port = port →
    ∀ effect ∈ (handlePacketIn event self).effects,
      (∀ frame, effect ≠ .forward frame port) ∧
        ∀ frame outputPort, effect ≠ .client frame outputPort

/-- A packet from the Paxos network is for a WAN node that sent something
before, or it is a broadcast that is neither UDP nor TCP. -/
def ForWan (self : WANController) (event : WanPacketIn) : Prop :=
  self.paxosPort = some event.port →
    event.parsed.dst ∈ self.wanMacports ∨
      (event.parsed.dst = ETHER_BROADCAST ∧ event.transport = false)

/-- The frame that leaves through a port because of an upcall. -/
def leaves? (event : WanPacketIn) (port : Port) : WanEffect → Option Frame
  | .forward frame output =>
      if LeavesOn (some event.port) output port then some frame else none
  | .client frame output =>
      if LeavesOn none output port then some frame else none
  | .announce frame output =>
      if LeavesOn none output port then some frame else none

/-- WAN nodes are on other ports than the Paxos network. -/
structure Sound (node : WANController) : Prop where
  apart : ∀ mac port, node.wanMacports.lookup mac = some port →
    node.paxosPort ≠ some port ∧ node.paxosPort ≠ none

section Handle

variable {self : WANController} {event : WanPacketIn}

/-- What is output for a packet from the Paxos network. -/
def fromPaxos (event : WanPacketIn) (self : WANController) : WanEffect :=
  match self.wanMacports.lookup event.parsed.dst with
  | some port => .forward event.parsed port
  | none =>
      if event.transport = true then .client (wrapped event) event.port
      else if event.parsed.dst = ETHER_BROADCAST then
        .forward event.parsed OFPP_ALL
      else .forward event.parsed event.port

/-- A packet from the Paxos network teaches nothing and is output once. -/
theorem handlePacketIn_effects (known : self.paxosPort = some event.port) :
    (handlePacketIn event self).effects = [self.fromPaxos event] := by
  have paxos : learnPaxosPort event self = self := by
    simp [learnPaxosPort, known]
  have wan : learnWanPort event self = self := by simp [learnWanPort, known]
  simp only [handlePacketIn, route, Handler.bind_apply, Handler.modify_apply,
    Handler.get_apply, Outcome.andThen_ok, Outcome.after_nil, paxos, wan,
    known, fromPaxos]
  cases found : self.wanMacports.lookup event.parsed.dst with
  | none =>
      have absent : event.parsed.dst ∉ self.wanMacports :=
        AList.lookup_eq_none.mp found
      cases transport : event.transport with
      | true =>
          simp [toPaxosAddr, toWanAddr, absent, wrapAndSendToPaxos, known]
      | false =>
          simp only [toPaxosAddr, toWanAddr, absent, decide_false,
            Bool.false_eq_true, and_false, if_false]
          split <;> rfl
  | some port =>
      have present : event.parsed.dst ∈ self.wanMacports :=
        AList.lookup_isSome.mp (by rw [found]; rfl)
      simp [toPaxosAddr, toWanAddr, present, forwardToWan, found, forward]

/-- The switch does not output a packet from the Paxos network where it came in,
but the CLIENT message around it. -/
theorem leaves_fromPaxos (known : self.paxosPort = some event.port) :
    (handlePacketIn event self).effects.filterMap (leaves? event event.port) =
      if event.parsed.dst ∉ self.wanMacports ∧ event.transport = true then
        [wrapped event]
      else [] := by
  rw [handlePacketIn_effects known, fromPaxos]
  cases found : self.wanMacports.lookup event.parsed.dst with
  | some port =>
      have present : event.parsed.dst ∈ self.wanMacports :=
        AList.lookup_isSome.mp (by rw [found]; rfl)
      simp [leaves?, present]
  | none =>
      have absent : event.parsed.dst ∉ self.wanMacports :=
        AList.lookup_eq_none.mp found
      have back : ∀ frame output, leaves? event event.port
          (.forward frame output) = none :=
        fun frame output => if_neg fun leaves => leaves.2 rfl
      cases transport : event.transport with
      | true =>
          have sent : leaves? event event.port
              (.client (wrapped event) event.port) = some (wrapped event) :=
            if_pos ⟨.inr rfl, Option.some_ne_none _⟩
          simp [List.filterMap, sent, absent]
      | false =>
          by_cases broadcast : event.parsed.dst = ETHER_BROADCAST
          · simp [List.filterMap, back, broadcast]
          · simp [List.filterMap, back, broadcast]

theorem Sound.new (connection : Connection) : (new connection).Sound where
  apart := by rintro mac port ⟨⟩

theorem Sound.learnPaxosPort (sound : self.Sound) :
    (self.learnPaxosPort event).Sound := by
  unfold WANController.learnPaxosPort
  split
  · next joins =>
      constructor
      intro mac port lookup
      exact absurd joins.1 (sound.apart mac port lookup).2
  · exact sound

theorem Sound.learnWanPort (sound : self.Sound) :
    (self.learnWanPort event).Sound := by
  unfold WANController.learnWanPort
  split
  · next fromWan =>
      constructor
      intro mac port lookup
      rw [Dict.lookup_insert_eq] at lookup
      by_cases same : mac = event.parsed.src
      · rw [if_pos same, Option.some.injEq] at lookup
        rw [← lookup]
        exact ⟨fun onPort => fromWan.2.2.1 onPort.symm, fromWan.1⟩
      · rw [if_neg same] at lookup
        exact sound.apart mac port lookup
  · exact sound

theorem handlePacketIn_state (event : WanPacketIn) (self : WANController) :
    (handlePacketIn event self).state =
      (self.learnPaxosPort event).learnWanPort event := by
  have forwards : ∀ frame port, SwitchPaxos.Handler.Keeps
      (fun node => node = (self.learnPaxosPort event).learnWanPort event)
      (fun _ => True) (forward frame port) :=
    fun frame port => Handler.keeps_emit trivial
  have keeps : SwitchPaxos.Handler.Keeps
      (fun node => node = (self.learnPaxosPort event).learnWanPort event)
      (fun _ => True) (route event) := by
    refine Handler.keeps_get fun node _ => ?_
    split
    · refine Handler.Keeps.bind ?_ fun _ => Handler.keeps_pure _
      refine (Handler.keeps_lift _).bind fun _ => ?_
      exact Handler.keeps_get fun _ _ => Handler.keeps_emit trivial
    · refine Handler.Keeps.ite (fun _ => ?_) fun _ => ?_
      · refine Handler.keeps_get fun node _ => ?_
        split
        · exact Handler.keeps_pure _
        · exact (Handler.keeps_emit trivial).bind fun _ => Handler.keeps_pure _
      have toWan : SwitchPaxos.Handler.Keeps
          (fun node => node = (self.learnPaxosPort event).learnWanPort event)
          (fun _ => True) (forwardToWan event) := by
        refine Handler.keeps_get fun node _ => ?_
        split
        · exact (forwards _ _).bind fun _ => Handler.keeps_pure _
        · exact (Handler.keeps_forEach _ fun port => forwards _ port).bind
            fun _ => Handler.keeps_pure _
      refine Handler.Keeps.ite (fun _ => toWan) fun _ => ?_
      refine Handler.Keeps.ite (fun _ => toWan) fun _ => ?_
      refine Handler.Keeps.ite (fun _ => ?_) fun _ => ?_
      · exact (forwards _ _).bind fun _ => Handler.keeps_pure _
      · exact (forwards _ _).bind fun _ => Handler.keeps_pure _
  exact (keeps _ rfl).1

theorem Sound.step (sound : self.Sound) :
    (handlePacketIn event self).state.Sound := by
  rw [handlePacketIn_state]
  exact sound.learnPaxosPort.learnWanPort

/-- A packet from the Paxos network goes back exactly if it is not for the
WAN. -/
theorem staysApart_iff (sound : self.Sound) (event : WanPacketIn) :
    self.StaysApart event ↔ self.ForWan event := by
  by_cases known : self.paxosPort = some event.port
  · have unreserved : OFPP_ALL ≠ event.port := event.single.symm
    have single : self.StaysApart event ↔
        (∀ frame, self.fromPaxos event ≠ .forward frame event.port) ∧
          ∀ frame port, self.fromPaxos event ≠ .client frame port := by
      simp [StaysApart, known, handlePacketIn_effects known]
    rw [single, ForWan, fromPaxos]
    cases found : self.wanMacports.lookup event.parsed.dst with
    | some port =>
        have present : event.parsed.dst ∈ self.wanMacports :=
          AList.lookup_isSome.mp (by rw [found]; rfl)
        have elsewhere : port ≠ event.port := by
          rintro rfl
          exact (sound.apart _ _ found).1 known
        simp [present, elsewhere]
    | none =>
        have absent : event.parsed.dst ∉ self.wanMacports :=
          AList.lookup_eq_none.mp found
        by_cases transport : event.transport = true
        · simp [known, absent, transport]
        · by_cases broadcast : event.parsed.dst = ETHER_BROADCAST
          · simp [transport, broadcast, unreserved]
          · simp [known, absent, transport, broadcast]
  · simp only [StaysApart, ForWan]
    refine iff_of_true ?_ fun same => absurd same known
    intro port same onPort
    exact absurd (onPort ▸ same) known

end Handle

theorem always (self : WANController) (events : List WanPacketIn) :
    system.Run self events := by
  induction events generalizing self with
  | nil => trivial
  | cons event events induction => exact ⟨trivial, induction _⟩

/-- Nothing ever goes back to the Paxos network exactly in those histories in
which all packets that come from there are for the WAN. -/
theorem each_staysApart_iff (connection : Connection)
    (events : List WanPacketIn) :
    system.Each StaysApart (new connection) events ↔
      system.Each ForWan (new connection) events :=
  (always (new connection) events).each_iff_each
    (fun _ event sound _ => staysApart_iff sound event)
    (fun _ _ sound _ _ => sound.step) (Sound.new connection)

/-- The WAN switch of the topology: clients on ports 1 to 3, the Paxos network
behind port 4, and the switch itself. -/
def switchWAN1 : Connection :=
  { ports := {1, 2, 3, 4, 65534}
    desc := fun _ => ⟨9, "WAN1"⟩
    nonempty := ⟨1, Finset.mem_insert_self 1 _⟩ }

/-- The first segment of a TCP connection from 10.0.0.11 to 10.0.0.12. -/
def segment : Bytes :=
  [0x45, 0, 0, 40, 0, 1, 0, 0, 64, 6, 0, 0, 10, 0, 0, 11, 10, 0, 0, 12,
    4, 210, 0, 80, 0, 0, 0, 1, 0, 0, 0, 0, 0x50, 2, 255, 255, 0, 0, 0, 0]

/-- A host of the Paxos network sends a TCP packet to another one, S1 floods
it, and the WAN controller sends it back as a client packet. -/
theorem host_packet_goes_back :
    let join : WanPacketIn :=
      { port := 4
        single := by decide
        parsed := ⟨1, ETHER_BROADCAST, PaxosMessage.JOIN,
          PaxosMessage.packI 1 ++ EthAddr.toRaw 1⟩
        transport := false }
    let packet : WanPacketIn :=
      { port := 4
        single := by decide
        parsed := ⟨11, 12, 0x0800, segment⟩
        transport := true }
    let self := system.after (new switchWAN1) [join]
    self.paxosPort = some packet.port ∧
      (handlePacketIn packet self).effects = [.client (wrapped packet) 4] ∧
      ¬ system.Each StaysApart (new switchWAN1) [join, packet] := by
  intro join packet self
  have known : self.paxosPort = some packet.port := by decide
  have sent : (handlePacketIn packet self).effects =
      [.client (wrapped packet) 4] := by
    have unknown : self.wanMacports.lookup packet.parsed.dst = none := by
      decide
    rw [handlePacketIn_effects known, fromPaxos, unknown]
    rfl
  refine ⟨known, sent, ?_⟩
  rintro ⟨-, apart, -⟩
  have quiet := apart 4 known rfl (.client (wrapped packet) 4)
  refine (quiet ?_).2 (wrapped packet) 4 rfl
  change _ ∈ (handlePacketIn packet self).effects
  rw [sent]
  exact List.mem_singleton_self _

end WANController

end SwitchPaxos

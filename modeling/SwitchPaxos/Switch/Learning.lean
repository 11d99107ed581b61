import SwitchPaxos.Base.Run
import SwitchPaxos.Switch.FlowTable

/-!
# Forwarding by flows and by the controller

A learning switch forwards a frame in one of two ways: by a flow that was
installed earlier, or by an upcall to the controller, which looks the
destination up or floods the frame.  The flows and the table of the controller
are filled and emptied apart from each other; what they say about a unicast
address is the same as long as each address stays behind one port.
-/

namespace SwitchPaxos

/-- The group bit of the first byte is not set. -/
def Unicast (address : EthAddr) : Prop := address.val.testBit 40 = false

instance (address : EthAddr) : Decidable (Unicast address) :=
  inferInstanceAs (Decidable (_ = _))

namespace BaselineController

/-- What `__init__` does to the switch. -/
def setUp (clearFlowsOnStartup : Bool) : Handler Unit := do
  if clearFlowsOnStartup then clearFlowtable else pure ()
  let self ← Handler.get
  if self.addFlows then addForwardFlow none ETHER_BROADCAST OFPP_ALL
  else pure ()

/-- The commands for a frame whose sender was just learned. -/
def forwarding (packet : Frame) (self : BaselineController) :
    List SwitchCommand :=
  match self.macports.lookup packet.dst with
  | none => [.packetOut packet OFPP_ALL]
  | some port =>
      if self.addFlows then
        .flowMod (some packet.src) packet.dst port ::
          (((self.macports.lookup packet.src).map fun source =>
            .flowMod (some packet.dst) packet.src source).toList ++
              [.packetOut packet port])
      else [.packetOut packet port]

theorem handlePacketIn_apply (event : PacketIn) (self : BaselineController) :
    handlePacketIn event self =
      ⟨.ok (), self.learnSender event,
        (self.learnSender event).forwarding event.parsed⟩ := by
  simp only [handlePacketIn, forwarding, Handler.bind_apply,
    Handler.modify_apply, Handler.get_apply, Outcome.andThen_ok,
    Outcome.after_nil]
  cases (self.learnSender event).macports.lookup event.parsed.dst with
  | none => rfl
  | some port =>
      cases flows : (self.learnSender event).addFlows with
      | false => rfl
      | true =>
          cases (self.learnSender event).macports.lookup event.parsed.src <;>
            rfl

end BaselineController

/-- The frames that commands output, with the ports. -/
def outputs (commands : List SwitchCommand) : List (Frame × Port) :=
  commands.filterMap fun command =>
    match command with
    | .packetOut frame port => some (frame, port)
    | _ => none

/-- A learning switch: its controller, its flows, the upcalls that the
controller has not handled yet, and what was output for each frame. -/
structure LearningSwitch where
  controller : BaselineController
  table : FlowTable
  pending : List PacketIn
  forwarded : List (PacketIn × List (Frame × Port))

/-- What happens at the switch: a frame comes in that a flow matches, or that
no flow matches, the controller handles the next upcall, a flow times out, or
the connection to the controller is lost; then the deletion of all flows may
not get to the switch any more. -/
inductive LearningEvent where
  | matched (event : PacketIn) (flow : Flow)
  | upcall (event : PacketIn)
  | handle
  | expire (flow : Flow)
  | connectionDown (arrives : Bool)

/-- The frame that comes in with an event. -/
def LearningEvent.arrival? : LearningEvent → Option PacketIn
  | .matched event _ => some event
  | .upcall event => some event
  | _ => none

namespace LearningSwitch

/-- The controller ran a handler, and the switch executes its commands. -/
def run (outcome : Outcome BaselineController SwitchCommand Failure Unit)
    (switch : LearningSwitch) : LearningSwitch :=
  { switch with
    controller := outcome.state
    table := switch.table.executeAll outcome.effects }

def step (switch : LearningSwitch) : LearningEvent → LearningSwitch
  | .matched event flow =>
      { switch with
        forwarded := switch.forwarded ++
          [(event, [(event.parsed, flow.port)])] }
  | .upcall event => { switch with pending := switch.pending ++ [event] }
  | .handle =>
      match switch.pending with
      | [] => switch
      | event :: pending =>
          let outcome :=
            BaselineController.handlePacketIn event switch.controller
          { switch.run outcome with
            pending
            forwarded := switch.forwarded ++
              [(event, outputs outcome.effects)] }
  | .expire flow =>
      { switch with table := switch.table.filter fun other => other ≠ flow }
  | .connectionDown arrives =>
      let outcome := BaselineController.connectionDown switch.controller
      if arrives then switch.run outcome
      else { switch with controller := outcome.state }

/-- A unicast address sends frames from the port it sits behind only. -/
def FromHome (home : EthAddr → Port) (event : PacketIn) : Prop :=
  Unicast event.parsed.src → event.port = home event.parsed.src

instance (home : EthAddr → Port) (event : PacketIn) :
    Decidable (FromHome home event) :=
  inferInstanceAs (Decidable (_ → _))

/-- Frames come from where their senders sit.  If several flows match a frame,
any of them may be the one that forwards it. -/
def Enabled (home : EthAddr → Port) (switch : LearningSwitch) :
    LearningEvent → Prop
  | .matched event flow =>
      FromHome home event ∧ flow ∈ switch.table ∧ flow.Matches event.parsed
  | .upcall event => FromHome home event ∧ ¬ switch.table.Handles event.parsed
  | _ => True

instance (home : EthAddr → Port) (switch : LearningSwitch) :
    (event : LearningEvent) → Decidable (Enabled home switch event)
  | .matched event flow => inferInstanceAs (Decidable (FromHome home event ∧
      flow ∈ switch.table ∧ flow.Matches event.parsed))
  | .upcall event => inferInstanceAs (Decidable (FromHome home event ∧
      ¬ switch.table.Handles event.parsed))
  | .handle => inferInstanceAs (Decidable True)
  | .expire _ => inferInstanceAs (Decidable True)
  | .connectionDown _ => inferInstanceAs (Decidable True)

def system (home : EthAddr → Port) : System LearningSwitch LearningEvent :=
  { Enabled := Enabled home
    step := step }

instance (home : EthAddr → Port) (switch : LearningSwitch)
    (events : List LearningEvent) :
    Decidable ((system home).Run switch events) :=
  inferInstanceAs (Decidable (System.Each (system home) (Enabled home) switch
    events))

/-- A controller that was just started, on a switch without flows. -/
def started (addFlows learnIpAddresses clearFlowsOnStartup : Bool) :
    LearningSwitch :=
  run (BaselineController.setUp clearFlowsOnStartup
      (BaselineController.new addFlows learnIpAddresses))
    { controller := BaselineController.new addFlows learnIpAddresses
      table := []
      pending := []
      forwarded := [] }

/-- The frame was output once, on the port its destination sits behind or on
all ports. -/
def Delivered (home : EthAddr → Port) (event : PacketIn)
    (outputs : List (Frame × Port)) : Prop :=
  outputs = [(event.parsed, home event.parsed.dst)] ∨
    outputs = [(event.parsed, OFPP_ALL)]

/-- The controller has the right ports for unicast addresses. -/
def Knows (home : EthAddr → Port) (controller : BaselineController) : Prop :=
  ∀ mac port, controller.macports.lookup mac = some port → Unicast mac →
    port = home mac

/-- The controller and the flows agree on where unicast addresses are. -/
structure Sound (home : EthAddr → Port) (switch : LearningSwitch) : Prop where
  macports : Knows home switch.controller
  flows : ∀ flow ∈ switch.table, Unicast flow.dlDst →
    flow.port = home flow.dlDst
  pending : ∀ event ∈ switch.pending, FromHome home event
  forwarded : ∀ entry ∈ switch.forwarded, Unicast entry.1.parsed.dst →
    Delivered home entry.1 entry.2

section Controller

variable {home : EthAddr → Port} {controller : BaselineController}

theorem Knows.learnPort (knows : Knows home controller) {mac : EthAddr}
    {port : Port} (placed : Unicast mac → port = home mac) :
    Knows home (controller.learnPort mac port) := by
  unfold BaselineController.learnPort
  split
  · exact knows
  · intro other found lookup unicast
    rw [Dict.lookup_insert_eq] at lookup
    by_cases same : other = mac
    · rw [if_pos same, Option.some.injEq] at lookup
      subst same lookup
      exact placed unicast
    · rw [if_neg same] at lookup
      exact knows other found lookup unicast

theorem Knows.learnSender (knows : Knows home controller) {event : PacketIn}
    (fromHome : FromHome home event) :
    Knows home (controller.learnSender event) := by
  have learned := knows.learnPort fromHome
  unfold BaselineController.learnSender
  dsimp only
  split
  · unfold BaselineController.learnIp
    split <;> exact learned
  · exact learned

theorem Knows.outputs_forwarding (knows : Knows home controller)
    {event : PacketIn} (unicast : Unicast event.parsed.dst) :
    Delivered home event (outputs (controller.forwarding event.parsed)) := by
  unfold BaselineController.forwarding
  cases found : controller.macports.lookup event.parsed.dst with
  | none => exact .inr rfl
  | some port =>
      left
      rw [← knows event.parsed.dst port found unicast]
      cases controller.addFlows with
      | false => rfl
      | true =>
          cases controller.macports.lookup event.parsed.src <;> rfl

theorem Knows.flowMod_forwarding (knows : Knows home controller)
    {packet : Frame} {dlSrc : Option EthAddr} {dlDst : EthAddr} {port : Port}
    (installed : .flowMod dlSrc dlDst port ∈ controller.forwarding packet)
    (unicast : Unicast dlDst) : port = home dlDst := by
  unfold BaselineController.forwarding at installed
  cases found : controller.macports.lookup packet.dst with
  | none => simp [found] at installed
  | some known =>
      cases flows : controller.addFlows with
      | false => simp [found, flows] at installed
      | true =>
          simp only [found, flows, if_true, List.mem_cons, List.mem_append,
            SwitchCommand.flowMod.injEq, Option.mem_toList,
            Option.map_eq_some_iff, List.not_mem_nil, reduceCtorEq,
            or_false] at installed
          rcases installed with ⟨-, rfl, rfl⟩ | ⟨source, lookup, -, rfl, rfl⟩
          · exact knows _ port found unicast
          · exact knows _ source lookup unicast

end Controller

section Step

variable {home : EthAddr → Port} {switch : LearningSwitch}

/-- An upcall is forwarded right, and the flows it installs are right. -/
theorem Sound.handle (sound : switch.Sound home) :
    (switch.step .handle).Sound home := by
  rcases queue : switch.pending with _ | ⟨event, pending⟩
  · rw [step, queue]
    exact sound
  · have fromHome : FromHome home event :=
      sound.pending event (by rw [queue]; exact List.mem_cons_self)
    have knows := sound.macports.learnSender fromHome
    rw [step, queue]
    simp only [run, BaselineController.handlePacketIn_apply]
    constructor
    · exact knows
    · exact FlowTable.forall_mem_executeAll sound.flows
        fun _ _ _ installed => knows.flowMod_forwarding installed
    · intro other member
      exact sound.pending other
        (by rw [queue]; exact List.mem_cons_of_mem _ member)
    · intro entry member unicast
      rcases List.mem_append.mp member with earlier | new
      · exact sound.forwarded entry earlier unicast
      · obtain rfl := List.mem_singleton.mp new
        exact knows.outputs_forwarding unicast

theorem Sound.matched (sound : switch.Sound home) {event : PacketIn}
    {flow : Flow} (member : flow ∈ switch.table)
    (matched : flow.Matches event.parsed) :
    (switch.step (.matched event flow)).Sound home := by
  refine ⟨sound.macports, sound.flows, sound.pending, ?_⟩
  intro entry forwarded unicast
  rcases List.mem_append.mp forwarded with earlier | new
  · exact sound.forwarded entry earlier unicast
  · obtain rfl := List.mem_singleton.mp new
    left
    rw [← matched.2] at unicast ⊢
    rw [sound.flows flow member unicast]

theorem Sound.step (sound : switch.Sound home) {event : LearningEvent}
    (enabled : Enabled home switch event) : (switch.step event).Sound home := by
  cases event with
  | matched event flow => exact sound.matched enabled.2.1 enabled.2.2
  | upcall event =>
      refine ⟨sound.macports, sound.flows, ?_, sound.forwarded⟩
      intro other member
      rcases List.mem_append.mp member with earlier | new
      · exact sound.pending other earlier
      · obtain rfl := List.mem_singleton.mp new
        exact enabled.1
  | handle => exact sound.handle
  | expire flow =>
      refine ⟨sound.macports, ?_, sound.pending, sound.forwarded⟩
      intro other member
      exact sound.flows other (List.mem_of_mem_filter member)
  | connectionDown arrives =>
      have forgets : Knows home
          (BaselineController.clearMacports switch.controller) := by
        intro mac port lookup
        cases lookup
      cases arrives with
      | true =>
          refine ⟨forgets, ?_, sound.pending, sound.forwarded⟩
          intro flow member
          cases member
      | false => exact ⟨forgets, sound.flows, sound.pending, sound.forwarded⟩

end Step

/-- The flow for broadcasts says nothing about unicast addresses. -/
theorem started_sound (home : EthAddr → Port)
    (addFlows learnIpAddresses clearFlowsOnStartup : Bool) :
    (started addFlows learnIpAddresses clearFlowsOnStartup).Sound home := by
  have installed : ∀ flow ∈ (started addFlows learnIpAddresses
      clearFlowsOnStartup).table, flow = ⟨none, ETHER_BROADCAST, OFPP_ALL⟩ := by
    cases addFlows <;> cases clearFlowsOnStartup <;>
      simp [started, run, BaselineController.setUp, BaselineController.new,
        BaselineController.clearFlowtable, BaselineController.addForwardFlow,
        FlowTable.executeAll, FlowTable.execute, FlowTable.install]
  constructor
  · intro mac port lookup
    cases addFlows <;> cases clearFlowsOnStartup <;> cases lookup
  · intro flow member unicast
    obtain rfl := installed flow member
    exact absurd unicast (by decide)
  · intro event member
    cases addFlows <;> cases clearFlowsOnStartup <;> cases member
  · intro entry member
    cases addFlows <;> cases clearFlowsOnStartup <;> cases member

/-- The frames that were dealt with and those that wait for the controller. -/
def frames (switch : LearningSwitch) : List PacketIn :=
  switch.forwarded.map Prod.fst ++ switch.pending

theorem frames_step (switch : LearningSwitch) (event : LearningEvent) :
    (switch.step event).frames.Perm
      (switch.frames ++ event.arrival?.toList) := by
  cases event with
  | matched event flow =>
      simp only [frames, step, LearningEvent.arrival?, Option.toList_some,
        List.map_append, List.map_cons, List.map_nil, List.append_assoc]
      exact List.perm_append_comm.append_left _
  | upcall event => simp [frames, step, LearningEvent.arrival?]
  | handle =>
      rcases queue : switch.pending with _ | ⟨event, pending⟩ <;>
        simp [frames, step, queue, LearningEvent.arrival?, run]
  | expire flow => simp [frames, step, LearningEvent.arrival?]
  | connectionDown arrives =>
      cases arrives <;> simp [frames, step, LearningEvent.arrival?, run]

theorem frames_after (home : EthAddr → Port) (switch : LearningSwitch)
    (events : List LearningEvent) :
    ((system home).after switch events).frames.Perm
      (switch.frames ++ events.filterMap LearningEvent.arrival?) := by
  induction events generalizing switch with
  | nil => simp
  | cons event events induction =>
      have first := (frames_step switch event).append_right
        (events.filterMap LearningEvent.arrival?)
      refine ((induction (switch.step event)).trans first).trans ?_
      cases arrival : event.arrival? <;> simp [arrival]

/-- Whether a flow or the controller deals with it, a frame to a unicast
address is output on the port the address sits behind or on all ports; and
every frame that came in is dealt with once or waits for the controller. -/
theorem forwards_home (home : EthAddr → Port)
    (addFlows learnIpAddresses clearFlowsOnStartup : Bool)
    {events : List LearningEvent}
    (run : (system home).Run
      (started addFlows learnIpAddresses clearFlowsOnStartup) events) :
    let switch := (system home).after
      (started addFlows learnIpAddresses clearFlowsOnStartup) events
    (∀ entry ∈ switch.forwarded, Unicast entry.1.parsed.dst →
      Delivered home entry.1 entry.2) ∧
      (switch.forwarded.map Prod.fst ++ switch.pending).Perm
        (events.filterMap LearningEvent.arrival?) := by
  intro switch
  have sound : switch.Sound home :=
    run.invariant (fun _ _ sound enabled => sound.step enabled)
      (started_sound home _ _ _)
  refine ⟨sound.forwarded, ?_⟩
  have none : (started addFlows learnIpAddresses clearFlowsOnStartup).frames =
      [] := by
    cases addFlows <;> cases clearFlowsOnStartup <;> rfl
  have all := frames_after home
    (started addFlows learnIpAddresses clearFlowsOnStartup) events
  rwa [none, List.nil_append] at all

/-- A ping: the request is flooded, the answer installs the flows of the pair,
and a flow forwards the next request. -/
theorem forwards_home_ping :
    let home : EthAddr → Port := fun mac => if mac = 1 then 1 else 2
    let request := (Frame.upcall ⟨1, 2, 0x0800, []⟩ 1)
    let answer := (Frame.upcall ⟨2, 1, 0x0800, []⟩ 2)
    let switch := (system home).after (started true false false)
      [.upcall request, .handle, .upcall answer, .handle,
        .matched request ⟨some 1, 2, 2⟩]
    switch.forwarded.map (fun entry => entry.2.map Prod.snd) =
        [[OFPP_ALL], [1], [2]] ∧
      ∀ entry ∈ switch.forwarded, Unicast entry.1.parsed.dst →
        Delivered home entry.1 entry.2 := by
  intro home request answer switch
  refine ⟨by decide, ?_⟩
  exact (forwards_home home true false false (by decide)).1

end LearningSwitch

end SwitchPaxos

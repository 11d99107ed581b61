import SwitchPaxos.Switch.Learning

/-!
# Where addresses are

If every frame comes in on the port that its source address sits behind, what
the controller and the flows say about an address is right, whatever kind of
address it is: the port it sits behind, or all ports if nobody has it.
-/

namespace SwitchPaxos.LearningSwitch

/-- The controller, the flows and the outputs agree with a map of the ports.
-/
structure Placed (home : EthAddr → Port) (switch : LearningSwitch) : Prop where
  macports : ∀ mac port,
    switch.controller.macports.lookup mac = some port → port = home mac
  flows : ∀ flow ∈ switch.table, flow.port = home flow.dlDst
  frames : ∀ event ∈ switch.frames, event.port = home event.parsed.src
  forwarded : ∀ entry ∈ switch.forwarded, Delivered home entry.1 entry.2

/-- A frame comes in where its sender is, and a flow that is said to match is
one of the switch and matches. -/
def Arrives (home : EthAddr → Port) (switch : LearningSwitch) :
    LearningEvent → Prop
  | .matched event flow => event.port = home event.parsed.src ∧
      flow ∈ switch.table ∧ flow.Matches event.parsed
  | .upcall event => event.port = home event.parsed.src
  | _ => True

variable {home : EthAddr → Port} {switch : LearningSwitch}

theorem lookup_learnSender {controller : BaselineController}
    (macports : ∀ mac port,
      controller.macports.lookup mac = some port → port = home mac)
    {event : PacketIn} (here : event.port = home event.parsed.src) :
    ∀ mac port,
      (controller.learnSender event).macports.lookup mac = some port →
        port = home mac := by
  intro mac port found
  rw [BaselineController.macports_learnSender,
    BaselineController.lookup_learnPort] at found
  by_cases same : mac = event.parsed.src
  · rw [if_pos same, Option.some.injEq] at found
    subst same
    cases known : controller.macports.lookup event.parsed.src with
    | none =>
        rw [known, Option.getD_none] at found
        rw [← found]
        exact here
    | some port' =>
        rw [known, Option.getD_some] at found
        rw [← found]
        exact macports _ _ known
  · rw [if_neg same] at found
    exact macports mac port found

/-- A known destination gets one copy on its port, an unknown one is flooded.
-/
theorem delivered_forwarding {controller : BaselineController}
    (macports : ∀ mac port,
      controller.macports.lookup mac = some port → port = home mac)
    (event : PacketIn) :
    Delivered home event (outputs (controller.forwarding event.parsed)) := by
  unfold BaselineController.forwarding
  cases found : controller.macports.lookup event.parsed.dst with
  | none => exact .inr rfl
  | some port =>
      left
      rw [← macports event.parsed.dst port found]
      cases controller.addFlows with
      | false => rfl
      | true => cases controller.macports.lookup event.parsed.src <;> rfl

theorem flowMod_forwarding {controller : BaselineController}
    (macports : ∀ mac port,
      controller.macports.lookup mac = some port → port = home mac)
    {packet : Frame} {dlSrc : Option EthAddr} {dlDst : EthAddr} {port : Port}
    (installed : .flowMod dlSrc dlDst port ∈ controller.forwarding packet) :
    port = home dlDst := by
  unfold BaselineController.forwarding at installed
  cases found : controller.macports.lookup packet.dst with
  | none => simp [found] at installed
  | some known =>
      cases flows : controller.addFlows with
      | false => simp [found, flows] at installed
      | true =>
          simp only [found, flows, if_true, List.mem_cons, List.mem_append,
            SwitchCommand.flowMod.injEq, Option.mem_toList,
            Option.map_eq_some_iff, List.not_mem_nil, reduceCtorEq,
            or_false] at installed
          rcases installed with ⟨-, rfl, rfl⟩ | ⟨source, lookup, -, rfl, rfl⟩
          · exact macports _ port found
          · exact macports _ source lookup

namespace Placed

theorem frames_after (placed : switch.Placed home) (event : LearningEvent)
    (arrival : ∀ packet, event.arrival? = some packet →
      packet.port = home packet.parsed.src) :
    ∀ packet ∈ (switch.step event).frames,
      packet.port = home packet.parsed.src := by
  intro packet member
  have among := (frames_step switch event).mem_iff.mp member
  rcases List.mem_append.mp among with earlier | new
  · exact placed.frames packet earlier
  · exact arrival packet (Option.mem_toList.mp new)

theorem handle (placed : switch.Placed home) :
    (switch.step .handle).Placed home := by
  have frames := placed.frames_after .handle (by rintro packet ⟨⟩)
  rcases queue : switch.pending with _ | ⟨event, pending⟩
  · rw [step, queue]
    exact placed
  · have waiting : event ∈ switch.frames := by
      rw [LearningSwitch.frames, queue]
      exact List.mem_append_right _ List.mem_cons_self
    have macports := lookup_learnSender placed.macports
      (placed.frames event waiting)
    refine ⟨?_, ?_, frames, ?_⟩ <;> rw [step, queue] <;>
      simp only [run, BaselineController.handlePacketIn_apply]
    · exact macports
    · exact FlowTable.forall_mem_executeAll placed.flows
        fun _ _ _ installed => flowMod_forwarding macports installed
    · intro entry member
      rcases List.mem_append.mp member with earlier | new
      · exact placed.forwarded entry earlier
      · rw [List.mem_singleton.mp new]
        exact delivered_forwarding macports event

theorem step (placed : switch.Placed home) {event : LearningEvent}
    (arrives : switch.Arrives home event) :
    (switch.step event).Placed home := by
  cases event with
  | matched event flow =>
      obtain ⟨here, member, matched⟩ := arrives
      refine ⟨placed.macports, placed.flows, ?_, ?_⟩
      · apply placed.frames_after (.matched event flow)
        rintro packet ⟨⟩
        exact here
      · intro entry forwarded
        rcases List.mem_append.mp forwarded with earlier | new
        · exact placed.forwarded entry earlier
        · rw [List.mem_singleton.mp new]
          left
          rw [placed.flows flow member, matched.2]
  | upcall event =>
      refine ⟨placed.macports, placed.flows, ?_, placed.forwarded⟩
      apply placed.frames_after (.upcall event)
      rintro packet ⟨⟩
      exact arrives
  | handle => exact placed.handle
  | expire flow =>
      refine ⟨placed.macports, ?_, placed.frames, placed.forwarded⟩
      intro other member
      exact placed.flows other (List.mem_of_mem_filter member)
  | connectionDown reaches =>
      have forgets : ∀ mac port,
          (BaselineController.clearMacports
            switch.controller).macports.lookup mac = some port →
              port = home mac := by
        intro mac port found
        cases found
      cases reaches with
      | true =>
          refine ⟨forgets, ?_, placed.frames, placed.forwarded⟩
          intro flow member
          cases member
      | false =>
          exact ⟨forgets, placed.flows, placed.frames, placed.forwarded⟩

end Placed

/-- The flow for broadcasts is right where nobody has the broadcast address.
-/
theorem started_placed (addFlows learnIpAddresses clearFlowsOnStartup : Bool)
    (nobody : home ETHER_BROADCAST = OFPP_ALL) :
    (started addFlows learnIpAddresses clearFlowsOnStartup).Placed home := by
  have installed : ∀ flow ∈ (started addFlows learnIpAddresses
      clearFlowsOnStartup).table, flow = ⟨none, ETHER_BROADCAST, OFPP_ALL⟩ := by
    cases addFlows <;> cases clearFlowsOnStartup <;>
      simp [started, run, BaselineController.setUp, BaselineController.new,
        BaselineController.clearFlowtable, BaselineController.addForwardFlow,
        FlowTable.executeAll, FlowTable.execute, FlowTable.install]
  constructor
  · intro mac port lookup
    cases addFlows <;> cases clearFlowsOnStartup <;> cases lookup
  · intro flow member
    rw [installed flow member]
    exact nobody.symm
  · intro event member
    cases addFlows <;> cases clearFlowsOnStartup <;> cases member
  · intro entry member
    cases addFlows <;> cases clearFlowsOnStartup <;> cases member

end SwitchPaxos.LearningSwitch

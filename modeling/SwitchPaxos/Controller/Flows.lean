import SwitchPaxos.Base.Run
import SwitchPaxos.Controller.Start

/-!
# A controller on its switch

The Paxos controller and the learning switch share one switch.  It forwards a
frame that matches an installed flow on its own; every other frame is an
upcall, which the Paxos controller gets first.  A message the node has to act
on is lost to it if a flow matches the message.
-/

namespace SwitchPaxos

/-- A node, the flows installed in its switch, and the upcalls `handle_paxos`
was called with. -/
structure ControlledSwitch where
  node : PaxosController
  table : FlowTable
  upcalls : List PacketIn

/-- The commands among the effects of a handler. -/
def commands (effects : List Effect) : List SwitchCommand :=
  effects.filterMap fun effect =>
    match effect with
    | .command command => some command
    | _ => none

/-- What happens at a switch: a frame comes in, a flow times out, or one of
the threads of the controller takes a step. -/
inductive SwitchEvent where
  | frame (answer : ℕ → Bool) (event : PacketIn)
  | expire (flow : Flow)
  | acts (activity : Activity)

namespace ControlledSwitch

/-- A handler of the controller runs, and the switch executes its commands. -/
def run (handler : PaxosController.Handler Unit) (switch : ControlledSwitch) :
    ControlledSwitch :=
  let outcome := handler switch.node
  { switch with
    node := outcome.state
    table := switch.table.executeAll (commands outcome.effects) }

def step (switch : ControlledSwitch) : SwitchEvent → ControlledSwitch
  | .frame answer event =>
      if switch.table.Handles event.parsed then switch
      else
        { switch.run (PaxosController.packetIn answer event) with
          upcalls := switch.upcalls ++ [event] }
  | .expire flow =>
      { switch with table := switch.table.filter fun other => other ≠ flow }
  | .acts activity => switch.run activity.handle

/-- Frames come in on the ports of the switch; everything else may happen at
any time. -/
def system (arrives : Port → Prop) : System ControlledSwitch SwitchEvent :=
  { Enabled := fun _ event =>
      match event with
      | .frame _ event => arrives event.port
      | _ => True
    step := step }

/-- A controller takes over a switch that has some flows from earlier. -/
def started (nId : ℕ) (connection : Connection) (addFlows : Bool)
    (earlier : FlowTable) : ControlledSwitch :=
  run (PaxosController.onSwitch BaselineController.start)
    { node := PaxosController.new nId connection addFlows
      table := earlier
      upcalls := [] }

end ControlledSwitch

/-- A JOIN to everybody, an ACCEPT or a LEARN to the node itself, and at the
leader a CLIENT packet from the WAN. -/
def PaxosController.MustAct (event : PacketIn) (self : PaxosController) :
    Prop :=
  (event.parsed.type = PaxosMessage.JOIN ∧
      event.parsed.dst = ETHER_BROADCAST) ∨
    ((event.parsed.type = PaxosMessage.ACCEPT ∨
        event.parsed.type = PaxosMessage.LEARN) ∧
      event.parsed.dst = self.mac) ∨
    (self.isleader = true ∧ event.parsed.type = PaxosMessage.CLIENT ∧
      self.isWanPort event.port = true)

namespace ControlledSwitch

/-- A frame that comes in gets to `handle_paxos`, which dispatches it, and no
flow matches it. -/
structure Reaches (answer : ℕ → Bool) (event : PacketIn)
    (switch : ControlledSwitch) : Prop where
  unmatched : ∀ flow ∈ switch.table, ¬ flow.Matches event.parsed
  upcalled : (switch.step (.frame answer event)).upcalls =
    switch.upcalls ++ [event]
  dispatched : PaxosController.handlePaxos answer event switch.node =
    PaxosController.dispatchPaxos answer event.parsed.type event
      event.parsed.payload switch.node

/-- Whatever happened at the switch before, every frame the node has to act on
reaches it. -/
def Intercepts (start : ControlledSwitch) : Prop :=
  ∀ (history : List SwitchEvent) (answer : ℕ → Bool) (event : PacketIn),
    ((system fun _ => True).after start history).node.MustAct event →
      ((system fun _ => True).after start history).Reaches answer event

end ControlledSwitch

/-- The JOIN a node broadcasts, as it comes in on a port. -/
def joinOf (nId : ℕ) (mac : EthAddr) (port : Port) : PacketIn :=
  { port
    parsed :=
      { src := mac
        dst := ETHER_BROADCAST
        type := PaxosMessage.JOIN
        payload := PaxosMessage.packI nId ++ mac.toRaw }
    srcip := none }

/-- The first switch of the topology: hosts on ports 1 to 3, the other Paxos
nodes behind port 4, the WAN on port 5, and the switch itself. -/
def switchS1 : Connection :=
  { ports := {1, 2, 3, 4, 5, 65534}
    desc := fun _ => ⟨1, "S1"⟩
    nonempty := ⟨1, Finset.mem_insert_self 1 _⟩ }

namespace PaxosController

theorem MustAct.dispatched {event : PacketIn} {self : PaxosController}
    (mustAct : self.MustAct event) (answer : ℕ → Bool) :
    handlePaxos answer event self =
      dispatchPaxos answer event.parsed.type event event.parsed.payload
        self := by
  have known : PaxosMessage.isKnownPaxosType event.parsed.type = true := by
    rcases mustAct with ⟨type, _⟩ | ⟨type | type, _⟩ | ⟨_, type, _⟩ <;>
      rw [type] <;> decide
  have dispatches : self.dispatches event = true := by
    rcases mustAct with ⟨type, _⟩ | ⟨_, dst⟩ | ⟨_, _, fromWan⟩
    · simp [PaxosController.dispatches, type]
    · simp [PaxosController.dispatches, dst]
    · simp [PaxosController.dispatches, fromWan]
  simp [handlePaxos, known, dispatches]

/-- The embedded switch installs no flows. -/
def WithoutFlows (self : PaxosController) : Prop :=
  self.switch.addFlows = false

theorem stable_withoutFlows : Stable (fun _ => True) WithoutFlows := by
  refine ⟨?_, ?_, ?_, ?_, ?_, ?_⟩
  · exact fun _ _ holds => holds
  · exact fun _ _ holds => holds
  · exact fun _ _ holds => holds
  · exact fun _ _ _ holds => holds
  · exact fun _ _ _ _ holds => holds
  · intro self mac port _ holds
    rwa [WithoutFlows, BaselineController.addFlows_learnPort]

theorem keeps_onSwitch {operation : BaselineController.Handler α}
    (keeps : Handler.Keeps (fun switch => switch.addFlows = false)
      SwitchCommand.NoFlow operation) :
    Handler.Keeps WithoutFlows Effect.NoFlow (onSwitch operation) := by
  refine keeps.zoom ?_ ?_ ?_
  · exact fun self holds => holds
  · exact fun switch self _ holds => holds
  · exact fun command noFlow => noFlow

end PaxosController

namespace ControlledSwitch

section WithoutFlows

variable {switch : ControlledSwitch}

/-- The controller installs no flows, and there are none in its switch. -/
def WithoutFlows (switch : ControlledSwitch) : Prop :=
  switch.node.WithoutFlows ∧ switch.table = []

theorem noFlow_commands {effects : List Effect}
    (noFlow : ∀ effect ∈ effects, effect.NoFlow) :
    ∀ command ∈ commands effects, command.NoFlow := by
  intro command member
  obtain ⟨effect, performed, same⟩ := List.mem_filterMap.mp member
  have allowed := noFlow effect performed
  cases effect with
  | command given =>
      cases same
      exact allowed
  | sent frame port => cases same
  | toSelf type payload => cases same
  | numbered seqno v => cases same
  | accepted n seqno v => cases same
  | handed call => cases same

/-- A handler that installs no flows leaves an empty table empty. -/
theorem run_withoutFlows {handler : PaxosController.Handler Unit}
    (keeps : Handler.Keeps PaxosController.WithoutFlows Effect.NoFlow handler)
    (holds : switch.WithoutFlows) : (switch.run handler).WithoutFlows := by
  obtain ⟨kept, noFlow⟩ := keeps switch.node holds.1
  refine ⟨kept, List.subset_nil.mp ?_⟩
  rw [← holds.2]
  exact FlowTable.executeAll_subset (noFlow_commands noFlow)

theorem step_withoutFlows (event : SwitchEvent)
    (holds : switch.WithoutFlows) : (switch.step event).WithoutFlows := by
  have stable := PaxosController.stable_withoutFlows
  cases event with
  | frame answer event =>
      have keeps : Handler.Keeps PaxosController.WithoutFlows Effect.NoFlow
          (PaxosController.packetIn answer event) :=
        stable.keeps_packetIn answer (fun _ allowed => allowed) trivial
          (PaxosController.keeps_onSwitch
            (BaselineController.keeps_handlePacketIn event))
      rw [step]
      split
      · exact holds
      · exact run_withoutFlows keeps holds
  | expire flow =>
      refine ⟨holds.1, ?_⟩
      rw [step, holds.2]
      rfl
  | acts activity =>
      refine run_withoutFlows ?_ holds
      exact stable.keeps_activity (fun _ allowed => allowed)
        (PaxosController.keeps_onSwitch
          BaselineController.keeps_connectionDown) activity

end WithoutFlows

theorem started_table (nId : ℕ) (connection : Connection) (addFlows : Bool)
    (earlier : FlowTable) :
    (started nId connection addFlows earlier).table =
      if addFlows = true then [⟨none, ETHER_BROADCAST, OFPP_ALL⟩] else [] := by
  cases addFlows <;> rfl

theorem Reaches.of_unmatched {switch : ControlledSwitch} {event : PacketIn}
    (mustAct : switch.node.MustAct event) (answer : ℕ → Bool)
    (unmatched : ¬ switch.table.Handles event.parsed) :
    switch.Reaches answer event := by
  refine ⟨?_, ?_, mustAct.dispatched answer⟩
  · intro flow member matched
    exact unmatched ⟨flow, member, matched⟩
  · rw [step, if_neg unmatched]

theorem system_run (start : ControlledSwitch) (history : List SwitchEvent) :
    (system fun _ => True).Run start history := by
  induction history generalizing start with
  | nil => trivial
  | cons event history induction =>
      refine ⟨?_, induction _⟩
      cases event <;> trivial

theorem table_withoutFlows (nId : ℕ) (connection : Connection)
    (earlier : FlowTable) (history : List SwitchEvent) :
    ((system fun _ => True).after (started nId connection false earlier)
      history).table = [] := by
  have run := system_run (started nId connection false earlier) history
  have initial : (started nId connection false earlier).WithoutFlows :=
    ⟨rfl, rfl⟩
  have holds := run.invariant
    (fun _ event kept _ => step_withoutFlows event kept) initial
  exact holds.2

/-- A node gets every message it has to act on exactly if its switch is set up
without flows: the flow for broadcasts alone is enough to lose a JOIN. -/
theorem intercepts_iff (nId : ℕ) (connection : Connection) (addFlows : Bool)
    (earlier : FlowTable) :
    (started nId connection addFlows earlier).Intercepts ↔
      addFlows = false := by
  constructor
  · intro intercepts
    by_contra flows
    rw [Bool.not_eq_false] at flows
    have reached := intercepts [] (fun _ => true) (joinOf 2 2 4)
      (.inl ⟨rfl, rfl⟩)
    refine reached.unmatched ⟨none, ETHER_BROADCAST, OFPP_ALL⟩ ?_ ?_
    · rw [System.after_nil, started_table, if_pos flows]
      exact List.mem_singleton.mpr rfl
    · exact ⟨.inl rfl, rfl⟩
  · rintro rfl history answer event mustAct
    apply Reaches.of_unmatched mustAct
    rw [table_withoutFlows]
    exact FlowTable.not_handles_nil event.parsed

/-- With flows, the JOIN of S2 never gets to S1. -/
theorem join_is_forwarded :
    (started 1 switchS1 true []).node.MustAct (joinOf 2 2 4) ∧
      (started 1 switchS1 true []).table.Handles (joinOf 2 2 4).parsed ∧
      ((started 1 switchS1 true []).step
        (.frame (fun _ => true) (joinOf 2 2 4))).upcalls = [] ∧
      ¬ (started 1 switchS1 true []).Intercepts := by
  have handled :
      (started 1 switchS1 true []).table.Handles (joinOf 2 2 4).parsed :=
    ⟨⟨none, ETHER_BROADCAST, OFPP_ALL⟩, .head _, .inl rfl, rfl⟩
  refine ⟨.inl ⟨rfl, rfl⟩, handled, ?_, ?_⟩
  · rw [step, if_pos handled]
    rfl
  · intro intercepts
    obtain ⟨flow, member, matched⟩ := handled
    exact (intercepts [] (fun _ => true) _ (.inl ⟨rfl, rfl⟩)).unmatched flow
      member matched

end ControlledSwitch

end SwitchPaxos

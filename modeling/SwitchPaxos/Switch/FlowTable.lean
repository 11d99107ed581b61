import SwitchPaxos.Base.Keeps
import SwitchPaxos.Switch.Baseline

/-!
# The flow table of a switch

A switch forwards a frame that matches an installed flow on its own and raises
an upcall for every other one.  Flows match on the addresses they were
installed with and on nothing else, so they do not tell a Paxos message from
ordinary traffic.
-/

namespace SwitchPaxos

/-- An installed flow; no source address matches every source. -/
structure Flow where
  dlSrc : Option EthAddr
  dlDst : EthAddr
  port : Port
deriving DecidableEq

def Flow.Matches (frame : Frame) (flow : Flow) : Prop :=
  (flow.dlSrc = none ∨ flow.dlSrc = some frame.src) ∧ flow.dlDst = frame.dst

instance (frame : Frame) (flow : Flow) : Decidable (flow.Matches frame) :=
  inferInstanceAs (Decidable (_ ∧ _))

abbrev FlowTable : Type := List Flow

namespace FlowTable

/-- A flow takes the place of one that matches on the same addresses. -/
def install (flow : Flow) (table : FlowTable) : FlowTable :=
  flow :: table.filter fun other =>
    ¬ (other.dlSrc = flow.dlSrc ∧ other.dlDst = flow.dlDst)

/-- What a command of the controller does to the table. -/
def execute (table : FlowTable) : SwitchCommand → FlowTable
  | .packetOut _ _ => table
  | .drop => table
  | .flowMod dlSrc dlDst port => table.install { dlSrc, dlDst, port }
  | .clearFlows => []

def executeAll (table : FlowTable) (commands : List SwitchCommand) :
    FlowTable :=
  commands.foldl execute table

/-- The switch forwards the frame itself. -/
def Handles (table : FlowTable) (frame : Frame) : Prop :=
  ∃ flow ∈ table, flow.Matches frame

instance (table : FlowTable) (frame : Frame) :
    Decidable (table.Handles frame) :=
  inferInstanceAs (Decidable (∃ flow ∈ table, _))

end FlowTable

/-- The command installs no flow. -/
def SwitchCommand.NoFlow (command : SwitchCommand) : Prop :=
  ∀ dlSrc dlDst port, command ≠ .flowMod dlSrc dlDst port

namespace FlowTable

/-- What holds of the flows in the table and of those that commands install
holds of all flows after the commands. -/
theorem forall_mem_executeAll {holds : Flow → Prop} {table : FlowTable}
    {commands : List SwitchCommand} (earlier : ∀ flow ∈ table, holds flow)
    (installed : ∀ dlSrc dlDst port,
      SwitchCommand.flowMod dlSrc dlDst port ∈ commands →
        holds { dlSrc, dlDst, port }) :
    ∀ flow ∈ table.executeAll commands, holds flow := by
  induction commands generalizing table with
  | nil => exact earlier
  | cons command commands induction =>
      refine induction ?_ fun dlSrc dlDst port member =>
        installed dlSrc dlDst port (List.mem_cons_of_mem _ member)
      intro flow member
      cases command with
      | packetOut frame port => exact earlier flow member
      | drop => exact earlier flow member
      | flowMod dlSrc dlDst port =>
          rcases List.mem_cons.mp member with new | kept
          · rw [new]
            exact installed dlSrc dlDst port List.mem_cons_self
          · exact earlier flow (List.mem_of_mem_filter kept)
      | clearFlows => cases member

theorem executeAll_subset {table : FlowTable} {commands : List SwitchCommand}
    (noFlow : ∀ command ∈ commands, command.NoFlow) :
    table.executeAll commands ⊆ table :=
  forall_mem_executeAll (fun _ member => member)
    fun dlSrc dlDst port member =>
      absurd rfl (noFlow _ member dlSrc dlDst port)

theorem not_handles_nil (frame : Frame) : ¬ Handles [] frame := by
  rintro ⟨flow, member, _⟩
  exact List.not_mem_nil member

end FlowTable

namespace BaselineController

variable (event : PacketIn) (self : BaselineController)

@[simp] theorem addFlows_learnPort (mac : EthAddr) (port : Port) :
    (self.learnPort mac port).addFlows = self.addFlows := by
  unfold learnPort; split <;> rfl

@[simp] theorem addFlows_learnIp (mac : EthAddr) (ip : IPAddr) :
    (self.learnIp mac ip).addFlows = self.addFlows := by
  unfold learnIp; split <;> rfl

@[simp] theorem addFlows_learnSender :
    (self.learnSender event).addFlows = self.addFlows := by
  unfold learnSender
  dsimp only
  split <;> simp

theorem keeps_handlePacketIn :
    Handler.Keeps (fun self => self.addFlows = false) SwitchCommand.NoFlow
      (handlePacketIn event) := by
  have forwards : ∀ port, Handler.Keeps
      (fun self : BaselineController => self.addFlows = false)
      SwitchCommand.NoFlow (forward event.parsed port) := by
    intro port
    exact Handler.keeps_emit fun _ _ _ => SwitchCommand.noConfusion
  refine (Handler.keeps_modify ?_).bind fun _ => Handler.keeps_get ?_
  · intro self noFlows
    rwa [addFlows_learnSender]
  · intro self noFlows
    split
    · exact forwards OFPP_ALL
    · next port found =>
        refine Handler.Keeps.ite (fun flows => ?_) fun _ => forwards port
        rw [noFlows] at flows
        cases flows

theorem keeps_connectionDown :
    Handler.Keeps (fun self => self.addFlows = false) SwitchCommand.NoFlow
      connectionDown := by
  refine Handler.Keeps.bind (Handler.keeps_modify ?_) fun _ => ?_
  · intro self noFlows
    exact noFlows
  · exact Handler.keeps_emit fun _ _ _ => SwitchCommand.noConfusion

end BaselineController

end SwitchPaxos

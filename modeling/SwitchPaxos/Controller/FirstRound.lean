import SwitchPaxos.Base.Run
import SwitchPaxos.Controller.Cluster
import SwitchPaxos.Controller.Membership

/-!
# The first round of the leader

Every node starts in the round that is the last digit of its name, and the
leader adds the number of nodes it knows to its own once it has joined.  That
makes the round of the leader large enough only if it knows enough nodes, and
only for the client packets it handles afterwards.
-/

namespace SwitchPaxos

/-- `int(name[-1])` -/
def nodeId (name : String) : Option ℕ :=
  name.toList.getLast?.bind fun digit =>
    if digit.isDigit then some (digit.toNat - 48) else none

/-- The name of the interface of the switch itself. -/
def Connection.ownName (connection : Connection) : String :=
  (connection.desc (connection.ports.max' connection.nonempty)).name

/-- What `__init__` sets up, with the node id read off the name. -/
def PaxosController.boot (connection : Connection) (addFlows : Bool) :
    Option PaxosController :=
  (nodeId connection.ownName).map fun id =>
    PaxosController.new id connection addFlows

/-- The name of a switch in Mininet. -/
def switchName (i : ℕ) : String := "S" ++ toString i

theorem nodeId_switchName (i : ℕ) : nodeId (switchName i) = some (i % 10) := by
  have last : (switchName i).toList.getLast? =
      some (Nat.digitChar (i % 10)) := by
    rw [switchName, Nat.toString_eq_repr, String.toList_append]
    by_cases short : i < 10
    · rw [Nat.repr_of_lt short, Nat.mod_eq_of_lt short]
      simp
    · rw [Nat.repr_of_ge (by omega), String.toList_append,
        String.toList_singleton, ← List.append_assoc, List.getLast?_concat]
  have digit : ∀ d < 10, (Nat.digitChar d).isDigit = true ∧
      (Nat.digitChar d).toNat - 48 = d := by decide
  obtain ⟨isDigit, value⟩ := digit (i % 10) (Nat.mod_lt _ (by decide))
  rw [nodeId, last, Option.bind_some, if_pos isDigit, value]

theorem switchName_eq_S1 {i : ℕ} : switchName i = "S1" ↔ i = 1 := by
  constructor
  · intro same
    have lists := congrArg String.toList same
    rw [switchName, Nat.toString_eq_repr, String.toList_append] at lists
    have rest : i.repr.toList = ['1'] := by simpa using lists
    by_cases short : i < 10
    · rw [Nat.repr_of_lt short] at rest
      have digit : Nat.digitChar i = '1' := by simpa using rest
      have digits : ∀ d < 10, Nat.digitChar d = '1' → d = 1 := by decide
      exact digits i short digit
    · rw [Nat.repr_of_ge (by omega), String.toList_append] at rest
      have length := congrArg List.length rest
      simp at length
  · rintro rfl
    rfl

/-- The round of a message, if it is an ACCEPT. -/
def acceptRound (type : UInt16) (payload : Bytes) : Option ℕ :=
  if type = PaxosMessage.ACCEPT then
    match PaxosMessage.unpackAccept payload with
    | .ok (n, _, _) => some n
    | .error _ => none
  else none

/-- The round of an ACCEPT that a node sends, to itself or to another. -/
def Effect.acceptRound? : Effect → Option ℕ
  | .sent frame _ => acceptRound frame.type frame.payload
  | .toSelf type payload => acceptRound type payload
  | _ => none

/-- At least three switches, with the names that Mininet gives them. -/
structure Topology where
  k : ℕ
  three : 3 ≤ k
  connection : ℕ → Connection
  named : ∀ i, 1 ≤ i → i ≤ k → (connection i).ownName = switchName i

/-- What happens at a node: an upcall, or a step of one of its threads. -/
inductive ControllerEvent where
  | upcall (answer : ℕ → Bool) (event : PacketIn)
  | acts (activity : Activity)

def ControllerEvent.handle : ControllerEvent → PaxosController.Handler Unit
  | .upcall answer event => PaxosController.packetIn answer event
  | .acts activity => activity.handle

structure StartupAction where
  i : ℕ
  event : ControllerEvent

/-- The nodes by the numbers in their names, all that they did, and how many
nodes the leader knew when it went on to its round. -/
structure Startup where
  nodes : ℕ → PaxosController
  log : List (ℕ × Effect)
  picked : Option ℕ

namespace Startup

/-- All frames that were sent. -/
def frames (startup : Startup) : List Frame :=
  startup.log.filterMap fun entry => entry.2.frame?

/-- The rounds of all ACCEPT messages that were sent. -/
def rounds (startup : Startup) : List ℕ :=
  startup.log.filterMap fun entry => entry.2.acceptRound?

def start (topology : Topology) (addFlows : Bool) : Startup :=
  { nodes := fun i => .new (i % 10) (topology.connection i) addFlows
    log := []
    picked := none }

def step (startup : Startup) (action : StartupAction) : Startup :=
  let node := startup.nodes action.i
  let outcome := action.event.handle node
  { nodes := Function.update startup.nodes action.i outcome.state
    log := startup.log ++ outcome.effects.map fun effect => (action.i, effect)
    picked :=
      match action with
      | ⟨1, .acts .pickNext⟩ => some node.state.N.card
      | _ => startup.picked }

/-- An ACCEPT that arrives was sent by one of the nodes; all other frames may
hold anything.  `next_round` runs once at the leader, after it joined, and its
two parts may be apart. -/
def Enabled (topology : Topology) (startup : Startup)
    (action : StartupAction) : Prop :=
  (1 ≤ action.i ∧ action.i ≤ topology.k) ∧
    match action.event with
    | .upcall _ event =>
        event.parsed.type = PaxosMessage.ACCEPT →
          event.parsed ∈ startup.frames
    | .acts .createLeader => (startup.nodes action.i).joined = true
    | .acts .pickNext => action.i = 1 →
        (startup.nodes 1).leader ≠ none ∧ startup.picked = none
    | _ => True

def system (topology : Topology) : System Startup StartupAction :=
  { Enabled := Enabled topology
    step := step }

/-- Every ACCEPT carries a round that none of the other nodes started behind,
and no node is in a later round. -/
structure Heeded (topology : Topology) (startup : Startup) : Prop where
  start : ∀ n ∈ startup.rounds, ∀ i, 2 ≤ i → i ≤ topology.k → i % 10 ≤ n
  crnd : ∀ n ∈ startup.rounds, ∀ i, 1 ≤ i → i ≤ topology.k →
    (startup.nodes i).state.crnd ≤ n

end Startup

/-- The leader numbers the packet of a CLIENT message and tells all nodes: it
has joined and knows itself, it has its sequence numbers, and round, number and
packet can be encoded. -/
structure PaxosController.Numbers (message : Bytes)
    (node : PaxosController) : Prop where
  isleader : node.isleader = true
  joined : node.joined = true
  packet : ∃ v, PaxosMessage.unpackClient message = .ok v
  member : node.mac ∈ node.state.N
  fits : node.state.crnd ≤ UINT32_MAX
  leader : ∃ leader, node.leader = some leader ∧
    leader.nextSeqno.1 ≤ UINT32_MAX

/-- An upcall brings a CLIENT message that the leader numbers. -/
structure PaxosController.Announces (event : PacketIn)
    (node : PaxosController) : Prop where
  client : event.parsed.type = PaxosMessage.CLIENT
  dispatched : node.dispatches event = true
  numbers : node.Numbers event.parsed.payload

namespace Startup

/-- What the leader announces, it announces after it went on to its round, and
by then it knew enough nodes. -/
def Prepared (topology : Topology) (startup : Startup)
    (action : StartupAction) : Prop :=
  match action.event with
  | .upcall _ event => action.i = 1 → (startup.nodes 1).Announces event →
      ∃ known, startup.picked = some known ∧
        ∀ i, 2 ≤ i → i ≤ topology.k → i % 10 ≤ 1 + known
  | _ => True

end Startup

/-- The rounds of the ACCEPT messages among the effects of a handler. -/
def acceptRounds (effects : List Effect) : List ℕ :=
  effects.filterMap Effect.acceptRound?

theorem mem_acceptRounds {effects : List Effect} {n : ℕ} :
    n ∈ acceptRounds effects ↔
      ∃ effect ∈ effects, effect.acceptRound? = some n := List.mem_filterMap

theorem acceptRounds_eq_nil {effects : List Effect} :
    acceptRounds effects = [] ↔
      ∀ effect ∈ effects, effect.acceptRound? = none :=
  List.filterMap_eq_nil_iff

@[simp] theorem acceptRounds_append (first second : List Effect) :
    acceptRounds (first ++ second) =
      acceptRounds first ++ acceptRounds second :=
  List.filterMap_append

@[simp] theorem acceptRounds_handed (handed : List Handed) :
    acceptRounds (handed.map Effect.handed) = [] := by
  simp [acceptRounds_eq_nil, Effect.acceptRound?]

@[simp] theorem acceptRounds_command (given : List SwitchCommand) :
    acceptRounds (given.map Effect.command) = [] := by
  simp [acceptRounds_eq_nil, Effect.acceptRound?]

namespace PaxosController

variable {self : PaxosController} {message : Bytes}

theorem mem_acceptRounds_announce {type : UInt16} {payload : Bytes} {n : ℕ} :
    n ∈ acceptRounds (self.announce type payload) ↔
      acceptRound type payload = some n := by
  rw [mem_acceptRounds]
  constructor
  · rintro ⟨effect, member, round⟩
    simp only [announce, List.mem_append, List.mem_map, List.mem_singleton]
      at member
    rcases member with ⟨dst, -, rfl⟩ | rfl
    · exact round
    · exact round
  · intro round
    exact ⟨.toSelf type payload, by simp [announce], round⟩

/-- A handler that leaves the round alone and announces no packet. -/
abbrev Quiet (crnd : ℕ) (call : Handler α) : Prop :=
  Handler.Keeps (fun self => self.state.crnd = crnd)
    (fun effect => effect.acceptRound? = none) call

section Quiet

variable {crnd : ℕ}

theorem quiet_modify {change : PaxosController → PaxosController}
    (same : ∀ self, (change self).state.crnd = self.state.crnd) :
    Quiet crnd (Handler.modify change) :=
  Handler.keeps_modify fun self holds => (same self).trans holds

theorem quiet_onSlots (operation : SwitchPaxos.Handler Slots Handed Failure α) :
    Quiet crnd (onSlots operation) :=
  (Handler.keeps_anything operation).zoom (fun _ _ => trivial)
    (fun _ _ holds _ => holds) fun _ _ => rfl

theorem quiet_onSwitch (operation : BaselineController.Handler α) :
    Quiet crnd (onSwitch operation) :=
  (Handler.keeps_anything operation).zoom (fun _ _ => trivial)
    (fun _ _ holds _ => holds) fun _ _ => rfl

theorem quiet_sendJoin (dst : EthAddr) (port : Port) (reannounce : Bool) :
    Quiet crnd (sendJoin dst port reannounce) := by
  refine Handler.keeps_get fun self holds => ?_
  exact (Handler.keeps_lift _).bind fun _ => Handler.keeps_emit rfl

theorem quiet_addNode (node : EthAddr) : Quiet crnd (addNode node) := by
  refine Handler.Keeps.bind (quiet_modify ?_) fun _ => ?_
  · exact fun _ => rfl
  · exact Handler.keeps_get fun self holds => quiet_onSlots _

theorem quiet_onJoin (event : Option PacketIn) (message : Bytes) :
    Quiet crnd (onJoin event message) := by
  refine (Handler.keeps_lift _).bind ?_
  rintro ⟨nId, macAddr⟩
  refine Handler.keeps_get fun self holds => ?_
  refine Handler.Keeps.ite (fun _ => ?_) fun _ => ?_
  · exact (quiet_sendJoin _ _ _).bind fun _ => Handler.keeps_pure _
  refine Handler.Keeps.ite (fun _ => ?_) fun _ => Handler.keeps_pure _
  cases event with
  | none =>
      refine (quiet_addNode _).bind fun _ => ?_
      exact (quiet_sendJoin _ _ _).bind fun _ => Handler.keeps_pure _
  | some event =>
      refine Handler.Keeps.bind (quiet_modify ?_) fun _ => ?_
      · exact fun _ => rfl
      refine (quiet_addNode _).bind fun _ => ?_
      refine Handler.Keeps.bind (quiet_modify ?_) fun _ => ?_
      · exact fun _ => rfl
      exact (quiet_sendJoin _ _ _).bind fun _ => Handler.keeps_pure _

theorem quiet_setJoined : Quiet crnd setJoined :=
  quiet_modify fun _ => rfl

theorem quiet_joinBlock : Quiet crnd joinBlock := by
  refine Handler.keeps_get fun self holds => ?_
  refine Handler.Keeps.ite (fun _ => Handler.keeps_pure _) fun _ => ?_
  refine Handler.Keeps.ite (fun _ => quiet_setJoined) fun _ => ?_
  refine (Handler.keeps_lift _).bind fun payload => ?_
  refine (quiet_onJoin none payload).bind fun _ => ?_
  refine Handler.keeps_get fun self holds => ?_
  exact Handler.Keeps.ite (fun _ => quiet_setJoined)
    fun _ => Handler.keeps_pure _

/-- The only thread that changes the round is the one that starts it. -/
theorem quiet_activity (activity : Activity)
    (picks : activity ≠ .pickNext) : Quiet crnd activity.handle := by
  cases activity with
  | joinBlock => exact quiet_joinBlock
  | askAgain => exact quiet_sendJoin _ _ _
  | createLeader =>
      refine Handler.keeps_get fun self holds => ?_
      refine Handler.Keeps.ite (fun _ => ?_) fun _ => Handler.keeps_pure _
      exact quiet_modify fun _ => rfl
  | pickNext => exact absurd rfl picks
  | pump answer => exact Handler.keeps_get fun self holds => quiet_onSlots _
  | collect n => exact quiet_modify fun _ => rfl
  | connectionDown => exact quiet_onSwitch _

end Quiet

theorem pickNext_rounds (self : PaxosController) :
    acceptRounds (pickNext self).effects = [] ∧
      (pickNext self).state.state.crnd =
        if self.isleader = true then self.state.crnd + self.state.N.card
        else self.state.crnd := by
  simp only [pickNext, PaxosState.pickNext, Handler.bind_apply,
    Handler.get_apply, Handler.ite_apply, Handler.lift_apply,
    Outcome.andThen_ok, Outcome.after_nil]
  split
  · by_cases some : 0 < self.state.N.card
    · rw [if_pos some]
      exact ⟨rfl, rfl⟩
    · rw [if_neg some]
      have none : self.state.N.card = 0 := by omega
      exact ⟨rfl, by rw [none]; rfl⟩
  · exact ⟨rfl, rfl⟩

/-- An ACCEPT announces nothing, and it raises the round to its own at most. -/
theorem onAccept_rounds (answer : ℕ → Bool) (event : Option PacketIn)
    (message : Bytes) (self : PaxosController) :
    acceptRounds (onAccept answer event message self).effects = [] ∧
      ((onAccept answer event message self).state.state.crnd =
          self.state.crnd ∨
        ∃ n seqno v, PaxosMessage.unpackAccept message = .ok (n, seqno, v) ∧
          self.state.crnd ≤ n ∧
          (onAccept answer event message self).state.state.crnd = n) := by
  rcases onAccept_cases answer event message self with
    ⟨n, seqno, v, decoded, -, accepts, handled⟩ | ⟨result, slots, -, handled⟩
  · rw [handled]
    refine ⟨?_, .inr ⟨n, seqno, v, decoded, accepts.1, ?_⟩⟩
    · by_cases member : self.mac ∈ self.state.N
      · rw [castVote_effects member]
        rw [acceptRounds_append, acceptRounds_handed, List.append_nil]
        have learns : acceptRounds (self.announce PaxosMessage.LEARN
            (PaxosMessage.header n seqno)) = [] := by
          refine List.eq_nil_iff_forall_not_mem.mpr fun round announced => ?_
          cases mem_acceptRounds_announce.mp announced
        exact learns
      · rw [castVote, if_neg member]
        rfl
    · rw [castVote_state]
      rfl
  · rw [handled]
    exact ⟨rfl, .inl rfl⟩

theorem onLearn_rounds (answer : ℕ → Bool) (event : Option PacketIn)
    (message : Bytes) (self : PaxosController) :
    acceptRounds (onLearn answer event message self).effects = [] ∧
      (onLearn answer event message self).state.state.crnd =
        self.state.crnd := by
  rcases onLearn_cases answer event message self with
    ⟨n, seqno, -, -, handled⟩ | ⟨result, handled⟩
  · rw [handled, learnFrom_apply]
    exact ⟨acceptRounds_handed _, rfl⟩
  · rw [handled]
    exact ⟨rfl, rfl⟩

private theorem broadcastAccept_rounds (answer : ℕ → Bool) (seqno : ℕ)
    (v : Bytes) (self : PaxosController) (member : self.mac ∈ self.state.N)
    (fits : self.state.crnd ≤ UINT32_MAX ∧ seqno ≤ UINT32_MAX) :
    (self.broadcastAccept answer self.state.crnd seqno v).state.state.crnd =
        self.state.crnd ∧
      ∀ n, n ∈ acceptRounds
          (self.broadcastAccept answer self.state.crnd seqno v).effects ↔
        n = self.state.crnd := by
  have decoded := PaxosMessage.unpackAccept_header fits.1 fits.2 v
  obtain ⟨silent, round⟩ := onAccept_rounds answer none
    (PaxosMessage.header self.state.crnd seqno ++ v) self
  rw [broadcastAccept, if_neg (not_not_intro member), if_pos fits,
    Handler.andThen_pure]
  constructor
  · rw [Outcome.after_state]
    rcases round with same | ⟨n, other, w, accepted, -, raised⟩
    · exact same
    · rw [decoded] at accepted
      cases accepted
      exact raised
  · intro n
    rw [Outcome.after_effects, acceptRounds_append, silent, List.append_nil,
      mem_acceptRounds_announce, acceptRound, if_pos rfl, decoded]
    exact ⟨fun same => (Option.some.inj same).symm, fun same => same ▸ rfl⟩

theorem onClient_rounds (answer : ℕ → Bool) (event : PacketIn)
    (message : Bytes) (self : PaxosController) :
    (onClient answer event message self).state.state.crnd =
        self.state.crnd ∧
      ∀ n, n ∈ acceptRounds (onClient answer event message self).effects ↔
        n = self.state.crnd ∧ self.Numbers message := by
  have silently : ∀ outcome : Outcome PaxosController Effect Failure Reply,
      outcome.state.state.crnd = self.state.crnd →
      acceptRounds outcome.effects = [] → ¬ self.Numbers message →
      outcome.state.state.crnd = self.state.crnd ∧
        ∀ n, n ∈ acceptRounds outcome.effects ↔
          n = self.state.crnd ∧ self.Numbers message := by
    intro outcome same silent nothing
    refine ⟨same, fun n => ?_⟩
    rw [silent]
    exact iff_of_false List.not_mem_nil fun both => nothing both.2
  by_cases leads : self.isleader = true ∧ self.joined = true
  · obtain ⟨isleader, joined⟩ := leads
    cases present : self.leader with
    | none =>
        refine silently _ ?_ ?_ fun numbers => ?_
        · rw [onClient_noLeader event isleader joined present]
        · rw [onClient_noLeader event isleader joined present]
          rfl
        · obtain ⟨leader, found, -⟩ := numbers.leader
          rw [present] at found
          cases found
    | some leader =>
        cases decoded : PaxosMessage.unpackClient message with
        | error failure =>
            refine silently _ ?_ ?_ fun numbers => ?_
            · rw [onClient_malformed event isleader joined present decoded]
              rfl
            · rw [onClient_malformed event isleader joined present decoded]
              rfl
            · obtain ⟨v, found⟩ := numbers.packet
              rw [decoded] at found
              cases found
        | ok v =>
            rw [onClient_numbered answer event isleader joined present decoded]
            by_cases sends : self.mac ∈ self.state.N ∧
                self.state.crnd ≤ UINT32_MAX ∧
                  leader.nextSeqno.1 ≤ UINT32_MAX
            · obtain ⟨member, fits⟩ := sends
              have numbers : self.Numbers message :=
                ⟨isleader, joined, ⟨v, decoded⟩, member, fits.1,
                  ⟨leader, present, fits.2⟩⟩
              obtain ⟨same, rounds⟩ := broadcastAccept_rounds answer
                leader.nextSeqno.1 v (self.withClient leader event.port)
                member fits
              refine ⟨same, fun n => ?_⟩
              rw [and_iff_left numbers]
              exact rounds n
            · have nothing : ¬ self.Numbers message := by
                intro numbers
                obtain ⟨other, found, small⟩ := numbers.leader
                obtain rfl := Option.some.inj (present.symm.trans found)
                exact sends ⟨numbers.member, numbers.fits, small⟩
              rcases broadcastAccept_cases answer self.state.crnd
                leader.nextSeqno.1 v (self.withClient leader event.port) with
                ⟨failure, refused⟩ | ⟨member, fits, -⟩
              · rw [refused]
                exact silently _ rfl rfl nothing
              · exact absurd ⟨member, fits⟩ sends
  · rw [onClient_ignored event leads]
    exact silently _ rfl rfl fun numbers =>
      leads ⟨numbers.isleader, numbers.joined⟩

/-- An upcall announces a packet in the round of the leader, or it raises the
round to that of an ACCEPT. -/
theorem packetIn_rounds (answer : ℕ → Bool) (event : PacketIn)
    (self : PaxosController) :
    (∀ n, n ∈ acceptRounds (packetIn answer event self).effects ↔
      n = self.state.crnd ∧ self.Announces event) ∧
    ((packetIn answer event self).state.state.crnd = self.state.crnd ∨
      ∃ n seqno v, event.parsed.type = PaxosMessage.ACCEPT ∧
        PaxosMessage.unpackAccept event.parsed.payload = .ok (n, seqno, v) ∧
        self.state.crnd ≤ n ∧
        (packetIn answer event self).state.state.crnd = n) := by
  obtain ⟨switch, given, handled⟩ := packetIn_apply answer event self
  have rounds : acceptRounds (packetIn answer event self).effects =
      acceptRounds (handlePaxos answer event self).effects := by
    rw [handled, acceptRounds_append, acceptRounds_command, List.append_nil]
  have state : (packetIn answer event self).state.state =
      (handlePaxos answer event self).state.state := by rw [handled]
  rw [rounds, state]
  by_cases client : event.parsed.type = PaxosMessage.CLIENT
  · rw [handlePaxos_client client]
    split
    · next dispatched =>
        obtain ⟨same, announced⟩ :=
          onClient_rounds answer event event.parsed.payload self
        refine ⟨fun n => ?_, .inl same⟩
        rw [announced n]
        refine and_congr_right fun _ => ?_
        exact ⟨fun numbers => ⟨client, dispatched.1, numbers⟩,
          fun announces => announces.numbers⟩
    · next ignored =>
        refine ⟨fun n => iff_of_false List.not_mem_nil ?_, .inl rfl⟩
        rintro ⟨-, announces⟩
        exact ignored ⟨announces.dispatched, announces.numbers.joined⟩
  · have nothing : ¬ self.Announces event := fun announces =>
      client announces.client
    have silent : ∀ {effects : List Effect}, acceptRounds effects = [] →
        ∀ n, n ∈ acceptRounds effects ↔
          n = self.state.crnd ∧ self.Announces event := by
      intro effects none n
      rw [none]
      exact iff_of_false List.not_mem_nil fun both => nothing both.2
    by_cases join : event.parsed.type = PaxosMessage.JOIN
    · rw [handlePaxos_join join]
      obtain ⟨same, quiet⟩ :=
        quiet_onJoin event event.parsed.payload self rfl
      exact ⟨silent (acceptRounds_eq_nil.mpr quiet), .inl same⟩
    rcases handlePaxos_other answer event self join with
      ⟨result, given, left⟩ | ⟨-, ⟨accept, taken⟩ | ⟨is, -⟩ | ⟨-, taken⟩⟩
    · rw [left]
      exact ⟨silent (acceptRounds_command given), .inl rfl⟩
    · rw [taken]
      obtain ⟨quiet, round⟩ :=
        onAccept_rounds answer event event.parsed.payload self
      refine ⟨silent quiet, round.imp_right ?_⟩
      rintro ⟨n, seqno, v, decoded, later, raised⟩
      exact ⟨n, seqno, v, accept, decoded, later, raised⟩
    · exact absurd is client
    · rw [taken]
      obtain ⟨quiet, same⟩ :=
        onLearn_rounds answer event event.parsed.payload self
      exact ⟨silent quiet, .inl same⟩

end PaxosController

theorem Topology.boots (topology : Topology) (addFlows : Bool) {i : ℕ}
    (first : 1 ≤ i) (last : i ≤ topology.k) :
    PaxosController.boot (topology.connection i) addFlows =
      some ((Startup.start topology addFlows).nodes i) := by
  rw [PaxosController.boot, topology.named i first last, nodeId_switchName]
  rfl

theorem ControllerEvent.connection_handle (event : ControllerEvent)
    (node : PaxosController) :
    (event.handle node).state.connection = node.connection := by
  have stable : PaxosController.Stable (fun _ => True)
      (fun other => other.connection = node.connection) := by
    constructor <;> intros <;> assumption
  have switched : ∀ {α : Type} (operation : BaselineController.Handler α),
      Handler.Keeps (fun other => other.connection = node.connection)
        (fun _ => True) (PaxosController.onSwitch operation) :=
    fun operation => (Handler.keeps_anything operation).zoom
      (fun _ _ => trivial) (fun _ _ holds _ => holds) fun _ _ => trivial
  cases event with
  | upcall answer event =>
      exact (stable.keeps_packetIn answer (fun _ _ => trivial) trivial
        (switched _) node rfl).1
  | acts activity =>
      exact (stable.keeps_activity (fun _ _ => trivial) (switched _) activity
        node rfl).1

namespace Startup

variable {topology : Topology} {startup : Startup} {action : StartupAction}

theorem rounds_step :
    (startup.step action).rounds = startup.rounds ++
      acceptRounds (action.event.handle (startup.nodes action.i)).effects := by
  simp [step, rounds, acceptRounds, List.filterMap_append, List.filterMap_map]

theorem nodes_step (i : ℕ) :
    (startup.step action).nodes i =
      if i = action.i then
        (action.event.handle (startup.nodes action.i)).state
      else startup.nodes i := by
  simp [step, Function.update_apply]

theorem picked_step (other : action ≠ ⟨1, .acts .pickNext⟩) :
    (startup.step action).picked = startup.picked := by
  unfold step
  dsimp only
  split
  · exact absurd rfl other
  · rfl

theorem round_of_frame {frame : Frame} {n seqno : ℕ} {v : Bytes}
    (sent : frame ∈ startup.frames) (accept : frame.type = PaxosMessage.ACCEPT)
    (decoded : PaxosMessage.unpackAccept frame.payload = .ok (n, seqno, v)) :
    n ∈ startup.rounds := by
  obtain ⟨⟨i, effect⟩, member, is⟩ := List.mem_filterMap.mp sent
  refine List.mem_filterMap.mpr ⟨⟨i, effect⟩, member, ?_⟩
  cases effect <;> cases is
  simp only [Effect.acceptRound?, acceptRound, if_pos accept, decoded]

/-- The leader is in its first round or in the one it went on to, all that is
announced is in one of these, and no other node is in any other round than its
first. -/
structure Sound (topology : Topology) (startup : Startup) : Prop where
  connection : ∀ i, (startup.nodes i).connection = topology.connection i
  leader : (startup.nodes 1).state.crnd = 1 + startup.picked.getD 0
  rounds : ∀ n ∈ startup.rounds, n = 1 ∨ n = 1 + startup.picked.getD 0
  crnd : ∀ i, 2 ≤ i → i ≤ topology.k →
    (startup.nodes i).state.crnd = i % 10 ∨
      (startup.nodes i).state.crnd ∈ startup.rounds

theorem start_sound (topology : Topology) (addFlows : Bool) :
    (start topology addFlows).Sound topology where
  connection := fun _ => rfl
  leader := rfl
  rounds := by
    intro n announced
    exact absurd announced List.not_mem_nil
  crnd := fun _ _ _ => .inl rfl

theorem Sound.isleader_iff (sound : startup.Sound topology) {i : ℕ}
    (first : 1 ≤ i) (last : i ≤ topology.k) :
    (startup.nodes i).isleader = true ↔ i = 1 := by
  have name : (startup.nodes i).name = (startup.nodes i).connection.ownName :=
    rfl
  rw [PaxosController.isleader, name, sound.connection i,
    topology.named i first last, beq_iff_eq, switchName_eq_S1]

/-- A handler that announces in the round of the leader at most, and takes a
node to a round that was announced at most. -/
theorem Sound.announce (sound : startup.Sound topology)
    (picked : (startup.step action).picked = startup.picked)
    (announced : ∀ n ∈ acceptRounds
      (action.event.handle (startup.nodes action.i)).effects,
        n = (startup.nodes 1).state.crnd)
    (raised : (action.event.handle (startup.nodes action.i)).state.state.crnd =
        (startup.nodes action.i).state.crnd ∨
      ∃ n ∈ startup.rounds, (startup.nodes action.i).state.crnd ≤ n ∧
        (action.event.handle (startup.nodes action.i)).state.state.crnd = n) :
    (startup.step action).Sound topology := by
  constructor
  · intro i
    rw [nodes_step]
    split
    · next same =>
        rw [ControllerEvent.connection_handle, ← same, sound.connection]
    · exact sound.connection i
  · rw [nodes_step, picked, ← sound.leader]
    split
    · next same =>
        rcases raised with still | ⟨n, member, later, now⟩
        · rw [still, same]
        · have known := sound.rounds n member
          rw [← same] at later
          rw [now, sound.leader]
          rw [sound.leader] at later
          omega
    · rfl
  · intro n member
    rw [picked]
    rw [rounds_step] at member
    rcases List.mem_append.mp member with earlier | new
    · exact sound.rounds n earlier
    · exact .inr ((announced n new).trans sound.leader)
  · intro i first last
    have earlier := (sound.crnd i first last).imp_right fun member =>
      List.mem_append_left (acceptRounds
        (action.event.handle (startup.nodes action.i)).effects) member
    rw [nodes_step, rounds_step]
    split
    · next same =>
        rcases raised with still | ⟨n, member, -, now⟩
        · rw [still]
          exact same ▸ earlier
        · rw [now]
          exact .inr (List.mem_append_left _ member)
    · exact earlier

theorem Sound.pickNext (sound : startup.Sound topology) {i : ℕ}
    (enabled : Enabled topology startup ⟨i, .acts .pickNext⟩) :
    (startup.step ⟨i, .acts .pickNext⟩).Sound topology := by
  obtain ⟨⟨first, last⟩, waits⟩ := enabled
  obtain ⟨silent, crnd⟩ :=
    PaxosController.pickNext_rounds (startup.nodes i)
  by_cases leads : i = 1
  · subst leads
    obtain ⟨-, unpicked⟩ := waits rfl
    have leader := sound.leader
    have rounds : (startup.step ⟨1, .acts .pickNext⟩).rounds =
        startup.rounds := by
      rw [rounds_step]
      exact (congrArg _ silent).trans (List.append_nil _)
    rw [if_pos ((sound.isleader_iff first last).mpr rfl)] at crnd
    rw [unpicked, Option.getD_none, Nat.add_zero] at leader
    constructor
    · intro i
      rw [nodes_step]
      split
      · next same =>
          rw [ControllerEvent.connection_handle, same, sound.connection]
      · exact sound.connection i
    · rw [nodes_step, if_pos rfl]
      exact crnd.trans (congrArg (· + _) leader)
    · intro n member
      rw [rounds] at member
      have early := sound.rounds n member
      rw [unpicked] at early
      exact .inl (early.elim id id)
    · intro i first last
      have other : i ≠ 1 := by omega
      rw [nodes_step, if_neg other, rounds]
      exact sound.crnd i first last
  · rw [if_neg fun isleader =>
      leads ((sound.isleader_iff first last).mp isleader)] at crnd
    refine sound.announce (picked_step ?_) ?_ (.inl crnd)
    · rintro ⟨⟩
      exact leads rfl
    · intro n member
      rw [ControllerEvent.handle, Activity.handle, silent] at member
      exact absurd member List.not_mem_nil

theorem Sound.step (sound : startup.Sound topology)
    (enabled : Enabled topology startup action) :
    (startup.step action).Sound topology := by
  obtain ⟨i, event⟩ := action
  obtain ⟨⟨first, last⟩, arrives⟩ := enabled
  cases event with
  | acts activity =>
      by_cases picks : activity = .pickNext
      · subst picks
        exact sound.pickNext ⟨⟨first, last⟩, arrives⟩
      · obtain ⟨still, quiet⟩ :=
          PaxosController.quiet_activity activity picks (startup.nodes i) rfl
        refine sound.announce (picked_step ?_) ?_ (.inl still)
        · rintro ⟨⟩
          exact picks rfl
        · intro n member
          obtain ⟨effect, performed, round⟩ := mem_acceptRounds.mp member
          rw [quiet effect performed] at round
          cases round
  | upcall answer event =>
      obtain ⟨announced, raised⟩ :=
        PaxosController.packetIn_rounds answer event (startup.nodes i)
      refine sound.announce (picked_step (by rintro ⟨⟩)) ?_ ?_
      · intro n member
        obtain ⟨round, announces⟩ := (announced n).mp member
        have leads : i = 1 := (sound.isleader_iff first last).mp
          announces.numbers.isleader
        rw [round, leads]
      · refine raised.imp_right ?_
        rintro ⟨n, seqno, v, accept, decoded, later, now⟩
        exact ⟨n, round_of_frame (arrives accept) accept decoded, later, now⟩

/-- All nodes can be in the round of what is announced if all started at it or
before. -/
theorem Sound.heeded_iff (sound : startup.Sound topology) :
    startup.Heeded topology ↔
      ∀ n ∈ startup.rounds, ∀ i, 2 ≤ i → i ≤ topology.k → i % 10 ≤ n := by
  refine ⟨fun heeded => heeded.start, fun starts => ⟨starts, ?_⟩⟩
  -- S2 starts in round 2, so nothing was announced in round 1.
  have round : ∀ n ∈ startup.rounds, n = 1 + startup.picked.getD 0 := by
    intro n member
    have second := starts n member 2 le_rfl
      (Nat.le_of_succ_le topology.three)
    exact (sound.rounds n member).resolve_left (by omega)
  intro n member i first last
  by_cases leads : i = 1
  · rw [leads, sound.leader, round n member]
  · have other : 2 ≤ i := by omega
    rcases sound.crnd i other last with began | announced
    · rw [began]
      exact starts n member i other last
    · rw [round _ announced, round n member]

/-- What an action announces is heeded exactly if the leader is prepared. -/
theorem Sound.prepared_iff (sound : startup.Sound topology)
    (enabled : Enabled topology startup action) :
    (∀ n ∈ acceptRounds
        (action.event.handle (startup.nodes action.i)).effects,
      ∀ i, 2 ≤ i → i ≤ topology.k → i % 10 ≤ n) ↔
    Prepared topology startup action := by
  obtain ⟨i, event⟩ := action
  obtain ⟨⟨first, last⟩, -⟩ := enabled
  cases event with
  | acts activity =>
      refine iff_of_true (fun n member => ?_) trivial
      have silent : acceptRounds (activity.handle (startup.nodes i)).effects =
          [] := by
        by_cases picks : activity = .pickNext
        · subst picks
          exact (PaxosController.pickNext_rounds _).1
        · exact acceptRounds_eq_nil.mpr
            (PaxosController.quiet_activity activity picks _ rfl).2
      rw [ControllerEvent.handle, silent] at member
      exact absurd member List.not_mem_nil
  | upcall answer event =>
      obtain ⟨announced, -⟩ :=
        PaxosController.packetIn_rounds answer event (startup.nodes i)
      constructor
      · intro heeds leads announces
        dsimp only at leads
        subst leads
        have starts := heeds _ ((announced _).mpr ⟨rfl, announces⟩)
        rw [sound.leader] at starts
        cases picked : startup.picked with
        | none =>
            have second := starts 2 le_rfl
              (Nat.le_of_succ_le topology.three)
            rw [picked, Option.getD_none] at second
            omega
        | some known =>
            rw [picked] at starts
            exact ⟨known, rfl, starts⟩
      · intro prepared n member
        obtain ⟨rfl, announces⟩ := (announced n).mp member
        have leads : i = 1 := (sound.isleader_iff first last).mp
          announces.numbers.isleader
        subst leads
        obtain ⟨known, picked, starts⟩ := prepared rfl announces
        rw [sound.leader, picked]
        exact starts

/-- Every ACCEPT of a run can be accepted by all nodes exactly if the leader is
prepared for each packet that it announces. -/
theorem heeded_iff_prepared (topology : Topology) (addFlows : Bool)
    (actions : List StartupAction)
    (run : (system topology).Run (start topology addFlows) actions) :
    ((system topology).after (start topology addFlows) actions).Heeded
        topology ↔
      (system topology).Each (Prepared topology) (start topology addFlows)
        actions := by
  refine run.property_iff_each (Heeded topology) (Prepared topology)
    (fun _ _ sound enabled => sound.step enabled) ?_
    (start_sound topology addFlows) ?_
  · intro startup action sound enabled
    have after := sound.step enabled
    rw [sound.heeded_iff, ← sound.prepared_iff enabled]
    change Heeded topology (startup.step action) ↔ _
    rw [after.heeded_iff, rounds_step]
    simp only [List.mem_append, or_imp, forall_and]
  · rw [(start_sound topology addFlows).heeded_iff]
    intro n announced
    exact absurd announced List.not_mem_nil

instance (topology : Topology) (startup : Startup) :
    (action : StartupAction) → Decidable (Enabled topology startup action)
  | ⟨i, .upcall _ event⟩ => inferInstanceAs (Decidable
      ((1 ≤ i ∧ i ≤ topology.k) ∧ (event.parsed.type = PaxosMessage.ACCEPT →
        event.parsed ∈ startup.frames)))
  | ⟨i, .acts activity⟩ =>
      match activity with
      | .createLeader => inferInstanceAs (Decidable
          ((1 ≤ i ∧ i ≤ topology.k) ∧ (startup.nodes i).joined = true))
      | .pickNext => inferInstanceAs (Decidable
          ((1 ≤ i ∧ i ≤ topology.k) ∧ (i = 1 →
            (startup.nodes 1).leader ≠ none ∧ startup.picked = none)))
      | .joinBlock | .askAgain | .pump _ | .collect _ | .connectionDown =>
          inferInstanceAs (Decidable ((1 ≤ i ∧ i ≤ topology.k) ∧ True))

instance (topology : Topology) (startup : Startup)
    (actions : List StartupAction) :
    Decidable ((system topology).Run startup actions) :=
  inferInstanceAs (Decidable (System.Each (system topology) (Enabled topology)
    startup actions))

/-- Switches with one port, whose addresses are their numbers. -/
def smallest : Topology where
  k := 3
  three := le_rfl
  connection i :=
    { ports := {65534}
      desc := fun _ => ⟨Fin.ofNat (2 ^ 48) i, switchName i⟩
      nonempty := localPort_nonempty }
  named _ _ _ := rfl

/-- The three nodes get the JOIN messages of each other, their join threads
finish, and the leader gets its sequence numbers. -/
def joins : List StartupAction :=
  let asks := [1, 2, 3].map fun i => ⟨i, .acts .joinBlock⟩
  let hears := fun i sender => ⟨i, .upcall (fun _ => false)
    (joinOf sender (Fin.ofNat _ sender) 4)⟩
  asks ++ [hears 1 2, hears 1 3, hears 2 1, hears 2 3, hears 3 1, hears 3 2] ++
    asks ++ [⟨1, .acts .createLeader⟩]

/-- A client packet comes in at the leader. -/
def sends : StartupAction :=
  ⟨1, .upcall (fun _ => false) MemberEvent.clientPacket⟩

theorem heeded_iff_prepared_smallest :
    let actions := joins ++ [⟨1, .acts .pickNext⟩, sends]
    ((system smallest).after (start smallest false) actions).rounds =
        [4, 4, 4] ∧
      (((system smallest).after (start smallest false) actions).Heeded
          smallest ↔
        (system smallest).Each (Prepared smallest) (start smallest false)
          actions) :=
  ⟨by decide +kernel, heeded_iff_prepared smallest false _
    (by decide +kernel)⟩

/-- A client packet that comes in between the two parts of `next_round` is
announced in round 1, where none of the others is. -/
theorem early_packet_is_refused :
    let actions := joins ++ [sends]
    let reached := (system smallest).after (start smallest false) actions
    (system smallest).Run (start smallest false) actions ∧
      reached.rounds = [1, 1, 1] ∧ (reached.nodes 2).state.crnd = 2 ∧
      (reached.nodes 3).state.crnd = 3 ∧ ¬ reached.Heeded smallest := by
  intro actions reached
  have observed : (system smallest).Run (start smallest false) actions ∧
      reached.rounds = [1, 1, 1] ∧ (reached.nodes 2).state.crnd = 2 ∧
      (reached.nodes 3).state.crnd = 3 := by decide +kernel
  obtain ⟨run, rounds, second, third⟩ := observed
  refine ⟨run, rounds, second, third, fun heeded => ?_⟩
  have announced : 1 ∈ reached.rounds := by
    rw [rounds]
    exact List.mem_cons_self
  have behind := heeded.start 1 announced 2 le_rfl (by decide)
  exact absurd behind (by decide)

end Startup

end SwitchPaxos

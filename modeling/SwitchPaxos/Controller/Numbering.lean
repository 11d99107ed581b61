import SwitchPaxos.Controller.Client
import SwitchPaxos.Controller.Diligence

/-!
# Numbers without a gap

The leader takes the next number for a client packet and for nothing else, so
as long as every packet that reaches it can be unpacked, the numbers it gave
are those below the next one.
-/

namespace SwitchPaxos

/-- The next number is the count of the numbers that were given. -/
structure Cluster.InLine (leader : EthAddr) (cluster : Cluster) : Prop where
  keys : (numbers cluster.log).map Prod.fst =
    List.range (numbers cluster.log).length
  next : (cluster.nodes leader).leader =
    some (ClientRun.leaderAfter (numbers cluster.log).length)

/-- A client packet that reaches the leader is long enough to be unpacked. -/
def Cluster.Serves (leader : EthAddr) (_ : Cluster) (action : ClusterAction) :
    Prop :=
  match action.event with
  | .deliver _ event => action.mac = leader →
      event.parsed.type = PaxosMessage.CLIENT →
        8 ≤ event.parsed.payload.length
  | _ => True

namespace PaxosController

variable (self : PaxosController) (answer : ℕ → Bool)

/-- The handler takes no number. -/
def TakesNone (outcome : Outcome PaxosController Effect Failure α) : Prop :=
  outcome.state.leader = self.leader ∧
    outcome.effects.filterMap Effect.numbered? = []

/-- The handler takes the next number for a packet. -/
def TakesOne (outcome : Outcome PaxosController Effect Failure α) : Prop :=
  ∃ last v, self.isleader = true ∧ self.leader = some last ∧
    outcome.state.leader = some last.nextSeqno.2 ∧
      outcome.effects.filterMap Effect.numbered? = [(last.nextSeqno.1, v)]

theorem leader_onAccept (event : Option PacketIn) (message : Bytes) :
    (onAccept answer event message self).state.leader = self.leader := by
  obtain ⟨crnd, slots, state⟩ := onAccept_state answer event message self
  rw [state, leader_withVotes]

theorem onAccept_takesNone (event : Option PacketIn) (message : Bytes) :
    self.TakesNone (onAccept answer event message self) :=
  ⟨self.leader_onAccept answer event message,
    self.numbered?_onAccept answer event message⟩

theorem onLearn_takesNone (event : Option PacketIn) (message : Bytes) :
    self.TakesNone (onLearn answer event message self) := by
  rcases onLearn_cases answer event message self with
    ⟨n, seqno, -, -, handled⟩ | ⟨result, handled⟩
  · rw [handled, learnFrom_apply]
    exact ⟨rfl, numbered?_handed _⟩
  · rw [handled]
    exact ⟨rfl, rfl⟩

theorem onClient_gives (event : PacketIn) {message v : Bytes} {last : Leader}
    (leads : self.isleader = true ∧ self.joined = true)
    (present : self.leader = some last)
    (decoded : PaxosMessage.unpackClient message = .ok v) :
    (onClient answer event message self).state.leader =
        some last.nextSeqno.2 ∧
      (onClient answer event message self).effects.filterMap
        Effect.numbered? = [(last.nextSeqno.1, v)] := by
  rw [onClient_numbered answer event leads.1 leads.2 present decoded]
  rcases broadcastAccept_cases answer self.state.crnd last.nextSeqno.1 v
    (self.withClient last event.port) with
    ⟨failure, refused⟩ | ⟨-, -, sent⟩
  · rw [refused]
    exact ⟨rfl, rfl⟩
  · rw [sent, Handler.andThen_pure]
    constructor
    · exact leader_onAccept _ answer none _
    · simp [numbered?_onAccept, Effect.numbered?]

/-- A client packet that can be unpacked is ignored, or it gets the next
number. -/
theorem onClient_takes (event : PacketIn) {message : Bytes}
    (long : 8 ≤ message.length) :
    self.TakesNone (onClient answer event message self) ∨
      self.TakesOne (onClient answer event message self) := by
  have decoded : PaxosMessage.unpackClient message = .ok (message.drop 8) :=
    if_pos long
  by_cases leads : self.isleader = true ∧ self.joined = true
  · cases present : self.leader with
    | none =>
        rw [onClient_noLeader event leads.1 leads.2 present]
        exact .inl ⟨rfl, rfl⟩
    | some last =>
        obtain ⟨next, given⟩ :=
          self.onClient_gives answer event leads present decoded
        exact .inr ⟨last, message.drop 8, leads.1, present, next, given⟩
  · rw [onClient_ignored event leads]
    exact .inl ⟨rfl, rfl⟩

end PaxosController

/-- An event of a node that has joined takes a number only for a client packet
that is dispatched. -/
theorem ClusterEvent.takes (self : PaxosController)
    (joined : self.joined = true) (event : ClusterEvent) (known : event.Known)
    (long : ∀ answer upcall, event = .deliver answer upcall →
      upcall.parsed.type = PaxosMessage.CLIENT → self.isleader = true →
        8 ≤ upcall.parsed.payload.length) :
    self.TakesNone (event.handle self) ∨
      (∃ answer upcall, event = .deliver answer upcall ∧
        upcall.parsed.type = PaxosMessage.CLIENT) ∧
        self.TakesOne (event.handle self) := by
  cases event with
  | pump answer => exact .inl ⟨rfl, numbered?_handed _⟩
  | collect n => exact .inl ⟨rfl, rfl⟩
  | deliver answer event =>
      have isKnown :
          PaxosMessage.isKnownPaxosType event.parsed.type = true := by
        rcases known with type | type | type <;> rw [type] <;> decide
      rw [handle_deliver, Handler.andThen_pure]
      rcases PaxosController.handlePaxos_cases answer self isKnown with
        ⟨-, handled⟩ | ⟨-, result, -, handled⟩
      · rw [handled]
        rcases known with type | type | type
        · rw [type, PaxosController.dispatchPaxos_accept joined]
          exact .inl (self.onAccept_takesNone answer _ _)
        · rw [type, PaxosController.dispatchPaxos_client joined]
          by_cases isleader : self.isleader = true
          · exact (self.onClient_takes answer event
              (long answer event rfl type isleader)).imp_right
                fun one => ⟨⟨answer, event, rfl, type⟩, one⟩
          · rw [PaxosController.onClient_ignored event
              fun leads => isleader leads.1]
            exact .inl ⟨rfl, rfl⟩
        · rw [type, PaxosController.dispatchPaxos_learn joined]
          exact .inl (self.onLearn_takesNone answer _ _)
      · rw [handled]
        exact .inl ⟨rfl, rfl⟩

namespace Cluster

variable {N : Finset EthAddr} {leader : EthAddr} {cluster : Cluster}
  {action : ClusterAction}

theorem InLine.step (inLine : cluster.InLine leader)
    (accountable : cluster.Accountable N leader)
    (enabled : Enabled N cluster action)
    (serves : cluster.Serves leader action) :
    (cluster.step action).InLine leader := by
  have numbered : numbers (cluster.step action).log = numbers cluster.log ++
      (action.event.handle (cluster.nodes action.mac)).effects.filterMap
        Effect.numbered? := numbers_put ..
  have long : ∀ answer upcall, action.event = .deliver answer upcall →
      upcall.parsed.type = PaxosMessage.CLIENT →
      (cluster.nodes action.mac).isleader = true →
        8 ≤ upcall.parsed.payload.length := by
    intro answer upcall same client isleader
    have here := accountable.formed.isleader _ enabled.1 isleader
    rw [Serves, same] at serves
    exact serves here client
  rcases action.event.takes _ (accountable.formed.joined _ enabled.1)
    (accountable.known enabled) long with
    ⟨kept, none⟩ | ⟨-, last, v, isleader, present, next, one⟩
  · rw [none, List.append_nil] at numbered
    refine ⟨numbered ▸ inLine.keys, ?_⟩
    rw [numbered, Diligent.nodes_step]
    split
    · next here =>
        rw [kept, ← here]
        exact inLine.next
    · exact inLine.next
  · have here := accountable.formed.isleader _ enabled.1 isleader
    have taken : last =
        ClientRun.leaderAfter (numbers cluster.log).length := by
      rw [here, inLine.next] at present
      exact (Option.some.inj present).symm
    rw [taken, ClientRun.nextSeqno_leaderAfter] at one next
    rw [one] at numbered
    constructor
    · rw [numbered, List.map_append, inLine.keys, List.length_append,
        List.length_singleton, List.range_succ]
      rfl
    · rw [numbered, List.length_append, List.length_singleton,
        Diligent.nodes_step, if_pos here.symm]
      exact next

end Cluster

end SwitchPaxos

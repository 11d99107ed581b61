import SwitchPaxos.Base.Run
import SwitchPaxos.Controller.NodeSpec

/-!
# Runs of one node

One controller in isolation: ACCEPT and LEARN messages of any content from
anybody, pumps of the queue and garbage collections, in any order.
-/

namespace SwitchPaxos

/-- A node with one port that joined the nodes `N`: `add_node` counted them
before there was any slot. -/
def PaxosController.ready (name : String) (own : EthAddr) (N : Finset EthAddr)
    (crnd : ℕ) (leader : Option Leader) : PaxosController :=
  { PaxosController.new crnd
      { ports := {65534}
        desc := fun _ => ⟨own, name⟩
        nonempty := Finset.singleton_nonempty _ } false with
    joined := true
    state := { nId := crnd, N, crnd, slots := Slots.new N.card }
    leader }

namespace Effect

def handed? : Effect → Option Handed
  | .handed call => some call
  | _ => none

/-- The round, the sequence number and the value of a vote. -/
def accepted? : Effect → Option (ℕ × ℕ × Bytes)
  | .accepted n seqno v => some (n, seqno, v)
  | _ => none

def frame? : Effect → Option Frame
  | .sent frame _ => some frame
  | _ => none

def numbered? : Effect → Option (ℕ × Bytes)
  | .numbered seqno v => some (seqno, v)
  | _ => none

end Effect

/-- The calls of `process_message` in a log. -/
def calls (log : List Effect) : List Handed := log.filterMap Effect.handed?

/-- The votes in a log. -/
def votes (log : List Effect) : List (ℕ × ℕ × Bytes) :=
  log.filterMap Effect.accepted?

section Log

variable (first second : List Effect) (handed : List Handed)
  (self : PaxosController) (type : UInt16) (payload : Bytes)

@[simp] theorem calls_append :
    calls (first ++ second) = calls first ++ calls second :=
  List.filterMap_append

@[simp] theorem votes_append :
    votes (first ++ second) = votes first ++ votes second :=
  List.filterMap_append

@[simp] theorem calls_handed : calls (handed.map Effect.handed) = handed := by
  simp [calls, List.filterMap_map, Function.comp_def, Effect.handed?]

@[simp] theorem votes_handed : votes (handed.map Effect.handed) = [] := by
  simp [votes, List.filterMap_map, Function.comp_def, Effect.accepted?]

@[simp] theorem calls_announce : calls (self.announce type payload) = [] := by
  simp [calls, PaxosController.announce, List.filterMap_map, Function.comp_def,
    Effect.handed?]

@[simp] theorem votes_announce : votes (self.announce type payload) = [] := by
  simp [votes, PaxosController.announce, List.filterMap_map, Function.comp_def,
    Effect.accepted?]

@[simp] theorem numbered?_announce :
    (self.announce type payload).filterMap Effect.numbered? = [] := by
  simp only [PaxosController.announce, List.filterMap_append,
    List.filterMap_map, Function.comp_def, Effect.numbered?,
    List.filterMap_none, List.filterMap_cons]
  rfl

@[simp] theorem frame?_announce :
    (self.announce type payload).filterMap Effect.frame? =
      self.others.map fun dst => ⟨self.mac, dst, type, payload⟩ := by
  simp [PaxosController.announce, List.filterMap_map, Function.comp_def,
    Effect.frame?]

@[simp] theorem accepted_not_mem_announce (n seqno : ℕ) (v : Bytes) :
    Effect.accepted n seqno v ∉ self.announce type payload := by
  simp [PaxosController.announce]

@[simp] theorem handed_not_mem_announce (call : Handed) :
    Effect.handed call ∉ self.announce type payload := by
  simp [PaxosController.announce]

@[simp] theorem numbered?_handed :
    (handed.map Effect.handed).filterMap Effect.numbered? = [] := by
  simp [List.filterMap_map, Function.comp_def, Effect.numbered?]

@[simp] theorem frame?_handed :
    (handed.map Effect.handed).filterMap Effect.frame? = [] := by
  simp [List.filterMap_map, Function.comp_def, Effect.frame?]

@[simp] theorem calls_nil : calls [] = [] := rfl

@[simp] theorem votes_nil : votes [] = [] := rfl

@[simp] theorem calls_accepted (n seqno : ℕ) (v : Bytes) :
    calls (.accepted n seqno v :: second) = calls second := rfl

@[simp] theorem votes_accepted (n seqno : ℕ) (v : Bytes) :
    votes (.accepted n seqno v :: second) = (n, seqno, v) :: votes second :=
  rfl

@[simp] theorem calls_numbered (seqno : ℕ) (v : Bytes) :
    calls (.numbered seqno v :: second) = calls second := rfl

@[simp] theorem votes_numbered (seqno : ℕ) (v : Bytes) :
    votes (.numbered seqno v :: second) = votes second := rfl

end Log

/-- What can happen to a node: a message is dispatched to its handler, or the
background thread pumps the queue or collects garbage. -/
inductive NodeEvent where
  | accept (answer : ℕ → Bool) (event : PacketIn)
  | learn (answer : ℕ → Bool) (event : PacketIn)
  | pump (answer : ℕ → Bool)
  | collect (n : ℕ)

def NodeEvent.handle : NodeEvent → PaxosController.Handler Unit
  | .accept answer event => do
      let _ ← PaxosController.onAccept answer event event.parsed.payload
  | .learn answer event => do
      let _ ← PaxosController.onLearn answer event event.parsed.payload
  | .pump answer => PaxosController.pump answer
  | .collect n => PaxosController.collect n

/-- A node, all it did so far, and the exceptions its handlers ended in. -/
structure NodeRun where
  node : PaxosController
  log : List Effect
  failures : List Failure

namespace NodeRun

def start (node : PaxosController) : NodeRun :=
  { node, log := [], failures := [] }

/-- Record what a handler left behind. -/
def record (run : NodeRun)
    (outcome : Outcome PaxosController Effect Failure Unit) : NodeRun :=
  { node := outcome.state
    log := run.log ++ outcome.effects
    failures := run.failures ++
      match outcome.result with
      | .ok _ => []
      | .error failure => [failure] }

def system : System NodeRun NodeEvent :=
  { Enabled := fun _ _ => True
    step := fun run event => run.record (event.handle run.node) }

/-- The state of a node after a sequence of events. -/
def after (node : PaxosController) (events : List NodeEvent) : NodeRun :=
  system.after (start node) events

theorem always (run : NodeRun) (events : List NodeEvent) :
    system.Run run events := by
  induction events generalizing run with
  | nil => trivial
  | cons event events induction => exact ⟨trivial, induction _⟩

end NodeRun

/-- What the events of a node do to its slot store. -/
inductive StoreOperation where
  | touch (seqno : ℕ)
  | vote (n seqno : ℕ) (v : Bytes)
  | learn (answer : ℕ → Bool) (src : EthAddr) (n seqno : ℕ)
  | queue (answer : ℕ → Bool) (n : ℕ)
  | collect (n : ℕ)

def StoreOperation.apply : StoreOperation → Handler Slots Handed Failure Unit
  | .touch seqno => Handler.modify (Slots.touch seqno)
  | .vote n seqno v => Handler.modify (Slots.vote n seqno v)
  | .learn answer src n seqno => Slots.learn answer src n seqno
  | .queue answer n => Slots.processQueue answer n
  | .collect n => Handler.modify (Slots.garbageCollect n)

/-- An outcome of a node is the outcome of store operations: the store is
where they leave it, the calls of `process_message` are theirs, and so are the
exceptions, but for those of the decoder and of a missing own address. -/
def ActsBy (operations : List StoreOperation) (self : PaxosController)
    (outcome : Outcome PaxosController Effect Failure α) : Prop :=
  let stored := Handler.forEach StoreOperation.apply operations
    self.state.slots
  outcome.state.state.slots = stored.state ∧
    calls outcome.effects = stored.effects ∧
    ∀ failure, outcome.result = .error failure →
      stored.result = .error failure ∨ failure = .assertPayload ∨
        failure = .notInList ∨ failure = .assertU32 ∨ failure = .noAttribute

namespace PaxosController

/-- What an ACCEPT message does to the store. -/
def acceptOperations (answer : ℕ → Bool) (event : Option PacketIn)
    (message : Bytes) (self : PaxosController) : List StoreOperation :=
  match PaxosMessage.unpackAccept message with
  | .error _ => []
  | .ok (n, seqno, v) =>
      if self.Addressed event then
        if self.Accepts n seqno then
          if self.mac ∈ self.state.N then
            [.vote n seqno v, .learn answer self.mac n seqno]
          else [.vote n seqno v]
        else [.touch seqno]
      else []

/-- What a LEARN message does to the store. -/
def learnOperations (answer : ℕ → Bool) (event : Option PacketIn)
    (message : Bytes) (self : PaxosController) : List StoreOperation :=
  match PaxosMessage.unpackLearn message with
  | .error _ => []
  | .ok (n, seqno) =>
      if self.Addressed event then
        [.learn answer (self.getEtherAddrs event).1 n seqno]
      else []

/-- What a CLIENT message does to the store: the own ACCEPT is handled. -/
def clientOperations (answer : ℕ → Bool) (message : Bytes)
    (self : PaxosController) : List StoreOperation :=
  match self.leader, PaxosMessage.unpackClient message with
  | some leader, .ok v =>
      if (self.isleader = true ∧ self.joined = true) ∧
          self.mac ∈ self.state.N ∧ self.state.crnd ≤ UINT32_MAX ∧
            leader.nextSeqno.1 ≤ UINT32_MAX then
        self.acceptOperations answer none
          (PaxosMessage.header self.state.crnd leader.nextSeqno.1 ++ v)
      else []
  | _, _ => []

end PaxosController

/-- What an event does to the store. -/
def NodeEvent.operations (self : PaxosController) :
    NodeEvent → List StoreOperation
  | .accept answer event =>
      self.acceptOperations answer event event.parsed.payload
  | .learn answer event =>
      self.learnOperations answer event event.parsed.payload
  | .pump answer => [.queue answer self.state.crnd]
  | .collect n => [.collect n]

section Operations

variable (self : PaxosController) (answer : ℕ → Bool)

theorem forEach_one (operation : StoreOperation) (slots : Slots) :
    Handler.forEach StoreOperation.apply [operation] slots =
      operation.apply slots := by
  simp [Handler.forEach, Except.map]
  rcases operation.apply slots with ⟨result, state, effects⟩
  cases result <;> rfl

theorem ActsBy.forget {operations : List StoreOperation}
    {outcome : Outcome PaxosController Effect Failure α}
    (acts : ActsBy operations self outcome) (value : α → β) :
    ActsBy operations self (outcome.andThen fun result =>
      (pure (value result) : PaxosController.Handler β)) := by
  rw [Handler.andThen_pure]
  refine ⟨acts.1, acts.2.1, ?_⟩
  intro failure raised
  exact acts.2.2 failure (Handler.map_eq_error_iff.mp raised)

theorem actsBy_learnFrom (src : EthAddr) (n seqno : ℕ) :
    ActsBy [.learn answer src n seqno] self
      (PaxosController.learnFrom answer src n seqno self) := by
  simp only [ActsBy, forEach_one, PaxosController.learnFrom_apply]
  refine ⟨rfl, by simp [StoreOperation.apply], ?_⟩
  intro failure raised
  exact .inl (Handler.map_eq_error_iff.mp raised)

theorem actsBy_castVote (n seqno : ℕ) (v : Bytes) :
    ActsBy (if self.mac ∈ self.state.N then
        [.vote n seqno v, .learn answer self.mac n seqno]
      else [.vote n seqno v]) self (self.castVote answer n seqno v) := by
  by_cases member : self.mac ∈ self.state.N
  · have counted := actsBy_learnFrom (self.voted n seqno v) answer self.mac n
      seqno
    obtain ⟨state, effects, failures⟩ := counted
    rw [PaxosController.castVote, if_pos member, if_pos member]
    have silent : calls ((PaxosController.learnFrom answer self.mac n seqno
        (self.voted n seqno v)).after (.accepted n seqno v ::
          self.announce PaxosMessage.LEARN
            (PaxosMessage.header n seqno))).effects =
        calls (PaxosController.learnFrom answer self.mac n seqno
          (self.voted n seqno v)).effects := by simp
    exact ⟨state, silent.trans effects, failures⟩
  · rw [PaxosController.castVote, if_neg member, if_neg member]
    refine ⟨rfl, rfl, ?_⟩
    intro failure raised
    cases raised
    exact .inr (.inr (.inl rfl))

theorem actsBy_nothing (result : Except Failure α)
    (harmless : ∀ failure, result = .error failure →
      failure = .assertPayload ∨ failure = .notInList ∨
        failure = .assertU32 ∨ failure = .noAttribute) :
    ActsBy [] self ⟨result, self, []⟩ :=
  ⟨rfl, rfl, fun failure raised => .inr (harmless failure raised)⟩

theorem actsBy_onAccept (event : Option PacketIn) (message : Bytes) :
    ActsBy (self.acceptOperations answer event message) self
      (PaxosController.onAccept answer event message self) := by
  rw [PaxosController.acceptOperations]
  cases decoded : PaxosMessage.unpackAccept message with
  | error failure =>
      rw [PaxosController.onAccept_malformed decoded]
      refine actsBy_nothing self _ ?_
      rintro _ ⟨⟩
      exact .inl (PaxosMessage.unpackAccept_error decoded)
  | ok fields =>
      obtain ⟨n, seqno, v⟩ := fields
      by_cases addressed : self.Addressed event
      · rw [PaxosController.onAccept_addressed answer decoded addressed]
        simp only [if_pos addressed]
        split
        · exact actsBy_castVote self answer n seqno v
        · exact ⟨rfl, rfl, by rintro failure ⟨⟩⟩
      · rw [PaxosController.onAccept_ignored decoded addressed]
        simp only [if_neg addressed]
        exact actsBy_nothing self _ (by rintro failure ⟨⟩)

theorem actsBy_onLearn (event : Option PacketIn) (message : Bytes) :
    ActsBy (self.learnOperations answer event message) self
      (PaxosController.onLearn answer event message self) := by
  rw [PaxosController.learnOperations]
  cases decoded : PaxosMessage.unpackLearn message with
  | error failure =>
      rw [PaxosController.onLearn_malformed decoded]
      refine actsBy_nothing self _ ?_
      rintro _ ⟨⟩
      exact .inl (PaxosMessage.unpackLearn_error decoded)
  | ok fields =>
      obtain ⟨n, seqno⟩ := fields
      by_cases addressed : self.Addressed event
      · rw [PaxosController.onLearn_addressed answer decoded addressed]
        simp only [if_pos addressed]
        exact actsBy_learnFrom self answer _ n seqno
      · rw [PaxosController.onLearn_ignored decoded addressed]
        simp only [if_neg addressed]
        exact actsBy_nothing self _ (by rintro failure ⟨⟩)

/-- What was done before does not matter if it handed nothing over. -/
theorem ActsBy.after {operations : List StoreOperation}
    {outcome : Outcome PaxosController Effect Failure α}
    (acts : ActsBy operations self outcome) {earlier : List Effect}
    (silent : calls earlier = []) :
    ActsBy operations self (outcome.after earlier) :=
  ⟨acts.1, by rw [Outcome.after_effects, calls_append, silent]; exact acts.2.1,
    acts.2.2⟩

private theorem actsBy_broadcastAccept (leader : Leader) (port : Port)
    (v : Bytes) :
    ActsBy (if self.mac ∈ self.state.N ∧ self.state.crnd ≤ UINT32_MAX ∧
          leader.nextSeqno.1 ≤ UINT32_MAX then
        self.acceptOperations answer none
          (PaxosMessage.header self.state.crnd leader.nextSeqno.1 ++ v)
      else []) self
      ((self.withClient leader port).broadcastAccept answer self.state.crnd
        leader.nextSeqno.1 v) := by
  rw [PaxosController.broadcastAccept]
  by_cases member : self.mac ∈ self.state.N
  · have known : ¬ (self.withClient leader port).mac ∉
        (self.withClient leader port).state.N := not_not_intro member
    rw [if_neg known]
    by_cases fits : self.state.crnd ≤ UINT32_MAX ∧
        leader.nextSeqno.1 ≤ UINT32_MAX
    · rw [if_pos fits, if_pos ⟨member, fits⟩]
      -- The number and the port are not part of the store.
      have accepted := actsBy_onAccept (self.withClient leader port) answer
        none (PaxosMessage.header self.state.crnd leader.nextSeqno.1 ++ v)
      exact (accepted.forget _ fun _ => Reply.halt).after _
        (calls_announce _ _ _)
    · rw [if_neg fits, if_neg fun all => fits all.2]
      refine ⟨rfl, rfl, ?_⟩
      rintro _ ⟨⟩
      exact .inr (.inr (.inr (.inl rfl)))
  · have unknown : (self.withClient leader port).mac ∉
        (self.withClient leader port).state.N := member
    rw [if_pos unknown, if_neg fun all => member all.1]
    refine ⟨rfl, rfl, ?_⟩
    rintro _ ⟨⟩
    exact .inr (.inr (.inl rfl))

private theorem clientOperations_ignored (message : Bytes)
    (ignored : ¬ (self.isleader = true ∧ self.joined = true)) :
    self.clientOperations answer message = [] := by
  rw [PaxosController.clientOperations]
  split
  · exact if_neg fun all => ignored all.1
  · rfl

theorem actsBy_onClient (event : PacketIn) (message : Bytes) :
    ActsBy (self.clientOperations answer message) self
      (PaxosController.onClient answer event message self) := by
  by_cases leads : self.isleader = true ∧ self.joined = true
  · rw [PaxosController.clientOperations]
    cases present : self.leader with
    | none =>
        rw [PaxosController.onClient_noLeader event leads.1 leads.2 present]
        refine actsBy_nothing self _ ?_
        rintro _ ⟨⟩
        exact .inr (.inr (.inr rfl))
    | some leader =>
        cases decoded : PaxosMessage.unpackClient message with
        | error failure =>
            rw [PaxosController.onClient_malformed event leads.1 leads.2
              present decoded]
            refine ⟨rfl, rfl, ?_⟩
            rintro _ ⟨⟩
            exact .inr (.inl (PaxosMessage.unpackClient_error decoded))
        | ok v =>
            rw [PaxosController.onClient_numbered answer event leads.1 leads.2
              present decoded]
            have sent := actsBy_broadcastAccept self answer leader event.port v
            simp only [leads, and_self, true_and]
            exact sent.after self rfl
  · rw [PaxosController.onClient_ignored event leads]
    rw [clientOperations_ignored self answer message leads]
    exact actsBy_nothing self _ (by rintro failure ⟨⟩)

theorem actsBy_pump :
    ActsBy [.queue answer self.state.crnd] self
      (PaxosController.pump answer self) := by
  simp only [ActsBy, forEach_one]
  exact ⟨rfl, calls_handed _, fun failure raised => .inl raised⟩

theorem actsBy_collect (n : ℕ) :
    ActsBy [.collect n] self (PaxosController.collect n self) :=
  ⟨rfl, rfl, by rintro failure ⟨⟩⟩

/-- Every event of a node acts on its store by operations of the store. -/
theorem NodeEvent.actsBy (event : NodeEvent) :
    ActsBy (event.operations self) self (event.handle self) := by
  cases event with
  | accept answer event =>
      exact (actsBy_onAccept self answer event event.parsed.payload).forget
        self fun _ => ()
  | learn answer event =>
      exact (actsBy_onLearn self answer event event.parsed.payload).forget
        self fun _ => ()
  | pump answer => exact actsBy_pump self answer
  | collect n => exact actsBy_collect self n

end Operations

end SwitchPaxos

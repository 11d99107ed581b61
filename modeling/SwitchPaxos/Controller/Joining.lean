import SwitchPaxos.Controller.NodeSpec
import SwitchPaxos.Controller.Start
import SwitchPaxos.Switch.Learning

/-!
# What joining does

One equation for each way a JOIN can go, for the threads of a node that send
one, and for an upcall as a whole: the Paxos controller takes it or leaves it
to the switch.
-/

namespace SwitchPaxos

/-- The frame `send_join` outputs. -/
def Frame.join (src dst : EthAddr) (nId : ℕ) (embedded : EthAddr) : Frame :=
  { src, dst, type := PaxosMessage.JOIN
    payload := PaxosMessage.packI nId ++ embedded.toRaw }

namespace PaxosMessage

theorem packJoin_cast (nId : ℕ) (mac : EthAddr) :
    packJoin nId mac.toRaw =
      if nId ≤ UINT32_MAX then .ok (packI nId ++ mac.toRaw)
      else .error .assertU32 := by
  by_cases fits : nId ≤ UINT32_MAX <;>
    simp [packJoin, assertU32, fits, bind, Except.bind]

theorem unpackJoin_toRaw {nId : ℕ} (fits : nId ≤ UINT32_MAX)
    (mac : EthAddr) :
    unpackJoin (packI nId ++ mac.toRaw) = .ok (nId, mac.toRaw) := by
  have whole : (packI nId ++ mac.toRaw).length = 10 := by simp
  rw [unpackJoin, if_pos whole, List.take_left' (length_packI _),
    List.drop_left' (length_packI _), ofBigEndian_packI fits]

end PaxosMessage

theorem EthAddr.toRaw_inj {first second : EthAddr} :
    first.toRaw = second.toRaw ↔ first = second := by
  refine ⟨fun same => ?_, fun same => congrArg _ same⟩
  rw [← ofRaw_toRaw first, same, ofRaw_toRaw]

namespace PaxosController

variable {answer : ℕ → Bool} {event : PacketIn} {message : Bytes}
  {self : PaxosController}

/-- The node id fits the field of a JOIN. -/
def IdFits (self : PaxosController) : Prop := self.state.nId ≤ UINT32_MAX

/-- The JOIN of this node. -/
def joinTo (dst : EthAddr) (self : PaxosController) : Frame :=
  Frame.join self.mac dst self.state.nId self.mac

/-- The JOIN that asks everybody to announce themselves. -/
def joinAgain (self : PaxosController) : Frame :=
  Frame.join self.mac ETHER_BROADCAST self.state.nId ETHER_BROADCAST

theorem sendJoin_apply (self : PaxosController) (fits : self.IdFits)
    (dst : EthAddr) (port : Port) :
    sendJoin dst port false self =
      ⟨.ok (), self, [.sent (self.joinTo dst) port]⟩ := by
  have packed : PaxosMessage.packJoin self.state.nId self.mac.toRaw =
      .ok (PaxosMessage.packI self.state.nId ++ self.mac.toRaw) :=
    (PaxosMessage.packJoin_cast _ _).trans (if_pos fits)
  simp [sendJoin, packed, sendEthernet, joinTo, Frame.join]

theorem askAgain_apply (fits : self.IdFits) :
    askAgain self = ⟨.ok (), self, [.sent self.joinAgain OFPP_ALL]⟩ := by
  have packed : PaxosMessage.packJoin self.state.nId ETHER_BROADCAST.toRaw =
      .ok (PaxosMessage.packI self.state.nId ++ ETHER_BROADCAST.toRaw) :=
    (PaxosMessage.packJoin_cast _ _).trans (if_pos fits)
  simp [askAgain, sendJoin, packed, sendEthernet, joinAgain, Frame.join]

/-- No slot is stored yet. -/
def Fresh (self : PaxosController) : Prop := self.state.slots.slots.keys = []

instance (self : PaxosController) : Decidable self.Fresh :=
  inferInstanceAs (Decidable (_ = []))

/-- The node once `update_node_count` has written the new count to the store,
which it does before it fails at the first slot. -/
def withNode (mac : EthAddr) (self : PaxosController) : PaxosController :=
  { self with
    state := { self.state with
      N := insert mac self.state.N
      slots := { self.state.slots with
        nodeCount := (insert mac self.state.N).card } } }

theorem updateCount_apply (nodeCount : ℕ) (self : PaxosController) :
    onSlots (Slots.updateNodeCount nodeCount) self =
      ⟨if self.Fresh then .ok () else .error .noAttribute,
        self.withSlots { self.state.slots with nodeCount }, []⟩ := by
  simp only [onSlots, Handler.zoom, Slots.updateNodeCount,
    Handler.bind_apply, Handler.modify_apply, Handler.get_apply,
    Outcome.andThen_ok, Outcome.after_nil, Handler.ite_apply]
  by_cases fresh : self.Fresh
  · have keys : self.state.slots.slots.keys = [] := fresh
    rw [if_pos keys, if_pos fresh]
    rfl
  · have keys : ¬ self.state.slots.slots.keys = [] := fresh
    rw [if_neg keys, if_neg fresh]
    rfl

theorem addNode_apply (mac : EthAddr) (self : PaxosController) :
    addNode mac self =
      ⟨if self.Fresh then .ok () else .error .noAttribute,
        self.withNode mac, []⟩ :=
  updateCount_apply _ _

/-- The node after it wrote down the port that a JOIN came in on. -/
def withPorts (mac : EthAddr) (event : PacketIn) (self : PaxosController) :
    PaxosController :=
  { self with
    paxosPorts := (self.paxosPorts.insert mac event.port).insert
      event.parsed.src event.port }

/-- What an admission gets done if there are slots; a JOIN the node sent
itself came in on no port. -/
def enlist (mac : EthAddr) (event : Option PacketIn)
    (self : PaxosController) : PaxosController :=
  match event with
  | some event => (self.withPorts mac event).withNode mac
  | none => self.withNode mac

/-- The node after it admitted the sender of a JOIN. -/
def enrol (mac : EthAddr) (event : Option PacketIn)
    (self : PaxosController) : PaxosController :=
  match event with
  | some event =>
      { self.enlist mac event with
        switch := self.switch.learnPort mac event.port }
  | none => self.enlist mac none

/-- The JOIN a node that was just admitted gets; our own goes to everybody. -/
def welcome (mac : EthAddr) (event : Option PacketIn)
    (self : PaxosController) : Effect :=
  match event with
  | some event => .sent (self.joinTo mac) event.port
  | none => .sent (self.joinTo ETHER_BROADCAST) OFPP_ALL

/-- The node a JOIN would admit. -/
def newcomer (message : Bytes) (self : PaxosController) : Option EthAddr :=
  match PaxosMessage.unpackJoin message with
  | .error _ => none
  | .ok (_, mac) =>
      if mac = ETHER_BROADCAST.toRaw ∨ EthAddr.ofRaw mac ∈ self.state.N then
        none
      else some (EthAddr.ofRaw mac)

theorem newcomer_some {mac : EthAddr}
    (new : self.newcomer message = some mac) :
    mac ∉ self.state.N ∧ ∃ nId bytes,
      PaxosMessage.unpackJoin message = .ok (nId, bytes) ∧
        bytes ≠ ETHER_BROADCAST.toRaw ∧ EthAddr.ofRaw bytes = mac := by
  unfold newcomer at new
  split at new
  · cases new
  · next nId bytes decoded =>
      split at new
      · cases new
      · next fresh =>
          rw [not_or] at fresh
          cases new
          exact ⟨fresh.2, nId, bytes, decoded, fresh.1, rfl⟩

/-- The JOIN a node handles itself each time it asks to join. -/
def ownJoin (self : PaxosController) : Bytes :=
  PaxosMessage.packI self.state.nId ++ self.mac.toRaw

theorem newcomer_own (fits : self.IdFits) (unicast : self.mac ≠ ETHER_BROADCAST)
    (new : self.mac ∉ self.state.N) :
    self.newcomer self.ownJoin = some self.mac := by
  have other : self.mac.toRaw ≠ ETHER_BROADCAST.toRaw := fun same =>
    unicast (EthAddr.toRaw_inj.mp same)
  simp [newcomer, ownJoin, PaxosMessage.unpackJoin_toRaw fits, other, new]

/-- A JOIN with the broadcast address asks the node to announce itself. -/
theorem onJoin_announce (fits : self.IdFits) (event : Option PacketIn)
    {nId : ℕ} (decoded : PaxosMessage.unpackJoin message =
      .ok (nId, ETHER_BROADCAST.toRaw)) :
    onJoin event message self =
      ⟨.ok .pass, self, [.sent (self.joinTo ETHER_BROADCAST) OFPP_ALL]⟩ := by
  simp [onJoin, decoded, sendJoin_apply self fits]

theorem onJoin_known (event : Option PacketIn) {nId : ℕ} {mac : Bytes}
    (decoded : PaxosMessage.unpackJoin message = .ok (nId, mac))
    (other : mac ≠ ETHER_BROADCAST.toRaw)
    (known : EthAddr.ofRaw mac ∈ self.state.N) :
    onJoin event message self = ⟨.ok .pass, self, []⟩ := by
  simp [onJoin, decoded, other, known]

/-- A JOIN that admits nobody changes nothing: it is refused, it asks the node
to announce itself, or its sender is known already. -/
theorem onJoin_none (fits : self.IdFits) (event : Option PacketIn)
    (nobody : self.newcomer message = none) :
    (∃ failure, PaxosMessage.unpackJoin message = .error failure ∧
      onJoin event message self = ⟨.error failure, self, []⟩) ∨
    (∃ nId, PaxosMessage.unpackJoin message =
        .ok (nId, ETHER_BROADCAST.toRaw) ∧
      onJoin event message self = ⟨.ok .pass, self,
        [.sent (self.joinTo ETHER_BROADCAST) OFPP_ALL]⟩) ∨
    (∃ nId mac, PaxosMessage.unpackJoin message = .ok (nId, mac) ∧
      mac ≠ ETHER_BROADCAST.toRaw ∧ EthAddr.ofRaw mac ∈ self.state.N ∧
      onJoin event message self = ⟨.ok .pass, self, []⟩) := by
  unfold newcomer at nobody
  split at nobody
  · next failure malformed =>
      exact .inl ⟨failure, malformed, by simp [onJoin, malformed]⟩
  · next nId mac decoded =>
      by_cases announce : mac = ETHER_BROADCAST.toRaw
      · subst announce
        exact .inr (.inl ⟨nId, decoded, onJoin_announce fits event decoded⟩)
      · have known : EthAddr.ofRaw mac ∈ self.state.N := by
          by_contra new
          simp [announce, new] at nobody
        exact .inr (.inr ⟨nId, mac, decoded, announce, known,
          onJoin_known event decoded announce known⟩)

/-- A new node is admitted and gets an answer if there are no slots, and is
written down by halves if there are. -/
theorem onJoin_some (fits : self.IdFits) {event : Option PacketIn}
    {mac : EthAddr} (new : self.newcomer message = some mac) :
    onJoin event message self =
      if self.Fresh then
        ⟨.ok .pass, self.enrol mac event, [self.welcome mac event]⟩
      else ⟨.error .noAttribute, self.enlist mac event, []⟩ := by
  obtain ⟨absent, nId, bytes, decoded, other, rfl⟩ := newcomer_some new
  cases event with
  | some event =>
      have answered := sendJoin_apply (self.enrol (EthAddr.ofRaw bytes) event)
        fits (EthAddr.ofRaw bytes) event.port
      have added : (addNode (EthAddr.ofRaw bytes)
          (self.withPorts (EthAddr.ofRaw bytes) event)) =
            ⟨if self.Fresh then .ok () else .error .noAttribute,
              self.enlist (EthAddr.ofRaw bytes) event, []⟩ :=
        addNode_apply _ _
      simp only [onJoin, decoded, Handler.bind_apply, Handler.lift_apply,
        Handler.get_apply, Outcome.andThen_ok, Outcome.after_nil,
        if_neg other, if_pos absent, Handler.modify_apply]
      change (addNode (EthAddr.ofRaw bytes)
        (self.withPorts (EthAddr.ofRaw bytes) event)).andThen _ = _
      rw [added]
      split
      · change (sendJoin (EthAddr.ofRaw bytes) event.port false
          (self.enrol (EthAddr.ofRaw bytes) event)).andThen _ = _
        rw [answered]
        rfl
      · rfl
  | none =>
      have answered := sendJoin_apply (self.withNode (EthAddr.ofRaw bytes))
        fits ETHER_BROADCAST OFPP_ALL
      simp only [onJoin, decoded, Handler.bind_apply, Handler.lift_apply,
        Handler.get_apply, Outcome.andThen_ok, Outcome.after_nil,
        if_neg other, if_pos absent, addNode_apply]
      split
      · change (sendJoin ETHER_BROADCAST OFPP_ALL false
          (self.withNode (EthAddr.ofRaw bytes))).andThen _ = _
        rw [answered]
        rfl
      · rfl

theorem joinBlock_many (many : totalNodes < self.state.N.card) :
    joinBlock self = ⟨.ok (), self, []⟩ := by
  simp [joinBlock, many]

theorem joinBlock_enough (enough : self.state.N.card = totalNodes) :
    joinBlock self = ⟨.ok (), { self with joined := true }, []⟩ := by
  simp [joinBlock, setJoined, enough]

/-- The end of a turn of `join_block`. -/
def checkJoined : Handler Unit := do
  let self ← Handler.get
  if totalNodes ≤ self.state.N.card then setJoined else pure ()

theorem checkJoined_apply (self : PaxosController) :
    checkJoined self = ⟨.ok (), { self with
      joined := self.joined || decide (totalNodes ≤ self.state.N.card) },
        []⟩ := by
  simp only [checkJoined, setJoined, Handler.bind_apply, Handler.get_apply,
    Handler.ite_apply, Handler.modify_apply, Handler.pure_apply,
    Outcome.andThen_ok, Outcome.after_nil]
  split
  · next enough => simp [enough]
  · next few => simp [few]

theorem joinBlock_few (fits : self.IdFits)
    (few : self.state.N.card < totalNodes) :
    joinBlock self =
      (onJoin none self.ownJoin self).andThen fun _ => checkJoined := by
  have packed : PaxosMessage.packJoin self.state.nId self.mac.toRaw =
      .ok self.ownJoin := (PaxosMessage.packJoin_cast _ _).trans (if_pos fits)
  simp only [joinBlock, Handler.bind_apply, Handler.get_apply,
    Handler.ite_apply, Outcome.andThen_ok, Outcome.after_nil,
    if_neg (Nat.lt_asymm few), if_neg few.ne, packed, Handler.lift_apply]
  rfl

theorem packetIn_pass {state : PaxosController} {effects : List Effect}
    (passed : handlePaxos answer event self = ⟨.ok .pass, state, effects⟩) :
    packetIn answer event self =
      ⟨.ok (), { state with switch := state.switch.learnSender event },
        effects ++ ((state.switch.learnSender event).forwarding
          event.parsed).map Effect.command⟩ := by
  rw [packetIn, Handler.bind_apply, passed, Outcome.andThen_ok]
  simp [onSwitch, Handler.zoom, BaselineController.handlePacketIn_apply]

theorem packetIn_apply (answer : ℕ → Bool) (event : PacketIn)
    (self : PaxosController) :
    ∃ switch, ∃ given : List SwitchCommand, packetIn answer event self =
      ⟨(handlePaxos answer event self).result.map fun _ => (),
        { (handlePaxos answer event self).state with switch },
        (handlePaxos answer event self).effects ++
          given.map Effect.command⟩ := by
  rcases handled : handlePaxos answer event self with ⟨result, state, effects⟩
  cases result with
  | error failure =>
      exact ⟨state.switch, [], by
        rw [packetIn, Handler.bind_apply, handled]; simp⟩
  | ok reply =>
      cases reply with
      | halt =>
          exact ⟨state.switch, [], by
            rw [packetIn, Handler.bind_apply, handled]; simp⟩
      | pass => exact ⟨_, _, packetIn_pass handled⟩

theorem handlePaxos_join (join : event.parsed.type = PaxosMessage.JOIN) :
    handlePaxos answer event self =
      onJoin event event.parsed.payload self := by
  have known : PaxosMessage.isKnownPaxosType PaxosMessage.JOIN = true := by
    decide
  have dispatches : self.dispatches event = true := by
    simp [dispatches, join]
  have noAccept : PaxosMessage.JOIN ≠ PaxosMessage.ACCEPT := by decide
  have noClient : PaxosMessage.JOIN ≠ PaxosMessage.CLIENT := by decide
  simp [handlePaxos, known, dispatches, dispatchPaxos, join, noAccept,
    noClient]

theorem handlePaxos_client
    (client : event.parsed.type = PaxosMessage.CLIENT) :
    handlePaxos answer event self =
      if self.dispatches event = true ∧ self.joined = true then
        onClient answer event event.parsed.payload self
      else ⟨.ok .pass, self, []⟩ := by
  have known : PaxosMessage.isKnownPaxosType PaxosMessage.CLIENT = true := by
    decide
  have noAccept : PaxosMessage.CLIENT ≠ PaxosMessage.ACCEPT := by decide
  have noLearn : PaxosMessage.CLIENT ≠ PaxosMessage.LEARN := by decide
  have noJoin : PaxosMessage.CLIENT ≠ PaxosMessage.JOIN := by decide
  cases dispatched : self.dispatches event with
  | false => simp [handlePaxos, client, known, dispatched, noAccept, noLearn]
  | true =>
      cases joined : self.joined with
      | false =>
          simp [handlePaxos, client, known, dispatched, dispatchPaxos, joined,
            noJoin]
      | true =>
          simp [handlePaxos, client, known, dispatched,
            dispatchPaxos_client joined]

/-- Any other message is left alone, or it is for a handler of the protocol. -/
theorem handlePaxos_other (answer : ℕ → Bool) (event : PacketIn)
    (self : PaxosController) (other : event.parsed.type ≠ PaxosMessage.JOIN) :
    (∃ result, ∃ given : List SwitchCommand, handlePaxos answer event self =
      ⟨result, self, given.map Effect.command⟩) ∨
    (self.joined = true ∧
      ((event.parsed.type = PaxosMessage.ACCEPT ∧
          handlePaxos answer event self =
            onAccept answer event event.parsed.payload self) ∨
        (event.parsed.type = PaxosMessage.CLIENT ∧
          handlePaxos answer event self =
            onClient answer event event.parsed.payload self) ∨
        (event.parsed.type = PaxosMessage.LEARN ∧
          handlePaxos answer event self =
            onLearn answer event event.parsed.payload self))) := by
  by_cases known : PaxosMessage.isKnownPaxosType event.parsed.type = true
  · rcases handlePaxos_cases answer self known with
      ⟨-, handled⟩ | ⟨-, result, -, handled⟩
    · rw [handled]
      cases joined : self.joined with
      | false =>
          exact .inl ⟨_, [], by simp [dispatchPaxos, joined, other]; rfl⟩
      | true =>
          by_cases accept : event.parsed.type = PaxosMessage.ACCEPT
          · rw [accept, dispatchPaxos_accept joined]
            exact .inr ⟨rfl, .inl ⟨rfl, rfl⟩⟩
          by_cases client : event.parsed.type = PaxosMessage.CLIENT
          · rw [client, dispatchPaxos_client joined]
            exact .inr ⟨rfl, .inr (.inl ⟨rfl, rfl⟩)⟩
          by_cases learn : event.parsed.type = PaxosMessage.LEARN
          · rw [learn, dispatchPaxos_learn joined]
            exact .inr ⟨rfl, .inr (.inr ⟨rfl, rfl⟩)⟩
          · exact .inl ⟨.ok .halt, [.drop], by
              simp [dispatchPaxos, joined, accept, client, learn, other,
                onUnimplemented, onSwitch, Handler.zoom,
                BaselineController.drop]
              rw [← joined]⟩
    · exact .inl ⟨result, [], handled⟩
  · exact .inl ⟨.ok .pass, [], by simp [handlePaxos, known]⟩

end PaxosController

end SwitchPaxos

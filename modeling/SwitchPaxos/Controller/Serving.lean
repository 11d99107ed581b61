import SwitchPaxos.Base.Translation
import SwitchPaxos.Controller.AnyQueue
import SwitchPaxos.Controller.Delivery
import SwitchPaxos.Controller.Store

/-!
# Nodes that serve their hosts

Here `process_queue` calls `process_message` itself, where the handlers of a
node take its answers from a function.  A node that serves its hosts does what
such a node does if all answers are whether the node knows the addresses of
its hosts, and sends each packet that it processes to each of them.
-/

namespace SwitchPaxos.PaxosController

section Serving

variable (rewrite : EthAddr → IPAddr → Option Bytes → Frame)

/-- The loop of `process_queue(n)` over the generator `queue(n)`. -/
def serveWalk (n : ℕ) : ℕ → Handler Unit
  | 0 => pure ()
  | fuel + 1 => do
      let self ← Handler.get
      let slots := self.state.slots
      match slots.slots.lookup slots.cseq with
      | none => pure ()
      | some slot =>
          if slots.isProcessed n slots.cseq then
            Handler.raise .assertNotProcessed
          else if slot.learned then do
            let answer ← processMessage rewrite n slots.cseq slot.vval
            Handler.emit (.handed ⟨n, slots.cseq, slot.vval, answer⟩)
            if answer then do
              Handler.modify (withSlots (slots.setProcessed n slots.cseq))
              Handler.modify fun self => withSlots self.state.slots.advance self
              serveWalk n fuel
            else pure ()
          else pure ()

def serveQueue (n : ℕ) : Handler Unit := do
  let self ← Handler.get
  serveWalk rewrite n self.state.slots.slots.keys.length

end Serving

/-- The node with another view of its switch. -/
def withSwitch (view : BaselineController → BaselineController)
    (self : PaxosController) : PaxosController :=
  { self with switch := view self.switch }

/-- The translation keeps what the handlers for messages do but for ports, and
the property does not depend on the slots, the round or the leader. -/
structure Viewed (holds : PaxosController → Prop)
    (view : BaselineController → BaselineController)
    (translate : Effect → List Effect) : Prop where
  state : ∀ self state, holds self → holds { self with state }
  leader : ∀ self leader, holds self → holds { self with leader }
  toSelf : ∀ type payload,
    translate (.toSelf type payload) = [.toSelf type payload]
  numbered : ∀ seqno v, translate (.numbered seqno v) = [.numbered seqno v]
  accepted : ∀ n seqno v,
    translate (.accepted n seqno v) = [.accepted n seqno v]
  sent : ∀ self frame mac, holds self →
    translate (.sent frame (self.lookupPort mac)) =
      [.sent frame ((withSwitch view self).lookupPort mac)]

namespace Viewed

variable {holds : PaxosController → Prop}
  {view : BaselineController → BaselineController}
  {translate : Effect → List Effect} {queue queue' : ℕ → Handler Unit}

section Messages

variable (viewed : Viewed holds view translate)
  (walks : ∀ n, Handler.Translates holds holds (withSwitch view) translate
    (queue n) (queue' n))

include viewed

theorem getSlot (seqno : ℕ) :
    Handler.Translates holds holds (withSwitch view) translate
      (PaxosController.getSlot seqno) (PaxosController.getSlot seqno) := by
  refine Handler.translates_get fun self _ => ?_
  refine Handler.Translates.bind
    (Handler.translates_modify (fun _ _ => rfl) fun other => ?_)
    fun _ => Handler.translates_pure _
  exact viewed.state other _

theorem putSlot (seqno : ℕ) (slot : Slot) :
    Handler.Translates holds holds (withSwitch view) translate
      (PaxosController.putSlot seqno slot)
      (PaxosController.putSlot seqno slot) :=
  Handler.translates_modify (fun _ _ => rfl) fun self => viewed.state self _

include walks

theorem onLearn (event : Option PacketIn) (message : Bytes) :
    Handler.Translates holds holds (withSwitch view) translate
      (onLearnBy queue event message) (onLearnBy queue' event message) := by
  have count : ∀ (n seqno : ℕ) (counted : Option Slot),
      Handler.Translates holds holds (withSwitch view) translate
        (match counted with
          | none => pure Reply.halt
          | some slot => do
              PaxosController.putSlot seqno slot
              queue n
              return .halt)
        (match counted with
          | none => pure Reply.halt
          | some slot => do
              PaxosController.putSlot seqno slot
              queue' n
              return .halt) := by
    intro n seqno counted
    cases counted with
    | none => exact Handler.translates_pure _
    | some slot =>
        refine (viewed.putSlot seqno slot).bind fun _ => ?_
        exact (walks n).bind fun _ => Handler.translates_pure _
  refine (Handler.translates_lift _).bind fun numbers => ?_
  refine Handler.translates_get fun self _ => ?_
  refine Handler.Translates.ite (fun _ => Handler.translates_pure _)
    fun _ => ?_
  exact (viewed.getSlot numbers.2).bind fun slot => count _ _ _

theorem sendLearn (dst : EthAddr) (n seqno : ℕ) {port port' : Port}
    (same : ∀ frame, translate (.sent frame port) = [.sent frame port']) :
    Handler.Translates holds holds (withSwitch view) translate
      (sendLearnBy queue dst n seqno port)
      (sendLearnBy queue' dst n seqno port') := by
  refine (Handler.translates_lift _).bind fun payload => ?_
  refine Handler.translates_get fun self _ => ?_
  refine Handler.Translates.ite (fun _ => ?_) fun _ => ?_
  · refine (Handler.translates_emit (viewed.toSelf _ _)).bind fun _ => ?_
    exact (viewed.onLearn walks none payload).bind fun _ =>
      Handler.translates_pure _
  · exact Handler.translates_emit (same _)

theorem onAccept (event : Option PacketIn) (message : Bytes) :
    Handler.Translates holds holds (withSwitch view) translate
      (onAcceptBy queue event message) (onAcceptBy queue' event message) := by
  refine (Handler.translates_lift _).bind fun vote => ?_
  refine Handler.translates_get fun self around => ?_
  refine Handler.Translates.ite (fun _ => Handler.translates_pure _)
    fun _ => ?_
  refine (viewed.getSlot vote.2.1).bind fun slot => ?_
  refine Handler.Translates.ite (fun _ => ?_) fun _ => Handler.translates_pure _
  refine Handler.Translates.bind (Handler.translates_modify (fun _ _ => rfl)
    fun self => viewed.state self _) fun _ => ?_
  refine (viewed.putSlot vote.2.1 _).bind fun _ => ?_
  refine (Handler.translates_emit (viewed.accepted _ _ _)).bind fun _ => ?_
  refine (Handler.translates_lift _).bind fun nodes => ?_
  refine (Handler.translates_forEach nodes fun mac => ?_).bind fun _ =>
    Handler.translates_pure _
  exact viewed.sendLearn walks mac _ _ fun frame =>
    viewed.sent self frame mac around

theorem sendAccept (dst : EthAddr) (n seqno : ℕ) (v : Bytes)
    {port port' : Port}
    (same : ∀ frame, translate (.sent frame port) = [.sent frame port']) :
    Handler.Translates holds holds (withSwitch view) translate
      (sendAcceptBy queue dst n seqno v port)
      (sendAcceptBy queue' dst n seqno v port') := by
  refine (Handler.translates_lift _).bind fun payload => ?_
  refine Handler.translates_get fun self _ => ?_
  refine Handler.Translates.ite (fun _ => ?_) fun _ => ?_
  · refine (Handler.translates_emit (viewed.toSelf _ _)).bind fun _ => ?_
    exact (viewed.onAccept walks none payload).bind fun _ =>
      Handler.translates_pure _
  · exact Handler.translates_emit (same _)

end Messages

section Dispatch

variable {holds' : PaxosController → Prop}
  (viewed : Viewed holds view translate)

include viewed

theorem nextSeqno :
    Handler.Translates holds holds (withSwitch view) translate
      PaxosController.nextSeqno PaxosController.nextSeqno := by
  refine Handler.translates_get fun self _ => ?_
  obtain ⟨_, _, _, _, _, leader, _⟩ := self
  cases leader with
  | none => exact Handler.translates_raise _
  | some leader =>
      refine Handler.Translates.bind (Handler.translates_modify
        (fun _ _ => rfl) fun self => viewed.leader self _) fun _ => ?_
      exact Handler.translates_pure _

variable (viewed' : Viewed holds' view translate)

include viewed'

/-- The leader remembers the port to the WAN before it hands anything over. -/
theorem onClient (event : PacketIn) (message : Bytes)
    (remembers : ∀ self, holds self →
      holds' { self with wanPort := some event.port })
    (walks : ∀ n, Handler.Translates holds' holds' (withSwitch view) translate
      (queue n) (queue' n)) :
    Handler.Translates holds (fun _ => True) (withSwitch view) translate
      (onClientBy queue event message) (onClientBy queue' event message) := by
  refine Handler.translates_get fun self around => ?_
  refine Handler.Translates.ite
    (fun _ => (Handler.translates_pure _).discard) fun _ => ?_
  refine Handler.Translates.ite
    (fun _ => (Handler.translates_pure _).discard) fun _ => ?_
  refine viewed.nextSeqno.bind fun seqno => ?_
  refine (Handler.translates_lift _).bind fun v => ?_
  refine Handler.Translates.bind (Handler.translates_modify (fun _ _ => rfl)
    remembers) fun _ => ?_
  refine (Handler.translates_emit (viewed.numbered _ _)).bind fun _ => ?_
  refine (Handler.translates_lift _).bind fun nodes => ?_
  refine (Handler.translates_forEach nodes fun mac => ?_).bind fun _ =>
    (Handler.translates_pure _).discard
  exact viewed'.sendAccept walks mac _ _ _ fun frame =>
    viewed.sent self frame mac around

theorem handlePaxos (event : PacketIn)
    (notJoin : event.parsed.type ≠ PaxosMessage.JOIN)
    (dropped : translate (.command .drop) = [.command .drop])
    (remembers : event.parsed.type = PaxosMessage.CLIENT → ∀ self,
      holds self → holds' { self with wanPort := some event.port })
    (walks : event.parsed.type ≠ PaxosMessage.CLIENT → ∀ n,
      Handler.Translates holds holds (withSwitch view) translate (queue n)
        (queue' n))
    (walks' : event.parsed.type = PaxosMessage.CLIENT → ∀ n,
      Handler.Translates holds' holds' (withSwitch view) translate (queue n)
        (queue' n)) :
    Handler.Translates holds (fun _ => True) (withSwitch view) translate
      (handlePaxosBy queue event) (handlePaxosBy queue' event) := by
  have drops : Handler.Translates holds holds (withSwitch view) translate
      (onSwitch BaselineController.drop)
      (onSwitch BaselineController.drop) := by
    intro self around
    have told : [Effect.command .drop].flatMap translate =
        [.command .drop] := by
      rw [List.flatMap_singleton, dropped]
    exact ⟨congrArg (Outcome.mk _ _) told.symm, fun _ _ => around⟩
  refine Handler.translates_get fun self around => ?_
  refine Handler.Translates.ite (fun _ => ?_)
    fun _ => (Handler.translates_pure _).discard
  refine Handler.Translates.ite (fun _ => ?_) fun _ => ?_
  · refine Handler.translates_get fun self _ => ?_
    refine Handler.Translates.ite
      (fun _ => (Handler.translates_pure _).discard) fun _ => ?_
    refine Handler.Translates.ite (fun accept => ?_) fun _ => ?_
    · have other : event.parsed.type ≠ PaxosMessage.CLIENT := by
        rw [accept]
        decide
      exact (viewed.onAccept (walks other) event _).discard
    · refine Handler.Translates.ite (fun client => ?_) fun other => ?_
      · exact viewed.onClient viewed' event _ (remembers client)
          (walks' client)
      · refine Handler.Translates.ite (fun join => absurd join notJoin)
          fun _ => ?_
        refine Handler.Translates.ite
          (fun _ => (viewed.onLearn (walks other) event _).discard)
          fun _ => ?_
        exact (drops.bind fun _ => Handler.translates_pure _).discard
  · refine Handler.Translates.ite (fun _ => ?_)
      fun _ => (Handler.translates_pure _).discard
    exact ((Handler.translates_lift _).bind fun _ =>
      Handler.translates_pure _).discard

end Dispatch

end Viewed

/-- The nodes agree on all that `process_message` reads. -/
structure Around (env node : PaxosController) : Prop where
  connection : node.connection = env.connection
  paxosPorts : node.paxosPorts = env.paxosPorts
  wanPort : node.wanPort = env.wanPort
  switch : node.switch = env.switch

section Around

variable {env self : PaxosController}

theorem Around.eq (around : env.Around self) :
    self = { env with
      joined := self.joined, state := self.state, leader := self.leader } := by
  obtain ⟨connection, joined, paxosPorts, wanPort, state, leader, switch⟩ :=
    self
  obtain ⟨rfl, rfl, rfl, rfl⟩ := around
  rfl

theorem Around.hostAddressesKnown (around : env.Around self) :
    self.hostAddressesKnown = env.hostAddressesKnown := by
  rw [around.eq]
  rfl

theorem Around.hosts (around : env.Around self) : self.hosts = env.hosts := by
  rw [around.eq]
  rfl

theorem Around.hostsApart (around : env.Around self)
    (apart : env.HostsApart) : self.HostsApart := by
  intro host member
  rw [around.paxosPorts]
  rw [around.hosts] at member
  exact apart host member

end Around

section Serving

variable (rewrite : EthAddr → IPAddr → Option Bytes → Frame)

/-- What a node that serves these hosts does for an effect of one that only
answers. -/
def served (hosts : List (EthAddr × IPAddr × Port)) : Effect → List Effect
  | .handed call =>
      (if call.answer then hosts.map (delivery rewrite call.vval) else []) ++
        [.handed call]
  | effect => [effect]

variable {env : PaxosController}

theorem viewed_around :
    Viewed env.Around (fun switch => switch) (served rewrite env.hosts) where
  state _ _ around := ⟨around.1, around.2, around.3, around.4⟩
  leader _ _ around := ⟨around.1, around.2, around.3, around.4⟩
  toSelf _ _ := rfl
  numbered _ _ := rfl
  accepted _ _ _ := rfl
  sent _ _ _ _ := rfl

/-- One turn of the loop, if a slot is handed to `process_message`. -/
theorem serveWalk_offers {self : PaxosController} (apart :
    self.hostAddressesKnown = true → self.HostsApart) {n : ℕ} {slot : Slot}
    (offers : self.state.slots.Offers n slot) (fuel : ℕ) :
    serveWalk rewrite n (fuel + 1) self =
      if self.hostAddressesKnown then
        (serveWalk rewrite n fuel
          (self.withSlots (self.state.slots.pass n))).after
            (self.hosts.map (delivery rewrite slot.vval) ++
              [.handed ⟨n, self.state.slots.cseq, slot.vval, true⟩])
      else ⟨.ok (), self,
        [.handed ⟨n, self.state.slots.cseq, slot.vval, false⟩]⟩ := by
  obtain ⟨found, learned, processed⟩ := offers
  rw [Slots.at?] at found
  simp only [serveWalk, Handler.bind_apply, Handler.get_apply,
    Outcome.andThen_ok, Outcome.after_nil, found, learned, processed,
    Handler.ite_apply, if_true, Bool.false_eq_true, if_false]
  cases known : self.hostAddressesKnown with
  | false =>
      rw [processMessage_postponed rewrite _ _ _ self known]
      rfl
  | true =>
      rw [processMessage_sends rewrite _ _ _ self known (apart known)]
      simp only [Outcome.andThen_ok, Handler.bind_apply, Handler.emit_apply,
        if_true, Handler.modify_apply, Outcome.after, List.nil_append,
        List.append_assoc]
      rfl

theorem serveWalk_translates (apart : env.hostAddressesKnown = true →
    env.HostsApart) (n fuel : ℕ) :
    Handler.Translates env.Around env.Around (withSwitch fun switch => switch)
      (served rewrite env.hosts)
      (onSlots (Slots.walk (fun _ => env.hostAddressesKnown) n fuel))
      (serveWalk rewrite n fuel) := by
  induction fuel with
  | zero => exact fun self around => ⟨rfl, fun _ _ => around⟩
  | succ fuel induction =>
      intro self around
      have known := around.hostAddressesKnown
      have kept : ∀ slots, env.Around (self.withSlots slots) :=
        fun slots => ⟨around.1, around.2, around.3, around.4⟩
      have apart' : self.hostAddressesKnown = true → self.HostsApart :=
        fun holds => around.hostsApart (apart (known ▸ holds))
      rcases Slots.walk_succ (fun _ => env.hostAddressesKnown) n fuel
          self.state.slots with
        ⟨slot, offers, turn⟩ | ⟨slot, found, processed, turn⟩ | ⟨idle, turn⟩
      · have turn' := serveWalk_offers rewrite apart' offers fuel
        rw [known] at turn'
        obtain ⟨same, reached⟩ := induction _ (kept (self.state.slots.pass n))
        cases answer : env.hostAddressesKnown with
        | false =>
            rw [answer, if_neg Bool.false_ne_true] at turn turn'
            refine ⟨turn'.trans ?_, fun _ _ => kept _⟩
            simp only [onSlots, Handler.zoom, turn, Slots.offer]
            rfl
        | true =>
            rw [answer, if_pos rfl] at turn turn'
            rw [answer] at same
            refine ⟨turn'.trans ?_, fun _ _ => kept _⟩
            have rest : serveWalk rewrite n fuel
                (self.withSlots (self.state.slots.pass n)) = _ := same
            have told : served rewrite env.hosts
                (.handed ⟨n, self.state.slots.cseq, slot.vval, true⟩) =
              env.hosts.map (delivery rewrite slot.vval) ++
                [.handed ⟨n, self.state.slots.cseq, slot.vval, true⟩] := rfl
            rw [rest, around.hosts]
            simp only [onSlots, Handler.zoom, turn, Slots.offer,
              Outcome.after_mk, Outcome.after_effects, List.map_append,
              List.flatMap_append, List.map_singleton, List.flatMap_singleton,
              told]
            rfl
      · refine ⟨?_, fun _ _ => kept _⟩
        rw [Slots.at?] at found
        simp only [onSlots, Handler.zoom, turn]
        simp [withSwitch, serveWalk, found, processed, withSlots]
      · refine ⟨?_, fun _ _ => kept _⟩
        simp only [onSlots, Handler.zoom, turn]
        cases found : self.state.slots.slots.lookup self.state.slots.cseq with
        | none => simp [withSwitch, serveWalk, found, withSlots]
        | some slot =>
            by_cases processed :
                self.state.slots.isProcessed n self.state.slots.cseq
            · simp [Slots.walk, found, processed] at turn
            · have learned := idle slot found
              simp [withSwitch, serveWalk, found, processed, learned,
                withSlots]

theorem serveQueue_translates (apart : env.hostAddressesKnown = true →
    env.HostsApart) (n : ℕ) :
    Handler.Translates env.Around env.Around (withSwitch fun switch => switch)
      (served rewrite env.hosts)
      (processQueue (fun _ => env.hostAddressesKnown) n)
      (serveQueue rewrite n) :=
  fun self around => serveWalk_translates rewrite apart n _ self around

/-- What `process_message` finds when a message is handled: the leader
remembers the port to the WAN first. -/
def asked (event : PacketIn) (self : PaxosController) : PaxosController :=
  if event.parsed.type = PaxosMessage.CLIENT then
    { self with wanPort := some event.port }
  else self

theorem handlePaxosBy_serveQueue (self : PaxosController) (event : PacketIn)
    (notJoin : event.parsed.type ≠ PaxosMessage.JOIN)
    (apart : (self.asked event).hostAddressesKnown = true →
      self.HostsApart) :
    let outcome := handlePaxos
      (fun _ => (self.asked event).hostAddressesKnown) event self
    handlePaxosBy (serveQueue rewrite) event self =
      ⟨outcome.result, outcome.state,
        outcome.effects.flatMap (served rewrite self.hosts)⟩ := by
  let env := self.asked event
  have same : env.hosts = self.hosts ∧ env.paxosPorts = self.paxosPorts := by
    unfold env asked
    split <;> exact ⟨rfl, rfl⟩
  have viewed : Viewed env.Around (fun switch => switch)
      (served rewrite self.hosts) := by
    rw [← same.1]
    exact viewed_around rewrite
  have apart' : env.hostAddressesKnown = true → env.HostsApart := by
    intro known host member
    rw [same.2]
    rw [same.1] at member
    exact apart known host member
  have translates : Handler.Translates self.Around (fun _ => True)
      (withSwitch fun switch => switch) (served rewrite self.hosts)
      (handlePaxosBy (processQueue fun _ => env.hostAddressesKnown) event)
      (handlePaxosBy (serveQueue rewrite) event) := by
    apply (viewed_around rewrite).handlePaxos viewed event notJoin rfl
    · intro client node around
      have here : env = { self with wanPort := some event.port } :=
        if_pos client
      rw [here]
      exact ⟨around.1, around.2, rfl, around.4⟩
    · intro other n
      have here : env = self := if_neg other
      have walks := serveQueue_translates rewrite apart' n
      rwa [here] at walks ⊢
    · intro _ n
      have walks := serveQueue_translates rewrite apart' n
      rwa [same.1] at walks
  exact (translates self ⟨rfl, rfl, rfl, rfl⟩).1

theorem pumpBy_serveQueue (self : PaxosController)
    (apart : self.hostAddressesKnown = true → self.HostsApart) :
    let outcome := pump (fun _ => self.hostAddressesKnown) self
    pumpBy (serveQueue rewrite) self =
      ⟨outcome.result, outcome.state,
        outcome.effects.flatMap (served rewrite self.hosts)⟩ := by
  have translates : Handler.Translates self.Around self.Around
      (withSwitch fun switch => switch) (served rewrite self.hosts)
      (pumpBy (processQueue fun _ => self.hostAddressesKnown))
      (pumpBy (serveQueue rewrite)) :=
    Handler.translates_get fun _ _ => serveQueue_translates rewrite apart _
  exact (translates self ⟨rfl, rfl, rfl, rfl⟩).1

end Serving

end SwitchPaxos.PaxosController

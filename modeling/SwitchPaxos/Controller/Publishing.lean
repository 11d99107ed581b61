import SwitchPaxos.Controller.Lossless

/-!
# What the others see of a node

An event of a node is quiet, or the node lets the others see one sequence
number: it asks them to vote if it is the leader, and it reports its own vote.
By then its store knows that number.
-/

namespace SwitchPaxos

section Frames

variable (first second : List Effect)

@[simp] theorem sentFrames_nil : sentFrames [] = [] := rfl

@[simp] theorem sentFrames_append :
    sentFrames (first ++ second) = sentFrames first ++ sentFrames second :=
  List.filterMap_append

@[simp] theorem sentFrames_accepted (n seqno : ℕ) (v : Bytes) :
    sentFrames (.accepted n seqno v :: second) = sentFrames second := rfl

@[simp] theorem sentFrames_numbered (seqno : ℕ) (v : Bytes) :
    sentFrames (.numbered seqno v :: second) = sentFrames second := rfl

@[simp] theorem sentFrames_handed (handed : List Handed) :
    sentFrames (handed.map Effect.handed) = [] := frame?_handed handed

@[simp] theorem sentFrames_announce (self : PaxosController) (type : UInt16)
    (payload : Bytes) : sentFrames (self.announce type payload) =
      self.others.map fun dst => ⟨self.mac, dst, type, payload⟩ :=
  frame?_announce self type payload

end Frames

/-- Nobody else sees anything of what a handler did, and the round stays. -/
structure Quiet (node : PaxosController)
    (outcome : Outcome PaxosController Effect Failure α) : Prop where
  frames : sentFrames outcome.effects = []
  votes : votes outcome.effects = []
  crnd : outcome.state.state.crnd = node.state.crnd

/-- The node may have voted; if so, it reports that to all others. -/
structure Casts (node : PaxosController) (n seqno : ℕ) (v : Bytes)
    (log : List Effect) : Prop where
  frames : sentFrames log = [] ∨ sentFrames log =
    node.others.map fun dst => Frame.learn node.mac dst n seqno
  votes : ∀ vote ∈ votes log, vote = (n, seqno, v)

namespace PaxosController

variable (self : PaxosController) (answer : ℕ → Bool)

theorem quiet_idle (result : Except Failure α) (slots : Slots) :
    Quiet self (⟨result, self.withSlots slots, []⟩ :
      Outcome PaxosController Effect Failure α) :=
  ⟨rfl, rfl, rfl⟩

theorem onLearn_quiet (event : Option PacketIn) (message : Bytes) :
    Quiet self (onLearn answer event message self) := by
  rcases onLearn_cases answer event message self with
    ⟨n, seqno, -, -, handled⟩ | ⟨result, handled⟩
  · rw [handled, learnFrom_apply]
    exact ⟨sentFrames_handed _, votes_handed _, rfl⟩
  · rw [handled]
    exact self.quiet_idle result self.state.slots

theorem castVote_casts (n seqno : ℕ) (v : Bytes)
    (member : self.mac ∈ self.state.N) :
    Casts self n seqno v (self.castVote answer n seqno v).effects := by
  rw [castVote_effects member]
  constructor
  · right
    simp [Frame.learn]
  · simp

theorem onAccept_casts {event : Option PacketIn} {message : Bytes}
    {n seqno : ℕ} {v : Bytes}
    (decoded : PaxosMessage.unpackAccept message = .ok (n, seqno, v))
    (addressed : self.Addressed event) (member : self.mac ∈ self.state.N) :
    Casts self n seqno v (onAccept answer event message self).effects ∧
      ((onAccept answer event message self).state.state.crnd = n ∨
        (onAccept answer event message self).state.state.crnd =
          self.state.crnd) := by
  rw [onAccept_addressed answer decoded addressed]
  split
  · refine ⟨self.castVote_casts answer n seqno v member, .inl ?_⟩
    rw [castVote_state]
    rfl
  · exact ⟨⟨.inl rfl, by simp⟩, .inr rfl⟩

/-- The leader asks the others to vote, and votes. -/
theorem onClient_casts (event : PacketIn) (message : Bytes)
    (joined : self.joined = true) (member : self.mac ∈ self.state.N) :
    Quiet self (onClient answer event message self) ∨
    ∃ seqno v own, self.isleader = true ∧
      (self.state.crnd ≤ UINT32_MAX ∧ seqno ≤ UINT32_MAX) ∧
      self.clientOperations answer message = self.acceptOperations answer none
        (PaxosMessage.header self.state.crnd seqno ++ v) ∧
      Casts self self.state.crnd seqno v own ∧
      sentFrames (onClient answer event message self).effects =
        (self.others.map fun dst =>
          Frame.accept self.mac dst self.state.crnd seqno v) ++
          sentFrames own ∧
      votes (onClient answer event message self).effects = votes own ∧
      (onClient answer event message self).state.state.crnd =
        self.state.crnd := by
  rcases onClient_cases answer event message self with
    ⟨result, handled⟩ | ⟨isleader, last, present,
      ⟨failure, handled⟩ | ⟨v, decoded, handled⟩⟩
  · rw [handled]
    exact .inl (self.quiet_idle result self.state.slots)
  · rw [handled]
    exact .inl ⟨rfl, rfl, rfl⟩
  · rw [handled]
    rcases broadcastAccept_cases answer self.state.crnd last.nextSeqno.1 v
      (self.withClient last event.port) with
      ⟨failure, refused⟩ | ⟨-, fits, sent⟩
    · rw [refused]
      exact .inl ⟨rfl, rfl, rfl⟩
    · -- The own ACCEPT is handled once the number is taken.
      obtain ⟨casts, crnd⟩ := (self.withClient last event.port).onAccept_casts
        answer (PaxosMessage.unpackAccept_header fits.1 fits.2 v)
        (addressed_none _) member
      rw [sent, Handler.andThen_pure]
      refine .inr ⟨last.nextSeqno.1, v, _, isleader, fits, ?_,
        ⟨casts.frames, casts.votes⟩, ?_, ?_, or_self_iff.mp crnd⟩
      · rw [clientOperations, present, decoded]
        exact if_pos ⟨⟨isleader, joined⟩, member, fits⟩
      · simp [others, Frame.accept]
      · simp

end PaxosController

end SwitchPaxos

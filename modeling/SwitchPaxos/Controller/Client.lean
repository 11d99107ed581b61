import SwitchPaxos.Controller.Clashing

/-!
# Numbering client packets

The leader takes the next sequence number before it looks at the payload and
before the encoder checks that the numbers fit, and before the walk of the
queue for its own vote.  A client packet that is refused leaves a number behind
that no ACCEPT carries.
-/

namespace SwitchPaxos

namespace PaxosController

/-- The payload and the recipient of an ACCEPT message. -/
def acceptTo? (mac : EthAddr) (self : PaxosController) :
    Effect → Option Bytes
  | .sent frame _ =>
      if frame.type = PaxosMessage.ACCEPT ∧ frame.dst = mac then
        some frame.payload
      else none
  | .toSelf type payload =>
      if type = PaxosMessage.ACCEPT ∧ self.mac = mac then some payload
      else none
  | _ => none

/-- The payloads of the ACCEPT messages to a node. -/
def acceptsTo (mac : EthAddr) (effects : List Effect)
    (self : PaxosController) : List Bytes :=
  effects.filterMap (self.acceptTo? mac)

/-- The ACCEPT of the client packet `v` was sent exactly once to every node. -/
def SentToAll (seqno : ℕ) (v : Bytes) (effects : List Effect)
    (self : PaxosController) : Prop :=
  ∀ mac ∈ self.state.N, self.acceptsTo mac effects =
    [PaxosMessage.header self.state.crnd seqno ++ v]

instance (seqno : ℕ) (v : Bytes) (effects : List Effect)
    (self : PaxosController) : Decidable (self.SentToAll seqno v effects) :=
  -- Not by running through all addresses.
  Finset.decidableDforallFinset

/-- The number under which the packet in a CLIENT message was sent to all. -/
def announced? (message : Bytes) (effects : List Effect)
    (self : PaxosController) : Option ℕ :=
  match PaxosMessage.unpackClient message, self.acceptsTo self.mac effects with
  | .ok v, [payload] =>
      match PaxosMessage.unpackAccept payload with
      | .ok (_, seqno, _) =>
          if self.SentToAll seqno v effects then some seqno else none
      | .error _ => none
  | _, _ => none

section Announced

variable {self : PaxosController} {seqno : ℕ} {v message : Bytes}
  {effects : List Effect}

theorem announced?_some (member : self.mac ∈ self.state.N)
    (decoded : PaxosMessage.unpackClient message = .ok v)
    (fits : self.state.crnd ≤ UINT32_MAX ∧ seqno ≤ UINT32_MAX)
    (sent : self.SentToAll seqno v effects) :
    self.announced? message effects = some seqno := by
  simp only [announced?, decoded, sent _ member,
    PaxosMessage.unpackAccept_header fits.1 fits.2, if_pos sent]

theorem acceptsTo_append (mac : EthAddr) (first second : List Effect) :
    self.acceptsTo mac (first ++ second) =
      self.acceptsTo mac first ++ self.acceptsTo mac second :=
  List.filterMap_append

theorem acceptsTo_announce_learn (mac : EthAddr) (other : PaxosController)
    (payload : Bytes) :
    self.acceptsTo mac (other.announce PaxosMessage.LEARN payload) = [] := by
  have differ : PaxosMessage.LEARN ≠ PaxosMessage.ACCEPT := by decide
  simp [acceptsTo, announce, List.filterMap_map, Function.comp_def, acceptTo?,
    differ]

theorem acceptsTo_announce (self : PaxosController) (payload : Bytes)
    {mac : EthAddr} (member : mac ∈ self.state.N) :
    self.acceptsTo mac (self.announce PaxosMessage.ACCEPT payload) =
      [payload] := by
  have others : (self.others.map fun dst => Effect.sent ⟨self.mac, dst,
      PaxosMessage.ACCEPT, payload⟩ (self.lookupPort dst)).filterMap
        (self.acceptTo? mac) =
      if mac ∈ self.others then [payload] else [] := by
    have picked := filterMap_pick (others_nodup self) mac fun _ => some payload
    rw [List.filterMap_map]
    simpa [Function.comp_def, acceptTo?] using picked
  rw [acceptsTo, announce, List.filterMap_append, others]
  by_cases own : self.mac = mac
  · subst own
    simp [mem_others, acceptTo?]
  · simp [mem_others, member, Ne.symm own, own, acceptTo?]

end Announced

section Outcome

variable (rewrite : EthAddr → IPAddr → Option Bytes → Frame)
  {self : PaxosController} {message : Bytes}

theorem acceptsTo_onAccept (other : PaxosController) (mac : EthAddr)
    {n seqno : ℕ} {v : Bytes} {effects : List Effect}
    (told : ∀ effect ∈ effects, effect = .accepted n seqno v ∨
      effect ∈ other.announce PaxosMessage.LEARN
        (PaxosMessage.header n seqno) ∨ Effect.Delivers effect) :
    self.acceptsTo mac effects = [] := by
  have learn : self.acceptsTo mac (other.announce PaxosMessage.LEARN
      (PaxosMessage.header n seqno)) = [] :=
    acceptsTo_announce_learn mac other _
  apply List.filterMap_eq_nil_iff.mpr
  intro effect member
  rcases told effect member with rfl | announced | delivers
  · rfl
  · exact List.filterMap_eq_nil_iff.mp learn effect announced
  · rcases effect with _ | _ | _ | _ | _ | _
    all_goals first | rfl | cases delivers

end Outcome

end PaxosController

/-- The leader, the numbers of the frames it sent to all, and whether a frame
whose handling raised took a number. -/
structure ClientRun where
  node : PaxosController
  announced : List ℕ
  wasted : Bool

namespace ClientRun

def start (node : PaxosController) : ClientRun :=
  { node, announced := [], wasted := false }

/-- A frame raised, and the leader's number is not what it was. -/
def wastes (before : PaxosController)
    (outcome : Outcome PaxosController Effect Failure Reply) : Bool :=
  match outcome.result with
  | .ok _ => false
  | .error _ => outcome.state.leader ≠ before.leader

section System

variable (rewrite : EthAddr → IPAddr → Option Bytes → Frame)

/-- `on_client` at a node that serves its hosts. -/
def handle (frame : PacketIn) : PaxosController.Handler Reply :=
  PaxosController.onClientBy (PaxosController.serveQueue rewrite) frame
    frame.parsed.payload

def system : System ClientRun PacketIn :=
  { Enabled := fun _ _ => True
    step := fun run frame =>
      let outcome := handle rewrite frame run.node
      { node := outcome.state
        announced := run.announced ++ (run.node.announced?
          frame.parsed.payload outcome.effects).toList
        wasted := run.wasted || wastes run.node outcome } }

theorem always (run : ClientRun) (frames : List PacketIn) :
    (system rewrite).Run run frames := by
  induction frames generalizing run with
  | nil => trivial
  | cons frame frames induction => exact ⟨trivial, induction _⟩

end System

/-- The leader after it took the numbers below `m`. -/
def leaderAfter (m : ℕ) : Leader :=
  { seqno := if m = 0 then none else some (m - 1) }

theorem nextSeqno_leaderAfter (m : ℕ) :
    (leaderAfter m).nextSeqno = (m, leaderAfter (m + 1)) := by
  cases m <;> simp [leaderAfter, Leader.nextSeqno]

/-- The numbers taken are those of the frames that were sent to all, in order,
and no frame that raised took one. -/
structure NoHoles (run : ClientRun) : Prop where
  leader : run.node.leader = some (leaderAfter run.announced.length)
  inOrder : run.announced = List.range run.announced.length
  kept : run.wasted = false

/-- The payload can be unpacked, the round and the next number fit their
fields, and `process_message` meets no host with the address of a node. -/
def Fits (run : ClientRun) (frame : PacketIn) : Prop :=
  8 ≤ frame.parsed.payload.length ∧
    run.node.state.crnd ≤ UINT32_MAX ∧
    ∀ leader, run.node.leader = some leader →
      leader.nextSeqno.1 ≤ UINT32_MAX ∧
        ¬ ({ run.node with wanPort := some frame.port }).Trips
          run.node.state.crnd leader.nextSeqno.1

/-- A joined leader that knows itself, with a queue in order. -/
structure Leading (node : PaxosController) : Prop where
  isleader : node.isleader = true
  joined : node.joined = true
  member : node.mac ∈ node.state.N
  ready : ∃ leader, node.leader = some leader
  inOrder : ∃ log, node.state.slots.InOrder log

section Step

variable (rewrite : EthAddr → IPAddr → Option Bytes → Frame)
  {node : PaxosController} {frame : PacketIn} {leader : Leader}

/-- A frame that can be sent is sent to all under the next number; it raises
exactly if it trips. -/
theorem handle_sent (leading : Leading node)
    (present : node.leader = some leader)
    (long : 8 ≤ frame.parsed.payload.length)
    (fits : node.state.crnd ≤ UINT32_MAX ∧
      leader.nextSeqno.1 ≤ UINT32_MAX) :
    let outcome := handle rewrite frame node
    let asked := { node with wanPort := some frame.port }
    (asked.Trips node.state.crnd leader.nextSeqno.1 → outcome.Raised) ∧
      (¬ asked.Trips node.state.crnd leader.nextSeqno.1 →
        outcome.result = .ok .halt) ∧
      outcome.state.leader = some leader.nextSeqno.2 ∧
      Leading outcome.state ∧
      node.announced? frame.parsed.payload outcome.effects =
        some leader.nextSeqno.1 := by
  obtain ⟨isleader, joined, member, -, log, inOrder⟩ := leading
  let numbered := node.withClient leader frame.port
  let payload := PaxosMessage.header node.state.crnd leader.nextSeqno.1 ++
    frame.parsed.payload.drop 8
  have decoded : PaxosMessage.unpackClient frame.parsed.payload =
      .ok (frame.parsed.payload.drop 8) := if_pos long
  have carried : PaxosMessage.unpackAccept payload =
      .ok (node.state.crnd, leader.nextSeqno.1, frame.parsed.payload.drop 8) :=
    PaxosMessage.unpackAccept_header fits.1 fits.2 _
  have known : ¬ numbered.mac ∉ numbered.state.N := not_not_intro member
  have inOrder : numbered.state.slots.InOrder log := inOrder
  obtain ⟨trips, completes, ⟨slots, log', state, inOrder'⟩, told⟩ :=
    PaxosController.onAcceptBy_serveQueue rewrite inOrder member carried rfl
  have handled : handle rewrite frame node =
      (((PaxosController.onAcceptBy (PaxosController.serveQueue rewrite) none
        payload numbered).andThen fun _ => pure .halt).after
          (numbered.announce PaxosMessage.ACCEPT payload)).after
            [.numbered leader.nextSeqno.1
              (frame.parsed.payload.drop 8)] := by
    rw [handle, PaxosController.onClientBy_numbered _ frame isleader joined
      present decoded, PaxosController.broadcastAcceptBy, if_neg known,
      if_pos fits]
  rw [Handler.andThen_pure] at handled
  dsimp only
  rw [handled]
  refine ⟨fun clash => ?_, fun quiet => ?_, ?_, ?_, ?_⟩
  · obtain ⟨exception, raised⟩ := trips clash
    refine ⟨exception, ?_⟩
    simp only [Outcome.after_result, raised]
    rfl
  · simp only [Outcome.after_result, completes quiet]
    rfl
  · simp only [Outcome.after_state, state]
    rfl
  · simp only [Outcome.after_state, state]
    exact ⟨isleader, joined, member, ⟨_, rfl⟩, log', inOrder'⟩
  · apply PaxosController.announced?_some member decoded fits
    intro mac among
    simp only [Outcome.after_effects]
    rw [PaxosController.acceptsTo_append, PaxosController.acceptsTo_append,
      PaxosController.acceptsTo_onAccept numbered mac told, List.append_nil]
    exact PaxosController.acceptsTo_announce node payload among

/-- A frame that cannot be sent raises and takes a number. -/
theorem handle_refused (leading : Leading node)
    (present : node.leader = some leader)
    (refused : ¬ (8 ≤ frame.parsed.payload.length ∧
      node.state.crnd ≤ UINT32_MAX ∧ leader.nextSeqno.1 ≤ UINT32_MAX)) :
    let outcome := handle rewrite frame node
    outcome.Raised ∧ outcome.state.leader = some leader.nextSeqno.2 ∧
      Leading outcome.state := by
  obtain ⟨isleader, joined, member, -, inOrder⟩ := leading
  dsimp only
  by_cases long : 8 ≤ frame.parsed.payload.length
  · have decoded : PaxosMessage.unpackClient frame.parsed.payload =
        .ok (frame.parsed.payload.drop 8) := if_pos long
    have unfit : ¬ (node.state.crnd ≤ UINT32_MAX ∧
        leader.nextSeqno.1 ≤ UINT32_MAX) := fun fits => refused ⟨long, fits⟩
    have known : ¬ (node.withClient leader frame.port).mac ∉
        (node.withClient leader frame.port).state.N := not_not_intro member
    rw [handle, PaxosController.onClientBy_numbered _ frame isleader joined
      present decoded, PaxosController.broadcastAcceptBy, if_neg known,
      if_neg unfit]
    exact ⟨⟨_, rfl⟩, rfl, ⟨isleader, joined, member, ⟨_, rfl⟩, inOrder⟩⟩
  · have malformed : PaxosMessage.unpackClient frame.parsed.payload =
        .error .assertPayload := if_neg long
    rw [handle, PaxosController.onClientBy_malformed _ frame isleader joined
      present malformed]
    exact ⟨⟨_, rfl⟩, rfl, ⟨isleader, joined, member, ⟨_, rfl⟩, inOrder⟩⟩

theorem wastes_raised {outcome : Outcome PaxosController Effect Failure Reply}
    (present : node.leader = some leader) (raised : outcome.Raised)
    (next : outcome.state.leader = some leader.nextSeqno.2) :
    wastes node outcome = true := by
  obtain ⟨failure, raised⟩ := raised
  have moved : some leader.nextSeqno.2 ≠ some leader := by
    obtain ⟨seqno⟩ := leader
    cases seqno <;> simp [Leader.nextSeqno]
  simp [wastes, raised, next, present, moved]

end Step

/-- As long as no number is wasted there are no holes. -/
structure Sound (run : ClientRun) : Prop where
  leading : Leading run.node
  noHoles : run.wasted = false → run.NoHoles

section Run

variable (rewrite : EthAddr → IPAddr → Option Bytes → Frame)
  {run : ClientRun} {frame : PacketIn}

private theorem sound_wasted (leading : Leading (handle rewrite frame
      run.node).state)
    (wasted : wastes run.node (handle rewrite frame run.node) = true) :
    ((system rewrite).step run frame).Sound ∧
      ((system rewrite).step run frame).wasted = true := by
  have lost : ((system rewrite).step run frame).wasted = true := by
    simp [system, wasted]
  refine ⟨⟨leading, fun none_wasted => ?_⟩, lost⟩
  rw [lost] at none_wasted
  cases none_wasted

theorem sound_step_iff (sound : run.Sound) :
    ((system rewrite).step run frame).Sound ∧
      (((system rewrite).step run frame).wasted = false ↔
        run.wasted = false ∧ run.Fits frame) := by
  obtain ⟨leading, noHoles⟩ := sound
  obtain ⟨leader, present⟩ := leading.ready
  have condition : run.Fits frame ↔
      (8 ≤ frame.parsed.payload.length ∧
        run.node.state.crnd ≤ UINT32_MAX ∧
        leader.nextSeqno.1 ≤ UINT32_MAX) ∧
      ¬ ({ run.node with wanPort := some frame.port }).Trips
        run.node.state.crnd leader.nextSeqno.1 := by
    simp [Fits, present, and_assoc]
  by_cases fits : 8 ≤ frame.parsed.payload.length ∧
      run.node.state.crnd ≤ UINT32_MAX ∧ leader.nextSeqno.1 ≤ UINT32_MAX
  · obtain ⟨trips, completes, next, stays, announced⟩ :=
      handle_sent rewrite leading present fits.1 fits.2
    by_cases clash : ({ run.node with wanPort := some frame.port }).Trips
        run.node.state.crnd leader.nextSeqno.1
    · obtain ⟨kept, lost⟩ := sound_wasted rewrite stays
        (wastes_raised present (trips clash) next)
      refine ⟨kept, ?_⟩
      rw [lost, condition]
      simp [clash]
    · have wasted : ((system rewrite).step run frame).wasted =
          run.wasted := by
        simp [system, wastes, completes clash]
      refine ⟨⟨stays, ?_⟩, by rw [wasted, condition]; simp [fits, clash]⟩
      intro none_wasted
      rw [wasted] at none_wasted
      obtain ⟨numbered, inOrder, -⟩ := noHoles none_wasted
      have taken : leader = leaderAfter run.announced.length := by
        rw [present] at numbered
        exact Option.some.inj numbered
      have log : ((system rewrite).step run frame).announced =
          run.announced ++ [run.announced.length] := by
        simp [system, announced, taken, nextSeqno_leaderAfter]
      constructor
      · rw [log, List.length_append, List.length_singleton]
        change (handle rewrite frame run.node).state.leader = _
        rw [next, taken, nextSeqno_leaderAfter]
      · rw [log, List.length_append, List.length_singleton, List.range_succ,
          ← inOrder]
      · rw [wasted, none_wasted]
  · obtain ⟨raised, next, stays⟩ :=
      handle_refused rewrite leading present fits
    obtain ⟨kept, lost⟩ := sound_wasted rewrite stays
      (wastes_raised present raised next)
    refine ⟨kept, ?_⟩
    rw [lost, condition]
    simp [fits]

end Run

end ClientRun

end SwitchPaxos

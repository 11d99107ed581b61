import SwitchPaxos.Controller.Exchange

/-!
# All controllers know each other

Whoever asks to join tells all that are started, and whoever admits a node
tells it.  So of two controllers that asked, one knows the other or is about to
hear of it, and then the other does too.
-/

namespace SwitchPaxos

/-- The JOIN is about the node with this address. -/
def Frame.Carries (frame : Frame) (mac : EthAddr) : Prop :=
  ∃ nId, PaxosMessage.unpackJoin frame.payload = .ok (nId, mac.toRaw)

theorem Frame.Carries.unique {frame : Frame} {mac other : EthAddr}
    (first : frame.Carries mac) (second : frame.Carries other) :
    mac = other := by
  obtain ⟨nId, decoded⟩ := first
  obtain ⟨nId', decoded'⟩ := second
  rw [decoded] at decoded'
  have same : mac.toRaw = other.toRaw := by
    simpa using congrArg (Except.map Prod.snd) decoded'
  exact EthAddr.toRaw_inj.mp same

theorem Frame.asksAgain_iff {frame : Frame} :
    frame.asksAgain = true ↔ frame.Carries ETHER_BROADCAST := by
  unfold asksAgain Carries
  split
  · next nId mac decoded =>
      rw [decoded, beq_iff_eq]
      constructor
      · rintro rfl
        exact ⟨nId, rfl⟩
      · rintro ⟨other, same⟩
        simpa using congrArg (Except.map Prod.snd) same
  · next failure malformed =>
      rw [malformed]
      simp

namespace PaxosController

variable {self : PaxosController}

theorem carries_joinTo (fits : self.IdFits) (dst : EthAddr) :
    (self.joinTo dst).Carries self.mac :=
  ⟨self.state.nId, PaxosMessage.unpackJoin_toRaw fits self.mac⟩

theorem carries_joinAgain (fits : self.IdFits) :
    self.joinAgain.Carries ETHER_BROADCAST :=
  ⟨self.state.nId, PaxosMessage.unpackJoin_toRaw fits ETHER_BROADCAST⟩

end PaxosController

theorem Trio.mac_inj (trio : Trio) {i j : Fin 3} :
    trio.mac i = trio.mac j ↔ i = j :=
  trio.distinct.eq_iff

theorem Trio.mem_macs (trio : Trio) {mac : EthAddr} :
    mac ∈ trio.macs ↔ ∃ i, trio.mac i = mac := by
  simp [macs]

theorem Trio.card_macs (trio : Trio) : trio.macs.card = 3 := by
  have distinct : Function.Injective trio.mac := trio.distinct
  rw [macs, Finset.card_image_of_injective _ distinct]
  rfl

namespace Exchange

variable {trio : Trio} {exchange : Exchange} {i j : Fin 3}

/-- Who asked, who knows whom, and which JOIN messages are on their way. -/
def view (trio : Trio) (exchange : Exchange) : Acquaintance (Fin 3) :=
  { asked := {i | i ∈ exchange.asked}
    knows := fun i j => trio.mac j ∈ (exchange.nodes i).state.N
    coming := fun i j => ∃ frame, (i, frame) ∈ exchange.inFlight ∧
      frame.Carries (trio.mac j) }

/-- The controllers know none but each other, who asked knows itself, and every
message on its way is about another controller or asks for an announcement. -/
structure Sound (trio : Trio) (exchange : Exchange) : Prop where
  joining : ∀ i, (exchange.nodes i).Joining
  mac : ∀ i, (exchange.nodes i).mac = trio.mac i
  within : ∀ i, (exchange.nodes i).state.N ⊆ trio.macs
  own : ∀ i, trio.mac i ∈ (exchange.nodes i).state.N ↔ i ∈ exchange.asked
  known : ∀ i j, trio.mac j ∈ (exchange.nodes i).state.N →
    j ∈ exchange.started
  flight : ∀ i frame, (i, frame) ∈ exchange.inFlight →
    i ∈ exchange.started ∧ frame.type = PaxosMessage.JOIN ∧
      (frame.Carries ETHER_BROADCAST ∨
        ∃ j, j ≠ i ∧ j ∈ exchange.started ∧ frame.Carries (trio.mac j))
  tied : (exchange.view trio).Mutual

theorem start_sound (trio : Trio) : (start trio).Sound trio := by
  have empty : ∀ {mac : EthAddr}, mac ∉ (∅ : Finset EthAddr) :=
    Finset.notMem_empty _
  constructor
  · intro i
    refine ⟨?_, rfl, ?_, ?_, ?_⟩
    · have small : (i : ℕ) + 1 ≤ UINT32_MAX :=
        (Nat.succ_le_of_lt i.isLt).trans (by decide)
      exact small
    · rintro ⟨⟩
    · intro mac member
      exact absurd member empty
    · rintro mac port ⟨⟩
  · exact fun i => rfl
  · intro i mac member
    exact absurd member empty
  · exact fun i => iff_of_false empty (Finset.notMem_empty _)
  · exact fun i j member => absurd member empty
  · exact fun i frame member => absurd member List.not_mem_nil
  · exact ⟨fun i j _ member => absurd member empty,
      fun i member => absurd member (Finset.notMem_empty _)⟩

theorem Sound.asked_started (sound : exchange.Sound trio)
    (asked : i ∈ exchange.asked) : i ∈ exchange.started :=
  sound.known i i ((sound.own i).mpr asked)

theorem mem_receivers {frame : Frame} :
    j ∈ exchange.receivers trio i frame ↔
      j ≠ i ∧ j ∈ exchange.started ∧
        (frame.dst = ETHER_BROADCAST ∨ frame.dst = trio.mac j) := by
  simp [receivers]

/-- A started controller reads a message or takes a turn, which leaves it with
the nodes `N`.  It admits only nodes that are started, and tells them; and if
it asks to join it tells everybody. -/
structure Turn (trio : Trio) (exchange : Exchange) (i : Fin 3)
    (rest : List (Fin 3 × Frame)) (asked : Finset (Fin 3))
    (N : Finset EthAddr) (frames : List Frame) : Prop where
  here : i ∈ exchange.started
  kept : ∀ item ∈ rest, item ∈ exchange.inFlight
  read : ∀ j frame, (j, frame) ∈ exchange.inFlight → (j, frame) ∈ rest ∨
    (j = i ∧ ∀ other, frame.Carries (trio.mac other) → trio.mac other ∈ N)
  grows : (exchange.nodes i).state.N ⊆ N
  admits : ∀ mac ∈ N, mac ∈ (exchange.nodes i).state.N ∨
    ∃ j, mac = trio.mac j ∧ j ∈ exchange.started ∧ (j ≠ i →
      ∃ frame ∈ frames, frame.dst = trio.mac j ∧ frame.Carries (trio.mac i))
  joins : ∀ frame ∈ frames, frame.type = PaxosMessage.JOIN ∧
    (frame.Carries ETHER_BROADCAST ∨ frame.Carries (trio.mac i))
  own : ∀ j, j ∈ asked ↔
    if j = i then trio.mac i ∈ N else j ∈ exchange.asked
  introduces : trio.mac i ∈ N → i ∈ exchange.asked ∨
    ∃ frame ∈ frames, frame.dst = ETHER_BROADCAST ∧
      frame.Carries (trio.mac i)

section Run

variable {handler : PaxosController.Handler Unit} {N : Finset EthAddr}
  {frames : List Frame} {rest : List (Fin 3 × Frame)}
  {asked : Finset (Fin 3)}
  (leaves : (exchange.nodes i).Leaves (handler (exchange.nodes i)).state
    (handler (exchange.nodes i)).effects N frames)

include leaves

theorem mem_inFlight_run {frame : Frame} :
    (j, frame) ∈ (run trio i handler
        { exchange with inFlight := rest, asked }).inFlight ↔
      (j, frame) ∈ rest ∨
        (frame ∈ frames ∧ j ∈ exchange.receivers trio i frame) := by
  simp only [run, leaves.frames, List.mem_append, List.mem_flatMap,
    List.mem_map, Prod.mk.injEq]
  refine or_congr_right ?_
  constructor
  · rintro ⟨other, member, receiver, receives, rfl, rfl⟩
    exact ⟨member, receives⟩
  · rintro ⟨member, receives⟩
    exact ⟨frame, member, j, receives, rfl, rfl⟩

theorem nodes_run (j : Fin 3) :
    ((run trio i handler
        { exchange with inFlight := rest, asked }).nodes j).state.N =
      if j = i then N else (exchange.nodes j).state.N := by
  simp only [run, Function.update_apply]
  split
  · exact leaves.nodes
  · rfl

/-- What two controllers know of each other after a turn. -/
theorem Turn.acquaints (turn : exchange.Turn trio i rest asked N frames)
    (sound : exchange.Sound trio) :
    (exchange.view trio).Step ((run trio i handler
      { exchange with inFlight := rest, asked }).view trio) := by
  have posted : ∀ {j frame}, frame ∈ frames → j ≠ i → j ∈ exchange.started →
      (frame.dst = ETHER_BROADCAST ∨ frame.dst = trio.mac j) →
      (j, frame) ∈ (run trio i handler
        { exchange with inFlight := rest, asked }).inFlight :=
    fun member other started addressed => (mem_inFlight_run leaves).mpr
      (.inr ⟨member, mem_receivers.mpr ⟨other, started, addressed⟩⟩)
  refine ⟨?_, ?_, ?_, ?_⟩
  · intro j other knows
    change trio.mac other ∈ _
    rw [nodes_run leaves]
    split
    · next same => exact turn.grows (same ▸ knows)
    · exact knows
  · rintro j other ⟨frame, member, carries⟩
    rcases turn.read j frame member with left | ⟨rfl, known⟩
    · exact .inr ⟨frame, (mem_inFlight_run leaves).mpr (.inl left), carries⟩
    · left
      change trio.mac other ∈ _
      rw [nodes_run leaves, if_pos rfl]
      exact known other carries
  · intro j other different knows
    change trio.mac other ∈ _ at knows
    rw [nodes_run leaves] at knows
    split at knows
    · next same =>
        subst same
        rcases turn.admits _ knows with earlier | ⟨new, same, started, told⟩
        · exact .inl earlier
        · obtain rfl := trio.mac_inj.mp same
          obtain ⟨frame, member, dst, carries⟩ := told different.symm
          exact .inr (.inr ⟨frame, posted member different.symm started
            (.inr dst), carries⟩)
    · exact .inl knows
  · intro j first
    have first' := (turn.own j).mp first
    split at first'
    · next same =>
        subst same
        refine (turn.introduces first').imp_right ?_
        rintro ⟨frame, member, dst, carries⟩ other second different
        have second' := (turn.own other).mp second
        rw [if_neg different] at second'
        exact .inr ⟨frame, posted member different
          (sound.asked_started second') (.inl dst), carries⟩
    · exact .inl first'

theorem Turn.sound (turn : exchange.Turn trio i rest asked N frames)
    (sound : exchange.Sound trio) :
    (run trio i handler
      { exchange with inFlight := rest, asked }).Sound trio := by
  constructor
  · intro j
    simp only [run, Function.update_apply]
    split
    · exact leaves.joining
    · exact sound.joining j
  · intro j
    simp only [run, Function.update_apply]
    split
    · next same => rw [leaves.mac, same, sound.mac i]
    · exact sound.mac j
  · intro j mac member
    rw [nodes_run leaves] at member
    split at member
    · rcases turn.admits mac member with earlier | ⟨other, rfl, -, -⟩
      · exact sound.within i earlier
      · exact trio.mem_macs.mpr ⟨other, rfl⟩
    · exact sound.within j member
  · intro j
    rw [nodes_run leaves]
    change _ ↔ j ∈ asked
    rw [turn.own j]
    split
    · next same => rw [same]
    · exact sound.own j
  · intro j other member
    rw [nodes_run leaves] at member
    change other ∈ exchange.started
    split at member
    · rcases turn.admits _ member with earlier | ⟨new, same, started, -⟩
      · exact sound.known i other earlier
      · exact trio.mac_inj.mp same ▸ started
    · exact sound.known j other member
  · intro j frame member
    rcases (mem_inFlight_run leaves).mp member with earlier | ⟨new, receives⟩
    · exact sound.flight j frame (turn.kept _ earlier)
    · obtain ⟨other, started, -⟩ := mem_receivers.mp receives
      obtain ⟨type, carries⟩ := turn.joins frame new
      exact ⟨started, type,
        carries.imp_right fun ours => ⟨i, other.symm, turn.here, ours⟩⟩
  · exact sound.tied.step (turn.acquaints leaves sound)

end Run

/-- What a message on its way is about. -/
theorem Sound.delivered (sound : exchange.Sound trio) {frame : Frame}
    (flying : (i, frame) ∈ exchange.inFlight) (answer : ℕ → Bool) {port : Port}
    (physical : port ≠ OFPP_ALL) :
    let event : PacketIn := { port, parsed := frame, srcip := none }
    let node := exchange.nodes i
    let outcome := PaxosController.packetIn answer event node
    (frame.asksAgain = true ∧
      node.Leaves outcome.state outcome.effects node.state.N
        [node.joinTo ETHER_BROADCAST]) ∨
    (∃ j, j ≠ i ∧ j ∈ exchange.started ∧ frame.asksAgain = false ∧
      frame.Carries (trio.mac j) ∧
      ((trio.mac j ∈ node.state.N ∧
          node.Leaves outcome.state outcome.effects node.state.N []) ∨
        (trio.mac j ∉ node.state.N ∧
          node.Leaves outcome.state outcome.effects
            (insert (trio.mac j) node.state.N)
            [node.joinTo (trio.mac j)]))) := by
  intro event node outcome
  obtain ⟨-, join, about⟩ := sound.flight i frame flying
  have joining : node.Joining := sound.joining i
  by_cases again : frame.Carries ETHER_BROADCAST
  · obtain ⟨nId, decoded⟩ := again
    exact .inl ⟨Frame.asksAgain_iff.mpr ⟨nId, decoded⟩,
      joining.announce join physical decoded⟩
  · right
    obtain ⟨j, other, started, carries⟩ := about.resolve_left again
    have asks : frame.asksAgain = false := by
      rw [← Bool.not_eq_true]
      exact fun asks => again (Frame.asksAgain_iff.mp asks)
    refine ⟨j, other, started, asks, carries, ?_⟩
    obtain ⟨nId, decoded⟩ := carries
    by_cases known : trio.mac j ∈ node.state.N
    · exact .inl ⟨known,
        joining.known join physical decoded (trio.unicast j) known⟩
    · exact .inr ⟨known,
        joining.new join physical decoded (trio.unicast j) known⟩

theorem Sound.few (sound : exchange.Sound trio)
    (new : trio.mac i ∉ (exchange.nodes i).state.N) :
    (exchange.nodes i).state.N.card < PaxosController.totalNodes := by
  have strict : (exchange.nodes i).state.N ⊂ trio.macs :=
    (Finset.ssubset_iff_of_subset (sound.within i)).mpr
      ⟨trio.mac i, trio.mem_macs.mpr ⟨i, rfl⟩, new⟩
  have less := Finset.card_lt_card strict
  rwa [trio.card_macs] at less

theorem Sound.carries_joinTo (sound : exchange.Sound trio) (i : Fin 3)
    (dst : EthAddr) :
    ((exchange.nodes i).joinTo dst).Carries (trio.mac i) := by
  rw [← sound.mac i]
  exact PaxosController.carries_joinTo (sound.joining i).fits dst

theorem Sound.joins (sound : exchange.Sound trio) (dst : EthAddr) :
    ∀ frame ∈ [(exchange.nodes i).joinTo dst],
      frame.type = PaxosMessage.JOIN ∧
        (frame.Carries ETHER_BROADCAST ∨ frame.Carries (trio.mac i)) := by
  intro frame member
  obtain rfl := List.mem_singleton.mp member
  exact ⟨rfl, .inr (sound.carries_joinTo i dst)⟩

theorem Sound.same_asked (sound : exchange.Sound trio) (j : Fin 3) :
    j ∈ exchange.asked ↔
      if j = i then trio.mac i ∈ (exchange.nodes i).state.N
      else j ∈ exchange.asked := by
  split
  · next same => rw [same, sound.own i]
  · rfl

theorem Sound.joinBlock (sound : exchange.Sound trio)
    (here : i ∈ exchange.started) :
    (exchange.step trio (.joinBlock i)).Sound trio := by
  have joining := sound.joining i
  have mac := sound.mac i
  have unicast : (exchange.nodes i).mac ≠ ETHER_BROADCAST :=
    mac ▸ trio.unicast i
  have others : ∀ (j) {N : Finset EthAddr}, trio.mac i ∈ N →
      (j ∈ insert i exchange.asked ↔
        if j = i then trio.mac i ∈ N else j ∈ exchange.asked) := by
    intro j N member
    by_cases same : j = i <;> simp [same, member]
  by_cases known : trio.mac i ∈ (exchange.nodes i).state.N
  · have leaves := joining.joinBlock_known unicast (mac ▸ known)
    refine Turn.sound leaves ?_ sound
    exact
      { here
        kept := fun _ member => member
        read := fun _ _ member => .inl member
        grows := subset_rfl
        admits := fun _ member => .inl member
        joins := fun _ member => absurd member List.not_mem_nil
        own := fun j => others j known
        introduces := fun _ => .inl ((sound.own i).mp known) }
  · have leaves := joining.joinBlock_new unicast (sound.few known)
      (mac ▸ known)
    rw [mac] at leaves
    refine Turn.sound leaves ?_ sound
    refine
      { here
        kept := fun _ member => member
        read := fun _ _ member => .inl member
        grows := Finset.subset_insert _ _
        admits := ?_
        joins := sound.joins _
        own := fun j => others j (Finset.mem_insert_self _ _)
        introduces := fun _ => .inr
          ⟨_, List.mem_singleton_self _, rfl, sound.carries_joinTo i _⟩ }
    intro other member
    rcases Finset.mem_insert.mp member with rfl | earlier
    · exact .inr ⟨i, rfl, here, fun different => absurd rfl different⟩
    · exact .inl earlier

theorem Sound.askAgain (sound : exchange.Sound trio)
    (here : i ∈ exchange.started) :
    (exchange.step trio (.askAgain i)).Sound trio := by
  have joining := sound.joining i
  refine Turn.sound joining.askAgain ?_ sound
  refine
    { here
      kept := fun _ member => member
      read := fun _ _ member => .inl member
      grows := subset_rfl
      admits := fun _ member => .inl member
      joins := ?_
      own := sound.same_asked
      introduces := fun known => .inl ((sound.own i).mp known) }
  intro frame member
  obtain rfl := List.mem_singleton.mp member
  exact ⟨rfl, .inl (PaxosController.carries_joinAgain joining.fits)⟩

/-- A message that is read is gone, and what it is about is known. -/
theorem read_erase {frame : Frame} {N : Finset EthAddr}
    (heard : ∀ node, frame.Carries (trio.mac node) → trio.mac node ∈ N)
    (j : Fin 3) (other : Frame) (flying : (j, other) ∈ exchange.inFlight) :
    (j, other) ∈ exchange.inFlight.erase (i, frame) ∨
      (j = i ∧ ∀ node, other.Carries (trio.mac node) →
        trio.mac node ∈ N) := by
  by_cases same : (j, other) = (i, frame)
  · cases same
    exact .inr ⟨rfl, heard⟩
  · exact .inl ((List.mem_erase_of_ne same).mpr flying)

theorem Sound.deliver (sound : exchange.Sound trio) (answer : ℕ → Bool)
    {frame : Frame} {port : Port}
    (enabled : exchange.Enabled (.deliver answer i frame port)) :
    (exchange.step trio (.deliver answer i frame port)).Sound trio := by
  obtain ⟨flying, physical⟩ := enabled
  have here := (sound.flight i frame flying).1
  have asked : trio.mac i ∈ (exchange.nodes i).state.N →
      i ∈ exchange.asked := (sound.own i).mp
  rcases sound.delivered flying answer physical with
    ⟨again, leaves⟩ | ⟨j, other, started, -, carries,
      ⟨known, leaves⟩ | ⟨new, leaves⟩⟩
  · refine Turn.sound leaves ?_ sound
    refine
      { here
        kept := fun _ => List.mem_of_mem_erase
        read := read_erase fun node carries => ?_
        grows := subset_rfl
        admits := fun _ member => .inl member
        joins := sound.joins _
        own := sound.same_asked
        introduces := fun known => .inl (asked known) }
    exact absurd (carries.unique (Frame.asksAgain_iff.mp again))
      (trio.unicast node)
  · refine Turn.sound leaves ?_ sound
    refine
      { here
        kept := fun _ => List.mem_of_mem_erase
        read := read_erase fun node carries' => ?_
        grows := subset_rfl
        admits := fun _ member => .inl member
        joins := fun _ member => absurd member List.not_mem_nil
        own := sound.same_asked
        introduces := fun known => .inl (asked known) }
    rw [carries'.unique carries]
    exact known
  · have apart : trio.mac i ≠ trio.mac j := fun same =>
      other (trio.mac_inj.mp same).symm
    refine Turn.sound leaves ?_ sound
    refine
      { here
        kept := fun _ => List.mem_of_mem_erase
        read := read_erase fun node carries' => ?_
        grows := Finset.subset_insert _ _
        admits := ?_
        joins := sound.joins _
        own := fun k => ?_
        introduces := fun known => .inl
          (asked ((Finset.mem_insert.mp known).resolve_left apart)) }
    · rw [carries'.unique carries]
      exact Finset.mem_insert_self _ _
    · intro mac member
      rcases Finset.mem_insert.mp member with rfl | earlier
      · exact .inr ⟨j, rfl, started, fun _ =>
          ⟨_, List.mem_singleton_self _, rfl, sound.carries_joinTo i _⟩⟩
      · exact .inl earlier
    · rw [Finset.mem_insert, or_iff_right apart]
      exact sound.same_asked k

theorem Sound.step (sound : exchange.Sound trio) {event : ExchangeEvent}
    (enabled : exchange.Enabled event) :
    (exchange.step trio event).Sound trio := by
  cases event with
  | start i =>
      have more : ∀ {j}, j ∈ exchange.started →
          j ∈ insert i exchange.started := Finset.mem_insert_of_mem
      refine ⟨sound.joining, sound.mac, sound.within, sound.own,
        fun j other member => more (sound.known j other member), ?_,
        sound.tied⟩
      intro j frame flying
      obtain ⟨started, type, about⟩ := sound.flight j frame flying
      refine ⟨more started, type, about.imp_right ?_⟩
      exact fun ⟨other, different, started, carries⟩ =>
        ⟨other, different, more started, carries⟩
  | joinBlock i => exact sound.joinBlock enabled
  | askAgain i => exact sound.askAgain enabled
  | announce i frame =>
      obtain ⟨started, type, again⟩ := enabled
      refine ⟨sound.joining, sound.mac, sound.within, sound.own, sound.known,
        ?_, ?_⟩
      · intro j other flying
        rcases List.mem_append.mp flying with earlier | new
        · exact sound.flight j other earlier
        · cases List.mem_singleton.mp new
          exact ⟨started, type, .inl (Frame.asksAgain_iff.mp again)⟩
      · refine sound.tied.step ⟨fun _ _ knows => knows, ?_,
          fun _ _ _ knows => .inl knows, fun _ asked => .inl asked⟩
        rintro j other ⟨frame, flying, carries⟩
        exact .inr ⟨frame, List.mem_append_left _ flying, carries⟩
  | deliver answer i frame port => exact sound.deliver answer enabled

/-- Every frame that a handler sends is paid for by a request that was read, or
by a node that was admitted. -/
theorem spent_run {handler : PaxosController.Handler Unit}
    {N : Finset EthAddr} {frames : List Frame}
    {rest : List (Fin 3 × Frame)} {asked : Finset (Fin 3)}
    (leaves : (exchange.nodes i).Leaves (handler (exchange.nodes i)).state
      (handler (exchange.nodes i)).effects N frames)
    (quiet : ∀ frame ∈ frames, frame.asksAgain = false)
    (pays : frames.length + rest.countP (fun item => item.2.asksAgain) +
        (PaxosController.totalNodes - N.card) ≤
      exchange.inFlight.countP (fun item => item.2.asksAgain) +
        (PaxosController.totalNodes - (exchange.nodes i).state.N.card)) :
    let next := run trio i handler
      { exchange with inFlight := rest, asked }
    next.sent.length + next.pending ≤
      exchange.sent.length + exchange.pending := by
  intro next
  have sent : next.sent.length = exchange.sent.length + frames.length := by
    simp only [next, run, leaves.frames, List.length_append]
  have flying : next.inFlight.countP (fun item => item.2.asksAgain) =
      rest.countP fun item => item.2.asksAgain := by
    simp only [next, run, leaves.frames, List.countP_append]
    refine (Nat.add_eq_left).mpr (List.countP_eq_zero.mpr ?_)
    rintro ⟨j, frame⟩ member
    obtain ⟨other, new, posted⟩ := List.mem_flatMap.mp member
    obtain ⟨receiver, -, same⟩ := List.mem_map.mp posted
    cases same
    rw [quiet frame new]
    exact Bool.false_ne_true
  -- The other nodes lack as many nodes as they did.
  have split : ∀ lacks : Fin 3 → ℕ,
      ∑ j, lacks j = lacks i + ∑ j ∈ Finset.univ.erase i, lacks j :=
    fun lacks => (Finset.add_sum_erase _ lacks (Finset.mem_univ i)).symm
  have others : ∑ j ∈ Finset.univ.erase i,
      (PaxosController.totalNodes - (next.nodes j).state.N.card) =
      ∑ j ∈ Finset.univ.erase i,
        (PaxosController.totalNodes - (exchange.nodes j).state.N.card) := by
    refine Finset.sum_congr rfl fun j member => ?_
    rw [nodes_run leaves, if_neg (Finset.ne_of_mem_erase member)]
  have ours : (next.nodes i).state.N = N :=
    (nodes_run leaves i).trans (if_pos rfl)
  rw [pending, pending, sent, flying, split, others, ours,
    split fun j => PaxosController.totalNodes - (exchange.nodes j).state.N.card]
  omega

/-- A controller that is told of a node it lacks pays with it. -/
theorem Sound.pays (sound : exchange.Sound trio) {mac : EthAddr}
    (member : mac ∈ trio.macs) (new : mac ∉ (exchange.nodes i).state.N) :
    1 + (PaxosController.totalNodes -
        (insert mac (exchange.nodes i).state.N).card) =
      PaxosController.totalNodes - (exchange.nodes i).state.N.card := by
  have within : insert mac (exchange.nodes i).state.N ⊆ trio.macs :=
    Finset.insert_subset member (sound.within i)
  have count := Finset.card_le_card within
  rw [trio.card_macs] at count
  rw [Finset.card_insert_of_notMem new] at count ⊢
  rw [PaxosController.totalNodes]
  omega

theorem Sound.spent_step (sound : exchange.Sound trio)
    {event : ExchangeEvent} (enabled : exchange.Enabled event)
    (settles : event.Settles) :
    (exchange.step trio event).sent.length +
        (exchange.step trio event).pending ≤
      exchange.sent.length + exchange.pending := by
  have quiet : ∀ i dst, ∀ frame ∈ [(exchange.nodes i).joinTo dst],
      frame.asksAgain = false := by
    intro i dst frame member
    obtain rfl := List.mem_singleton.mp member
    rw [← Bool.not_eq_true, Frame.asksAgain_iff]
    intro again
    have ours := PaxosController.carries_joinTo (sound.joining i).fits dst
    rw [sound.mac i] at ours
    exact trio.unicast i (ours.unique again)
  cases event with
  | joinBlock i =>
      have joining := sound.joining i
      have mac := sound.mac i
      have unicast : (exchange.nodes i).mac ≠ ETHER_BROADCAST :=
        mac ▸ trio.unicast i
      by_cases known : trio.mac i ∈ (exchange.nodes i).state.N
      · exact spent_run (joining.joinBlock_known unicast (mac ▸ known))
          (fun _ member => absurd member List.not_mem_nil) (by simp)
      · have leaves := joining.joinBlock_new unicast (sound.few known)
          (mac ▸ known)
        rw [mac] at leaves
        refine spent_run leaves (quiet i _) ?_
        have pays := sound.pays (trio.mem_macs.mpr ⟨i, rfl⟩) known
        rw [List.length_singleton]
        omega
  | deliver answer i frame port =>
      obtain ⟨flying, physical⟩ := enabled
      have counts := (List.perm_cons_erase flying).countP_eq
        (fun item => item.2.asksAgain)
      rw [List.countP_cons] at counts
      rcases sound.delivered flying answer physical with
        ⟨again, leaves⟩ | ⟨j, other, started, -, carries,
          ⟨known, leaves⟩ | ⟨new, leaves⟩⟩
      · refine spent_run leaves (quiet i _) ?_
        rw [if_pos again] at counts
        rw [List.length_singleton]
        omega
      · refine spent_run leaves
          (fun _ member => absurd member List.not_mem_nil) ?_
        rw [List.length_nil]
        omega
      · refine spent_run leaves (quiet i _) ?_
        have pays := sound.pays (trio.mem_macs.mpr ⟨j, rfl⟩) new
        rw [List.length_singleton]
        omega
  | start i => exact absurd settles id
  | askAgain i => exact absurd settles id
  | announce i frame => exact absurd settles id

theorem sound_after {events : List ExchangeEvent}
    (run : (system trio).Run (start trio) events) :
    ((system trio).after (start trio) events).Sound trio :=
  run.invariant (fun _ _ sound enabled => sound.step enabled)
    (start_sound trio)

/-- What the exchange comes to: who joined knows exactly the three nodes, only
so many messages are sent before somebody is started or asks again, and when
none is left all know each other and where the others are. -/
structure Concludes (trio : Trio) (exchange : Exchange) : Prop where
  joined : ∀ i, (exchange.nodes i).joined = true →
    (exchange.nodes i).state.N = trio.macs
  settles : ∀ later, (system trio).Run exchange later →
    (∀ event ∈ later, event.Settles) →
      ((system trio).after exchange later).sent.length ≤
        exchange.sent.length + exchange.pending
  complete : exchange.inFlight = [] → exchange.started = Finset.univ →
    exchange.asked = Finset.univ → ∀ i,
      (exchange.nodes i).state.N = trio.macs ∧
        ∀ j, j ≠ i → ∃ port,
          (exchange.nodes i).switch.macports.lookup (trio.mac j) =
              some port ∧
            (exchange.nodes i).lookupPort (trio.mac j) = port ∧
            port ≠ OFPP_ALL

theorem Sound.joined (sound : exchange.Sound trio)
    (joined : (exchange.nodes i).joined = true) :
    (exchange.nodes i).state.N = trio.macs := by
  refine Finset.eq_of_subset_of_card_le (sound.within i) ?_
  rw [trio.card_macs]
  exact (sound.joining i).joined joined

theorem Sound.settles (sound : exchange.Sound trio)
    {later : List ExchangeEvent} (run : (system trio).Run exchange later)
    (settles : ∀ event ∈ later, event.Settles) :
    ((system trio).after exchange later).sent.length ≤
      exchange.sent.length + exchange.pending := by
  have spent : ((system trio).after exchange later).sent.length +
      ((system trio).after exchange later).pending ≤
        exchange.sent.length + exchange.pending := by
    induction later generalizing exchange with
    | nil => exact le_rfl
    | cons event later induction =>
        have once := sound.spent_step run.1 (settles event (by simp))
        exact (induction (sound.step run.1) run.2
          fun other member => settles other (by simp [member])).trans once
  omega

theorem Sound.complete (sound : exchange.Sound trio)
    (quiet : exchange.inFlight = []) (asked : exchange.asked = Finset.univ)
    (i : Fin 3) :
    (exchange.nodes i).state.N = trio.macs ∧
      ∀ j, j ≠ i → ∃ port,
        (exchange.nodes i).switch.macports.lookup (trio.mac j) = some port ∧
          (exchange.nodes i).lookupPort (trio.mac j) = port ∧
          port ≠ OFPP_ALL := by
  have all : ∀ j, j ∈ exchange.asked := by
    intro j
    rw [asked]
    exact Finset.mem_univ j
  have nothing : ∀ i j, ¬ (exchange.view trio).coming i j := by
    rintro i j ⟨frame, flying, -⟩
    rw [quiet] at flying
    exact absurd flying List.not_mem_nil
  have knows : ∀ j, trio.mac j ∈ (exchange.nodes i).state.N := by
    intro j
    by_cases same : j = i
    · rw [same]
      exact (sound.own i).mpr (all i)
    · exact sound.tied.knows nothing (all i) (all j) (Ne.symm same)
  constructor
  · refine subset_antisymm (sound.within i) fun mac member => ?_
    obtain ⟨j, rfl⟩ := trio.mem_macs.mp member
    exact knows j
  · intro j other
    have different : trio.mac j ≠ (exchange.nodes i).mac := by
      rw [sound.mac i]
      exact fun same => other (trio.mac_inj.mp same)
    obtain ⟨port, lookup⟩ :=
      (sound.joining i).ports (trio.mac j) (knows j) different
    refine ⟨port, lookup, ?_, (sound.joining i).physical _ port lookup⟩
    rw [PaxosController.lookupPort, lookup, Option.getD_some]

theorem exchange_concludes (trio : Trio) (events : List ExchangeEvent)
    (run : (system trio).Run (start trio) events) :
    ((system trio).after (start trio) events).Concludes trio := by
  have sound := sound_after run
  exact ⟨fun i joined => sound.joined joined,
    fun later continues settles => sound.settles continues settles,
    fun quiet _ asked i => sound.complete quiet asked i⟩

instance (exchange : Exchange) :
    (event : ExchangeEvent) → Decidable (exchange.Enabled event)
  | .start i => inferInstanceAs (Decidable (i ∉ exchange.started))
  | .joinBlock i => inferInstanceAs (Decidable (i ∈ exchange.started))
  | .askAgain i => inferInstanceAs (Decidable (i ∈ exchange.started))
  | .announce i frame => inferInstanceAs (Decidable (i ∈ exchange.started ∧
      frame.type = PaxosMessage.JOIN ∧ frame.asksAgain = true))
  | .deliver _ i frame port => inferInstanceAs (Decidable
      ((i, frame) ∈ exchange.inFlight ∧ port ≠ OFPP_ALL))

instance (trio : Trio) (exchange : Exchange) (events : List ExchangeEvent) :
    Decidable ((system trio).Run exchange events) :=
  inferInstanceAs (Decidable (System.Each (system trio) Enabled exchange
    events))

/-- Three switches with one port, whose addresses are 1, 2 and 3. -/
def small : Trio where
  connection i :=
    { ports := {65534}
      desc := fun _ => ⟨Fin.ofNat (2 ^ 48) (i + 1), "S"⟩
      nonempty := localPort_nonempty }
  addFlows := false
  distinct := by decide
  unicast := by decide

/-- S1 asks before the others are started, and S2 before S3 is; S3 asks S1 to
announce itself once more. -/
def oneByOne : List ExchangeEvent :=
  let about := fun (sender : ℕ) (dst : EthAddr) =>
    Frame.join (Fin.ofNat _ sender) dst sender (Fin.ofNat _ sender)
  let hears := fun i frame =>
    ExchangeEvent.deliver (fun _ => false) i frame 4
  [.start 0, .joinBlock 0, .start 1, .joinBlock 1, .start 2, .joinBlock 2,
    .announce 0 (Frame.join 3 ETHER_BROADCAST 3 ETHER_BROADCAST),
    hears 0 (about 3 ETHER_BROADCAST), hears 0 (about 2 ETHER_BROADCAST),
    hears 0 (Frame.join 3 ETHER_BROADCAST 3 ETHER_BROADCAST),
    hears 1 (about 1 ETHER_BROADCAST), hears 1 (about 3 ETHER_BROADCAST),
    hears 2 (about 1 3), hears 2 (about 2 3), hears 1 (about 1 2),
    hears 2 (about 1 ETHER_BROADCAST), hears 0 (about 2 1),
    hears 0 (about 3 1), hears 1 (about 3 2), .joinBlock 0, .joinBlock 1,
    .joinBlock 2]

theorem exchange_concludes_oneByOne :
    let reached := (system small).after (start small) oneByOne
    reached.inFlight = [] ∧ ∀ i, (reached.nodes i).joined = true ∧
      (reached.nodes i).state.N = small.macs := by
  intro reached
  have quiet : reached.inFlight = [] := by decide +kernel
  have joined : ∀ i, (reached.nodes i).joined = true := by decide +kernel
  have concludes : reached.Concludes small :=
    exchange_concludes small oneByOne (by decide +kernel)
  exact ⟨quiet, fun i => ⟨joined i, (concludes.complete quiet
    (by decide +kernel) (by decide +kernel) i).1⟩⟩

end Exchange

end SwitchPaxos

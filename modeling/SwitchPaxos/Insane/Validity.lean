import SwitchPaxos.Insane.Learning

/-!
# Where values come from

A node votes for what a leader proposes, and a leader proposes the value it was
given with a TRUST-VALUE, or one that a promise tells it was voted for before.
So the nodes agree on nothing that nobody asked for, and what a node learns was
voted for by another one.
-/

namespace SwitchPaxos.Insane

variable {V : Type}

/-- A message asks for a value.  TRUST asks for none, which is what a node
proposes that was never given any. -/
def Message.Asks : Message V → Option V → Prop
  | .trust _, v => v = none
  | .trustValue _ value, v => v = value
  | _, _ => False

/-- A message passes on a value that was proposed or voted for. -/
def Message.Carries : Message V → Option V → Prop
  | .promise _ (some _) vval, v => v = vval
  | .accept _ cval, v => v = cval
  | .learn _ vval, v => v = vval
  | _, _ => False

/-- A value that one of the messages asked for. -/
def Asked (actions : List (Action V)) (v : Option V) : Prop :=
  ∃ action ∈ actions, action.message.Asks v

def Effect.Genuine (given : Option V → Prop) : Effect V → Prop
  | .sent packet => ∀ v, packet.message.Carries v → given v
  | .accepted _ v => given v

/-- All values a node knows of were given, but for the one it starts with. -/
structure Node.Genuine (given : Option V → Prop) (node : Node V) : Prop where
  wished : node.v ≠ none → given node.v
  leads : node.crnd ≠ none → given node.v
  voted : ∀ n, node.vrnd = some n → given node.vval
  promises : ∀ entry ∈ node.mv, ∀ n, entry.vrnd = some n → given entry.vval
  learned : ∀ n v, node.values.lookup n = some v → given v

namespace Node

variable {given : Option V → Prop} {node : Node V}

theorem genuine_new (id : ℕ) (nodes : Dict ℕ Address)
    (omega : Option Address) (address : Address) :
    (new id nodes omega address : Node V).Genuine given where
  wished := fun some => absurd rfl some
  leads := fun some => absurd rfl some
  voted := fun _ none => nomatch none
  promises := fun entry member => absurd member (Finset.notMem_empty entry)
  learned := fun _ _ known => nomatch known

theorem Genuine.mono {wider : Option V → Prop} (genuine : node.Genuine given)
    (wide : ∀ v, given v → wider v) : node.Genuine wider where
  wished := fun some => wide _ (genuine.wished some)
  leads := fun some => wide _ (genuine.leads some)
  voted := fun n round => wide _ (genuine.voted n round)
  promises := fun entry member n round =>
    wide _ (genuine.promises entry member n round)
  learned := fun n v known => wide _ (genuine.learned n v known)

theorem genuine_broadcast {message : Message V}
    (carries : ∀ v, message.Carries v → given v) :
    ∀ effect ∈ node.broadcast message, effect.Genuine given := by
  intro effect member
  obtain ⟨dst, -, rfl⟩ := List.mem_map.mp member
  exact carries

private theorem genuine_prepare (genuine : node.Genuine given)
    (sender : Address) (n : ℕ) :
    (onPrepare sender n node).state.Genuine given ∧
      ∀ effect ∈ (onPrepare sender n node).effects, effect.Genuine given := by
  rw [onPrepare_apply]
  split
  · refine ⟨⟨genuine.1, genuine.2, genuine.3, genuine.4, genuine.5⟩, ?_⟩
    intro effect member
    rw [List.mem_singleton.mp member]
    intro v carries
    cases round : node.vrnd with
    | none =>
        rw [round] at carries
        exact carries.elim
    | some last =>
        rw [round] at carries
        cases carries
        exact genuine.voted last round
  · exact ⟨genuine, by simp⟩

private theorem genuine_accept (genuine : node.Genuine given) (n : ℕ)
    {v : Option V} (proposed : given v) :
    (onAccept n v node).state.Genuine given ∧
      ∀ effect ∈ (onAccept n v node).effects, effect.Genuine given := by
  rw [onAccept_apply]
  split
  · refine ⟨⟨genuine.1, genuine.2, fun _ _ => proposed, genuine.4,
      genuine.5⟩, ?_⟩
    intro effect member
    rcases List.mem_cons.mp member with rfl | report
    · exact proposed
    · apply genuine_broadcast _ effect report
      rintro _ rfl
      exact proposed
  · exact ⟨genuine, by simp⟩

private theorem genuine_learn (genuine : node.Genuine given) (n : ℕ)
    {v : Option V} (voted : given v) :
    (onLearn n v node).state.Genuine given := by
  rw [onLearn_apply]
  split
  · refine ⟨genuine.1, genuine.2, genuine.3, genuine.4, ?_⟩
    intro m w known
    simp only [Dict.lookup_insert_eq] at known
    split at known
    · cases known
      exact voted
    · exact genuine.learned m w known
  · exact genuine

private theorem genuine_trusted (genuine : node.Genuine given)
    {v : Option V} (wished : given v) :
    Genuine given
        { node with crnd := some node.nextCrnd, mv := ∅, v } ∧
      ∀ effect ∈ node.broadcast (.prepare node.nextCrnd),
        effect.Genuine given := by
  refine ⟨⟨fun _ => wished, fun _ => wished, genuine.3, ?_, genuine.5⟩, ?_⟩
  · intro entry member
    exact absurd member (Finset.notMem_empty entry)
  · exact genuine_broadcast fun _ carries => carries.elim

variable [LinearOrder V]

/-- A node with promises proposes a value it was given. -/
theorem Genuine.cval (genuine : node.Genuine given)
    (leads : node.crnd ≠ none) (nonempty : node.mv.Nonempty) :
    given node.cval := by
  rcases cval_cases nonempty with none | ⟨largest, member, n, round, cval, -⟩
  · have quiet : node.noPromisesWithValue := none
    rw [Node.cval, if_pos quiet]
    exact genuine.leads leads
  · rw [cval]
    exact genuine.promises largest member n round

private theorem genuine_promise (genuine : node.Genuine given)
    (sender : Address) (n : ℕ) (vrnd : Option ℕ) {vval : Option V}
    (told : ∀ last, vrnd = some last → given vval) :
    (onPromise sender n vrnd vval node).state.Genuine given ∧
      ∀ effect ∈ (onPromise sender n vrnd vval node).effects,
        effect.Genuine given := by
  rw [onPromise_apply]
  split
  · next present =>
      have later : (node.withPromise sender vrnd vval).Genuine given := by
        refine ⟨genuine.1, genuine.2, genuine.3, ?_, genuine.5⟩
        intro entry member last round
        rcases Finset.mem_insert.mp member with rfl | earlier
        · exact told last round
        · exact genuine.promises entry earlier last round
      refine ⟨later, ?_⟩
      have leads : (node.withPromise sender vrnd vval).crnd ≠ none := by
        intro none
        exact nomatch present.symm.trans none
      split
      · apply genuine_broadcast
        rintro _ rfl
        exact later.cval leads ⟨_, Finset.mem_insert_self _ _⟩
      · simp
  · exact ⟨genuine, by simp⟩

/-- A node that is told and asked for given values only passes on such. -/
theorem Genuine.receive (genuine : node.Genuine given) (sender : Address)
    {message : Message V} (told : ∀ v, message.Carries v → given v)
    (asked : ∀ v, message.Asks v → given v) :
    (receive sender message node).state.Genuine given ∧
      ∀ effect ∈ (Node.receive sender message node).effects,
        effect.Genuine given := by
  cases message with
  | prepare n => exact genuine_prepare genuine sender n
  | promise n vrnd vval =>
      apply genuine_promise genuine
      rintro last rfl
      exact told vval rfl
  | accept n v => exact genuine_accept genuine n (told v rfl)
  | learn n v =>
      refine ⟨genuine_learn genuine n (told v rfl), ?_⟩
      simp [Node.receive, onLearn_apply]
  | trust c =>
      by_cases named : c = node.id
      · subst named
        rw [Node.receive, onTrust_apply]
        apply genuine_trusted genuine
        by_cases wished : node.v = none
        · rw [wished]
          exact asked none rfl
        · exact genuine.wished wished
      · rw [Node.receive, onTrust_other node named]
        exact ⟨genuine, by simp⟩
  | trustValue c v =>
      have wished := asked v rfl
      by_cases named : c = node.id
      · subst named
        rw [Node.receive, onTrustValue_apply]
        exact genuine_trusted genuine wished
      · rw [Node.receive, onTrustValue_other node named]
        exact ⟨⟨fun _ => wished, fun _ => wished, genuine.3, genuine.4,
          genuine.5⟩, by simp⟩

end Node

namespace Network

variable {table : Dict ℕ Address} {network : Network V}
  {given : Option V → Prop}

/-- All values the members know of or passed on were given. -/
structure Genuine (given : Option V → Prop) (table : Dict ℕ Address)
    (network : Network V) : Prop where
  nodes : ∀ id ∈ table.keys, (network.nodes id).Genuine given
  log : ∀ entry ∈ network.log, entry.2.Genuine given

/-- A LEARN tells of a vote, and so does what a member learned. -/
structure Witnessed (table : Dict ℕ Address) (network : Network V) :
    Prop where
  sent : ∀ packet ∈ network.packets, ∀ n v, packet.message = .learn n v →
    ∃ voter ∈ table.keys, network.Voted voter n v
  learned : ∀ id ∈ table.keys, ∀ n v,
    (network.nodes id).values.lookup n = some v →
      ∃ voter ∈ table.keys, network.Voted voter n v

theorem Begins.genuine (begins : network.Begins table) :
    network.Genuine given table := by
  refine ⟨?_, ?_⟩
  · intro id member
    obtain ⟨omega, address, fresh⟩ := begins.fresh id member
    rw [fresh]
    exact Node.genuine_new ..
  · intro entry member
    rw [begins.log] at member
    cases member

theorem Begins.witnessed (begins : network.Begins table) :
    network.Witnessed table := by
  refine ⟨fun packet sent => absurd sent (begins.silent packet), ?_⟩
  intro id member n v known
  obtain ⟨omega, address, fresh⟩ := begins.fresh id member
  rw [fresh] at known
  cases known

theorem Genuine.mono {wider : Option V → Prop}
    (genuine : network.Genuine given table)
    (wide : ∀ v, given v → wider v) : network.Genuine wider table := by
  refine ⟨fun id member => (genuine.nodes id member).mono wide, ?_⟩
  rintro ⟨id, effect⟩ member
  have known := genuine.log _ member
  cases effect with
  | sent packet => exact fun v carries => wide v (known v carries)
  | accepted n v => exact wide v known

theorem Genuine.packet (genuine : network.Genuine given table)
    {packet : Packet V} (sent : packet ∈ network.packets) :
    ∀ v, packet.message.Carries v → given v := by
  obtain ⟨⟨id, effect⟩, member, same⟩ := List.mem_filterMap.mp sent
  have known := genuine.log _ member
  cases effect with
  | sent other =>
      cases same
      exact known
  | accepted n v => cases same

variable {action : Action V}

private theorem Genuine.carried (genuine : network.Genuine given table)
    (reaches : Reaches table network action) :
    ∀ v, action.message.Carries v → given v := by
  rcases reaches.2 with named | sent
  · cases message : action.message with
    | trust c => exact fun _ carries => carries.elim
    | trustValue c v => exact fun _ carries => carries.elim
    | _ => simp [message, Message.trusted?] at named
  · exact genuine.packet sent

variable [LinearOrder V]

theorem Genuine.step (genuine : network.Genuine given table)
    (reaches : Reaches table network action)
    (asked : ∀ v, action.message.Asks v → given v) :
    (network.step action).Genuine given table := by
  have received := (genuine.nodes action.id reaches.1).receive action.sender
    (genuine.carried reaches) asked
  refine ⟨?_, ?_⟩
  · intro id member
    rw [Network.step, nodes_put]
    split
    · exact received.1
    · exact genuine.nodes id member
  · intro entry member
    rcases List.mem_append.mp member with earlier | new
    · exact genuine.log entry earlier
    · obtain ⟨effect, emitted, rfl⟩ := List.mem_map.mp new
      exact received.2 effect emitted

/-- A node sends LEARN only along with its vote. -/
theorem Node.voted_of_learn {node later : Node V} {sender : Address}
    {message : Message V} {effects : List (Effect V)}
    (reacts : node.Reacts sender message later effects) {src dst : Address}
    {n : ℕ} {v : Option V} (sent : .sent ⟨src, dst, .learn n v⟩ ∈ effects) :
    .accepted n v ∈ effects := by
  cases reacts with
  | voted m w current =>
      simp only [Node.broadcast, List.mem_cons, List.mem_map,
        reduceCtorEq, false_or, Effect.sent.injEq, Packet.mk.injEq,
        Message.learn.injEq] at sent
      obtain ⟨dst, -, -, -, rfl, rfl⟩ := sent
      exact List.mem_cons_self
  | collected m vrnd vval present =>
      split at sent
      · simp [Node.broadcast] at sent
      · cases sent
  | _ => simp [Node.broadcast] at sent

theorem Witnessed.step (witnessed : network.Witnessed table)
    (reaches : Reaches table network action) :
    (network.step action).Witnessed table := by
  have later : ∀ n v, (∃ voter ∈ table.keys, network.Voted voter n v) →
      ∃ voter ∈ table.keys, (network.step action).Voted voter n v := by
    rintro n v ⟨voter, member, voted⟩
    exact ⟨voter, member, (voted_put ..).mpr (.inl voted)⟩
  refine ⟨?_, ?_⟩
  · rintro ⟨src, dst, message⟩ sent n v rfl
    rcases (mem_packets_put ..).mp sent with earlier | new
    · exact later n v (witnessed.sent _ earlier n v rfl)
    · have reacts := Node.receive_reacts (network.nodes action.id)
        action.sender action.message
      refine ⟨action.id, reaches.1, (voted_put ..).mpr (.inr ⟨rfl, ?_⟩)⟩
      exact Node.voted_of_learn reacts new
  · intro id member n v known
    apply later
    rw [Network.step, nodes_put] at known
    split at known
    · next here =>
        subst here
        rcases Node.values_receive action.sender action.message
          (network.nodes action.id) with
          ⟨round, value, message, -, values⟩ | values
        · rw [values, Dict.lookup_insert_eq] at known
          split at known
          · next same =>
              cases known
              subst same
              rcases reaches.2 with named | sent
              · simp [message, Message.trusted?] at named
              · exact witnessed.sent _ sent _ _ message
          · exact witnessed.learned _ member n v known
        · rw [values] at known
          exact witnessed.learned _ member n v known
    · exact witnessed.learned id member n v known

theorem witnessed_of_run (begins : network.Begins table)
    {actions : List (Action V)} (run : (peers table).Run network actions) :
    ((peers table).after network actions).Witnessed table :=
  run.invariant (fun _ _ witnessed reaches => witnessed.step reaches)
    begins.witnessed

theorem genuine_of_run (begins : network.Begins table)
    {actions : List (Action V)} (run : (peers table).Run network actions) :
    ((peers table).after network actions).Genuine (Asked actions) table := by
  have kept : ∀ (state : Network V) earlier action,
      Genuine (Asked earlier) table state → Reaches table state action →
      Genuine (Asked (earlier ++ [action])) table (state.step action) := by
    intro state earlier action genuine reaches
    refine Genuine.step (genuine.mono ?_) reaches ?_
    · rintro v ⟨other, member, asks⟩
      exact ⟨other, List.mem_append_left _ member, asks⟩
    · intro v asks
      exact ⟨action, by simp, asks⟩
  exact run.history kept begins.genuine

/-- However many members there are, whoever is trusted, and in whatever order
messages arrive: a value that a member votes for was asked for, and one that a
member learns was voted for. -/
theorem values_asked (begins : network.Begins table)
    {actions : List (Action V)} (run : (peers table).Run network actions) :
    let reached := (peers table).after network actions
    (∀ id n v, reached.Voted id n v → Asked actions v) ∧
      ∀ id ∈ table.keys, ∀ n v,
        (reached.nodes id).values.lookup n = some v →
          (∃ voter ∈ table.keys, reached.Voted voter n v) ∧
            Asked actions v := by
  intro reached
  have witnessed : reached.Witnessed table := witnessed_of_run begins run
  have genuine : reached.Genuine (Asked actions) table :=
    genuine_of_run begins run
  refine ⟨fun id n v voted => genuine.log _ voted, ?_⟩
  intro id member n v known
  exact ⟨witnessed.learned id member n v known,
    (genuine.nodes id member).learned n v known⟩

/-- The third node learns the value that the first one was given. -/
theorem values_asked_first :
    let actions : List (Action ℕ) :=
      [⟨1, ("127.0.0.1", 9), .trustValue 1 (some 5)⟩,
        ⟨1, ("127.0.0.1", 2001), .prepare 1⟩,
        ⟨2, ("127.0.0.1", 2001), .prepare 1⟩,
        ⟨1, ("127.0.0.1", 2001), .promise 1 none none⟩,
        ⟨1, ("127.0.0.1", 2002), .promise 1 none none⟩,
        ⟨2, ("127.0.0.1", 2001), .accept 1 (some 5)⟩,
        ⟨3, ("127.0.0.1", 2002), .learn 1 (some 5)⟩]
    (∃ voter ∈ config.keys,
      ((peers config).after three actions).Voted voter 1 (some 5)) ∧
      Asked actions (some 5) := by
  intro actions
  have run : (peers config).Run three actions := by decide
  exact (values_asked three_starts.begins run).2 3 (by decide) 1 (some 5)
    (by decide)

end Network

end SwitchPaxos.Insane

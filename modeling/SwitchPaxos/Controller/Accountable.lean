import SwitchPaxos.Controller.Cluster

/-!
# Accountability

Every vote in a cluster is for a packet the leader numbered, and a number is
given to one packet only.  A node counts a LEARN for a vote that its sender
cast, so a slot that is learned was voted for by a majority, all of it for one
value.
-/

namespace SwitchPaxos.Cluster

/-- A frame of the protocol: an ACCEPT carries a numbered client packet, a
LEARN tells of a vote of its sender. -/
def Carries (N : Finset EthAddr) (cluster : Cluster) (frame : Frame) : Prop :=
  (∃ n seqno v, frame = Frame.accept frame.src frame.dst n seqno v ∧
    (n ≤ UINT32_MAX ∧ seqno ≤ UINT32_MAX) ∧
    (seqno, v) ∈ numbers cluster.log) ∨
  (∃ n seqno v, frame = Frame.learn frame.src frame.dst n seqno ∧
    (n ≤ UINT32_MAX ∧ seqno ≤ UINT32_MAX) ∧
    frame.src ∈ N ∧ cluster.Voted frame.src n seqno v)

/-- A node voted in a round and a sequence number. -/
def Heard (N : Finset EthAddr) (cluster : Cluster) (src : EthAddr)
    (n seqno : ℕ) : Prop :=
  src ∈ N ∧ ∃ v, cluster.Voted src n seqno v

/-- Numbers are given once and in order, every vote is for a numbered packet
and so is every value that is handed over, every frame carries what it claims,
and every store is backed by votes. -/
structure Accountable (N : Finset EthAddr) (leader : EthAddr)
    (cluster : Cluster) : Prop where
  formed : Formed N leader cluster
  increasing : (numbers cluster.log).Pairwise fun earlier later =>
    earlier.1 < later.1
  given : ∀ seqno v, (seqno, v) ∈ numbers cluster.log →
    ∃ last, (cluster.nodes leader).leader = some { seqno := some last } ∧
      seqno ≤ last
  voted : ∀ mac n seqno v, cluster.Voted mac n seqno v →
    (seqno, v) ∈ numbers cluster.log
  handed : ∀ mac call v, (mac, Effect.handed call) ∈ cluster.log →
    call.vval = some v → (call.seqno, v) ∈ numbers cluster.log
  frames : ∀ frame ∈ cluster.frames, cluster.Carries N frame
  stores : ∀ mac ∈ N,
    (cluster.nodes mac).state.slots.Backed (cluster.Heard N)
      (cluster.Voted mac)
  nodeCount : ∀ mac ∈ N, (cluster.nodes mac).state.slots.nodeCount = N.card

section Mono

variable {N : Finset EthAddr} {leader mac : EthAddr} {cluster : Cluster}
  {node : PaxosController} {effects : List Effect}

theorem Voted.put {other : EthAddr} {n seqno : ℕ} {v : Bytes}
    (voted : cluster.Voted other n seqno v) :
    (cluster.put mac node effects).Voted other n seqno v :=
  (voted_put ..).mpr (.inl voted)

theorem Heard.put {src : EthAddr} {n seqno : ℕ}
    (heard : cluster.Heard N src n seqno) :
    (cluster.put mac node effects).Heard N src n seqno :=
  ⟨heard.1, heard.2.imp fun _ => Voted.put⟩

theorem mem_numbers_put {entry : ℕ × Bytes}
    (member : entry ∈ numbers cluster.log) :
    entry ∈ numbers (cluster.put mac node effects).log := by
  rw [numbers_put]
  exact List.mem_append_left _ member

theorem Carries.put {frame : Frame} (carries : cluster.Carries N frame) :
    (cluster.put mac node effects).Carries N frame := by
  rcases carries with ⟨n, seqno, v, same, fits, numbered⟩ |
    ⟨n, seqno, v, same, fits, member, voted⟩
  · exact .inl ⟨n, seqno, v, same, fits, mem_numbers_put numbered⟩
  · exact .inr ⟨n, seqno, v, same, fits, member, voted.put⟩

theorem Formed.put (formed : cluster.Formed N leader)
    (own : node.mac = (cluster.nodes mac).mac)
    (nodes : node.state.N = (cluster.nodes mac).state.N)
    (joined : node.joined = (cluster.nodes mac).joined)
    (isleader : node.isleader = (cluster.nodes mac).isleader) :
    (cluster.put mac node effects).Formed N leader := by
  have same : ∀ other,
      ((cluster.put mac node effects).nodes other).mac =
        (cluster.nodes other).mac ∧
      ((cluster.put mac node effects).nodes other).state.N =
        (cluster.nodes other).state.N ∧
      ((cluster.put mac node effects).nodes other).joined =
        (cluster.nodes other).joined ∧
      ((cluster.put mac node effects).nodes other).isleader =
        (cluster.nodes other).isleader := by
    intro other
    rw [nodes_put]
    split
    · next here =>
        subst here
        exact ⟨own, nodes, joined, isleader⟩
    · exact ⟨rfl, rfl, rfl, rfl⟩
  constructor
  · intro other member
    rw [(same other).1]
    exact formed.mac other member
  · intro other member
    rw [(same other).2.1]
    exact formed.nodes other member
  · intro other member
    rw [(same other).2.2.1]
    exact formed.joined other member
  · intro other member
    rw [(same other).2.2.2]
    exact formed.isleader other member

end Mono

namespace Accountable

variable {N : Finset EthAddr} {leader mac : EthAddr} {cluster : Cluster}

theorem stores_put (accountable : cluster.Accountable N leader)
    {node : PaxosController} {effects : List Effect}
    (backed : node.state.slots.Backed
      ((cluster.put mac node effects).Heard N)
      ((cluster.put mac node effects).Voted mac)) :
    ∀ other ∈ N, ((cluster.put mac node effects).nodes
      other).state.slots.Backed ((cluster.put mac node effects).Heard N)
        ((cluster.put mac node effects).Voted other) := by
  intro other member
  rw [nodes_put]
  split
  · next here =>
      subst here
      exact backed
  · exact (accountable.stores other member).mono (fun _ _ _ => Heard.put)
      fun _ _ _ => Voted.put

theorem nodeCount_put (accountable : cluster.Accountable N leader)
    (member : mac ∈ N) {node : PaxosController} {effects : List Effect}
    (same : node.state.slots.nodeCount =
      (cluster.nodes mac).state.slots.nodeCount) :
    ∀ other ∈ N, ((cluster.put mac node effects).nodes
      other).state.slots.nodeCount = N.card := by
  intro other otherMember
  rw [nodes_put]
  split
  · rw [same]
    exact accountable.nodeCount mac member
  · exact accountable.nodeCount other otherMember

theorem given_put (accountable : cluster.Accountable N leader)
    {node : PaxosController} {effects : List Effect}
    (same : node.leader = (cluster.nodes mac).leader) {seqno : ℕ} {v : Bytes}
    (member : (seqno, v) ∈ numbers cluster.log) :
    ∃ last, ((cluster.put mac node effects).nodes leader).leader =
      some { seqno := some last } ∧ seqno ≤ last := by
  rw [nodes_put]
  obtain ⟨last, present, bound⟩ := accountable.given seqno v member
  split
  · next here =>
      subst here
      exact ⟨last, same.trans present, bound⟩
  · exact ⟨last, present, bound⟩

theorem handed_put (accountable : cluster.Accountable N leader)
    {node : PaxosController} {effects : List Effect}
    (silent : ∀ call, Effect.handed call ∉ effects) :
    ∀ other call v,
      (other, Effect.handed call) ∈ (cluster.put mac node effects).log →
      call.vval = some v →
      (call.seqno, v) ∈ numbers (cluster.put mac node effects).log := by
  intro other call v member value
  rcases (mem_log_put ..).mp member with earlier | ⟨-, new⟩
  · exact mem_numbers_put (accountable.handed other call v earlier value)
  · exact absurd new (silent call)

theorem quiet (accountable : cluster.Accountable N leader) (member : mac ∈ N)
    {slots : Slots}
    (backed : slots.Backed (cluster.Heard N) (cluster.Voted mac))
    (nodeCount : slots.nodeCount =
      (cluster.nodes mac).state.slots.nodeCount) {calls : List Handed}
    (handed : ∀ call ∈ calls, ∀ v, call.vval = some v →
      ∃ n, cluster.Voted mac n call.seqno v) :
    (cluster.put mac ((cluster.nodes mac).withSlots slots)
      (calls.map Effect.handed)).Accountable N leader := by
  have sameNumbers : numbers (cluster.put mac
      ((cluster.nodes mac).withSlots slots)
      (calls.map Effect.handed)).log = numbers cluster.log := by
    rw [numbers_put, numbered?_handed, List.append_nil]
  constructor
  · exact accountable.formed.put rfl rfl rfl rfl
  · rw [sameNumbers]
    exact accountable.increasing
  · intro seqno v member
    rw [sameNumbers] at member
    apply accountable.given_put _ member
    rfl
  · intro other n seqno v voted
    rw [sameNumbers]
    rcases (voted_put ..).mp voted with earlier | ⟨-, new⟩
    · exact accountable.voted _ _ _ _ earlier
    · simp at new
  · intro other call v given value
    rw [sameNumbers]
    rcases (mem_log_put ..).mp given with earlier | ⟨-, new⟩
    · exact accountable.handed other call v earlier value
    · obtain ⟨own, called, same⟩ := List.mem_map.mp new
      cases same
      obtain ⟨n, voted⟩ := handed call called v value
      exact accountable.voted _ _ _ _ voted
  · intro frame sent
    rw [frames_put, frame?_handed, List.append_nil] at sent
    exact (accountable.frames frame sent).put
  · exact accountable.stores_put
      (backed.mono (fun _ _ _ => Heard.put) fun _ _ _ => Voted.put)
  · exact accountable.nodeCount_put member nodeCount

theorem idle (accountable : cluster.Accountable N leader) (member : mac ∈ N) :
    (cluster.put mac (cluster.nodes mac) []).Accountable N leader :=
  accountable.quiet member (accountable.stores mac member) rfl
    (List.forall_mem_nil _)

/-- A node votes for a numbered packet, and tells the others. -/
theorem vote (accountable : cluster.Accountable N leader) (member : mac ∈ N)
    {n seqno : ℕ} {v : Bytes} (fits : n ≤ UINT32_MAX ∧ seqno ≤ UINT32_MAX)
    (numbered : (seqno, v) ∈ numbers cluster.log) :
    (cluster.put mac ((cluster.nodes mac).voted n seqno v)
      (.accepted n seqno v :: (cluster.nodes mac).announce PaxosMessage.LEARN
        (PaxosMessage.header n seqno))).Accountable N leader := by
  have own := accountable.formed.mac mac member
  have sameNumbers : ∀ node, numbers (cluster.put mac node
      (.accepted n seqno v :: (cluster.nodes mac).announce PaxosMessage.LEARN
        (PaxosMessage.header n seqno))).log = numbers cluster.log := by
    intro node
    rw [numbers_put, List.filterMap_cons_none rfl, numbered?_announce,
      List.append_nil]
  have cast : ∀ node, (cluster.put mac node (.accepted n seqno v ::
      (cluster.nodes mac).announce PaxosMessage.LEARN
        (PaxosMessage.header n seqno))).Voted mac n seqno v := by
    intro node
    exact (voted_put ..).mpr (.inr ⟨rfl, List.mem_cons_self⟩)
  constructor
  · exact accountable.formed.put rfl rfl rfl rfl
  · rw [sameNumbers]
    exact accountable.increasing
  · intro other w given
    rw [sameNumbers] at given
    apply accountable.given_put _ given
    rfl
  · intro other round position w voted
    rw [sameNumbers]
    rcases (voted_put ..).mp voted with earlier | ⟨-, new⟩
    · exact accountable.voted _ _ _ _ earlier
    · simp only [List.mem_cons, Effect.accepted.injEq,
        accepted_not_mem_announce, or_false] at new
      obtain ⟨rfl, rfl, rfl⟩ := new
      exact numbered
  · apply accountable.handed_put
    intro call called
    simp at called
  · intro frame sent
    rw [frames_put, List.mem_append] at sent
    rcases sent with earlier | new
    · exact (accountable.frames frame earlier).put
    · rw [List.filterMap_cons_none rfl, frame?_announce, List.mem_map] at new
      obtain ⟨dst, -, rfl⟩ := new
      refine .inr ⟨n, seqno, v, rfl, fits, ?_, ?_⟩
      · rw [own]
        exact member
      · rw [own]
        exact cast _
  · apply accountable.stores_put
    apply Slots.Backed.vote _ (cast _)
    exact (accountable.stores mac member).mono (fun _ _ _ => Heard.put)
      fun _ _ _ => Voted.put
  · apply accountable.nodeCount_put member
    exact Slots.nodeCount_vote _ _ _ _

/-- The leader sends a numbered packet to all. -/
theorem announce (accountable : cluster.Accountable N leader) (member : mac ∈ N)
    {n seqno : ℕ} {v : Bytes} (fits : n ≤ UINT32_MAX ∧ seqno ≤ UINT32_MAX)
    (numbered : (seqno, v) ∈ numbers cluster.log) :
    (cluster.put mac (cluster.nodes mac)
      ((cluster.nodes mac).announce PaxosMessage.ACCEPT
        (PaxosMessage.header n seqno ++ v))).Accountable N leader := by
  have sameNumbers : numbers (cluster.put mac (cluster.nodes mac)
      ((cluster.nodes mac).announce PaxosMessage.ACCEPT
        (PaxosMessage.header n seqno ++ v))).log = numbers cluster.log := by
    rw [numbers_put, numbered?_announce, List.append_nil]
  constructor
  · exact accountable.formed.put rfl rfl rfl rfl
  · rw [sameNumbers]
    exact accountable.increasing
  · intro other w given
    rw [sameNumbers] at given
    apply accountable.given_put _ given
    rfl
  · intro other round position w voted
    rw [sameNumbers]
    rcases (voted_put ..).mp voted with earlier | ⟨-, new⟩
    · exact accountable.voted _ _ _ _ earlier
    · exact absurd new (accepted_not_mem_announce _ _ _ _ _ _)
  · exact accountable.handed_put fun call =>
      handed_not_mem_announce _ _ _ call
  · intro frame sent
    rw [frames_put, List.mem_append, frame?_announce, List.mem_map] at sent
    rcases sent with earlier | ⟨dst, -, rfl⟩
    · exact (accountable.frames frame earlier).put
    · exact .inl ⟨n, seqno, v, rfl, fits, mem_numbers_put numbered⟩
  · apply accountable.stores_put
    exact (accountable.stores mac member).mono (fun _ _ _ => Heard.put)
      fun _ _ _ => Voted.put
  · apply accountable.nodeCount_put member
    rfl

theorem given_lt (accountable : cluster.Accountable N leader) {last : Leader}
    (present : (cluster.nodes leader).leader = some last) {entry : ℕ × Bytes}
    (member : entry ∈ numbers cluster.log) : entry.1 < last.nextSeqno.1 := by
  obtain ⟨bound, found, below⟩ := accountable.given entry.1 entry.2 member
  rw [present] at found
  cases found
  exact Nat.lt_succ_of_le below

theorem value_eq (accountable : cluster.Accountable N leader) {seqno : ℕ}
    {v w : Bytes} (first : (seqno, v) ∈ numbers cluster.log)
    (second : (seqno, w) ∈ numbers cluster.log) : v = w := by
  have nodup : ((numbers cluster.log).map Prod.fst).Nodup :=
    List.pairwise_map.mpr (accountable.increasing.imp ne_of_lt)
  have same := List.inj_on_of_nodup_map nodup first second rfl
  cases same
  rfl

/-- The leader takes the next number, and knows the packet it is for, or not.
-/
theorem number (accountable : cluster.Accountable N leader)
    (member : leader ∈ N) {last : Leader}
    (present : (cluster.nodes leader).leader = some last)
    {node : PaxosController} {effects : List Effect}
    (changed : node = (cluster.nodes leader).numberedBy last ∧ effects = [] ∨
      ∃ port v, node = (cluster.nodes leader).withClient last port ∧
        effects = [.numbered last.nextSeqno.1 v]) :
    (cluster.put leader node effects).Accountable N leader := by
  have shape : ∃ wanPort, node = { cluster.nodes leader with
      leader := some last.nextSeqno.2, wanPort } := by
    rcases changed with ⟨rfl, -⟩ | ⟨port, v, rfl, -⟩
    · exact ⟨_, rfl⟩
    · exact ⟨_, rfl⟩
  have silent : effects.filterMap Effect.frame? = [] ∧
      (∀ n seqno v, Effect.accepted n seqno v ∉ effects) ∧
      ∀ call, Effect.handed call ∉ effects := by
    rcases changed with ⟨-, rfl⟩ | ⟨port, v, -, rfl⟩
    · simp
    · simp [Effect.frame?]
  have fresh : ∀ entry ∈ effects.filterMap Effect.numbered?,
      entry.1 = last.nextSeqno.1 := by
    rcases changed with ⟨-, rfl⟩ | ⟨port, v, -, rfl⟩
    · simp
    · simp [Effect.numbered?]
  have atMostOne : (effects.filterMap Effect.numbered?).Pairwise
      fun earlier later => earlier.1 < later.1 := by
    rcases changed with ⟨-, rfl⟩ | ⟨port, v, -, rfl⟩
    · simp
    · simp [Effect.numbered?]
  have next : last.nextSeqno.2 = { seqno := some last.nextSeqno.1 } := by
    obtain ⟨seqno⟩ := last
    cases seqno <;> rfl
  obtain ⟨wanPort, rfl⟩ := shape
  constructor
  · exact accountable.formed.put rfl rfl rfl rfl
  · rw [numbers_put, List.pairwise_append]
    refine ⟨accountable.increasing, atMostOne, ?_⟩
    intro earlier given later new
    rw [fresh later new]
    exact accountable.given_lt present given
  · intro seqno v given
    refine ⟨last.nextSeqno.1, ?_, ?_⟩
    · rw [nodes_put_self]
      exact congrArg some next
    · rw [numbers_put, List.mem_append] at given
      rcases given with earlier | new
      · exact (accountable.given_lt present earlier).le
      · exact (fresh _ new).le
  · intro other n seqno v voted
    rcases (voted_put ..).mp voted with earlier | ⟨-, new⟩
    · exact mem_numbers_put (accountable.voted _ _ _ _ earlier)
    · exact absurd new (silent.2.1 n seqno v)
  · exact accountable.handed_put silent.2.2
  · intro frame sent
    rw [frames_put, silent.1, List.append_nil] at sent
    exact (accountable.frames frame sent).put
  · apply accountable.stores_put
    exact (accountable.stores leader member).mono (fun _ _ _ => Heard.put)
      fun _ _ _ => Voted.put
  · apply accountable.nodeCount_put member
    rfl

variable (answer : ℕ → Bool)

theorem onAccept (accountable : cluster.Accountable N leader)
    (member : mac ∈ N) (event : Option PacketIn) (message : Bytes)
    (asked : ∀ n seqno v,
      PaxosMessage.unpackAccept message = .ok (n, seqno, v) →
      (seqno, v) ∈ numbers cluster.log) :
    (cluster.record mac (PaxosController.onAccept answer event message
      (cluster.nodes mac))).Accountable N leader := by
  have known : (cluster.nodes mac).mac ∈ (cluster.nodes mac).state.N := by
    rw [accountable.formed.mac mac member, accountable.formed.nodes mac member]
    exact member
  rcases PaxosController.onAccept_cases answer event message
    (cluster.nodes mac) with
    ⟨n, seqno, v, decoded, -, -, handled⟩ | ⟨result, slots, kept, handled⟩
  · have voted := accountable.vote member
      (PaxosMessage.unpackAccept_le decoded) (asked n seqno v decoded)
    -- The own LEARN is counted once the vote is known.
    have backed := voted.stores mac member
    rw [nodes_put_self] at backed
    have heard : (cluster.put mac ((cluster.nodes mac).voted n seqno v)
        (.accepted n seqno v :: (cluster.nodes mac).announce
          PaxosMessage.LEARN (PaxosMessage.header n seqno))).Heard N mac n
            seqno :=
      ⟨member, v, (voted_put ..).mpr (.inr ⟨rfl, List.mem_cons_self⟩)⟩
    have counted := voted.quiet member (backed.learn heard answer)
      (by rw [nodes_put_self]; exact Slots.nodeCount_learn _ _ _ _ _)
      (backed.handed_learn answer mac n seqno)
    rw [put_put, nodes_put_self] at counted
    rw [handled, record, PaxosController.castVote_state,
      PaxosController.castVote_effects known, PaxosController.castSlots,
      if_pos known, accountable.formed.mac mac member]
    exact counted
  · rw [handled, record_mk]
    rcases kept with rfl | ⟨seqno, rfl⟩
    · exact accountable.idle member
    · exact accountable.quiet member (accountable.stores mac member).touch
        (Slots.nodeCount_touch _ _) (List.forall_mem_nil _)

theorem onLearn (accountable : cluster.Accountable N leader)
    (member : mac ∈ N) (event : PacketIn) (message : Bytes)
    (told : ∀ n seqno, PaxosMessage.unpackLearn message = .ok (n, seqno) →
      cluster.Heard N event.parsed.src n seqno) :
    (cluster.record mac (PaxosController.onLearn answer event message
      (cluster.nodes mac))).Accountable N leader := by
  rcases PaxosController.onLearn_cases answer event message
    (cluster.nodes mac) with
    ⟨n, seqno, decoded, -, handled⟩ | ⟨result, handled⟩
  · rw [handled, PaxosController.learnFrom_apply]
    exact accountable.quiet member
      ((accountable.stores mac member).learn (told n seqno decoded) answer)
      (Slots.nodeCount_learn _ _ _ _ _)
      ((accountable.stores mac member).handed_learn answer _ n seqno)
  · rw [handled]
    exact accountable.idle member

theorem onClient (accountable : cluster.Accountable N leader)
    (member : mac ∈ N) (event : PacketIn) (message : Bytes) :
    (cluster.record mac (PaxosController.onClient answer event message
      (cluster.nodes mac))).Accountable N leader := by
  rcases PaxosController.onClient_cases answer event message
    (cluster.nodes mac) with
    ⟨result, handled⟩ | ⟨isleader, last, present,
      ⟨failure, handled⟩ | ⟨v, decoded, handled⟩⟩
  · rw [handled]
    exact accountable.idle member
  · obtain rfl := accountable.formed.isleader mac member isleader
    rw [handled]
    exact accountable.number member present (.inl ⟨rfl, rfl⟩)
  · obtain rfl := accountable.formed.isleader mac member isleader
    have numbered := accountable.number member present
      (.inr ⟨event.port, v, rfl, rfl⟩)
    have given : (last.nextSeqno.1, v) ∈ numbers (cluster.put mac
        ((cluster.nodes mac).withClient last event.port)
        [.numbered last.nextSeqno.1 v]).log := by
      rw [numbers_put]
      exact List.mem_append_right _ List.mem_cons_self
    rw [handled,
      record_after _ _ ((cluster.nodes mac).withClient last event.port)]
    rcases PaxosController.broadcastAccept_cases answer
      (cluster.nodes mac).state.crnd last.nextSeqno.1 v
      ((cluster.nodes mac).withClient last event.port) with
      ⟨failure, refused⟩ | ⟨-, fits, sent⟩
    · rw [refused, record_mk, put_put, List.append_nil]
      exact numbered
    · -- The ACCEPT goes to the others first, then the own one is handled.
      have announced := numbered.announce member fits given
      have accepted := announced.onAccept answer member none
        (PaxosMessage.header (cluster.nodes mac).state.crnd
          last.nextSeqno.1 ++ v) ?_
      · rw [nodes_put_self, nodes_put_self] at accepted
        rw [sent, Handler.andThen_pure,
          record_after _ _ ((cluster.nodes mac).withClient last event.port)]
        exact accepted
      · intro n seqno w carried
        rw [PaxosMessage.unpackAccept_header fits.1 fits.2] at carried
        cases carried
        exact mem_numbers_put given

theorem deliver (accountable : cluster.Accountable N leader)
    (member : mac ∈ N) {event : PacketIn}
    (arrives : event.parsed.type = PaxosMessage.CLIENT ∨
      event.parsed ∈ cluster.frames) :
    (cluster.record mac (PaxosController.handlePaxos answer event
      (cluster.nodes mac))).Accountable N leader := by
  have joined := accountable.formed.joined mac member
  have kind : event.parsed.type = PaxosMessage.CLIENT ∨
      cluster.Carries N event.parsed :=
    arrives.imp_right (accountable.frames event.parsed)
  rcases kind with client | ⟨n, seqno, v, same, fits, numbered⟩ |
    ⟨n, seqno, v, same, fits, sender, voted⟩
  · have known : PaxosMessage.isKnownPaxosType event.parsed.type = true := by
      rw [client]; decide
    rcases PaxosController.handlePaxos_cases answer (cluster.nodes mac) known
      with ⟨-, handled⟩ | ⟨-, result, -, handled⟩
    · rw [handled, client, PaxosController.dispatchPaxos_client joined]
      exact accountable.onClient answer member event _
    · rw [handled]
      exact accountable.idle member
  · have accept : event.parsed.type = PaxosMessage.ACCEPT := by rw [same]; rfl
    have known : PaxosMessage.isKnownPaxosType event.parsed.type = true := by
      rw [accept]; decide
    rcases PaxosController.handlePaxos_cases answer (cluster.nodes mac) known
      with ⟨-, handled⟩ | ⟨-, result, -, handled⟩
    · rw [handled, accept, PaxosController.dispatchPaxos_accept joined]
      apply accountable.onAccept answer member
      intro round position w carried
      rw [same] at carried
      have decoded := PaxosMessage.unpackAccept_header fits.1 fits.2 v
      cases decoded.symm.trans carried
      exact numbered
    · rw [handled]
      exact accountable.idle member
  · have learn : event.parsed.type = PaxosMessage.LEARN := by rw [same]; rfl
    have known : PaxosMessage.isKnownPaxosType event.parsed.type = true := by
      rw [learn]; decide
    rcases PaxosController.handlePaxos_cases answer (cluster.nodes mac) known
      with ⟨-, handled⟩ | ⟨-, result, -, handled⟩
    · rw [handled, learn, PaxosController.dispatchPaxos_learn joined]
      apply accountable.onLearn answer member
      intro round position carried
      rw [same] at carried
      have decoded := PaxosMessage.unpackLearn_header fits.1 fits.2
      cases decoded.symm.trans carried
      exact ⟨sender, v, voted⟩
    · rw [handled]
      exact accountable.idle member

theorem step (accountable : cluster.Accountable N leader)
    {action : ClusterAction} (enabled : Enabled N cluster action) :
    (cluster.step action).Accountable N leader := by
  obtain ⟨mac, event⟩ := action
  obtain ⟨member, arrives⟩ := enabled
  cases event with
  | pump answer =>
      exact accountable.quiet member
        ((accountable.stores mac member).processQueue answer)
        (Slots.nodeCount_processQueue _ _ _)
        ((accountable.stores mac member).handed_processQueue answer _)
  | collect n =>
      exact accountable.quiet member
        (accountable.stores mac member).garbageCollect rfl
        (List.forall_mem_nil _)
  | deliver answer event =>
      have delivered := accountable.deliver answer member arrives
      rw [Cluster.step]
      simp only [ClusterEvent.handle, Handler.bind_apply, Handler.andThen_pure]
      exact delivered

end Accountable

theorem Starts.accountable {N : Finset EthAddr} {leader : EthAddr}
    {cluster : Cluster} (starts : cluster.Starts N leader) :
    cluster.Accountable N leader := by
  have silent := starts.log
  constructor
  · exact starts.toFormed
  · rw [silent]
    exact .nil
  · intro seqno v given
    rw [silent] at given
    cases given
  · intro mac n seqno v voted
    rw [Voted, silent] at voted
    cases voted
  · intro mac call v member
    rw [silent] at member
    cases member
  · intro frame sent
    rw [frames, silent] at sent
    cases sent
  · intro mac member
    rw [starts.slots mac member]
    exact .new N.card
  · intro mac member
    rw [starts.slots mac member]
    rfl

/-- Whatever the network does, the nodes can be held to what they sent. -/
theorem Run.accountable {N : Finset EthAddr} {leader : EthAddr}
    {cluster : Cluster} (starts : cluster.Starts N leader)
    {actions : List ClusterAction}
    (run : (system N).Run cluster actions) :
    ((system N).after cluster actions).Accountable N leader :=
  run.invariant (fun _ _ accountable enabled => accountable.step enabled)
    starts.accountable

/-- If a slot is learned at some node, a majority voted in its round, and all
of them for one and the same value. -/
theorem learned_by_majority {N : Finset EthAddr} {leader : EthAddr}
    {cluster : Cluster} (starts : cluster.Starts N leader)
    {actions : List ClusterAction} (run : (system N).Run cluster actions)
    {mac : EthAddr} (member : mac ∈ N) {seqno : ℕ} {slot : Slot}
    (found : (((system N).after cluster actions).nodes mac).state.slots.at?
      seqno = some slot)
    (learned : slot.learned = true) :
    ∃ v, ∃ Q ⊆ N, 1 + N.card / 2 ≤ Q.card ∧ ∀ src ∈ Q,
      ((system N).after cluster actions).Voted src slot.hrnd seqno v ∧
      ∀ w, ((system N).after cluster actions).Voted src slot.hrnd seqno w →
        w = v := by
  have accountable := Run.accountable starts run
  have backed := accountable.stores mac member seqno
  rw [Slots.slotAt_of_at? found, accountable.nodeCount mac member] at backed
  obtain ⟨Q, majority, heard⟩ := backed.quorum learned
  have unique : ∀ {src other v w},
      ((system N).after cluster actions).Voted src slot.hrnd seqno v →
      ((system N).after cluster actions).Voted other slot.hrnd seqno w →
      w = v := by
    intro src other v w first second
    exact accountable.value_eq (accountable.voted _ _ _ _ second)
      (accountable.voted _ _ _ _ first)
  have some : Q.Nonempty := Finset.card_pos.mp (by omega)
  obtain ⟨first, firstMember⟩ := some
  obtain ⟨-, v, voted⟩ := heard first firstMember
  refine ⟨v, Q, fun src inQ => (heard src inQ).1, majority, ?_⟩
  intro src inQ
  obtain ⟨-, w, cast⟩ := heard src inQ
  have same := unique voted cast
  subst same
  exact ⟨cast, fun other => unique cast⟩

/-- The leader learns the first client packet from the vote of one other node.
-/
theorem learned_by_majority_first :
    let actions : List ClusterAction :=
      [⟨1, .deliver (fun _ => true) ((Frame.client 9 1 [7]).upcall 1)⟩,
        ⟨2, .deliver (fun _ => true) ((Frame.accept 1 2 4 0 [7]).upcall 1)⟩,
        ⟨1, .deliver (fun _ => true) ((Frame.learn 2 1 4 0).upcall 1)⟩]
    ∃ v, ∃ Q ⊆ ({1, 2, 3} : Finset EthAddr), 2 ≤ Q.card ∧ ∀ src ∈ Q,
      ((system {1, 2, 3}).after three actions).Voted src 4 0 v := by
  intro actions
  have run : (system {1, 2, 3}).Run three actions := by decide
  have head : ((((system {1, 2, 3}).after three actions).nodes
      1).state.slots.at? 0).map (fun slot => (slot.learned, slot.hrnd)) =
        some (true, 4) := by decide
  obtain ⟨slot, found, view⟩ := Option.map_eq_some_iff.mp head
  obtain ⟨learned, round⟩ := Prod.mk.inj view
  obtain ⟨v, Q, subset, majority, voted⟩ :=
    learned_by_majority three_starts run (by simp) found learned
  refine ⟨v, Q, subset, majority, fun src member => ?_⟩
  rw [← round]
  exact (voted src member).1

end SwitchPaxos.Cluster

import SwitchPaxos.Insane.Members
import Mathlib.Algebra.Ring.Parity

/-!
# Promises that were received

A node promises once in a round, and only to the node that asked in it.  So
`mv` holds one entry for each node whose promise for the current round was
received, and the nodes that promised before a proposal can be counted by it.
They are a majority if and only if the number of nodes is odd.
-/

namespace SwitchPaxos.Insane

variable {V : Type}

def Triple.acceptor (entry : Triple V) : Ident := (ofLex (ofLex entry).2).2

theorem Node.Reacts.proposes [LinearOrder V] {node later : Node V}
    {sender : Address} {message : Message V} {effects : List (Effect V)}
    (reacts : node.Reacts sender message later effects) {src dst : Address}
    {n : ℕ} {v : Option V} (sent : .sent ⟨src, dst, .accept n v⟩ ∈ effects) :
    later.crnd = some n ∧ later.enoughPromises := by
  cases reacts with
  | ignored => cases sent
  | promised => simp at sent
  | voted => simp [broadcast] at sent
  | collected m vrnd vval present =>
      split at sent
      · next enough =>
          simp only [broadcast, List.mem_map, Effect.sent.injEq,
            Packet.mk.injEq, Message.accept.injEq] at sent
          obtain ⟨-, -, -, -, rfl, -⟩ := sent
          exact ⟨present, enough⟩
      · cases sent
  | learned => cases sent
  | trusted => simp [broadcast] at sent
  | wished => cases sent

namespace Network

variable {table : Dict ℕ Address} {network : Network V} {id n : ℕ}

/-- The members whose promise for a round came to a node. -/
def promisers (table : Dict ℕ Address) (actions : List (Action V))
    (id n : ℕ) : Finset ℕ :=
  {other ∈ table.keys.toFinset | ∃ action ∈ actions, action.id = id ∧
    action.message.promised? = some n ∧
      table.lookup other = some action.sender}

/-- The node sends ACCEPT for a round when the message arrives. -/
def Proposes [LinearOrder V] (network : Network V) (action : Action V)
    (n : ℕ) : Prop :=
  ∃ src dst v, Effect.sent ⟨src, dst, .accept n v⟩ ∈
    (Node.receive action.sender action.message
      (network.nodes action.id)).effects

/-- In a run, a node sends ACCEPT for a round once the promises of `Q` for it
came in. -/
def Quorum [LinearOrder V] (table : Dict ℕ Address) (network : Network V)
    (actions : List (Action V)) (n : ℕ) (Q : Finset ℕ) : Prop :=
  ∃ earlier action later, actions = earlier ++ action :: later ∧
    ((peers table).after network earlier).Proposes action n ∧
    Q = promisers table (earlier ++ [action]) action.id n

/-- A node asks in the round it is in, or did so before; the answer goes to
the node that asked, and a node answers once in a round. -/
structure Answers (table : Dict ℕ Address) (network : Network V) : Prop where
  peered : network.Peered table
  prepared : ∀ id ∈ table.keys, ∀ dst n,
    ⟨(network.nodes id).address, dst, .prepare n⟩ ∈ network.packets →
      ∃ crnd, (network.nodes id).crnd = some crnd ∧ n ≤ crnd
  answered : ∀ id ∈ table.keys, ∀ src n vrnd vval,
    ⟨src, (network.nodes id).address, .promise n vrnd vval⟩ ∈
      network.packets →
      ∃ crnd, (network.nodes id).crnd = some crnd ∧ n ≤ crnd
  promised : ∀ src n vrnd vval, network.Promised src n vrnd vval →
    ∃ other ∈ table.keys, src = (network.nodes other).address ∧
      n ≤ (network.nodes other).rnd
  once : ∀ src n vrnd vval vrnd' vval', network.Promised src n vrnd vval →
    network.Promised src n vrnd' vval' → vrnd = vrnd' ∧ vval = vval'

/-- A node goes on to later rounds only, asks in its round, and answers once
who asked it in a later round. -/
structure Replies (network : Network V) (id : ℕ) (node : Node V)
    (effects : List (Effect V)) : Prop where
  address : node.address = (network.nodes id).address
  rnd : (network.nodes id).rnd ≤ node.rnd
  crnd : ∀ n, (network.nodes id).crnd = some n →
    ∃ later, node.crnd = some later ∧ n ≤ later
  prepares : ∀ src dst n, .sent ⟨src, dst, .prepare n⟩ ∈ effects →
    src = (network.nodes id).address ∧ node.crnd = some n
  promises : ∀ src dst n vrnd vval,
    .sent ⟨src, dst, .promise n vrnd vval⟩ ∈ effects →
    src = (network.nodes id).address ∧ (network.nodes id).rnd < n ∧
      n ≤ node.rnd ∧ vrnd = (network.nodes id).vrnd ∧
      vval = (network.nodes id).vval ∧
      ⟨dst, (network.nodes id).address, .prepare n⟩ ∈ network.packets

theorem Replies.ahead {node : Node V} {effects : List (Effect V)}
    (replies : network.Replies id node effects) {other : ℕ}
    (reached : ∃ crnd, (network.nodes other).crnd = some crnd ∧ n ≤ crnd) :
    ∃ crnd, ((network.put id node effects).nodes other).crnd = some crnd ∧
      n ≤ crnd := by
  obtain ⟨before, present, bound⟩ := reached
  rw [nodes_put]
  split
  · next here =>
      subst here
      obtain ⟨last, now, later⟩ := replies.crnd before present
      exact ⟨last, now, bound.trans later⟩
  · exact ⟨before, present, bound⟩

namespace Answers

variable {node : Node V} {effects : List (Effect V)}

theorem unpromised (answers : network.Answers table)
    (member : id ∈ table.keys) (before : (network.nodes id).rnd < n)
    {vrnd : Option ℕ} {vval : Option V} :
    ¬ network.Promised (network.nodes id).address n vrnd vval := by
  intro earlier
  obtain ⟨other, known, same, bound⟩ := answers.promised _ n vrnd vval earlier
  cases answers.peered.address_inj member known same
  exact Nat.not_le.mpr before bound

theorem put (answers : network.Answers table) (member : id ∈ table.keys)
    (peered : (network.put id node effects).Peered table)
    (replies : network.Replies id node effects) :
    (network.put id node effects).Answers table := by
  have addresses : ∀ other,
      ((network.put id node effects).nodes other).address =
        (network.nodes other).address :=
    fun other => field_put Node.address replies.address
  refine ⟨peered, ?_, ?_, ?_, ?_⟩
  · intro other known dst n sent
    rw [addresses] at sent
    rcases (mem_packets_put ..).mp sent with earlier | new
    · exact replies.ahead (answers.prepared other known dst n earlier)
    · obtain ⟨same, now⟩ := replies.prepares _ dst n new
      cases answers.peered.address_inj known member same
      rw [nodes_put_self]
      exact ⟨n, now, le_rfl⟩
  · intro other known src n vrnd vval sent
    rw [addresses] at sent
    apply replies.ahead
    rcases (mem_packets_put ..).mp sent with earlier | new
    · exact answers.answered other known src n vrnd vval earlier
    · obtain ⟨-, -, -, -, -, asked⟩ := replies.promises src _ n vrnd vval new
      exact answers.prepared other known _ n asked
  · intro src n vrnd vval sent
    rcases promised_put sent with earlier | ⟨dst, new⟩
    · obtain ⟨other, known, same, bound⟩ :=
        answers.promised src n vrnd vval earlier
      refine ⟨other, known, ?_, ?_⟩
      · rw [addresses]
        exact same
      · rw [nodes_put]
        split
        · next here =>
            rw [here] at bound
            exact bound.trans replies.rnd
        · exact bound
    · obtain ⟨same, -, bound, -⟩ := replies.promises src dst n vrnd vval new
      refine ⟨id, member, ?_, ?_⟩
      · rw [addresses]
        exact same
      · rw [nodes_put_self]
        exact bound
  · intro src n vrnd vval vrnd' vval' left right
    rcases promised_put left with earlier | ⟨dst, new⟩
    · rcases promised_put right with earlier' | ⟨dst', new'⟩
      · exact answers.once src n vrnd vval vrnd' vval' earlier earlier'
      · obtain ⟨same, before, -⟩ :=
          replies.promises src dst' n vrnd' vval' new'
        rw [same] at earlier
        exact absurd earlier (answers.unpromised member before)
    · obtain ⟨same, before, -, sameRound, sameValue, -⟩ :=
        replies.promises src dst n vrnd vval new
      rcases promised_put right with earlier | ⟨dst', new'⟩
      · rw [same] at earlier
        exact absurd earlier (answers.unpromised member before)
      · obtain ⟨-, -, -, sameRound', sameValue', -⟩ :=
          replies.promises src dst' n vrnd' vval' new'
        exact ⟨sameRound.trans sameRound'.symm,
          sameValue.trans sameValue'.symm⟩

theorem react [LinearOrder V] (answers : network.Answers table)
    (member : id ∈ table.keys) {sender : Address} {message : Message V}
    (reaches : Reaches table network ⟨id, sender, message⟩)
    (reacts : (network.nodes id).Reacts sender message node effects) :
    (network.put id node effects).Answers table := by
  have kept : ∀ n, (network.nodes id).crnd = some n →
      ∃ later, (network.nodes id).crnd = some later ∧ n ≤ later :=
    fun n present => ⟨n, present, le_rfl⟩
  refine answers.put member (answers.peered.react reacts) ?_
  cases reacts with
  | ignored => exact ⟨rfl, le_rfl, kept, by simp, by simp⟩
  | promised n later =>
      refine ⟨rfl, later.le, kept, by simp, ?_⟩
      intro src dst m vrnd vval new
      simp only [List.mem_singleton, Effect.sent.injEq, Packet.mk.injEq,
        Message.promise.injEq] at new
      obtain ⟨rfl, rfl, rfl, rfl, rfl⟩ := new
      refine ⟨rfl, later, le_rfl, rfl, rfl, ?_⟩
      rcases reaches.2 with outside | sent
      · exact absurd rfl outside
      · exact sent
  | voted n v current =>
      exact ⟨rfl, current, kept, by simp [Node.broadcast],
        by simp [Node.broadcast]⟩
  | collected n vrnd vval present =>
      refine ⟨rfl, le_rfl, kept, ?_, ?_⟩ <;>
        · split <;> simp [Node.broadcast]
  | learned => exact ⟨rfl, le_rfl, kept, by simp, by simp⟩
  | trusted =>
      have several : (network.nodes id).nodes.keys ≠ [] := by
        rw [answers.peered.nodes id member]
        exact List.ne_nil_of_mem member
      refine ⟨rfl, le_rfl, ?_, ?_, by simp [Node.broadcast]⟩
      · intro n present
        exact ⟨_, rfl, (Node.lt_nextCrnd several present).le⟩
      · intro src dst n new
        simp only [Node.broadcast, List.mem_map, Effect.sent.injEq,
          Packet.mk.injEq, Message.prepare.injEq] at new
        obtain ⟨-, -, rfl, -, rfl⟩ := new
        exact ⟨rfl, rfl⟩
  | wished => exact ⟨rfl, le_rfl, kept, by simp, by simp⟩

end Answers

/-- The promises that came in were sent, and `mv` is made of those for the
round that the node is in. -/
structure Hears (table : Dict ℕ Address) (network : Network V)
    (actions : List (Action V)) : Prop where
  answers : network.Answers table
  sent : ∀ id sender n vrnd vval,
    ⟨id, sender, .promise n vrnd vval⟩ ∈ actions → id ∈ table.keys ∧
      ⟨sender, (network.nodes id).address, .promise n vrnd vval⟩ ∈
        network.packets
  mv : ∀ id ∈ table.keys, ∀ n, (network.nodes id).crnd = some n →
    ∀ entry, entry ∈ (network.nodes id).mv ↔ ∃ sender vrnd vval,
      ⟨id, sender, .promise n vrnd vval⟩ ∈ actions ∧
        entry = triple vrnd vval ((network.nodes id).getId sender)

namespace Hears

variable {actions : List (Action V)}

theorem mem_promisers (hears : network.Hears table actions) {other : ℕ} :
    other ∈ promisers table actions id n ↔ other ∈ table.keys ∧
      ∃ vrnd vval, ⟨id, (network.nodes other).address,
        .promise n vrnd vval⟩ ∈ actions := by
  simp only [promisers, Finset.mem_filter, List.mem_toFinset]
  refine and_congr_right fun known => ?_
  rw [hears.answers.peered.address other known]
  constructor
  · rintro ⟨⟨receiver, sender, message⟩, member, rfl, some, lookup⟩
    cases lookup
    cases message with
    | promise m vrnd vval =>
        cases some
        exact ⟨vrnd, vval, member⟩
    | _ => cases some
  · rintro ⟨vrnd, vval, member⟩
    exact ⟨_, member, rfl, rfl, rfl⟩

theorem sender_known (hears : network.Hears table actions)
    {sender : Address} {vrnd : Option ℕ} {vval : Option V}
    (member : ⟨id, sender, .promise n vrnd vval⟩ ∈ actions) :
    network.Promised sender n vrnd vval ∧
      ∃ other ∈ table.keys, sender = (network.nodes other).address := by
  have promised : network.Promised sender n vrnd vval :=
    ⟨_, (hears.sent id sender n vrnd vval member).2⟩
  obtain ⟨other, known, same, -⟩ :=
    hears.answers.promised sender n vrnd vval promised
  exact ⟨promised, other, known, same⟩

theorem acceptor_inj (hears : network.Hears table actions)
    (member : id ∈ table.keys) (present : (network.nodes id).crnd = some n) :
    Set.InjOn Triple.acceptor
      ((network.nodes id).mv : Set (Triple V)) := by
  intro entry held entry' held' same
  obtain ⟨sender, vrnd, vval, came, rfl⟩ :=
    (hears.mv id member n present entry).mp held
  obtain ⟨sender', vrnd', vval', came', rfl⟩ :=
    (hears.mv id member n present entry').mp held'
  obtain ⟨promised, other, known, rfl⟩ := hears.sender_known came
  obtain ⟨promised', other', known', rfl⟩ := hears.sender_known came'
  cases hears.answers.peered.getId_inj member known known' same
  obtain ⟨rfl, rfl⟩ := hears.answers.once _ _ _ _ _ _ promised promised'
  rfl

theorem card_promisers (hears : network.Hears table actions)
    (member : id ∈ table.keys) (present : (network.nodes id).crnd = some n) :
    (promisers table actions id n).card = (network.nodes id).mv.card := by
  have names : Set.InjOn
      (fun other => (network.nodes id).getId (network.nodes other).address)
      (promisers table actions id n : Set ℕ) := by
    intro first left second right same
    exact hears.answers.peered.getId_inj member
      (hears.mem_promisers.mp left).1 (hears.mem_promisers.mp right).1 same
  have images : (promisers table actions id n).image
      (fun other => (network.nodes id).getId (network.nodes other).address) =
      (network.nodes id).mv.image Triple.acceptor := by
    ext name
    simp only [Finset.mem_image]
    constructor
    · rintro ⟨other, promiser, rfl⟩
      obtain ⟨-, vrnd, vval, came⟩ := hears.mem_promisers.mp promiser
      exact ⟨_, (hears.mv id member n present _).mpr
        ⟨_, vrnd, vval, came, rfl⟩, rfl⟩
    · rintro ⟨entry, held, rfl⟩
      obtain ⟨sender, vrnd, vval, came, rfl⟩ :=
        (hears.mv id member n present entry).mp held
      obtain ⟨-, other, known, rfl⟩ := hears.sender_known came
      exact ⟨other, hears.mem_promisers.mpr ⟨known, vrnd, vval, came⟩, rfl⟩
  rw [← Finset.card_image_of_injOn names, images,
    Finset.card_image_of_injOn (hears.acceptor_inj member present)]

/-- A message that is not a promise for the round adds no promise for it. -/
theorem came_snoc {sender : Address} {message : Message V}
    (other : message.promised? ≠ some n) {src : Address}
    {vrnd : Option ℕ} {vval : Option V} :
    ⟨id, src, .promise n vrnd vval⟩ ∈ actions ++ [⟨id, sender, message⟩] ↔
      ⟨id, src, .promise n vrnd vval⟩ ∈ actions := by
  simp only [List.mem_append, List.mem_singleton, Action.mk.injEq, true_and,
    or_iff_left_iff_imp, and_imp]
  rintro - rfl
  exact absurd rfl other

theorem mv_react [LinearOrder V] (hears : network.Hears table actions)
    (member : id ∈ table.keys) {sender : Address} {message : Message V}
    {node : Node V} {effects : List (Effect V)}
    (reacts : (network.nodes id).Reacts sender message node effects)
    (present : node.crnd = some n) (entry : Triple V) :
    entry ∈ node.mv ↔ ∃ src vrnd vval,
      ⟨id, src, .promise n vrnd vval⟩ ∈ actions ++ [⟨id, sender, message⟩] ∧
        entry = triple vrnd vval ((network.nodes id).getId src) := by
  have kept : message.promised? ≠ some n →
      (network.nodes id).crnd = some n → (entry ∈ (network.nodes id).mv ↔
        ∃ src vrnd vval, ⟨id, src, .promise n vrnd vval⟩ ∈
          actions ++ [⟨id, sender, message⟩] ∧
          entry = triple vrnd vval ((network.nodes id).getId src)) := by
    intro other round
    simp only [came_snoc other]
    exact hears.mv id member n round entry
  cases reacts with
  | ignored message elsewhere =>
      exact kept (fun same => elsewhere n same present) present
  | promised => exact kept nofun present
  | voted => exact kept nofun present
  | learned => exact kept nofun present
  | wished => exact kept nofun present
  | collected m vrnd vval round =>
      cases round.symm.trans present
      simp only [Node.withPromise, Finset.mem_insert,
        hears.mv id member n round entry, List.mem_append,
        List.mem_singleton, Action.mk.injEq, true_and, Message.promise.injEq]
      constructor
      · rintro (rfl | ⟨src, vrnd', vval', came, rfl⟩)
        · exact ⟨sender, vrnd, vval, .inr ⟨rfl, rfl, rfl⟩, rfl⟩
        · exact ⟨src, vrnd', vval', .inl came, rfl⟩
      · rintro ⟨src, vrnd', vval', came | ⟨rfl, rfl, rfl⟩, rfl⟩
        · exact .inr ⟨src, vrnd', vval', came, rfl⟩
        · exact .inl rfl
  | trusted message v named =>
      have several : (network.nodes id).nodes.keys ≠ [] := by
        rw [hears.answers.peered.nodes id member]
        exact List.ne_nil_of_mem member
      have other : message.promised? ≠ some n := by
        rw [Message.promised?_of_trusted named]
        exact nofun
      simp only [came_snoc other, Finset.notMem_empty, false_iff]
      rintro ⟨src, vrnd, vval, came, -⟩
      obtain ⟨crnd, round, bound⟩ := hears.answers.answered id member _ _ _ _
        (hears.sent id src n vrnd vval came).2
      cases present
      exact Nat.not_le.mpr (Node.lt_nextCrnd several round) bound

theorem step [LinearOrder V] (hears : network.Hears table actions)
    {action : Action V} (reaches : Reaches table network action) :
    (network.step action).Hears table (actions ++ [action]) := by
  obtain ⟨id, sender, message⟩ := action
  have member : id ∈ table.keys := reaches.1
  obtain ⟨node, effects, reacts, step⟩ :=
    network.step_reacts ⟨id, sender, message⟩
  rw [step]
  obtain ⟨-, nodes, address, omega⟩ := reacts.fixed
  have addresses : ∀ other,
      ((network.put id node effects).nodes other).address =
        (network.nodes other).address :=
    fun other => field_put Node.address address
  have names : ∀ other src,
      ((network.put id node effects).nodes other).getId src =
        (network.nodes other).getId src := by
    intro other src
    refine field_put (Node.getId src) ?_
    simp only [Node.getId, nodes, omega]
  refine ⟨hears.answers.react member reaches reacts, ?_, ?_⟩
  · intro other src n vrnd vval came
    rw [addresses]
    rcases List.mem_append.mp came with earlier | new
    · obtain ⟨known, sent⟩ := hears.sent other src n vrnd vval earlier
      exact ⟨known, (mem_packets_put ..).mpr (.inl sent)⟩
    · cases List.mem_singleton.mp new
      rcases reaches.2 with outside | sent
      · exact absurd rfl outside
      · exact ⟨member, (mem_packets_put ..).mpr (.inl sent)⟩
  · intro other known n present entry
    simp only [names]
    rw [nodes_put] at present ⊢
    split
    · next here =>
        subst here
        rw [if_pos rfl] at present
        exact hears.mv_react member reacts present entry
    · next elsewhere =>
        rw [if_neg elsewhere] at present
        rw [hears.mv other known n present entry]
        simp [elsewhere]

end Hears

theorem Begins.hears (begins : network.Begins table) :
    network.Hears table [] := by
  refine ⟨⟨begins.toPeered, ?_, ?_, ?_, ?_⟩, ?_, ?_⟩
  · exact fun id member dst n sent => absurd sent (begins.silent _)
  · exact fun id member src n vrnd vval sent =>
      absurd sent (begins.silent _)
  · exact fun src n vrnd vval sent =>
      absurd sent (begins.unpromised src n vrnd vval)
  · exact fun src n vrnd vval vrnd' vval' sent =>
      absurd sent (begins.unpromised src n vrnd vval)
  · exact fun id sender n vrnd vval came => absurd came List.not_mem_nil
  · intro id member n present
    rw [(begins.unheard member).1] at present
    cases present

section Runs

variable [LinearOrder V] {actions : List (Action V)}

theorem Run.hears (begins : network.Begins table)
    (run : (peers table).Run network actions) :
    ((peers table).after network actions).Hears table actions :=
  run.history (fun _ _ _ hears reaches => hears.step reaches) begins.hears

/-- ACCEPT is sent only when a promise for the round came in that makes them
enough. -/
theorem Proposes.enough {action : Action V}
    (proposes : network.Proposes action n) :
    ((network.step action).nodes action.id).crnd = some n ∧
      ((network.step action).nodes action.id).enoughPromises := by
  obtain ⟨src, dst, v, sent⟩ := proposes
  rw [step, nodes_put_self]
  exact (Node.receive_reacts ..).proposes sent

/-- Half of the nodes, rounded up, promised before a proposal. -/
theorem Quorum.card (begins : network.Begins table)
    (run : (peers table).Run network actions) {Q : Finset ℕ}
    (quorum : network.Quorum table actions n Q) :
    Q ⊆ table.keys.toFinset ∧ Q.card = (table.keys.length - 1) / 2 + 1 := by
  obtain ⟨earlier, action, later, rfl, proposes, rfl⟩ := quorum
  refine ⟨Finset.filter_subset _ _, ?_⟩
  have known : System.Each (peers table) (Reaches table) network
      (earlier ++ action :: later) := run
  obtain ⟨before, reaches, -⟩ := System.each_append.mp known
  have hears := (Run.hears begins before).step reaches
  obtain ⟨present, enough⟩ := proposes.enough
  rw [hears.card_promisers reaches.1 present, enough,
    hears.answers.peered.failureNodes reaches.1]

/-- Who promised before a proposal has a member in common with any majority.
-/
theorem Quorum.meets (begins : network.Begins table)
    (run : (peers table).Run network actions) {Q : Finset ℕ}
    (quorum : network.Quorum table actions n Q) {R : Finset ℕ}
    (majority : Majority table.keys.toFinset R) : ∃ id ∈ Q, id ∈ R := by
  obtain ⟨subset, card⟩ := quorum.card begins run
  apply common_of_card subset majority.subset
  have half := majority.half
  rw [List.toFinset_card_of_nodup (AList.keys_nodup table)] at half ⊢
  omega

/-- Those whose promises led to a proposal are more than half of the nodes,
and share one with those of any other proposal and with any majority, exactly
if the number of nodes is odd. -/
theorem quorum_majority_iff (begins : network.Begins table)
    (run : (peers table).Run network actions) {Q : Finset ℕ}
    (quorum : network.Quorum table actions n Q) :
    (table.keys.length < 2 * Q.card ∧
      (∀ m R, network.Quorum table actions m R → ∃ id ∈ Q, id ∈ R) ∧
      ∀ R, Majority table.keys.toFinset R → ∃ id ∈ Q, id ∈ R) ↔
      Odd table.keys.length := by
  obtain ⟨subset, card⟩ := quorum.card begins run
  have members : table.keys.toFinset.card = table.keys.length :=
    List.toFinset_card_of_nodup (AList.keys_nodup table)
  have bound := Finset.card_le_card subset
  rw [Nat.odd_iff]
  constructor
  · rintro ⟨half, -, -⟩
    omega
  · intro odd
    refine ⟨by omega, ?_, fun R majority => quorum.meets begins run majority⟩
    intro m R other
    obtain ⟨subset', card'⟩ := other.card begins run
    apply common_of_card subset subset'
    omega

end Runs

/-- Two of three nodes promise, which any two nodes have a member of. -/
theorem quorum_majority_three :
    let actions : List (Action ℕ) :=
      [⟨1, ("127.0.0.1", 9), .trustValue 1 (some 5)⟩,
        ⟨1, ("127.0.0.1", 2001), .prepare 1⟩,
        ⟨2, ("127.0.0.1", 2001), .prepare 1⟩,
        ⟨1, ("127.0.0.1", 2001), .promise 1 none none⟩,
        ⟨1, ("127.0.0.1", 2001), .promise 1 none none⟩,
        ⟨1, ("127.0.0.1", 2002), .promise 1 none none⟩]
    three.Quorum config actions 1 {1, 2} ∧
      config.keys.length < 2 * ({1, 2} : Finset ℕ).card ∧
      ∀ R, Majority config.keys.toFinset R →
        ∃ id ∈ ({1, 2} : Finset ℕ), id ∈ R := by
  intro actions
  have run : (peers config).Run three actions := by decide
  have quorum : three.Quorum config actions 1 {1, 2} :=
    ⟨actions.take 5, _, [], rfl,
      ⟨("127.0.0.1", 2001), ("127.0.0.1", 2001), some 5, by decide⟩,
      by decide⟩
  obtain ⟨half, -, meets⟩ :=
    (quorum_majority_iff three_starts.begins run quorum).mpr (by decide)
  exact ⟨quorum, half, meets⟩

/-- A table of two nodes. -/
def pair : Dict ℕ Address :=
  AList.insert 1 ("127.0.0.1", 2001) (AList.insert 2 ("127.0.0.1", 2002) ∅)

def two : Network ℕ :=
  { nodes := fun id => Node.new id pair none ("127.0.0.1", 2000 + id)
    log := [] }

theorem lookup_pair {id : ℕ} {address : Address} :
    pair.lookup id = some address ↔
      (id = 1 ∨ id = 2) ∧ address = ("127.0.0.1", 2000 + id) := by
  simp only [pair, Dict.lookup_insert_eq, AList.lookup_empty]
  split
  · next here => simp [here, eq_comm]
  · split
    · next here => simp [here, eq_comm]
    · next first second => simp [first, second]

theorem two_begins : two.Begins pair where
  distinct := by
    intro id other address first second
    have same := (lookup_pair.mp first).2.symm.trans
      (lookup_pair.mp second).2
    simp only [Prod.mk.injEq, Nat.add_left_cancel_iff, true_and] at same
    exact same
  id := fun _ _ => rfl
  nodes := fun _ _ => rfl
  address := by
    intro id member
    rw [← AList.mem_keys, ← AList.lookup_isSome, Option.isSome_iff_exists]
      at member
    obtain ⟨address, found⟩ := member
    rw [found, (lookup_pair.mp found).2]
    rfl
  fresh := fun _ _ => ⟨none, _, rfl⟩
  log := rfl

/-- One of two nodes promises, and the other one does for another round. -/
theorem quorums_apart :
    let actions : List (Action ℕ) :=
      [⟨1, ("127.0.0.1", 9), .trustValue 1 (some 5)⟩,
        ⟨1, ("127.0.0.1", 2001), .prepare 1⟩,
        ⟨1, ("127.0.0.1", 2001), .promise 1 none none⟩,
        ⟨2, ("127.0.0.1", 9), .trustValue 2 (some 6)⟩,
        ⟨2, ("127.0.0.1", 2002), .prepare 2⟩,
        ⟨2, ("127.0.0.1", 2002), .promise 2 none none⟩]
    two.Begins pair ∧ (peers pair).Run two actions ∧
      (¬ ∀ n Q, two.Quorum pair actions n Q →
        pair.keys.length < 2 * Q.card) ∧
      ¬ ∀ n m Q R, two.Quorum pair actions n Q →
        two.Quorum pair actions m R → ∃ id ∈ Q, id ∈ R := by
  intro actions
  have first : two.Quorum pair actions 1 {1} :=
    ⟨actions.take 2, _, actions.drop 3, rfl,
      ⟨("127.0.0.1", 2001), ("127.0.0.1", 2001), some 5, by decide⟩,
      by decide⟩
  have second : two.Quorum pair actions 2 {2} :=
    ⟨actions.take 5, _, actions.drop 6, rfl,
      ⟨("127.0.0.1", 2002), ("127.0.0.1", 2001), some 6, by decide⟩,
      by decide⟩
  refine ⟨two_begins, by decide, fun half => ?_, fun share => ?_⟩
  · exact absurd (half 1 {1} first) (by decide)
  · exact absurd (share 1 2 {1} {2} first second) (by decide)

end Network

end SwitchPaxos.Insane

import SwitchPaxos.Insane.Quorums
import SwitchPaxos.Insane.Rounds

/-!
# Proposals that are made again

A promise that arrives again makes a node propose once more.  It proposes what
it did before, as long as no TRUST-VALUE for another node has changed its value
since then, or that value does not matter.
-/

namespace SwitchPaxos.Insane

namespace Network

variable {V : Type} {table : Dict ℕ Address} {network : Network V} {id : ℕ}

/-- A TRUST-VALUE that names another node does not change the value of a node
that has exactly as many promises as it needs, none of them with a value. -/
def Retains (network : Network V) (action : Action V) : Prop :=
  match action.message with
  | .trustValue c v =>
      c ≠ (network.nodes action.id).id →
      (network.nodes action.id).enoughPromises →
      (network.nodes action.id).noPromisesWithValue →
        v = (network.nodes action.id).v
  | _ => True

theorem retains_promise (network : Network V) {action : Action V}
    (promise : action.message.promised? ≠ none) : network.Retains action := by
  obtain ⟨id, sender, message⟩ := action
  cases message with
  | promise => trivial
  | _ => exact absurd rfl promise

instance [DecidableEq V] (network : Network V) :
    (action : Action V) → Decidable (network.Retains action)
  | ⟨_, _, .trustValue _ _⟩ => inferInstanceAs (Decidable (_ → _ → _ → _))
  | ⟨_, _, .trust _⟩ => inferInstanceAs (Decidable True)
  | ⟨_, _, .prepare _⟩ => inferInstanceAs (Decidable True)
  | ⟨_, _, .promise _ _ _⟩ => inferInstanceAs (Decidable True)
  | ⟨_, _, .accept _ _⟩ => inferInstanceAs (Decidable True)
  | ⟨_, _, .learn _ _⟩ => inferInstanceAs (Decidable True)

section Step

variable [LinearOrder V] {node : Node V} {effects : List (Effect V)}

/-- A node that keeps its value where it matters proposes in a round what it
did before. -/
theorem Steady.react (rounds : network.Rounds table)
    (steady : network.Steady table) (numbered : Numbered table)
    (member : id ∈ table.keys) {sender : Address} {message : Message V}
    (retains : network.Retains ⟨id, sender, message⟩)
    (reacts : (network.nodes id).Reacts sender message node effects) :
    (network.put id node effects).Steady table := by
  cases reacts with
  | ignored => exact steady.put rfl rfl rfl (fun _ => rfl) (by simp)
  | promised => exact steady.put rfl rfl rfl (fun _ => rfl) (by simp)
  | voted =>
      exact steady.put rfl rfl rfl (fun _ => rfl) (by simp [Node.broadcast])
  | collected n vrnd vval present =>
      exact (collects_promise present sender vrnd vval).steady rfl rounds
        steady numbered member
  | learned => exact steady.put rfl rfl rfl (fun _ => rfl) (by simp)
  | trusted => exact steady.trust rfl (by simp [Node.broadcast])
  | wished c v other =>
      refine steady.put rfl rfl rfl (fun enough => ?_) (by simp)
      by_cases none : (network.nodes id).noPromisesWithValue
      · have same : v = (network.nodes id).v := retains other enough none
        rw [same]
      · change ite (network.nodes id).noPromisesWithValue _ _ =
          ite (network.nodes id).noPromisesWithValue _ _
        rw [if_neg none, if_neg none]

end Step

/-- A node without a round has no promises, and one that has enough of them
proposed in its round. -/
structure Filled (table : Dict ℕ Address) (network : Network V) : Prop where
  idle : ∀ id ∈ table.keys, (network.nodes id).crnd = none →
    (network.nodes id).mv = ∅
  made : ∀ id ∈ table.keys, ∀ n, (network.nodes id).crnd = some n →
    (network.nodes id).enoughPromises → ∃ v, network.Proposed n v

theorem Peered.proposed_broadcast (peered : network.Peered table)
    (member : id ∈ table.keys) {node : Node V} {n : ℕ} {v : Option V} :
    (network.put id node
      ((network.nodes id).broadcast (.accept n v))).Proposed n v := by
  have lookup := peered.address id member
  rw [← peered.nodes id member] at lookup
  have listed := Dict.mem_values.mpr ⟨id, lookup⟩
  exact ⟨_, _, (mem_packets_put ..).mpr (.inr (List.mem_map_of_mem listed))⟩

namespace Filled

variable {node : Node V} {effects : List (Effect V)}

theorem put (filled : network.Filled table)
    (idle : node.crnd = none → node.mv = ∅)
    (made : ∀ n, node.crnd = some n → node.enoughPromises →
      ∃ v, (network.put id node effects).Proposed n v) :
    (network.put id node effects).Filled table := by
  refine ⟨?_, ?_⟩
  · intro other known absent
    rw [nodes_put] at absent ⊢
    split
    · next here =>
        rw [if_pos here] at absent
        exact idle absent
    · next elsewhere =>
        rw [if_neg elsewhere] at absent
        exact filled.idle other known absent
  · intro other known n present enough
    rw [nodes_put] at present enough
    split at present
    · next here =>
        rw [if_pos here] at enough
        exact made n present enough
    · next elsewhere =>
        rw [if_neg elsewhere] at enough
        obtain ⟨v, proposed⟩ := filled.made other known n present enough
        exact ⟨v, proposed.put⟩

theorem react [LinearOrder V] (filled : network.Filled table)
    (peered : network.Peered table) (member : id ∈ table.keys)
    {sender : Address} {message : Message V}
    (reacts : (network.nodes id).Reacts sender message node effects) :
    (network.put id node effects).Filled table := by
  have kept : ∀ n, (network.nodes id).crnd = some n →
      (network.nodes id).enoughPromises →
      ∃ v, (network.put id node effects).Proposed n v := by
    intro n present enough
    obtain ⟨v, proposed⟩ := filled.made id member n present enough
    exact ⟨v, proposed.put⟩
  cases reacts with
  | ignored => exact filled.put (filled.idle id member) kept
  | promised => exact filled.put (filled.idle id member) kept
  | voted => exact filled.put (filled.idle id member) kept
  | learned => exact filled.put (filled.idle id member) kept
  | wished => exact filled.put (filled.idle id member) kept
  | trusted =>
      refine filled.put (fun _ => rfl) ?_
      intro n present enough
      have few : (0 : ℕ) = _ + 1 := enough
      omega
  | collected m vrnd vval round =>
      refine filled.put ?_ ?_
      · intro absent
        cases round.symm.trans absent
      · intro n present enough
        cases round.symm.trans present
        rw [if_pos enough]
        exact ⟨_, peered.proposed_broadcast member⟩

theorem held {actions : List (Action V)}
    (filled : network.Filled table) (hears : network.Hears table actions)
    (member : id ∈ table.keys) (enough : (network.nodes id).enoughPromises) :
    ∃ n src vrnd vval, (network.nodes id).crnd = some n ∧
      ⟨id, src, .promise n vrnd vval⟩ ∈ actions ∧
      triple vrnd vval ((network.nodes id).getId src) ∈
        (network.nodes id).mv := by
  obtain ⟨entry, held⟩ : (network.nodes id).mv.Nonempty := by
    rw [← Finset.card_pos, enough]
    omega
  obtain ⟨n, present⟩ : ∃ n, (network.nodes id).crnd = some n := by
    rw [← Option.ne_none_iff_exists']
    intro absent
    rw [filled.idle id member absent] at held
    cases held
  obtain ⟨src, vrnd, vval, came, rfl⟩ :=
    (hears.mv id member n present entry).mp held
  exact ⟨n, src, vrnd, vval, present, came, held⟩

end Filled

theorem Begins.filled (begins : network.Begins table) :
    network.Filled table := by
  refine ⟨fun id member absent => (begins.unheard member).2, ?_⟩
  intro id member n present
  rw [(begins.unheard member).1] at present
  cases present

variable [LinearOrder V]

theorem Steady.step (rounds : network.Rounds table)
    (steady : network.Steady table) (numbered : Numbered table)
    {action : Action V} (reaches : Reaches table network action)
    (retains : network.Retains action) :
    (network.step action).Steady table := by
  obtain ⟨node, effects, reacts, step⟩ := network.step_reacts action
  rw [step]
  exact steady.react rounds numbered reaches.1 retains reacts

theorem Run.steady (numbered : Numbered table)
    (begins : network.Begins table) {actions : List (Action V)}
    (run : (peers table).Run network actions)
    (retains : (peers table).Each Retains network actions) :
    ((peers table).after network actions).Steady table :=
  run.property_of_each (fun network => network.Steady table) retains
    (fun _ _ rounds reaches => rounds.step numbered reaches)
    (fun _ _ rounds reaches retains steady =>
      steady.step rounds numbered reaches retains)
    begins.rounds begins.steady

/-- As long as the nodes keep their values where these matter, any two ACCEPTs
for one round have the same value. -/
theorem accepts_agree (numbered : Numbered table)
    (begins : network.Begins table) {actions : List (Action V)}
    (run : (peers table).Run network actions)
    (retains : (peers table).Each Retains network actions) {n : ℕ}
    {v w : Option V}
    (first : ((peers table).after network actions).Proposed n v)
    (second : ((peers table).after network actions).Proposed n w) : v = w :=
  (Run.steady numbered begins run retains).unique n v w first second

theorem numbered_config : Numbered config := by
  intro id
  rw [three_starts.keys, mem_ids]
  exact Iff.rfl

/-- A promise comes twice, and before the first time a TRUST-VALUE names
another node. -/
theorem accepts_agree_three :
    let actions : List (Action ℕ) :=
      [⟨1, ("127.0.0.1", 9), .trustValue 1 (some 5)⟩,
        ⟨1, ("127.0.0.1", 2001), .prepare 1⟩,
        ⟨2, ("127.0.0.1", 2001), .prepare 1⟩,
        ⟨1, ("127.0.0.1", 2001), .promise 1 none none⟩,
        ⟨1, ("127.0.0.1", 9), .trustValue 2 (some 6)⟩,
        ⟨1, ("127.0.0.1", 2002), .promise 1 none none⟩,
        ⟨1, ("127.0.0.1", 2002), .promise 1 none none⟩]
    let network := (peers config).after three actions
    network.Proposed 1 (some 6) ∧ ∀ v, network.Proposed 1 v → v = some 6 := by
  intro actions network
  have run : (peers config).Run three actions := by decide
  have retains : (peers config).Each Retains three actions := by decide
  have proposed : network.Proposed 1 (some 6) :=
    ⟨("127.0.0.1", 2001), ("127.0.0.1", 2001), by decide⟩
  exact ⟨proposed, fun v again => accepts_agree numbered_config
    three_starts.begins run retains again proposed⟩

/-- A promise comes again after a TRUST-VALUE that names another node. -/
theorem accepts_differ :
    let actions : List (Action ℕ) :=
      [⟨1, ("127.0.0.1", 9), .trustValue 1 (some 5)⟩,
        ⟨1, ("127.0.0.1", 2001), .prepare 1⟩,
        ⟨2, ("127.0.0.1", 2001), .prepare 1⟩,
        ⟨1, ("127.0.0.1", 2001), .promise 1 none none⟩,
        ⟨1, ("127.0.0.1", 2002), .promise 1 none none⟩,
        ⟨1, ("127.0.0.1", 9), .trustValue 2 (some 6)⟩,
        ⟨1, ("127.0.0.1", 2002), .promise 1 none none⟩]
    let network := (peers config).after three actions
    Numbered config ∧ three.Begins config ∧
      (peers config).Run three actions ∧
      ¬ ∀ n v w, network.Proposed n v → network.Proposed n w → v = w := by
  intro actions network
  have first : network.Proposed 1 (some 5) :=
    ⟨("127.0.0.1", 2001), ("127.0.0.1", 2001), by decide⟩
  have second : network.Proposed 1 (some 6) :=
    ⟨("127.0.0.1", 2001), ("127.0.0.1", 2001), by decide⟩
  refine ⟨numbered_config, three_starts.begins, by decide, fun agree => ?_⟩
  cases agree 1 _ _ first second

/-- A promise that comes again changes nothing in `mv`, and the node proposes
its value again if no promise has one. -/
theorem step_again {src : Address} {n : ℕ} {vrnd : Option ℕ}
    {vval : Option V} (present : (network.nodes id).crnd = some n)
    (held : triple vrnd vval ((network.nodes id).getId src) ∈
      (network.nodes id).mv)
    (enough : (network.nodes id).enoughPromises)
    (none : (network.nodes id).noPromisesWithValue) :
    network.step ⟨id, src, .promise n vrnd vval⟩ =
      network.put id (network.nodes id) ((network.nodes id).broadcast
        (.accept n (network.nodes id).v)) := by
  have same : (network.nodes id).withPromise src vrnd vval =
      network.nodes id := by
    rw [Node.withPromise, Finset.insert_eq_of_mem held]
  have value : (network.nodes id).cval = (network.nodes id).v := if_pos none
  rw [step, Node.receive, Node.onPromise_apply, if_pos present, same,
    if_pos enough, value]

theorem step_wish {c : ℕ} (other : c ≠ (network.nodes id).id)
    (sender : Address) (v : Option V) :
    network.step ⟨id, sender, .trustValue c v⟩ =
      network.put id { network.nodes id with v } [] := by
  rw [step, Node.receive, Node.onTrustValue_other _ other]

/-- A node that does not keep its value where it matters proposes two values
in its round, once a promise comes again. -/
theorem differs_again {actions : List (Action V)}
    (hears : network.Hears table actions) (filled : network.Filled table)
    (steady : network.Steady table) {action : Action V}
    (reaches : Reaches table network action)
    (changes : ¬ network.Retains action) :
    ∃ again : Action V, again.message.promised? ≠ none ∧
      Reaches table (network.step action) again ∧
      ∃ n v w, ((network.step action).step again).Proposed n v ∧
        ((network.step action).step again).Proposed n w ∧ v ≠ w := by
  obtain ⟨id, sender, message⟩ := action
  have member : id ∈ table.keys := reaches.1
  cases message with
  | trustValue c v =>
      simp only [Retains, not_forall] at changes
      obtain ⟨other, enough, none, differs⟩ := changes
      obtain ⟨n, src, vrnd, vval, present, came, held⟩ :=
        filled.held hears member enough
      obtain ⟨w, proposed⟩ := filled.made id member n present enough
      have value : w = (network.nodes id).v := by
        rw [steady.enough id member n present enough w proposed, Node.cval,
          if_pos none]
      have here : (network.put id { network.nodes id with v } []).nodes id =
          { network.nodes id with v } := nodes_put_self ..
      have peered : (network.put id { network.nodes id with v } []).Peered
          table := hears.answers.peered.put rfl rfl rfl
      have before : (network.put id { network.nodes id with v }
          []).Proposed n w := proposed.put
      have sent : ⟨src, (network.nodes id).address, .promise n vrnd vval⟩ ∈
          (network.put id { network.nodes id with v } []).packets :=
        (mem_packets_put ..).mpr (.inl (hears.sent id src n vrnd vval came).2)
      rw [step_wish other sender v]
      generalize network.put id { network.nodes id with v } [] = later
        at here peered before sent ⊢
      have repeated : later.step ⟨id, src, .promise n vrnd vval⟩ =
          later.put id (later.nodes id) ((later.nodes id).broadcast
            (.accept n (later.nodes id).v)) := by
        apply step_again
        · rw [here]
          exact present
        · rw [here]
          exact held
        · rw [here]
          exact enough
        · rw [here]
          exact none
      refine ⟨⟨id, src, .promise n vrnd vval⟩, Option.some_ne_none n,
        ⟨member, .inr ?_⟩, n, w, v, ?_, ?_, ?_⟩
      · rw [here]
        exact sent
      · rw [repeated]
        exact before.put
      · have again : (later.put id (later.nodes id)
            ((later.nodes id).broadcast
              (.accept n (later.nodes id).v))).Proposed n
              (later.nodes id).v := peered.proposed_broadcast member
        rw [← repeated, here] at again
        exact again
      · rw [value]
        exact Ne.symm differs
  | _ => exact absurd trivial changes

theorem Filled.step (filled : network.Filled table)
    (peered : network.Peered table) {action : Action V}
    (reaches : Reaches table network action) :
    (network.step action).Filled table := by
  obtain ⟨node, effects, reacts, step⟩ := network.step_reacts action
  rw [step]
  exact filled.react peered reaches.1 reacts

theorem Run.filled (numbered : Numbered table)
    (begins : network.Begins table) {actions : List (Action V)}
    (run : (peers table).Run network actions) :
    ((peers table).after network actions).Filled table :=
  run.property_of_each (fun network => network.Filled table)
    (System.each_of_forall fun _ _ _ => trivial)
    (fun _ _ rounds reaches => rounds.step numbered reaches)
    (fun _ _ rounds reaches _ filled => filled.step rounds.peered reaches)
    begins.rounds begins.filled

/-- The nodes keep their values where these matter if and only if no round ever
gets two proposals when promises come again, at whatever time of the run. -/
theorem retains_iff_agree (numbered : Numbered table)
    (begins : network.Begins table) {actions : List (Action V)}
    (run : (peers table).Run network actions) :
    (peers table).Each Retains network actions ↔
      ∀ earlier later again, actions = earlier ++ later →
        (∀ action ∈ again, action.message.promised? ≠ none) →
        (peers table).Run network (earlier ++ again) →
        ∀ n v w,
          ((peers table).after network (earlier ++ again)).Proposed n v →
          ((peers table).after network (earlier ++ again)).Proposed n w →
            v = w := by
  constructor
  · rintro retains earlier later again rfl promises repeated
    have kept : (peers table).Each Retains network (earlier ++ again) := by
      refine System.each_append.mpr ⟨(System.each_append.mp retains).1, ?_⟩
      exact System.each_of_forall fun action member network =>
        network.retains_promise (promises action member)
    exact (Run.steady numbered begins repeated kept).unique
  · intro agree
    induction actions using List.reverseRecOn with
    | nil => trivial
    | append_singleton actions action induction =>
        obtain ⟨before, reaches⟩ := System.each_snoc.mp run
        have retains := induction before fun earlier later again split =>
          agree earlier (later ++ [action]) again (by simp [split])
        refine System.each_snoc.mpr ⟨retains, ?_⟩
        by_contra changes
        obtain ⟨again, promise, comes, n, v, w, first, second, differ⟩ :=
          differs_again (Run.hears begins before)
            (Run.filled numbered begins before)
            (Run.steady numbered begins before retains) reaches changes
        have repeated : (peers table).Run network
            (actions ++ [action] ++ [again]) := by
          refine System.each_snoc.mpr ⟨run, ?_⟩
          rw [System.after_append]
          exact comes
        have same := agree (actions ++ [action]) [] [again] (by simp)
          (by simpa using promise) repeated n v w
        rw [System.after_append, System.after_append] at same
        exact differ (same first second)

end Network

end SwitchPaxos.Insane

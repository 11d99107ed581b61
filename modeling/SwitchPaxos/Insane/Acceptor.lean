import SwitchPaxos.Insane.Node

/-!
# The acceptor on its own

`on_prepare` and `on_accept` write the same `rnd` under different comparisons.
Whatever PREPARE and ACCEPT messages an acceptor gets, in any order and from
anybody, its promises and votes fit together.
-/

namespace SwitchPaxos.Insane

variable {V : Type}

/-- A message to an acceptor; its round is any integer. -/
inductive Ballot (V : Type) where
  | prepare (sender : Address) (crnd : ℤ)
  | accept (crnd : ℤ) (vval : Option V)

/-- The vote that an effect records: round and value. -/
def Effect.vote? : Effect V → Option (ℕ × Option V)
  | .accepted crnd vval => some (crnd, vval)
  | .sent _ => none

/-- The promise that an effect sends: the round, and the vote reported. -/
def Effect.promise? : Effect V → Option (ℕ × Option ℕ × Option V)
  | .sent ⟨_, _, .promise rnd vrnd vval⟩ => some (rnd, vrnd, vval)
  | _ => none

def votes (log : List (Effect V)) : List (ℕ × Option V) :=
  log.filterMap Effect.vote?

def promises (log : List (Effect V)) : List (ℕ × Option ℕ × Option V) :=
  log.filterMap Effect.promise?

/-- The vote of the highest round, or nothing where no vote was cast. -/
def HighestVote (votes : List (ℕ × Option V)) :
    Option ℕ → Option V → Prop
  | none, vval => votes = [] ∧ vval = none
  | some vrnd, vval => (vrnd, vval) ∈ votes ∧ ∀ vote ∈ votes, vote.1 ≤ vrnd

/-- The state of an acceptor and its promises and votes so far. -/
structure Prudent (node : Node V) (log : List (Effect V)) : Prop where
  last : HighestVote (votes log) node.vrnd node.vval
  bound : ∀ vrnd, node.vrnd = some vrnd → vrnd ≤ node.rnd
  voted : (votes log).Pairwise fun earlier later => earlier.1 < later.1
  reached : ∀ promise ∈ promises log, promise.1 ≤ node.rnd
  promised : (promises log).Pairwise fun earlier later => earlier.1 < later.1
  /-- A promise reports the highest vote there was before. -/
  reports : ∀ before effect rnd vrnd vval, before ++ [effect] <+: log →
    effect.promise? = some (rnd, vrnd, vval) →
      HighestVote (votes before) vrnd vval
  /-- No vote in a round below a promise comes after it. -/
  keeps : log.Pairwise fun earlier later =>
    ∀ rnd vrnd vval crnd cval, earlier.promise? = some (rnd, vrnd, vval) →
      later.vote? = some (crnd, cval) → rnd ≤ crnd

namespace Node

/-- Nodes compare rounds with `rnd`, which starts at zero and never
decreases: a negative round passes neither comparison. -/
def handleBallot : Ballot V → Handler V Unit
  | .prepare sender (.ofNat crnd) => onPrepare sender crnd
  | .accept (.ofNat crnd) vval => onAccept crnd vval
  | .prepare _ (.negSucc _) => pure ()
  | .accept (.negSucc _) _ => pure ()

def handleBallots : List (Ballot V) → Handler V Unit :=
  Handler.forEach handleBallot

theorem handleBallots_snoc (ballots : List (Ballot V)) (ballot : Ballot V)
    (node : Node V) :
    handleBallots (ballots ++ [ballot]) node =
      (handleBallot ballot (handleBallots ballots node).state).after
        (handleBallots ballots node).effects := by
  rw [handleBallots, Handler.forEach_append]
  rcases Handler.forEach handleBallot ballots node with ⟨⟨⟨⟩⟩ | _, state, log⟩
  simp only [Outcome.andThen_ok, Handler.forEach, Handler.bind_apply]
  rcases handleBallot ballot state with ⟨⟨⟨⟩⟩ | _, _, _⟩
  simp

/-- All that a message to an acceptor can do. -/
theorem handleBallot_cases (ballot : Ballot V) (node : Node V) :
    handleBallot ballot node = ⟨.ok (), node, []⟩ ∨
    (∃ sender rnd, node.rnd < rnd ∧ handleBallot ballot node =
      ⟨.ok (), { node with rnd },
        [.sent ⟨node.address, sender, .promise rnd node.vrnd node.vval⟩]⟩) ∨
    ∃ rnd vval, node.rnd ≤ rnd ∧ node.vrnd ≠ some rnd ∧
      handleBallot ballot node =
        ⟨.ok (), { node with rnd, vrnd := some rnd, vval },
          .accepted rnd vval :: node.broadcast (.learn rnd vval)⟩ := by
  cases ballot with
  | prepare sender crnd =>
      cases crnd with
      | ofNat crnd =>
          by_cases later : node.rnd < crnd
          · right; left
            refine ⟨sender, crnd, later, ?_⟩
            rw [handleBallot, onPrepare_apply, if_pos later]
          · left
            rw [handleBallot, onPrepare_apply, if_neg later]
      | negSucc crnd => exact .inl rfl
  | accept crnd vval =>
      cases crnd with
      | ofNat crnd =>
          by_cases votes : node.rnd ≤ crnd ∧ node.vrnd ≠ some crnd
          · right; right
            refine ⟨crnd, vval, votes.1, votes.2, ?_⟩
            rw [handleBallot, onAccept_apply, if_pos votes]
          · left
            rw [handleBallot, onAccept_apply, if_neg votes]
      | negSucc crnd => exact .inl rfl

end Node

@[simp] theorem votes_append (log more : List (Effect V)) :
    votes (log ++ more) = votes log ++ votes more := List.filterMap_append

@[simp] theorem promises_append (log more : List (Effect V)) :
    promises (log ++ more) = promises log ++ promises more :=
  List.filterMap_append

theorem of_mem_broadcast_learn {node : Node V} {rnd : ℕ} {vval : Option V}
    {effect : Effect V} (member : effect ∈ node.broadcast (.learn rnd vval)) :
    effect.vote? = none ∧ effect.promise? = none := by
  obtain ⟨dst, -, rfl⟩ := List.mem_map.mp member
  exact ⟨rfl, rfl⟩

theorem votes_broadcast_learn (node : Node V) (rnd : ℕ) (vval : Option V) :
    votes (node.broadcast (.learn rnd vval)) = [] :=
  List.filterMap_eq_nil_iff.mpr fun _ member =>
    (of_mem_broadcast_learn member).1

theorem promises_broadcast_learn (node : Node V) (rnd : ℕ) (vval : Option V) :
    promises (node.broadcast (.learn rnd vval)) = [] :=
  List.filterMap_eq_nil_iff.mpr fun _ member =>
    (of_mem_broadcast_learn member).2

/-- What was sent before an effect that is none of the last ones. -/
private theorem prefix_of_not_mem {before log more : List (Effect V)}
    {effect : Effect V} (within : before ++ [effect] <+: log ++ more)
    (absent : effect ∉ more) : before ++ [effect] <+: log := by
  induction more using List.reverseRecOn with
  | nil => simpa using within
  | append_singleton more last induction =>
      simp only [List.mem_append, List.mem_singleton, not_or] at absent
      rw [← List.append_assoc] at within
      rcases List.prefix_concat_iff.mp within with whole | earlier
      · have same := List.append_inj_right' whole rfl
        exact absurd (List.singleton_inj.mp same) absent.2
      · exact induction earlier absent.1

namespace Prudent

variable {node : Node V} {log : List (Effect V)}

theorem new (id : ℕ) (nodes : Dict ℕ Address) (omega : Option Address)
    (address : Address) :
    Prudent (Node.new id nodes omega address : Node V) [] := by
  refine ⟨⟨rfl, rfl⟩, ?_, List.Pairwise.nil, ?_, List.Pairwise.nil, ?_,
    List.Pairwise.nil⟩
  · intro vrnd voted
    cases voted
  · intro promise member
    cases member
  · intro before effect rnd vrnd vval within
    simp at within

/-- All votes so far are in rounds up to `rnd`, and below the next vote. -/
theorem le_of_vote (prudent : Prudent node log) {vote : ℕ × Option V}
    (cast : vote ∈ votes log) :
    ∃ vrnd, node.vrnd = some vrnd ∧ vote.1 ≤ vrnd := by
  have last := prudent.last
  cases voted : node.vrnd with
  | none =>
      rw [voted] at last
      rw [last.1] at cast
      cases cast
  | some vrnd =>
      rw [voted] at last
      exact ⟨vrnd, rfl, last.2 vote cast⟩

theorem prepare (prudent : Prudent node log) {rnd : ℕ} (later : node.rnd < rnd)
    (sender : Address) :
    Prudent { node with rnd } (log ++
      [.sent ⟨node.address, sender, .promise rnd node.vrnd node.vval⟩]) := by
  have silent : votes (log ++ [.sent ⟨node.address, sender,
      .promise rnd node.vrnd node.vval⟩]) = votes log := by
    rw [votes_append]
    exact List.append_nil _
  refine ⟨?_, ?_, ?_, ?_, ?_, ?_, ?_⟩
  · rw [silent]
    exact prudent.last
  · intro vrnd voted
    exact (prudent.bound vrnd voted).trans later.le
  · rw [silent]
    exact prudent.voted
  · intro promise member
    rw [promises_append] at member
    rcases List.mem_append.mp member with earlier | here
    · exact (prudent.reached promise earlier).trans later.le
    · obtain rfl := List.mem_singleton.mp here
      exact le_rfl
  · rw [promises_append, List.pairwise_append]
    refine ⟨prudent.promised, List.pairwise_singleton _ _, ?_⟩
    intro earlier member last here
    obtain rfl := List.mem_singleton.mp here
    exact (prudent.reached earlier member).trans_lt later
  · intro before effect n vrnd vval within sent
    rcases List.prefix_concat_iff.mp within with whole | earlier
    · obtain ⟨rfl, same⟩ := List.append_inj' whole rfl
      obtain rfl := List.singleton_inj.mp same
      simp only [Effect.promise?, Option.some.injEq, Prod.mk.injEq] at sent
      obtain ⟨-, rfl, rfl⟩ := sent
      exact prudent.last
    · exact prudent.reports before effect n vrnd vval earlier sent
  · rw [List.pairwise_append]
    refine ⟨prudent.keeps, List.pairwise_singleton _ _, ?_⟩
    intro earlier _ last here _ _ _ _ _ _ voted
    obtain rfl := List.mem_singleton.mp here
    cases voted

theorem accept (prudent : Prudent node log) {rnd : ℕ} (later : node.rnd ≤ rnd)
    (another : node.vrnd ≠ some rnd) (vval : Option V) :
    Prudent { node with rnd, vrnd := some rnd, vval } (log ++
      .accepted rnd vval :: node.broadcast (.learn rnd vval)) := by
  have cast : votes (.accepted rnd vval ::
      node.broadcast (.learn rnd vval)) = [(rnd, vval)] := by
    change (rnd, vval) :: votes (node.broadcast (.learn rnd vval)) = _
    rw [votes_broadcast_learn]
  have silent : promises (.accepted rnd vval ::
      node.broadcast (.learn rnd vval)) = [] :=
    promises_broadcast_learn node rnd vval
  have quiet : ∀ effect ∈ .accepted rnd vval ::
      node.broadcast (.learn rnd vval), ∀ promise,
      effect.promise? ≠ some promise := by
    intro effect among promise sent
    have none := List.filterMap_eq_nil_iff.mp silent effect among
    rw [sent] at none
    cases none
  have below : ∀ vote ∈ votes log, vote.1 < rnd := by
    intro vote member
    obtain ⟨vrnd, voted, highest⟩ := prudent.le_of_vote member
    have bound := prudent.bound vrnd voted
    have different : vrnd ≠ rnd := by
      rintro rfl
      exact another voted
    omega
  refine ⟨?_, ?_, ?_, ?_, ?_, ?_, ?_⟩
  · rw [votes_append, cast]
    refine ⟨by simp, ?_⟩
    intro vote member
    rcases List.mem_append.mp member with earlier | here
    · exact (below vote earlier).le
    · rw [List.mem_singleton.mp here]
  · rintro vrnd ⟨⟩
    exact le_rfl
  · rw [votes_append, cast, List.pairwise_append]
    refine ⟨prudent.voted, List.pairwise_singleton _ _, ?_⟩
    intro earlier member last here
    obtain rfl := List.mem_singleton.mp here
    exact below earlier member
  · intro promise member
    rw [promises_append, silent, List.append_nil] at member
    exact (prudent.reached promise member).trans later
  · rw [promises_append, silent, List.append_nil]
    exact prudent.promised
  · intro before effect n vrnd wval within sent
    refine prudent.reports before effect n vrnd wval
      (prefix_of_not_mem within ?_) sent
    exact fun among => quiet effect among _ sent
  · rw [List.pairwise_append]
    refine ⟨prudent.keeps, ?_, ?_⟩
    · -- Among the new effects there is no promise.
      refine List.pairwise_of_forall_mem_list ?_
      intro earlier among last _ n k w _ _ sent
      exact absurd sent (quiet earlier among _)
    · intro earlier member last among n k w crnd cval sent voted
      have inLog : (n, k, w) ∈ promises log :=
        List.mem_filterMap.mpr ⟨earlier, member, sent⟩
      have vote : (crnd, cval) ∈ votes (.accepted rnd vval ::
          node.broadcast (.learn rnd vval)) :=
        List.mem_filterMap.mpr ⟨last, among, voted⟩
      rw [cast, List.mem_singleton, Prod.mk.injEq] at vote
      rw [vote.1]
      exact (prudent.reached _ inLog).trans later

theorem handleBallot (prudent : Prudent node log) (ballot : Ballot V) :
    Prudent (Node.handleBallot ballot node).state
      (log ++ (Node.handleBallot ballot node).effects) := by
  rcases Node.handleBallot_cases ballot node with
    ignored | ⟨sender, rnd, later, promised⟩ |
    ⟨rnd, vval, later, another, voted⟩
  · rw [ignored, List.append_nil]
    exact prudent
  · rw [promised]
    exact prudent.prepare later sender
  · rw [voted]
    exact prudent.accept later another vval

end Prudent

namespace Node

theorem rnd_handleBallot (ballot : Ballot V) (node : Node V) :
    node.rnd ≤ (handleBallot ballot node).state.rnd := by
  rcases handleBallot_cases ballot node with
    ignored | ⟨sender, rnd, later, promised⟩ | ⟨rnd, vval, later, -, voted⟩
  · rw [ignored]
  · rw [promised]
    exact later.le
  · rw [voted]
    exact later

theorem rnd_handleBallots (earlier later : List (Ballot V)) (node : Node V) :
    (handleBallots earlier node).state.rnd ≤
      (handleBallots (earlier ++ later) node).state.rnd := by
  induction later using List.reverseRecOn with
  | nil => rw [List.append_nil]
  | append_singleton later ballot induction =>
      rw [← List.append_assoc, handleBallots_snoc]
      exact induction.trans (rnd_handleBallot _ _)

/-- Any PREPARE and ACCEPT messages, in any order: `rnd` never decreases, and
the promises and votes of the acceptor fit together. -/
theorem handleBallots_prudent (id : ℕ) (nodes : Dict ℕ Address)
    (omega : Option Address) (address : Address) (ballots : List (Ballot V)) :
    let run := fun ballots =>
      handleBallots ballots (new id nodes omega address : Node V)
    (∀ earlier later, ballots = earlier ++ later →
      (run earlier).state.rnd ≤ (run ballots).state.rnd) ∧
    Prudent (run ballots).state (run ballots).effects := by
  intro run
  constructor
  · rintro earlier later rfl
    exact rnd_handleBallots earlier later _
  · induction ballots using List.reverseRecOn with
    | nil => exact Prudent.new id nodes omega address
    | append_singleton ballots ballot induction =>
        have next := induction.handleBallot ballot
        simp only [run, handleBallots_snoc]
        exact next

end Node

end SwitchPaxos.Insane

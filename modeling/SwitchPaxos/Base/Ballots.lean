import Mathlib.Data.Finset.Card

/-!
# Votes in rounds

Acceptors vote in rounds for what was proposed there.  A proposal is justified
by a majority that is in its round or beyond and voted in earlier rounds only
up to one with the same proposal.  Where every round has one proposal and
every proposal is justified, all values that a majority votes for are the
same.
-/

namespace SwitchPaxos

variable {α β : Type}

/-- More than half of the members. -/
structure Majority (members Q : Finset α) : Prop where
  subset : Q ⊆ members
  half : members.card < 2 * Q.card

theorem common_of_card [DecidableEq α] {members Q R : Finset α}
    (first : Q ⊆ members) (second : R ⊆ members)
    (large : members.card < Q.card + R.card) : ∃ a ∈ Q, a ∈ R := by
  by_contra none
  push Not at none
  have disjoint : Disjoint Q R := Finset.disjoint_left.mpr none
  have small := Finset.card_le_card (Finset.union_subset first second)
  rw [Finset.card_union_of_disjoint disjoint] at small
  omega

/-- Two majorities have a member in common. -/
theorem Majority.common [DecidableEq α] {members Q R : Finset α}
    (first : Majority members Q) (second : Majority members R) :
    ∃ a ∈ Q, a ∈ R := by
  have half := first.half
  have other := second.half
  exact common_of_card first.subset second.subset (by omega)

/-- The round each acceptor is in, who voted for what in which round, and what
was proposed there. -/
structure Ballots (α β : Type) where
  round : α → ℕ
  voted : α → ℕ → β → Prop
  proposed : ℕ → β → Prop

namespace Ballots

/-- A majority voted for the value in one round. -/
def Chosen (ballots : Ballots α β) (members : Finset α) (n : ℕ) (v : β) :
    Prop :=
  ∃ Q, Majority members Q ∧ ∀ a ∈ Q, ballots.voted a n v

/-- An acceptor votes in no round before this one any more, and its last vote
before it is known. -/
def Answered (ballots : Ballots α β) (a : α) (n : ℕ) (vrnd : Option ℕ)
    (vval : β) : Prop :=
  n ≤ ballots.round a ∧
    match vrnd with
    | none => ∀ m w, ballots.voted a m w → n ≤ m
    | some last => last < n ∧ ballots.voted a last vval ∧
        ∀ m w, ballots.voted a m w → m ≤ last ∨ n ≤ m

/-- The last vote of an acceptor, which is not in a round after its own. -/
def LastVote (ballots : Ballots α β) (a : α) (vrnd : Option ℕ) (vval : β) :
    Prop :=
  match vrnd with
  | none => ∀ m w, ¬ ballots.voted a m w
  | some last => ballots.voted a last vval ∧ last ≤ ballots.round a ∧
      ∀ m w, ballots.voted a m w → m ≤ last

/-- A majority votes in no round before this one any more, and voted in none
of them, or in none after one with the same proposal. -/
def Justified (ballots : Ballots α β) (members : Finset α) (n : ℕ) (v : β) :
    Prop :=
  ∃ Q, Majority members Q ∧ (∀ a ∈ Q, n ≤ ballots.round a) ∧
    ((∀ a ∈ Q, ∀ m w, ballots.voted a m w → n ≤ m) ∨
      ∃ last < n, ballots.proposed last v ∧
        ∀ a ∈ Q, ∀ m w, ballots.voted a m w → m ≤ last ∨ n ≤ m)

/-- Votes are for proposals, each round has one, and it is justified. -/
structure Consistent (ballots : Ballots α β) (members : Finset α) : Prop where
  proposed : ∀ a n v, ballots.voted a n v → ballots.proposed n v
  unique : ∀ n v w, ballots.proposed n v → ballots.proposed n w → v = w
  justified : ∀ n v, ballots.proposed n v → ballots.Justified members n v

/-- Acceptors move on to later rounds and vote there, and more is proposed. -/
structure Extends (ballots later : Ballots α β) : Prop where
  round : ∀ a, ballots.round a ≤ later.round a
  kept : ∀ a n v, ballots.voted a n v → later.voted a n v
  voted : ∀ a n v, later.voted a n v →
    ballots.voted a n v ∨ ballots.round a ≤ n
  proposed : ∀ n v, ballots.proposed n v → later.proposed n v

variable {ballots later : Ballots α β} {members : Finset α} {n m : ℕ}
  {v w : β}

theorem LastVote.le_round {a : α} {vrnd : Option ℕ} {vval : β}
    (last : ballots.LastVote a vrnd vval) (voted : ballots.voted a m w) :
    m ≤ ballots.round a := by
  cases vrnd with
  | none => exact absurd voted (last m w)
  | some vrnd => exact (last.2.2 m w voted).trans last.2.1

theorem LastVote.mono {a : α} {vrnd : Option ℕ} {vval : β}
    (last : ballots.LastVote a vrnd vval) (grows : ballots.Extends later)
    (silent : ∀ m w, later.voted a m w → ballots.voted a m w) :
    later.LastVote a vrnd vval := by
  cases vrnd with
  | none => exact fun m w voted => last m w (silent m w voted)
  | some vrnd =>
      obtain ⟨voted, bound, highest⟩ := last
      exact ⟨grows.kept a vrnd vval voted, bound.trans (grows.round a),
        fun m w cast => highest m w (silent m w cast)⟩

/-- An acceptor that moves on to a later round answers with its last vote. -/
theorem LastVote.answered {a : α} {vrnd : Option ℕ} {vval : β}
    (last : ballots.LastVote a vrnd vval) (later : ballots.round a < n)
    {moved : Ballots α β} (grows : ballots.Extends moved)
    (silent : ∀ m w, moved.voted a m w → ballots.voted a m w)
    (reached : n ≤ moved.round a) : moved.Answered a n vrnd vval := by
  refine ⟨reached, ?_⟩
  cases vrnd with
  | none =>
      intro m w voted
      exact absurd (silent m w voted) (last m w)
  | some vrnd =>
      obtain ⟨voted, bound, highest⟩ := last
      exact ⟨bound.trans_lt later, grows.kept a vrnd vval voted,
        fun m w cast => .inl (highest m w (silent m w cast))⟩

theorem Answered.mono {a : α} {vrnd : Option ℕ} {vval : β}
    (answered : ballots.Answered a n vrnd vval)
    (grows : ballots.Extends later) : later.Answered a n vrnd vval := by
  obtain ⟨bound, last⟩ := answered
  refine ⟨bound.trans (grows.round a), ?_⟩
  cases vrnd with
  | none =>
      intro m w voted
      rcases grows.voted a m w voted with earlier | new
      · exact last m w earlier
      · exact bound.trans new
  | some vrnd =>
      obtain ⟨before, voted, highest⟩ := last
      refine ⟨before, grows.kept a vrnd vval voted, ?_⟩
      intro m w cast
      rcases grows.voted a m w cast with earlier | new
      · exact highest m w earlier
      · exact .inr (bound.trans new)

theorem Justified.mono (justified : ballots.Justified members n v)
    (grows : ballots.Extends later) : later.Justified members n v := by
  obtain ⟨Q, majority, bound, votes⟩ := justified
  refine ⟨Q, majority, fun a member =>
    (bound a member).trans (grows.round a), ?_⟩
  rcases votes with none | ⟨last, before, proposed, highest⟩
  · left
    intro a member m w voted
    rcases grows.voted a m w voted with earlier | new
    · exact none a member m w earlier
    · exact (bound a member).trans new
  · right
    refine ⟨last, before, grows.proposed last v proposed, ?_⟩
    intro a member m w voted
    rcases grows.voted a m w voted with earlier | new
    · exact highest a member m w earlier
    · exact .inr ((bound a member).trans new)

/-- The value of the highest last vote that a majority answers with, or any
value if no answer holds a vote, makes a justified proposal. -/
theorem justified_of_answers
    (proposed : ∀ a n v, ballots.voted a n v → ballots.proposed n v)
    {Q : Finset α} (majority : Majority members Q) (vrnd : α → Option ℕ)
    (vval : α → β)
    (answered : ∀ a ∈ Q, ballots.Answered a n (vrnd a) (vval a))
    (picked : (∀ a ∈ Q, vrnd a = none) ∨
      ∃ a ∈ Q, ∃ last, vrnd a = some last ∧ vval a = v ∧
        ∀ b ∈ Q, ∀ m, vrnd b = some m → m ≤ last) :
    ballots.Justified members n v := by
  refine ⟨Q, majority, fun a member => (answered a member).1, ?_⟩
  rcases picked with none | ⟨a, member, last, round, value, highest⟩
  · left
    intro a member
    have answer := (answered a member).2
    rw [none a member] at answer
    exact answer
  · right
    have answer := (answered a member).2
    rw [round, value] at answer
    refine ⟨last, answer.1, proposed a last v answer.2.1, ?_⟩
    intro b other m w voted
    have reply := (answered b other).2
    cases round : vrnd b with
    | none =>
        rw [round] at reply
        exact .inr (reply m w voted)
    | some first =>
        rw [round] at reply
        exact (reply.2.2 m w voted).imp_left fun below =>
          below.trans (highest b other first round)

namespace Consistent

/-- More may be voted and proposed, as long as votes are for proposals and a
new proposal is justified and the only one of its round. -/
theorem grow (consistent : ballots.Consistent members)
    (grows : ballots.Extends later)
    (voted : ∀ a n v, later.voted a n v →
      ballots.voted a n v ∨ later.proposed n v)
    (fresh : ∀ n v, later.proposed n v → ballots.proposed n v ∨
      ((∀ w, later.proposed n w → w = v) ∧
        ballots.Justified members n v)) :
    later.Consistent members where
  proposed := by
    intro a n v vote
    rcases voted a n v vote with earlier | proposed
    · exact grows.proposed n v (consistent.proposed a n v earlier)
    · exact proposed
  unique := by
    intro n v w first second
    rcases fresh n v first with earlier | ⟨only, -⟩
    · rcases fresh n w second with earlier' | ⟨only, -⟩
      · exact consistent.unique n v w earlier earlier'
      · exact only v first
    · exact (only w second).symm
  justified := by
    intro n v proposed
    rcases fresh n v proposed with earlier | ⟨-, justified⟩
    · exact (consistent.justified n v earlier).mono grows
    · exact justified.mono grows

variable [DecidableEq α]

/-- What is proposed after a value was chosen is that value. -/
theorem proposed_eq (consistent : ballots.Consistent members)
    (chosen : ballots.Chosen members n v) (since : n ≤ m)
    (proposed : ballots.proposed m w) : w = v := by
  obtain ⟨Q, majority, voted⟩ := chosen
  induction m using Nat.strongRecOn generalizing w with
  | ind m induction =>
      obtain ⟨R, quorum, -, votes⟩ := consistent.justified m w proposed
      obtain ⟨a, inQ, inR⟩ := majority.common quorum
      have vote := voted a inQ
      rcases Nat.eq_or_lt_of_le since with same | before
      · subst same
        exact consistent.unique n w v proposed (consistent.proposed a n v vote)
      rcases votes with none | ⟨last, earlier, again, highest⟩
      · exact absurd (none a inR n v vote) (Nat.not_le.mpr before)
      · -- The common member's vote was in the round of `last` or before.
        have upTo := (highest a inR n v vote).resolve_right
          (Nat.not_le.mpr before)
        exact induction last earlier upTo again

/-- All values that are chosen are the same. -/
theorem chosen_eq (consistent : ballots.Consistent members)
    (first : ballots.Chosen members n v)
    (second : ballots.Chosen members m w) : v = w := by
  have proposed : ∀ {n v}, ballots.Chosen members n v →
      ballots.proposed n v := by
    rintro n v ⟨Q, majority, voted⟩
    obtain ⟨a, member, -⟩ := majority.common majority
    exact consistent.proposed a n v (voted a member)
  rcases Nat.le_total n m with later | earlier
  · exact (consistent.proposed_eq first later (proposed second)).symm
  · exact consistent.proposed_eq second earlier (proposed first)

end Consistent

end Ballots

end SwitchPaxos

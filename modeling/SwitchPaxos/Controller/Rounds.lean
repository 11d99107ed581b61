import SwitchPaxos.Controller.Acceptor
import SwitchPaxos.Controller.Start
import Mathlib.Data.Int.ModEq

/-!
# Who a round belongs to

`pickNext` adds the number of nodes to the round, so a node that only picks
rounds stays in those that have its own id as a remainder, and no two nodes
pick the same one.  The same `crnd` also holds the round of the last ACCEPT
that the node accepted, which may belong to another node.
-/

namespace SwitchPaxos

/-- `PaxosState.pickNext`, at any node. -/
def PaxosController.pickRound : Handler Unit := do
  let self ← Handler.get
  let state ← Handler.lift self.state.pickNext
  Handler.modify fun self => { self with state }

/-- A node picks the next round, or something happens to it that does not
change the nodes it knows. -/
inductive RoundEvent where
  | pickNext
  | node (event : NodeEvent)

def RoundEvent.handle : RoundEvent → PaxosController.Handler Unit
  | .pickNext => PaxosController.pickRound
  | .node event => event.handle

structure RoundAction where
  id : ℕ
  event : RoundEvent

/-- The nodes by their ids. -/
abbrev Members : Type := ℕ → PaxosController

namespace Members

/-- Any of the nodes `1` to `k` may take a step at any time. -/
def system (k : ℕ) : System Members RoundAction :=
  { Enabled := fun _ action => 1 ≤ action.id ∧ action.id ≤ k
    step := fun members action =>
      Function.update members action.id
        (action.event.handle (members action.id)).state }

/-- The nodes `1` to `k` have these ids, and each of them knows `k` nodes. -/
structure Fixed (k : ℕ) (members : Members) : Prop where
  nId : ∀ i, 1 ≤ i → i ≤ k → (members i).state.nId = i
  card : ∀ i, 1 ≤ i → i ≤ k → (members i).state.N.card = k

/-- Every node is in a round of its own, so no two nodes pick the same round
next. -/
structure Owned (k : ℕ) (members : Members) : Prop where
  crnd : ∀ i, 1 ≤ i → i ≤ k →
    (members i).state.crnd ≡ (members i).state.nId
      [MOD (members i).state.N.card]
  apart : ∀ i j, 1 ≤ i → i ≤ k → 1 ≤ j → j ≤ k → i ≠ j →
    (members i).state.crnd + (members i).state.N.card ≠
      (members j).state.crnd + (members j).state.N.card

/-- An ACCEPT that a node accepts is for a round of that node. -/
def AcceptsOwn (members : Members) (action : RoundAction) : Prop :=
  match action.event with
  | .node (.accept _ event) => ∀ n seqno v,
      PaxosMessage.unpackAccept event.parsed.payload = .ok (n, seqno, v) →
      (members action.id).Addressed event →
      (members action.id).Accepts n seqno →
        n ≡ (members action.id).state.nId
          [MOD (members action.id).state.N.card]
  | _ => True

end Members

namespace RoundEvent

theorem handle_frame (event : RoundEvent) (self : PaxosController) :
    (event.handle self).state.state.nId = self.state.nId ∧
      (event.handle self).state.state.N = self.state.N := by
  cases event with
  | pickNext =>
      simp only [handle, PaxosController.pickRound, PaxosState.pickNext,
        Handler.bind_apply, Handler.get_apply, Handler.lift_apply,
        Outcome.andThen_ok, Outcome.after_nil]
      split <;> exact ⟨rfl, rfl⟩
  | node event =>
      cases event with
      | accept answer event =>
          obtain ⟨crnd, slots, state⟩ := PaxosController.onAccept_state answer
            event event.parsed.payload self
          simp only [handle, NodeEvent.handle, Handler.bind_apply,
            Handler.andThen_pure, state]
          exact ⟨rfl, rfl⟩
      | learn answer event =>
          simp only [handle, NodeEvent.handle, Handler.bind_apply,
            Handler.andThen_pure]
          rcases PaxosController.onLearn_cases answer event
            event.parsed.payload self with
            ⟨n, seqno, -, -, handled⟩ | ⟨result, handled⟩
          · rw [handled, PaxosController.learnFrom_apply]
            exact ⟨rfl, rfl⟩
          · rw [handled]
            exact ⟨rfl, rfl⟩
      | pump answer => exact ⟨rfl, rfl⟩
      | collect n => exact ⟨rfl, rfl⟩

theorem crnd_pickRound (self : PaxosController) :
    (PaxosController.pickRound self).state.state.crnd =
      self.state.crnd + self.state.N.card := by
  simp only [PaxosController.pickRound, PaxosState.pickNext,
    Handler.bind_apply, Handler.get_apply, Handler.lift_apply,
    Outcome.andThen_ok, Outcome.after_nil]
  by_cases some : 0 < self.state.N.card
  · rw [if_pos some]
    rfl
  · rw [if_neg some]
    have none : self.state.N.card = 0 := by omega
    rw [none]
    rfl

end RoundEvent

namespace Members

variable {k : ℕ} {members : Members} {action : RoundAction}

/-- A node that is in a round of its own stays in one exactly if it does not
accept for another. -/
theorem crnd_handle_iff
    (own : (members action.id).state.crnd ≡ (members action.id).state.nId
      [MOD (members action.id).state.N.card]) :
    (action.event.handle (members action.id)).state.state.crnd ≡
        (members action.id).state.nId
          [MOD (members action.id).state.N.card] ↔
      members.AcceptsOwn action := by
  obtain ⟨id, event⟩ := action
  cases event with
  | pickNext =>
      refine iff_of_true ?_ trivial
      rw [RoundEvent.handle, RoundEvent.crnd_pickRound]
      exact Nat.add_modEq_right.trans own
  | node event =>
      rw [RoundEvent.handle]
      rcases NodeEvent.votes_cases event (members id) with
        ⟨answer, upcall, n, seqno, v, rfl, decoded, addressed, accepts, -,
          crnd, -⟩ | ⟨silent, crnd, -⟩
      · rw [crnd]
        constructor
        · intro belongs other otherSeqno w same _ _
          rw [decoded] at same
          cases same
          exact belongs
        · intro acceptsOwn
          exact acceptsOwn n seqno v decoded addressed accepts
      · rw [crnd]
        refine iff_of_true own ?_
        cases event with
        | accept answer upcall =>
            -- A vote would have been written down.
            intro n seqno v decoded addressed accepts
            have voted := PaxosController.onAccept_addressed answer decoded
              addressed
            rw [if_pos accepts] at voted
            simp only [NodeEvent.handle, Handler.bind_apply,
              Handler.andThen_pure, voted, votes_castVote] at silent
            cases silent
        | _ => trivial

theorem not_modEq {i j : ℕ} (first : 1 ≤ i ∧ i ≤ k) (second : 1 ≤ j ∧ j ≤ k)
    (different : i ≠ j) : ¬ i ≡ j [MOD k] := by
  intro same
  rcases Nat.lt_or_gt_of_ne different with less | greater
  · have divides : k ∣ j - i := (Nat.modEq_iff_dvd' less.le).mp same
    exact absurd (Nat.le_of_dvd (by omega) divides) (by omega)
  · have divides : k ∣ i - j := (Nat.modEq_iff_dvd' greater.le).mp same.symm
    exact absurd (Nat.le_of_dvd (by omega) divides) (by omega)

theorem Fixed.owned_iff (fixed : members.Fixed k) :
    members.Owned k ↔ ∀ i, 1 ≤ i → i ≤ k →
      (members i).state.crnd ≡ (members i).state.nId
        [MOD (members i).state.N.card] := by
  refine ⟨fun owned => owned.crnd, fun own => ⟨own, ?_⟩⟩
  intro i j first last first' last' different same
  have ours := own i first last
  have theirs := own j first' last'
  rw [fixed.nId i first last, fixed.card i first last] at ours
  rw [fixed.nId j first' last', fixed.card j first' last'] at theirs
  rw [fixed.card i first last, fixed.card j first' last',
    Nat.add_right_cancel_iff] at same
  rw [same] at ours
  exact not_modEq ⟨first, last⟩ ⟨first', last'⟩ different
    (ours.symm.trans theirs)

theorem step_apply (i : ℕ) :
    (system k).step members action i =
      if i = action.id then
        (action.event.handle (members action.id)).state
      else members i :=
  Function.update_apply _ _ _ _

theorem Fixed.step (fixed : members.Fixed k) :
    ((system k).step members action).Fixed k := by
  constructor
  · intro i first last
    rw [step_apply]
    split
    · next same =>
        rw [(action.event.handle_frame _).1, ← same]
        exact fixed.nId i first last
    · exact fixed.nId i first last
  · intro i first last
    rw [step_apply]
    split
    · next same =>
        rw [(action.event.handle_frame _).2, ← same]
        exact fixed.card i first last
    · exact fixed.card i first last

/-- A step leaves all nodes in rounds of their own exactly if the node that
takes it does not accept for another. -/
theorem Fixed.owned_step_iff (fixed : members.Fixed k)
    (owned : members.Owned k) (first : 1 ≤ action.id) (last : action.id ≤ k) :
    ((system k).step members action).Owned k ↔
      members.AcceptsOwn action := by
  rw [fixed.step.owned_iff,
    ← crnd_handle_iff (owned.crnd action.id first last)]
  obtain ⟨nId, N⟩ := action.event.handle_frame (members action.id)
  constructor
  · intro all
    have own := all action.id first last
    rw [step_apply, if_pos rfl, nId, N] at own
    exact own
  · intro own i first' last'
    rw [step_apply]
    split
    · rw [nId, N]
      exact own
    · exact owned.crnd i first' last'

/-- The nodes are fixed, and all of them are in rounds of their own. -/
structure Steady (k : ℕ) (members : Members) : Prop where
  fixed : members.Fixed k
  owned : members.Owned k

/-- In every state of a run all nodes are in rounds of their own, and pick
different ones next, exactly if no node ever accepts for another. -/
theorem each_owned_iff (start : Members) (fixed : start.Fixed k)
    (begins : ∀ i, 1 ≤ i → i ≤ k →
      (start i).state.crnd = (start i).state.nId)
    (actions : List RoundAction) (run : (system k).Run start actions) :
    (system k).Each
        (fun members action => ((system k).step members action).Owned k)
        start actions ↔
      (system k).Each AcceptsOwn start actions := by
  have steady : start.Steady k := by
    refine ⟨fixed, fixed.owned_iff.mpr fun i first last => ?_⟩
    rw [begins i first last]
  refine run.each_iff_each ?_ ?_ steady
  · intro members action steady enabled
    exact steady.fixed.owned_step_iff steady.owned enabled.1 enabled.2
  · intro members action steady enabled acceptsOwn
    exact ⟨steady.fixed.step, (steady.fixed.owned_step_iff steady.owned
      enabled.1 enabled.2).mpr acceptsOwn⟩

/-- The three nodes of the topology, once they know each other. -/
def three : Members := fun i =>
  .ready (toString i) (Fin.ofNat _ i) {1, 2, 3} i none

theorem three_fixed : three.Fixed 3 :=
  ⟨fun _ _ _ => rfl, fun _ _ _ => rfl⟩

theorem each_owned_iff_three :
    let actions : List RoundAction :=
      [⟨1, .pickNext⟩, ⟨2, .pickNext⟩,
        ⟨2, .node (.accept (fun _ => true)
          ((Frame.accept 1 2 8 0 [7]).upcall 4))⟩]
    (system 3).Each
        (fun members action => ((system 3).step members action).Owned 3)
        three actions ↔
      (system 3).Each AcceptsOwn three actions :=
  each_owned_iff three three_fixed (fun _ _ _ => rfl) _
    ⟨⟨by decide, by decide⟩, ⟨by decide, by decide⟩,
      ⟨by decide, by decide⟩, trivial⟩

/-- S1 picks round 4 and S2 accepts in it; from then on both pick round 7. -/
theorem accepted_round_is_kept :
    let picks : RoundAction := ⟨1, .pickNext⟩
    let accepts : RoundAction :=
      ⟨2, .node (.accept (fun _ => true)
        ((Frame.accept 1 2 4 0 [7]).upcall 4))⟩
    let reached := (system 3).after three [picks, accepts]
    (reached 2).state.crnd = 4 ∧
      (reached 1).state.crnd + (reached 1).state.N.card = 7 ∧
      (reached 2).state.crnd + (reached 2).state.N.card = 7 ∧
      ¬ (system 3).Each
        (fun members action => ((system 3).step members action).Owned 3)
        three [picks, accepts] := by
  intro picks accepts reached
  have observed : (reached 2).state.crnd = 4 ∧
      (reached 1).state.crnd + (reached 1).state.N.card = 7 ∧
      (reached 2).state.crnd + (reached 2).state.N.card = 7 := by decide
  obtain ⟨second, ours, theirs⟩ := observed
  refine ⟨second, ours, theirs, fun all => ?_⟩
  have owned : reached.Owned 3 := all.2.1
  exact owned.apart 1 2 le_rfl (by decide) (by decide) (by decide) (by decide)
    (ours.trans theirs.symm)

end Members

end SwitchPaxos

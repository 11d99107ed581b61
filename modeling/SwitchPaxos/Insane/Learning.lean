import SwitchPaxos.Insane.Agreement

/-!
# What the nodes learn

`on_learn` stores the value of the first LEARN of a round, and one acceptor is
enough to send it.  As long as a LEARN arrives at a node that does not know
the round only after a majority accepted its value there, all values that any
node learned in any round are the same.
-/

namespace SwitchPaxos.Insane

variable {V : Type}

/-- Only a LEARN of a new round changes what a node learned. -/
theorem Node.values_receive [LinearOrder V] (sender : Address)
    (message : Message V) (self : Node V) :
    (∃ n v, message = .learn n v ∧ self.values.lookup n = none ∧
      (receive sender message self).state.values = self.values.insert n v) ∨
    (receive sender message self).state.values = self.values := by
  cases message with
  | prepare n =>
      right
      rw [receive, onPrepare_apply]
      split <;> rfl
  | promise n vrnd vval =>
      right
      rw [receive, onPromise_apply]
      split <;> rfl
  | accept n v =>
      right
      rw [receive, onAccept_apply]
      split <;> rfl
  | learn n v =>
      rw [receive, onLearn_apply]
      by_cases known : self.values.lookup n = none
      · left
        exact ⟨n, v, rfl, known, by rw [if_pos known]⟩
      · right
        rw [if_neg known]
  | trust c =>
      right
      by_cases own : c = self.id
      · rw [receive, own, onTrust_apply]
      · simp [receive, onTrust, own]
  | trustValue c v =>
      right
      by_cases own : c = self.id
      · rw [receive, own, onTrustValue_apply]
      · simp [receive, onTrustValue, setvalue, onTrust, own]

namespace Network

variable {f : ℕ} {table : Dict ℕ Address} {network : Network V}
  {action : Action V} {n m : ℕ} {v w : Option V}

/-- A LEARN that the node does not know the round of comes after more than
half of the nodes accepted its value in that round. -/
def ComesAfterMajority (f : ℕ) (network : Network V) (action : Action V) :
    Prop :=
  match action.message with
  | .learn n v => (network.nodes action.id).values.lookup n = none →
      network.Chosen f n v
  | _ => True

instance [DecidableEq V] (f : ℕ) (network : Network V) :
    (action : Action V) → Decidable (ComesAfterMajority f network action)
  | ⟨id, _, .learn n v⟩ => inferInstanceAs (Decidable
      ((network.nodes id).values.lookup n = none → network.Chosen f n v))
  | ⟨_, _, .prepare _⟩ => inferInstanceAs (Decidable True)
  | ⟨_, _, .promise _ _ _⟩ => inferInstanceAs (Decidable True)
  | ⟨_, _, .accept _ _⟩ => inferInstanceAs (Decidable True)
  | ⟨_, _, .trust _⟩ => inferInstanceAs (Decidable True)
  | ⟨_, _, .trustValue _ _⟩ => inferInstanceAs (Decidable True)

/-- Every learned value is chosen. -/
def LearnsChosen (f : ℕ) (network : Network V) : Prop :=
  ∀ id ∈ ids f, ∀ n v, (network.nodes id).values.lookup n = some v →
    network.Chosen f n v

theorem Starts.learnsChosen (starts : network.Starts f table) :
    network.LearnsChosen f := by
  intro id member n v known
  obtain ⟨omega, address, fresh⟩ := starts.fresh id member
  rw [fresh] at known
  cases known

variable [LinearOrder V]

theorem Chosen.step (chosen : network.Chosen f n v) :
    (network.step action).Chosen f n v := by
  obtain ⟨Q, subset, half, voted⟩ := chosen
  refine ⟨Q, subset, half, fun id member => ?_⟩
  exact (voted_put ..).mpr (.inl (voted id member))

theorem LearnsChosen.step (learned : network.LearnsChosen f)
    (after : ComesAfterMajority f network action) :
    (network.step action).LearnsChosen f := by
  intro id member n v known
  rw [Network.step, nodes_put] at known
  split at known
  · next here =>
      subst here
      rcases Node.values_receive action.sender action.message
        (network.nodes action.id) with
        ⟨round, value, message, new, values⟩ | values
      · rw [values, Dict.lookup_insert_eq] at known
        rw [ComesAfterMajority, message] at after
        split at known
        · next same =>
            cases known
            rw [same]
            exact (after new).step
        · exact (learned _ member n v known).step
      · rw [values] at known
        exact (learned _ member n v known).step
  · exact (learned id member n v known).step

/-- If each LEARN of an unknown round comes after a majority accepted its
value, all values that were learned anywhere and in any round are the same. -/
theorem values_agree (starts : network.Starts f table)
    {actions : List (Action V)} (run : (system f).Run network actions)
    (after : (system f).Each (ComesAfterMajority f) network actions)
    {id other : ℕ} (member : id ∈ ids f) (known : other ∈ ids f)
    (first : (((system f).after network actions).nodes id).values.lookup n =
      some v)
    (second : (((system f).after network actions).nodes
      other).values.lookup m = some w) : v = w := by
  have learned : ((system f).after network actions).LearnsChosen f :=
    run.property_of_each (LearnsChosen f) after
      (fun _ _ sound enabled => Sound.step sound enabled)
      (fun _ _ _ _ after learned => learned.step after) starts.sound
      starts.learnsChosen
  exact (Run.sound starts run).consistent.chosen_eq
    (learned id member n v first).ballots
    (learned other known m w second).ballots

/-- Two nodes learn the first value, both after a majority accepted it. -/
theorem values_agree_first :
    let actions : List (Action ℕ) :=
      [⟨1, ("127.0.0.1", 9), .trustValue 1 (some 5)⟩,
        ⟨1, ("127.0.0.1", 2001), .prepare 1⟩,
        ⟨2, ("127.0.0.1", 2001), .prepare 1⟩,
        ⟨1, ("127.0.0.1", 2001), .promise 1 none none⟩,
        ⟨1, ("127.0.0.1", 2002), .promise 1 none none⟩,
        ⟨1, ("127.0.0.1", 2001), .accept 1 (some 5)⟩,
        ⟨2, ("127.0.0.1", 2001), .accept 1 (some 5)⟩,
        ⟨2, ("127.0.0.1", 2001), .learn 1 (some 5)⟩,
        ⟨3, ("127.0.0.1", 2001), .learn 1 (some 5)⟩]
    let network := (system 1).after three actions
    ∃ v w, (network.nodes 2).values.lookup 1 = some v ∧
      (network.nodes 3).values.lookup 1 = some w ∧ v = w := by
  intro actions network
  have run : (system 1).Run three actions := by decide
  have after : (system 1).Each (ComesAfterMajority 1) three actions := by
    decide
  have first : (network.nodes 2).values.lookup 1 = some (some 5) := by decide
  have second : (network.nodes 3).values.lookup 1 = some (some 5) := by decide
  exact ⟨some 5, some 5, first, second, values_agree three_starts run after
    (by decide) (by decide) first second⟩

/-- One acceptor is enough for a node to learn a value that is not chosen, and
another node learns another value. -/
theorem values_disagree :
    ∃ actions, (system 1).Run three actions ∧
      (((system 1).after three actions).nodes 3).values.lookup 1 =
        some (some 5) ∧
      (((system 1).after three actions).nodes 1).values.lookup 2 =
        some (some 6) := by
  refine ⟨[⟨1, ("127.0.0.1", 9), .trustValue 1 (some 5)⟩,
    ⟨1, ("127.0.0.1", 2001), .prepare 1⟩,
    ⟨2, ("127.0.0.1", 2001), .prepare 1⟩,
    ⟨1, ("127.0.0.1", 2001), .promise 1 none none⟩,
    ⟨1, ("127.0.0.1", 2002), .promise 1 none none⟩,
    ⟨1, ("127.0.0.1", 2001), .accept 1 (some 5)⟩,
    ⟨3, ("127.0.0.1", 2001), .learn 1 (some 5)⟩,
    ⟨2, ("127.0.0.1", 9), .trustValue 2 (some 6)⟩,
    ⟨2, ("127.0.0.1", 2002), .prepare 2⟩,
    ⟨3, ("127.0.0.1", 2002), .prepare 2⟩,
    ⟨2, ("127.0.0.1", 2002), .promise 2 none none⟩,
    ⟨2, ("127.0.0.1", 2003), .promise 2 none none⟩,
    ⟨2, ("127.0.0.1", 2002), .accept 2 (some 6)⟩,
    ⟨1, ("127.0.0.1", 2002), .learn 2 (some 6)⟩], ?_⟩
  decide

end Network

end SwitchPaxos.Insane

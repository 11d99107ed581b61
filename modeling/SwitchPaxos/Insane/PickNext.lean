import SwitchPaxos.Base.Run
import SwitchPaxos.Insane.Members

/-!
# Proposal numbers

`pickNext` starts at the id of the node and goes on by the number of nodes.
The rounds of a node therefore stay in the residue class of its id, and nodes
that pick in any order never pick the same round.
-/

namespace SwitchPaxos.Insane

variable {V : Type}

namespace Node

/-- Selects a new proposal number larger than `crnd`. -/
def pickNext : Handler V Unit :=
  Handler.modify fun self => { self with crnd := some self.nextCrnd }

/-- `on_trust` picks the round of the PREPARE messages by `pickNext`. -/
theorem onTrust_pickNext (self : Node V) :
    (onTrust self.id self).state = { (pickNext self).state with mv := ∅ } ∧
      (onTrust self.id self).effects =
        self.broadcast (.prepare self.nextCrnd) := by
  rw [onTrust_apply]
  exact ⟨rfl, rfl⟩

end Node

/-- Nodes by id, and the rounds that were picked, each with the node that
picked it. -/
structure Pickers (V : Type) where
  nodes : ℕ → Node V
  picked : List (ℕ × ℕ)

namespace Pickers

/-- One of the nodes calls `pickNext`. -/
def step (pickers : Pickers V) (id : ℕ) : Pickers V :=
  let node := (Node.pickNext (pickers.nodes id)).state
  { nodes := Function.update pickers.nodes id node
    picked := pickers.picked ++ node.crnd.toList.map fun round => (id, round) }

def system (n : ℕ) : System (Pickers V) ℕ :=
  { Enabled := fun _ id => 1 ≤ id ∧ id ≤ n
    step := step }

/-- The nodes as they are constructed, with one table of addresses. -/
def started (table : Dict ℕ Address) (omega : Option Address)
    (address : ℕ → Address) : Pickers V :=
  { nodes := fun id => Node.new id table omega (address id)
    picked := [] }

/-- What is known of the rounds that were picked. -/
structure Spread (n : ℕ) (pickers : Pickers V) : Prop where
  id : ∀ id, (pickers.nodes id).id = id
  table : ∀ id, (pickers.nodes id).nodes.keys.length = n
  residue : ∀ id crnd, (pickers.nodes id).crnd = some crnd →
    crnd % n = id % n
  /-- A node is in the last round it picked. -/
  latest : ∀ pick ∈ pickers.picked, ∃ crnd,
    (pickers.nodes pick.1).crnd = some crnd ∧ pick.2 ≤ crnd
  own : ∀ pick ∈ pickers.picked,
    (1 ≤ pick.1 ∧ pick.1 ≤ n) ∧ pick.2 % n = pick.1 % n
  increasing : pickers.picked.Pairwise fun earlier later =>
    earlier.1 = later.1 → earlier.2 < later.2

variable {n : ℕ} {pickers : Pickers V}

theorem started_spread {table : Dict ℕ Address} (size : table.keys.length = n)
    (omega : Option Address) (address : ℕ → Address) :
    (started table omega address : Pickers V).Spread n := by
  refine ⟨fun _ => rfl, fun _ => size, ?_, ?_, ?_, List.Pairwise.nil⟩
  · intro id crnd present
    cases present
  · intro pick member
    cases member
  · intro pick member
    cases member

theorem picked_step (id : ℕ) :
    (pickers.step id).picked =
      pickers.picked ++ [(id, (pickers.nodes id).nextCrnd)] := rfl

theorem nodes_step (id other : ℕ) :
    (pickers.step id).nodes other =
      if other = id then
        { pickers.nodes id with crnd := some (pickers.nodes id).nextCrnd }
      else pickers.nodes other := by
  simp only [step, Node.pickNext, Handler.modify_apply, Function.update_apply]

theorem map_fst_picked_after (pickers : Pickers V) (calls : List ℕ) :
    ((system n).after pickers calls).picked.map Prod.fst =
      pickers.picked.map Prod.fst ++ calls := by
  induction calls generalizing pickers with
  | nil => simp
  | cons id calls induction =>
      rw [System.after_cons, induction]
      change (pickers.step id).picked.map Prod.fst ++ calls = _
      rw [picked_step]
      simp

namespace Spread

theorem lt_nextCrnd (spread : pickers.Spread n) {pick : ℕ × ℕ}
    (member : pick ∈ pickers.picked) :
    pick.2 < (pickers.nodes pick.1).nextCrnd := by
  obtain ⟨crnd, present, bound⟩ := spread.latest pick member
  refine bound.trans_lt (Node.lt_nextCrnd ?_ present)
  apply List.ne_nil_of_length_pos
  rw [spread.table]
  have := (spread.own pick member).1
  omega

theorem nextCrnd_mod (spread : pickers.Spread n) (id : ℕ) :
    (pickers.nodes id).nextCrnd % n = id % n := by
  have next := Node.nextCrnd_mod (pickers.nodes id) fun crnd present => by
    rw [spread.table, spread.id]
    exact spread.residue id crnd present
  rwa [spread.table, spread.id] at next

theorem step (spread : pickers.Spread n) {id : ℕ} (member : 1 ≤ id ∧ id ≤ n) :
    (pickers.step id).Spread n := by
  refine ⟨?_, ?_, ?_, ?_, ?_, ?_⟩
  · intro other
    rw [nodes_step]
    split
    · next same => rw [same]; exact spread.id id
    · exact spread.id other
  · intro other
    rw [nodes_step]
    split
    · exact spread.table id
    · exact spread.table other
  · intro other crnd present
    rw [nodes_step] at present
    split at present
    · next same =>
        rw [same, ← Option.some.inj present]
        exact spread.nextCrnd_mod id
    · exact spread.residue other crnd present
  · intro pick picked
    rw [nodes_step]
    rcases List.mem_append.mp picked with earlier | here
    · split
      · next same =>
          refine ⟨_, rfl, ?_⟩
          rw [← same]
          exact (spread.lt_nextCrnd earlier).le
      · exact spread.latest pick earlier
    · obtain rfl := List.mem_singleton.mp here
      rw [if_pos rfl]
      exact ⟨_, rfl, le_rfl⟩
  · intro pick picked
    rcases List.mem_append.mp picked with earlier | here
    · exact spread.own pick earlier
    · obtain rfl := List.mem_singleton.mp here
      exact ⟨member, spread.nextCrnd_mod id⟩
  · rw [picked_step, List.pairwise_append]
    refine ⟨spread.increasing, List.pairwise_singleton _ _, ?_⟩
    intro earlier picked last here same
    obtain rfl := List.mem_singleton.mp here
    rw [← (show earlier.1 = id from same)]
    exact spread.lt_nextCrnd picked

theorem id_eq (spread : pickers.Spread n) {first second : ℕ × ℕ}
    (picked : first ∈ pickers.picked) (picked' : second ∈ pickers.picked)
    (same : first.2 % n = second.2 % n) : first.1 = second.1 := by
  obtain ⟨member, residue⟩ := spread.own first picked
  obtain ⟨member', residue'⟩ := spread.own second picked'
  apply Network.eq_of_mod_eq member member'
  rw [← residue, ← residue', same]

theorem nodup (spread : pickers.Spread n) :
    (pickers.picked.map Prod.snd).Nodup := by
  rw [List.Nodup, List.pairwise_map]
  refine List.Pairwise.imp_of_mem ?_ spread.increasing
  intro earlier later picked picked' increases same
  have own := spread.id_eq picked picked' (by rw [same])
  exact (increases own).ne same

end Spread

/-- Nodes with the ids from one to `n`, in any order of their calls of
`pickNext`: the rounds of each node strictly increase, no round is picked
twice, and the remainder of a round modulo `n` names the node. -/
theorem picked_rounds {table : Dict ℕ Address} (size : table.keys.length = n)
    (omega : Option Address) (address : ℕ → Address) {calls : List ℕ}
    (run : (system n).Run (started table omega address : Pickers V) calls) :
    let picked := ((system n).after
      (started table omega address : Pickers V) calls).picked
    picked.map Prod.fst = calls ∧
    (∀ id, (picked.filter fun pick => pick.1 = id).Pairwise
      fun earlier later => earlier.2 < later.2) ∧
    (picked.map Prod.snd).Nodup ∧
    ∀ first ∈ picked, ∀ second ∈ picked,
      first.2 % n = second.2 % n → first.1 = second.1 := by
  intro picked
  have spread : ((system n).after
      (started table omega address : Pickers V) calls).Spread n :=
    run.invariant (fun _ _ spread member => spread.step member)
      (started_spread size omega address)
  refine ⟨?_, ?_, spread.nodup, ?_⟩
  · exact map_fst_picked_after _ calls
  · intro id
    rw [List.pairwise_filter]
    refine List.Pairwise.imp ?_ spread.increasing
    intro earlier later increases own own'
    simp only [decide_eq_true_eq] at own own'
    exact increases (own.trans own'.symm)
  · intro first member second member' same
    exact spread.id_eq member member' same

/-- The nodes of `config.json`; the last one picks the multiples of three. -/
theorem picked_rounds_three :
    let address : ℕ → Address := fun id => ("127.0.0.1", 2000 + id)
    let started : Pickers ℕ := started Network.config none address
    let picked := ((system 3).after started [3, 1, 3, 2, 1, 3]).picked
    picked = [(3, 3), (1, 1), (3, 6), (2, 2), (1, 4), (3, 9)] ∧
      (picked.map Prod.snd).Nodup := by
  intro address started picked
  have size : Network.config.keys.length = 3 := rfl
  have run : (system 3).Run started [3, 1, 3, 2, 1, 3] := by
    simp [System.Run, System.Each, system]
  exact ⟨rfl, (picked_rounds size none address run).2.2.1⟩

end Pickers

end SwitchPaxos.Insane

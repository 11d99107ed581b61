import Mathlib.Order.Nat

/-!
# Rooted trees

A tree is given by the parent of each node but one.  The first step from a
node towards another one leads to a child, if the other node is below that
child, and to the parent if not.
-/

namespace SwitchPaxos

structure RootedTree (V : Type) where
  root : V
  parent : V → Option V
  depth : V → ℕ
  deeper : ∀ {v u}, parent v = some u → depth u < depth v
  rooted : ∀ {v}, parent v = none → v = root

namespace RootedTree

variable {V : Type} (tree : RootedTree V)

/-- Two nodes are neighbours if one is the parent of the other. -/
def Adjacent (u w : V) : Prop :=
  tree.parent u = some w ∨ tree.parent w = some u

instance [DecidableEq V] (u w : V) : Decidable (tree.Adjacent u w) :=
  inferInstanceAs (Decidable (_ ∨ _))

/-- The second node is the first one or below it. -/
inductive Under (u : V) : V → Prop where
  | refl : Under u u
  | step {v p : V} (parent : tree.parent v = some p) (above : Under u p) :
      Under u v

/-- The child of a node on the way down to another one, looked for from the
other one up. -/
def childTowards [DecidableEq V] (u : V) : ℕ → V → Option V
  | 0, _ => none
  | steps + 1, v =>
      match tree.parent v with
      | none => none
      | some p => if p = u then some v else childTowards u steps p

/-- The first node on the way to another one. -/
def next [DecidableEq V] (u v : V) : Option V :=
  if u = v then none
  else (tree.childTowards u (tree.depth v) v).or (tree.parent u)

variable {tree} {u v w c : V}

theorem Adjacent.symm (adjacent : tree.Adjacent u w) : tree.Adjacent w u :=
  Or.symm adjacent

theorem Under.depth_le (under : tree.Under u v) :
    tree.depth u ≤ tree.depth v := by
  induction under with
  | refl => exact le_rfl
  | step parent above induction =>
      exact induction.trans (tree.deeper parent).le

theorem not_under_parent (parent : tree.parent c = some u) :
    ¬ tree.Under c u := by
  intro under
  exact absurd under.depth_le (Nat.not_le_of_lt (tree.deeper parent))

/-- Of two nodes above a third one, one is above the other. -/
theorem Under.linear (first : tree.Under u v) (second : tree.Under w v) :
    tree.Under u w ∨ tree.Under w u := by
  induction first with
  | refl => exact .inr second
  | step parent above induction =>
      cases second with
      | refl => exact .inl (.step parent above)
      | step other below =>
          cases parent.symm.trans other
          exact induction below

theorem Under.child_unique {c' : V} (first : tree.Under c v)
    (second : tree.Under c' v) (parent : tree.parent c = some u)
    (parent' : tree.parent c' = some u) : c = c' := by
  rcases first.linear second with below | below
  · cases below with
    | refl => rfl
    | step up above =>
        cases parent'.symm.trans up
        exact absurd above (not_under_parent parent)
  · cases below with
    | refl => rfl
    | step up above =>
        cases parent.symm.trans up
        exact absurd above (not_under_parent parent')

theorem Under.child (under : tree.Under u v) (different : u ≠ v) :
    ∃ c, tree.parent c = some u ∧ tree.Under c v := by
  induction under with
  | refl => exact absurd rfl different
  | @step v p parent above induction =>
      by_cases here : u = p
      · subst here
        exact ⟨v, parent, .refl⟩
      · obtain ⟨c, below, under⟩ := induction here
        exact ⟨c, below, .step parent under⟩

theorem Under.of_child (parent : tree.parent c = some u)
    (under : tree.Under c v) : tree.Under u v := by
  induction under with
  | refl => exact .step parent .refl
  | step up above induction => exact .step up induction

theorem under_root (v : V) : tree.Under tree.root v := by
  induction height : tree.depth v using Nat.strongRecOn generalizing v with
  | ind height induction =>
      subst height
      cases up : tree.parent v with
      | none =>
          rw [tree.rooted up]
          exact .refl
      | some p => exact .step up (induction _ (tree.deeper up) p rfl)

section Next

variable [DecidableEq V]

theorem childTowards_eq_some {steps : ℕ} (enough : tree.depth v ≤ steps) :
    tree.childTowards u steps v = some c ↔
      tree.parent c = some u ∧ tree.Under c v := by
  induction steps generalizing v with
  | zero =>
      have top : tree.depth v = 0 := Nat.le_zero.mp enough
      constructor
      · intro impossible
        cases impossible
      · rintro ⟨parent, under⟩
        have above := tree.deeper parent
        have below := under.depth_le
        omega
  | succ steps induction =>
      rw [childTowards]
      cases up : tree.parent v with
      | none =>
          constructor
          · intro impossible
            cases impossible
          · rintro ⟨parent, under⟩
            cases under with
            | refl => rw [up] at parent; cases parent
            | step other above => rw [up] at other; cases other
      | some p =>
          have higher := tree.deeper up
          have enoughAbove : tree.depth p ≤ steps := by omega
          simp only
          split
          · next here =>
              subst here
              constructor
              · intro same
                cases same
                exact ⟨up, .refl⟩
              · rintro ⟨parent, under⟩
                rw [under.child_unique .refl parent up]
          · next other =>
              rw [induction enoughAbove]
              constructor
              · rintro ⟨parent, under⟩
                exact ⟨parent, .step up under⟩
              · rintro ⟨parent, under⟩
                refine ⟨parent, ?_⟩
                cases under with
                | refl =>
                    cases up.symm.trans parent
                    exact absurd rfl other
                | step up' above =>
                    cases up.symm.trans up'
                    exact above

theorem next_eq_some : tree.next u v = some w ↔
    (tree.parent w = some u ∧ tree.Under w v) ∨
      (tree.parent u = some w ∧ ¬ tree.Under u v) := by
  rw [next]
  split
  · next same =>
      subst same
      constructor
      · intro impossible
        cases impossible
      · rintro (⟨parent, under⟩ | ⟨-, notUnder⟩)
        · exact absurd under (not_under_parent parent)
        · exact absurd .refl notUnder
  · next different =>
      cases found : tree.childTowards u (tree.depth v) v with
      | some c =>
          have child := (childTowards_eq_some le_rfl).mp found
          rw [Option.some_or, Option.some.injEq]
          constructor
          · rintro rfl
            exact .inl child
          · rintro (⟨parent, under⟩ | ⟨-, notUnder⟩)
            · exact child.2.child_unique under child.1 parent
            · exact absurd (child.2.of_child child.1) notUnder
      | none =>
          have childless : ∀ c,
              ¬ (tree.parent c = some u ∧ tree.Under c v) := by
            intro c child
            rw [(childTowards_eq_some le_rfl).mpr child] at found
            cases found
          rw [Option.none_or]
          constructor
          · intro parent
            refine .inr ⟨parent, fun under => ?_⟩
            obtain ⟨c, child⟩ := under.child different
            exact childless c child
          · rintro (child | ⟨parent, -⟩)
            · exact absurd child (childless w)
            · exact parent

theorem next_adjacent (step : tree.next u v = some w) :
    tree.Adjacent u w := by
  rcases next_eq_some.mp step with ⟨parent, -⟩ | ⟨parent, -⟩
  · exact .inr parent
  · exact .inl parent

theorem exists_next (tree : RootedTree V) (different : u ≠ v) :
    ∃ w, tree.next u v = some w := by
  by_cases under : tree.Under u v
  · obtain ⟨c, parent, below⟩ := under.child different
    exact ⟨c, next_eq_some.mpr (.inl ⟨parent, below⟩)⟩
  · cases up : tree.parent u with
    | none =>
        rw [tree.rooted up] at under
        exact absurd (under_root v) under
    | some p => exact ⟨p, next_eq_some.mpr (.inr ⟨up, under⟩)⟩

theorem next_of_adjacent (adjacent : tree.Adjacent u v) :
    tree.next u v = some v := by
  apply next_eq_some.mpr
  rcases adjacent with up | up
  · exact .inr ⟨up, not_under_parent up⟩
  · exact .inl ⟨up, .refl⟩

/-- Over a link one goes in one direction only, whatever the goal is. -/
theorem next_flip (adjacent : tree.Adjacent u w) :
    tree.next u v = some w ↔ tree.next w v ≠ some u := by
  have oneWay : ∀ {u w : V}, tree.parent w = some u →
      (tree.next u v = some w ↔ tree.Under w v) ∧
        (tree.next w v = some u ↔ ¬ tree.Under w v) := by
    intro u w up
    have never : tree.parent u ≠ some w := by
      intro down
      exact absurd (tree.deeper up) (tree.deeper down).asymm
    constructor
    · rw [next_eq_some]
      simp [up, never]
    · rw [next_eq_some]
      simp [up, never]
  rcases adjacent with up | up
  · rw [(oneWay up).2, Ne, (oneWay up).1]
  · rw [(oneWay up).1, Ne, (oneWay up).2, not_not]

/-- What holds at the goal, and at a node if it holds one step further, holds
everywhere. -/
theorem towards_induction (tree : RootedTree V) {motive : V → Prop} (v : V)
    (goal : motive v)
    (back : ∀ u w, tree.next u v = some w → motive w → motive u) (u : V) :
    motive u := by
  have above : ∀ u, tree.Under u v → motive u := by
    intro u under
    induction left : tree.depth v - tree.depth u using Nat.strongRecOn
      generalizing u with
    | ind left induction =>
        subst left
        by_cases same : u = v
        · rw [same]
          exact goal
        · obtain ⟨c, parent, below⟩ := under.child same
          have lower := tree.deeper parent
          have bound := below.depth_le
          exact back u c (next_eq_some.mpr (.inl ⟨parent, below⟩))
            (induction _ (by omega) c below rfl)
  induction height : tree.depth u using Nat.strongRecOn generalizing u with
  | ind height induction =>
      subst height
      by_cases under : tree.Under u v
      · exact above u under
      · have different : u ≠ v := by
          rintro rfl
          exact under .refl
        obtain ⟨w, step⟩ := tree.exists_next different
        rcases next_eq_some.mp step with ⟨parent, below⟩ | ⟨parent, -⟩
        · exact absurd (below.of_child parent) under
        · exact back u w step (induction _ (tree.deeper parent) w rfl)

/-- A node without children lies only on ways that end at it. -/
theorem eq_of_next_childless (childless : ∀ x, tree.parent x ≠ some w)
    (step : tree.next u v = some w) : w = v := by
  rcases next_eq_some.mp step with ⟨-, under⟩ | ⟨parent, -⟩
  · by_contra different
    obtain ⟨c, parent, -⟩ := under.child different
    exact childless c parent
  · exact absurd parent (childless u)

end Next

end RootedTree

end SwitchPaxos

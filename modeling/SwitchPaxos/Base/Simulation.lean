import SwitchPaxos.Base.Run

/-!
# Simulation

One system simulates another along a view of its states: each of its steps is
a step of the other one, or changes nothing that the view shows.  Its runs are
then runs of the other system, from which what holds there can be read off.
-/

namespace SwitchPaxos.System

variable {σ τ ι κ : Type} {concrete : System σ ι} {abstract : System τ κ}
  {invariant : τ → Prop} {condition : σ → ι → Prop} {view : σ → τ}
  {seen : σ → ι → Option κ}

/-- The steps that meet a condition, from states that show the invariant, are
what is seen of them. -/
def Simulates (concrete : System σ ι) (abstract : System τ κ)
    (invariant : τ → Prop) (condition : σ → ι → Prop) (view : σ → τ)
    (seen : σ → ι → Option κ) : Prop :=
  ∀ state action, invariant (view state) → concrete.Enabled state action →
    condition state action →
    match seen state action with
    | some move => abstract.Enabled (view state) move ∧
        view (concrete.step state action) = abstract.step (view state) move
    | none => view (concrete.step state action) = view state

/-- All that is seen of a run. -/
def trace (concrete : System σ ι) (seen : σ → ι → Option κ) :
    σ → List ι → List κ
  | _, [] => []
  | state, action :: actions =>
      (seen state action).toList ++
        concrete.trace seen (concrete.step state action) actions

theorem trace_eq_filterMap (concrete : System σ ι) (seen : ι → Option κ)
    (start : σ) (actions : List ι) :
    concrete.trace (fun _ => seen) start actions = actions.filterMap seen := by
  induction actions generalizing start with
  | nil => rfl
  | cons action actions induction =>
      rw [trace, induction]
      cases found : seen action with
      | none => simp [found]
      | some move => simp [found]

theorem Simulates.step
    (simulates : concrete.Simulates abstract invariant condition view seen)
    (kept : ∀ state move, invariant state → abstract.Enabled state move →
      invariant (abstract.step state move))
    {state : σ} {action : ι} (holds : invariant (view state))
    (enabled : concrete.Enabled state action)
    (meets : condition state action) :
    invariant (view (concrete.step state action)) ∧
      abstract.Run (view state) (seen state action).toList ∧
      view (concrete.step state action) =
        abstract.after (view state) (seen state action).toList := by
  have matched := simulates state action holds enabled meets
  cases move : seen state action with
  | none =>
      rw [move] at matched
      have same : view (concrete.step state action) = view state := matched
      rw [same]
      exact ⟨holds, trivial, rfl⟩
  | some move' =>
      rw [move] at matched
      obtain ⟨possible, same⟩ := matched
      rw [same]
      exact ⟨kept _ _ holds possible, ⟨possible, trivial⟩, rfl⟩

/-- A run whose steps meet the condition is a run of the other system, which
keeps the invariant. -/
theorem Simulates.run
    (simulates : concrete.Simulates abstract invariant condition view seen)
    (kept : ∀ state move, invariant state → abstract.Enabled state move →
      invariant (abstract.step state move))
    {start : σ} {actions : List ι} (holds : invariant (view start))
    (run : concrete.Run start actions)
    (meets : concrete.Each condition start actions) :
    abstract.Run (view start) (concrete.trace seen start actions) ∧
      view (concrete.after start actions) =
        abstract.after (view start) (concrete.trace seen start actions) := by
  induction actions generalizing start with
  | nil => exact ⟨trivial, rfl⟩
  | cons action actions induction =>
      obtain ⟨holds', first, same⟩ :=
        simulates.step kept holds run.1 meets.1
      obtain ⟨rest, finish⟩ := induction holds' run.2 meets.2
      rw [same] at rest finish
      constructor
      · exact each_append.mpr ⟨first, rest⟩
      · rw [trace, after_append]
        exact finish

end SwitchPaxos.System

import Mathlib.Data.List.Induction

/-!
# Runs of a system

A system takes one action after the other.  Which actions are possible in a
state is a relation; the state an action leads to is a function, so every
choice of the environment (which message arrives, which answer a callback
gives) is part of the action.
-/

namespace SwitchPaxos

structure System (σ ι : Type) where
  Enabled : σ → ι → Prop
  step : σ → ι → σ

namespace System

variable {σ ι : Type}

/-- The state after the actions. -/
def after (system : System σ ι) (start : σ) (actions : List ι) : σ :=
  actions.foldl system.step start

/-- Every action meets the condition in the state it is taken in. -/
def Each (system : System σ ι) (condition : σ → ι → Prop) :
    σ → List ι → Prop
  | _, [] => True
  | state, action :: actions =>
      condition state action ∧
        system.Each condition (system.step state action) actions

/-- The actions form a run: each one is possible where it is taken. -/
def Run (system : System σ ι) (start : σ) (actions : List ι) : Prop :=
  system.Each system.Enabled start actions

variable {system : System σ ι} {condition : σ → ι → Prop} {start : σ}

@[simp] theorem after_nil : system.after start [] = start := rfl

@[simp] theorem after_cons (action : ι) (actions : List ι) :
    system.after start (action :: actions) =
      system.after (system.step start action) actions := rfl

@[simp] theorem after_append (first second : List ι) :
    system.after start (first ++ second) =
      system.after (system.after start first) second :=
  List.foldl_append

@[simp] theorem each_nil : system.Each condition start [] := trivial

@[simp] theorem each_append {first second : List ι} :
    system.Each condition start (first ++ second) ↔
      system.Each condition start first ∧
        system.Each condition (system.after start first) second := by
  induction first generalizing start with
  | nil => simp
  | cons action first induction => simp [Each, induction, and_assoc]

theorem each_snoc {actions : List ι} {action : ι} :
    system.Each condition start (actions ++ [action]) ↔
      system.Each condition start actions ∧
        condition (system.after start actions) action := by
  simp [Each]

theorem each_and {other : σ → ι → Prop} {actions : List ι} :
    system.Each (fun state action => condition state action ∧
        other state action) start actions ↔
      system.Each condition start actions ∧
        system.Each other start actions := by
  induction actions generalizing start with
  | nil => simp
  | cons action actions induction =>
      simp only [Each, induction]
      exact and_and_and_comm

theorem each_of_forall {actions : List ι}
    (meets : ∀ action ∈ actions, ∀ state, condition state action) :
    system.Each condition start actions := by
  induction actions generalizing start with
  | nil => trivial
  | cons action actions induction =>
      exact ⟨meets action List.mem_cons_self start,
        induction fun other member =>
          meets other (List.mem_cons_of_mem action member)⟩

instance decidableEach [∀ state action, Decidable (condition state action)] :
    (state : σ) → (actions : List ι) →
      Decidable (system.Each condition state actions)
  | _, [] => inferInstanceAs (Decidable True)
  | state, action :: actions =>
      have := decidableEach (system.step state action) actions
      inferInstanceAs (Decidable (_ ∧ _))

/-- What holds at the start and is kept by every step holds in every state a
run reaches. -/
theorem Run.invariant {invariant : σ → Prop} {actions : List ι}
    (run : system.Run start actions)
    (preserved : ∀ state action, invariant state →
      system.Enabled state action → invariant (system.step state action))
    (initial : invariant start) : invariant (system.after start actions) := by
  induction actions generalizing start with
  | nil => exact initial
  | cons action actions induction =>
      exact induction run.2 (preserved _ _ initial run.1)

/-- What relates the start to no action, and is kept by every step that meets
a condition and is added to those taken, relates the state a run of such steps
reaches to its actions. -/
theorem Run.history_of_each {invariant : σ → List ι → Prop} {actions : List ι}
    (run : system.Run start actions)
    (meets : system.Each condition start actions)
    (preserved : ∀ state earlier action, invariant state earlier →
      system.Enabled state action → condition state action →
      invariant (system.step state action) (earlier ++ [action]))
    (initial : invariant start []) :
    invariant (system.after start actions) actions := by
  induction actions using List.reverseRecOn with
  | nil => exact initial
  | append_singleton actions action induction =>
      obtain ⟨earlier, enabled⟩ := each_snoc.mp run
      obtain ⟨met, meets⟩ := each_snoc.mp meets
      rw [after_append]
      exact preserved _ _ _ (induction earlier met) enabled meets

theorem Run.history {invariant : σ → List ι → Prop} {actions : List ι}
    (run : system.Run start actions)
    (preserved : ∀ state earlier action, invariant state earlier →
      system.Enabled state action →
      invariant (system.step state action) (earlier ++ [action]))
    (initial : invariant start []) :
    invariant (system.after start actions) actions :=
  run.history_of_each run
    (fun state earlier action kept enabled _ =>
      preserved state earlier action kept enabled) initial

/-- If, at each state with the invariant, a step keeps a property exactly when
it meets a condition, then the runs that end with the property are exactly
those whose steps all meet the condition. -/
theorem Run.property_iff_each {invariant : σ → Prop}
    (property : σ → Prop) (condition : σ → ι → Prop) {actions : List ι}
    (run : system.Run start actions)
    (preserved : ∀ state action, invariant state →
      system.Enabled state action → invariant (system.step state action))
    (exactly : ∀ state action, invariant state → system.Enabled state action →
      (property (system.step state action) ↔
        property state ∧ condition state action))
    (initial : invariant start) (holds : property start) :
    property (system.after start actions) ↔
      system.Each condition start actions := by
  induction actions using List.reverseRecOn with
  | nil => exact ⟨fun _ => trivial, fun _ => holds⟩
  | append_singleton actions action induction =>
      obtain ⟨earlier, enabled⟩ := each_snoc.mp run
      have reached := Run.invariant earlier preserved initial
      rw [each_snoc, ← induction earlier, after_append]
      exact exactly _ _ reached enabled

/-- A property that a step keeps as long as it meets a condition holds after
every run whose steps all meet it. -/
theorem Run.property_of_each {invariant : σ → Prop} (property : σ → Prop)
    {actions : List ι} (run : system.Run start actions)
    (meets : system.Each condition start actions)
    (preserved : ∀ state action, invariant state →
      system.Enabled state action → invariant (system.step state action))
    (kept : ∀ state action, invariant state → system.Enabled state action →
      condition state action → property state →
      property (system.step state action))
    (initial : invariant start) (holds : property start) :
    property (system.after start actions) := by
  induction actions generalizing start with
  | nil => exact holds
  | cons action actions induction =>
      exact induction run.2 meets.2 (preserved _ _ initial run.1)
        (kept _ _ initial run.1 meets.1 holds)

/-- Two conditions on steps that agree as long as one of them was met are met
by the same runs. -/
theorem Run.each_iff_each {invariant : σ → Prop} {first second : σ → ι → Prop}
    {actions : List ι} (run : system.Run start actions)
    (agree : ∀ state action, invariant state → system.Enabled state action →
      (first state action ↔ second state action))
    (kept : ∀ state action, invariant state → system.Enabled state action →
      second state action → invariant (system.step state action))
    (initial : invariant start) :
    system.Each first start actions ↔ system.Each second start actions := by
  induction actions generalizing start with
  | nil => exact Iff.rfl
  | cons action actions induction =>
      simp only [Each]
      rw [agree start action initial run.1]
      refine and_congr_right fun meets => ?_
      exact induction run.2 (kept start action initial run.1 meets)

end System

end SwitchPaxos

import SwitchPaxos.Base.Handler

/-!
# Invariants of handlers

A handler keeps an invariant if every call from a state with the invariant
leaves a state with the invariant behind and performs allowed effects only,
whether it returns or ends in an exception.  There is one rule for each way to
build a handler.
-/

namespace SwitchPaxos.Handler

variable {σ τ ω ω' ε α β : Type}

/-- Calls from a state with the invariant keep it, and all of their effects are
allowed. -/
def Keeps (invariant : σ → Prop) (allowed : ω → Prop)
    (call : Handler σ ω ε α) : Prop :=
  ∀ state, invariant state →
    invariant (call state).state ∧ ∀ effect ∈ (call state).effects,
      allowed effect

section Rules

variable {invariant : σ → Prop} {allowed : ω → Prop}

theorem keeps_pure (value : α) :
    Keeps invariant allowed (pure value : Handler σ ω ε α) :=
  fun _ holds => ⟨holds, by simp⟩

theorem keeps_raise (exception : ε) :
    Keeps invariant allowed (raise exception : Handler σ ω ε α) :=
  fun _ holds => ⟨holds, by simp⟩

theorem keeps_lift (computation : Except ε α) :
    Keeps invariant allowed (lift computation : Handler σ ω ε α) :=
  fun _ holds => ⟨holds, by simp⟩

theorem keeps_emit {effect : ω} (permitted : allowed effect) :
    Keeps invariant allowed (emit effect : Handler σ ω ε Unit) :=
  fun _ holds => ⟨holds, by simpa using permitted⟩

theorem keeps_modify {change : σ → σ}
    (changed : ∀ state, invariant state → invariant (change state)) :
    Keeps invariant allowed (modify change : Handler σ ω ε Unit) :=
  fun state holds => ⟨changed state holds, by simp⟩

theorem Keeps.bind {call : Handler σ ω ε α} {next : α → Handler σ ω ε β}
    (first : Keeps invariant allowed call)
    (second : ∀ value, Keeps invariant allowed (next value)) :
    Keeps invariant allowed (call >>= next) := by
  intro state holds
  obtain ⟨reached, permitted⟩ := first state holds
  rw [bind_apply]
  rcases outcome : call state with ⟨result, middle, effects⟩
  rw [outcome] at reached permitted
  cases result with
  | error exception => exact ⟨reached, permitted⟩
  | ok value =>
      obtain ⟨final, later⟩ := second value middle reached
      refine ⟨final, ?_⟩
      intro effect member
      rw [Outcome.andThen_ok, Outcome.after_effects, List.mem_append] at member
      exact member.elim (permitted effect) (later effect)

theorem keeps_get {next : σ → Handler σ ω ε β}
    (rest : ∀ state, invariant state → Keeps invariant allowed (next state)) :
    Keeps invariant allowed (get >>= next) := by
  intro state holds
  have reached := rest state holds state holds
  rwa [bind_apply, get_apply, Outcome.andThen_ok, Outcome.after_nil]

theorem Keeps.ite {condition : Prop} [Decidable condition]
    {yes no : Handler σ ω ε α}
    (first : condition → Keeps invariant allowed yes)
    (second : ¬ condition → Keeps invariant allowed no) :
    Keeps invariant allowed (if condition then yes else no) := by
  split
  · next holds => exact first holds
  · next fails => exact second fails

theorem keeps_forEach {body : α → Handler σ ω ε Unit} (items : List α)
    (each : ∀ item, Keeps invariant allowed (body item)) :
    Keeps invariant allowed (forEach body items) := by
  induction items with
  | nil => exact keeps_pure ()
  | cons item items induction =>
      exact (each item).bind fun _ => induction

theorem Keeps.mono {more : ω → Prop} {call : Handler σ ω ε α}
    (keeps : Keeps invariant allowed call)
    (permits : ∀ effect, allowed effect → more effect) :
    Keeps invariant more call := by
  intro state holds
  obtain ⟨reached, permitted⟩ := keeps state holds
  exact ⟨reached, fun effect member => permits effect (permitted effect member)⟩

theorem keeps_anything (call : Handler σ ω ε α) :
    Keeps (fun _ => True) (fun _ => True) call :=
  fun _ _ => ⟨trivial, fun _ _ => trivial⟩

/-- A handler of a part of the state keeps an invariant of the whole if the
invariant says enough about the part. -/
theorem Keeps.zoom {whole : τ → Prop} {permitted : ω' → Prop} {view : τ → σ}
    {update : σ → τ → τ} {wrap : ω → ω'} {call : Handler σ ω ε α}
    (inner : Keeps invariant allowed call)
    (viewed : ∀ state, whole state → invariant (view state))
    (updated : ∀ part state, whole state → invariant part →
      whole (update part state))
    (wrapped : ∀ effect, allowed effect → permitted (wrap effect)) :
    Keeps whole permitted (call.zoom view update wrap) := by
  intro state holds
  obtain ⟨reached, allowedAll⟩ := inner (view state) (viewed state holds)
  refine ⟨updated _ _ holds reached, ?_⟩
  intro effect member
  obtain ⟨part, performed, rfl⟩ := List.mem_map.mp member
  exact wrapped part (allowedAll part performed)

end Rules

end SwitchPaxos.Handler

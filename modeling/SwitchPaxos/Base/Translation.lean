import SwitchPaxos.Base.Handler

/-!
# Handlers that say more than others

Two handlers may do the same in different terms: one of them sees a view of
the other's state, and tells each of its effects in several or in other words.
There is one rule for each way to build a handler.
-/

namespace SwitchPaxos.Handler

variable {σ τ ω ω' ε α β : Type}

/-- From a state with the first property the second handler does, in its terms,
what the first one does, which leaves a state with the second property unless
it raises. -/
def Translates (before after : σ → Prop) (view : σ → τ)
    (translate : ω → List ω') (first : Handler σ ω ε α)
    (second : Handler τ ω' ε α) : Prop :=
  ∀ state, before state →
    second (view state) =
        ⟨(first state).result, view (first state).state,
          (first state).effects.flatMap translate⟩ ∧
      ∀ value, (first state).result = .ok value → after (first state).state

section Rules

variable {before middle after : σ → Prop} {view : σ → τ}
  {translate : ω → List ω'}

theorem translates_pure (value : α) :
    Translates before before view translate
      (pure value : Handler σ ω ε α) (pure value) :=
  fun _ holds => ⟨rfl, fun _ _ => holds⟩

theorem translates_raise (exception : ε) :
    Translates before after view translate
      (raise exception : Handler σ ω ε α) (raise exception) := by
  intro state holds
  refine ⟨rfl, ?_⟩
  rintro value ⟨⟩

theorem translates_lift (computation : Except ε α) :
    Translates before before view translate
      (lift computation : Handler σ ω ε α) (lift computation) :=
  fun _ holds => ⟨rfl, fun _ _ => holds⟩

theorem translates_emit {effect : ω} {effect' : ω'}
    (same : translate effect = [effect']) :
    Translates before before view translate
      (emit effect : Handler σ ω ε Unit) (emit effect') := by
  intro state holds
  refine ⟨?_, fun _ _ => holds⟩
  simp [same]

theorem translates_modify {change : σ → σ} {change' : τ → τ}
    (same : ∀ state, before state → change' (view state) = view (change state))
    (changed : ∀ state, before state → after (change state)) :
    Translates before after view translate
      (modify change : Handler σ ω ε Unit) (modify change') := by
  intro state holds
  refine ⟨?_, fun _ _ => changed state holds⟩
  simp [same state holds]

theorem Translates.bind {call : Handler σ ω ε α} {call' : Handler τ ω' ε α}
    {next : α → Handler σ ω ε β} {next' : α → Handler τ ω' ε β}
    (first : Translates before middle view translate call call')
    (second : ∀ value,
      Translates middle after view translate (next value) (next' value)) :
    Translates before after view translate (call >>= next)
      (call' >>= next') := by
  intro state holds
  obtain ⟨same, reached⟩ := first state holds
  rw [bind_apply, bind_apply, same]
  rcases outcome : call state with ⟨result, state', effects⟩
  rw [outcome] at reached
  cases result with
  | error exception =>
      refine ⟨rfl, ?_⟩
      rintro value ⟨⟩
  | ok value =>
      obtain ⟨same', reached'⟩ := second value state' (reached value rfl)
      refine ⟨?_, reached'⟩
      simp [same']

theorem translates_get {next : σ → Handler σ ω ε β}
    {next' : τ → Handler τ ω' ε β}
    (rest : ∀ state, before state →
      Translates before after view translate (next state)
        (next' (view state))) :
    Translates before after view translate (get >>= next) (get >>= next') := by
  intro state holds
  have reached := rest state holds state holds
  simpa using reached

theorem Translates.ite {condition : Prop} [Decidable condition]
    {yes no : Handler σ ω ε α} {yes' no' : Handler τ ω' ε α}
    (first : condition → Translates before after view translate yes yes')
    (second : ¬ condition → Translates before after view translate no no') :
    Translates before after view translate (if condition then yes else no)
      (if condition then yes' else no') := by
  split
  · next holds => exact first holds
  · next fails => exact second fails

theorem translates_forEach {body : α → Handler σ ω ε Unit}
    {body' : α → Handler τ ω' ε Unit} (items : List α)
    (each : ∀ item,
      Translates before before view translate (body item) (body' item)) :
    Translates before before view translate (forEach body items)
      (forEach body' items) := by
  induction items with
  | nil => exact translates_pure ()
  | cons item items induction => exact (each item).bind fun _ => induction

theorem Translates.discard {first : Handler σ ω ε α}
    {second : Handler τ ω' ε α}
    (translates : Translates before after view translate first second) :
    Translates before (fun _ => True) view translate first second :=
  fun state holds => ⟨(translates state holds).1, fun _ _ => trivial⟩

end Rules

end SwitchPaxos.Handler

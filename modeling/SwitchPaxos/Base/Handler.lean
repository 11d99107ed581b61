import Mathlib.Data.List.Basic

/-!
# Handlers with a state, a log of effects and exceptions

An imperative handler reads and writes a state, leaves effects behind in the
order it performs them, and either returns a value or ends in an exception.
An exception does not undo anything: the state and the effects reached up to
that point stay.  This is the reading of a Python method whose assignments
survive the `raise` that follows them.
-/

namespace SwitchPaxos

/-- What one call of a handler leaves behind. -/
structure Outcome (σ ω ε α : Type) where
  result : Except ε α
  state : σ
  effects : List ω

/-- A handler is run from the state it finds. -/
def Handler (σ ω ε α : Type) : Type := σ → Outcome σ ω ε α

namespace Outcome

variable {σ ω ε α β : Type}

/-- Put effects that were performed earlier in front. -/
def after (earlier : List ω) (outcome : Outcome σ ω ε α) : Outcome σ ω ε α :=
  { outcome with effects := earlier ++ outcome.effects }

/-- Continue after a call, unless the call ended in an exception. -/
def andThen (outcome : Outcome σ ω ε α) (next : α → Handler σ ω ε β) :
    Outcome σ ω ε β :=
  match outcome.result with
  | .ok value => (next value outcome.state).after outcome.effects
  | .error exception => ⟨.error exception, outcome.state, outcome.effects⟩

/-- The call ended in an exception. -/
def Raised (outcome : Outcome σ ω ε α) : Prop :=
  ∃ exception, outcome.result = .error exception

@[simp] theorem after_nil (outcome : Outcome σ ω ε α) :
    outcome.after [] = outcome := rfl

@[simp] theorem after_state (earlier : List ω) (outcome : Outcome σ ω ε α) :
    (outcome.after earlier).state = outcome.state := rfl

@[simp] theorem after_result (earlier : List ω) (outcome : Outcome σ ω ε α) :
    (outcome.after earlier).result = outcome.result := rfl

@[simp] theorem after_effects (earlier : List ω) (outcome : Outcome σ ω ε α) :
    (outcome.after earlier).effects = earlier ++ outcome.effects := rfl

@[simp] theorem after_mk (earlier : List ω) (result : Except ε α) (state : σ)
    (effects : List ω) :
    after earlier ⟨result, state, effects⟩ =
      ⟨result, state, earlier ++ effects⟩ := rfl

@[simp] theorem andThen_ok (value : α) (state : σ) (effects : List ω)
    (next : α → Handler σ ω ε β) :
    andThen ⟨.ok value, state, effects⟩ next =
      (next value state).after effects := rfl

@[simp] theorem andThen_error (exception : ε) (state : σ) (effects : List ω)
    (next : α → Handler σ ω ε β) :
    andThen (⟨.error exception, state, effects⟩ : Outcome σ ω ε α) next =
      ⟨.error exception, state, effects⟩ := rfl

@[simp] theorem after_andThen (earlier : List ω) (outcome : Outcome σ ω ε α)
    (next : α → Handler σ ω ε β) :
    (outcome.after earlier).andThen next =
      (outcome.andThen next).after earlier := by
  obtain ⟨result, state, effects⟩ := outcome
  cases result with
  | ok value => simp [after, List.append_assoc]
  | error exception => rfl

@[simp] theorem raised_after (earlier : List ω) (outcome : Outcome σ ω ε α) :
    (outcome.after earlier).Raised ↔ outcome.Raised := Iff.rfl

@[simp] theorem raised_error (exception : ε) (state : σ) (effects : List ω) :
    Raised (⟨.error exception, state, effects⟩ : Outcome σ ω ε α) :=
  ⟨exception, rfl⟩

@[simp] theorem not_raised_ok (value : α) (state : σ) (effects : List ω) :
    ¬ Raised (⟨.ok value, state, effects⟩ : Outcome σ ω ε α) := by
  rintro ⟨exception, equality⟩
  cases equality

end Outcome

namespace Handler

variable {σ τ ω ω' ε α β : Type}

instance : Monad (Handler σ ω ε) where
  pure value := fun state => ⟨.ok value, state, []⟩
  bind call next := fun state => (call state).andThen next

/-- The state as it is now. -/
def get : Handler σ ω ε σ := fun state => ⟨.ok state, state, []⟩

def modify (change : σ → σ) : Handler σ ω ε Unit :=
  fun state => ⟨.ok (), change state, []⟩

def emit (effect : ω) : Handler σ ω ε Unit :=
  fun state => ⟨.ok (), state, [effect]⟩

def raise (exception : ε) : Handler σ ω ε α :=
  fun state => ⟨.error exception, state, []⟩

/-- A computation that touches neither the state nor the log. -/
def lift (computation : Except ε α) : Handler σ ω ε α :=
  fun state => ⟨computation, state, []⟩

/-- The value, or an exception where there is none. -/
def ofOption (exception : ε) : Option α → Handler σ ω ε α
  | some value => fun state => ⟨.ok value, state, []⟩
  | none => raise exception

/-- Raise an exception unless a test passes. -/
def require (exception : ε) (test : Bool) : Handler σ ω ε Unit :=
  if test then fun state => ⟨.ok (), state, []⟩ else raise exception

/-- Run a handler of a part of the state. -/
def zoom (view : τ → σ) (update : σ → τ → τ) (wrap : ω → ω')
    (call : Handler σ ω ε α) : Handler τ ω' ε α := fun whole =>
  let outcome := call (view whole)
  ⟨outcome.result, update outcome.state whole, outcome.effects.map wrap⟩

@[simp] theorem pure_apply (value : α) (state : σ) :
    (pure value : Handler σ ω ε α) state = ⟨.ok value, state, []⟩ := rfl

@[simp] theorem bind_apply (call : Handler σ ω ε α) (next : α → Handler σ ω ε β)
    (state : σ) : (call >>= next) state = (call state).andThen next := rfl

@[simp] theorem get_apply (state : σ) :
    (get : Handler σ ω ε σ) state = ⟨.ok state, state, []⟩ := rfl

@[simp] theorem modify_apply (change : σ → σ) (state : σ) :
    (modify change : Handler σ ω ε Unit) state = ⟨.ok (), change state, []⟩ :=
  rfl

@[simp] theorem emit_apply (effect : ω) (state : σ) :
    (emit effect : Handler σ ω ε Unit) state = ⟨.ok (), state, [effect]⟩ := rfl

@[simp] theorem raise_apply (exception : ε) (state : σ) :
    (raise exception : Handler σ ω ε α) state =
      ⟨.error exception, state, []⟩ := rfl

@[simp] theorem lift_apply (computation : Except ε α) (state : σ) :
    (lift computation : Handler σ ω ε α) state =
      ⟨computation, state, []⟩ := rfl

@[simp] theorem ofOption_some (exception : ε) (value : α) (state : σ) :
    (ofOption exception (some value) : Handler σ ω ε α) state =
      ⟨.ok value, state, []⟩ := rfl

@[simp] theorem ofOption_none (exception : ε) (state : σ) :
    (ofOption exception none : Handler σ ω ε α) state =
      ⟨.error exception, state, []⟩ := rfl

theorem require_apply (exception : ε) (test : Bool) (state : σ) :
    (require exception test : Handler σ ω ε Unit) state =
      ⟨if test then .ok () else .error exception, state, []⟩ := by
  cases test <;> rfl

@[simp] theorem ite_apply (condition : Prop) [Decidable condition]
    (yes no : Handler σ ω ε α) (state : σ) :
    (if condition then yes else no) state =
      if condition then yes state else no state := by
  split <;> rfl

@[simp] theorem map_ok (change : α → β) (value : α) :
    Except.map change (.ok value : Except ε α) = .ok (change value) := rfl

@[simp] theorem map_error (change : α → β) (exception : ε) :
    Except.map change (.error exception : Except ε α) = .error exception := rfl

@[simp] theorem map_eq_error_iff {change : α → β} {computation : Except ε α}
    {exception : ε} :
    Except.map change computation = .error exception ↔
      computation = .error exception := by
  cases computation <;> simp

@[simp] theorem andThen_pure (outcome : Outcome σ ω ε α) (value : α → β) :
    (outcome.andThen fun result => pure (value result)) =
      ⟨outcome.result.map value, outcome.state, outcome.effects⟩ := by
  obtain ⟨result, state, effects⟩ := outcome
  cases result <;> simp [Outcome.andThen, Except.map]

/-- Perform a handler for each item, in order, until one of them raises. -/
def forEach (body : α → Handler σ ω ε Unit) : List α → Handler σ ω ε Unit
  | [] => pure ()
  | item :: items => do
      body item
      forEach body items

theorem forEach_emit (effect : α → ω) (body : α → Handler σ ω ε Unit)
    (state : σ) (items : List α)
    (emits : ∀ item ∈ items, body item state = ⟨.ok (), state, [effect item]⟩) :
    forEach body items state = ⟨.ok (), state, items.map effect⟩ := by
  induction items with
  | nil => rfl
  | cons item items induction =>
      have first := emits item (by simp)
      have rest := induction fun other member => emits other (by simp [member])
      simp [forEach, first, rest]

/-- A loop whose body raises on the first item performs nothing else. -/
theorem forEach_raise {exception : ε} (body : α → Handler σ ω ε Unit)
    (state : σ) (items : List α) (some : items ≠ [])
    (raises : ∀ item ∈ items, body item state = ⟨.error exception, state, []⟩) :
    forEach body items state = ⟨.error exception, state, []⟩ := by
  cases items with
  | nil => exact absurd rfl some
  | cons item items => simp [forEach, raises item (by simp)]

/-- A loop over two lists in a row runs over the second one after the first,
unless an exception stops the first. -/
theorem forEach_append (body : α → Handler σ ω ε Unit) (first second : List α)
    (state : σ) :
    forEach body (first ++ second) state =
      (forEach body first state).andThen fun _ => forEach body second := by
  induction first generalizing state with
  | nil => simp [forEach]
  | cons item first induction =>
      rcases reached : body item state with ⟨result, next, effects⟩
      cases result with
      | ok value => simp [forEach, reached, induction]
      | error exception => simp [forEach, reached]

end Handler

end SwitchPaxos

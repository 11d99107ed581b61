import Mathlib.Data.Set.Basic

/-!
# Parties that get to know each other

Parties tell each other who they are.  Who asks to join tells all that asked
before, and who gets to know somebody tells it in return.  Messages to parties
that are not there yet may be lost, and the others arrive in any order; when
none is left on its way, all that asked know each other.
-/

namespace SwitchPaxos

/-- Who asked to join, who knows whom, and who is about to hear of whom. -/
structure Acquaintance (ι : Type) where
  asked : Set ι
  knows : ι → ι → Prop
  coming : ι → ι → Prop

namespace Acquaintance

variable {ι : Type} {before after : Acquaintance ι} {i j : ι}

/-- A party knows another, or is about to hear of it. -/
def Meets (parties : Acquaintance ι) (i j : ι) : Prop :=
  parties.knows i j ∨ parties.coming i j

/-- Who knows a party is known to it or about to be, and of two that asked, one
knows the other or is about to. -/
structure Mutual (parties : Acquaintance ι) : Prop where
  answered : ∀ i j, i ≠ j → parties.knows i j → parties.Meets j i
  asked : ∀ i ∈ parties.asked, ∀ j ∈ parties.asked, i ≠ j →
    parties.Meets i j ∨ parties.Meets j i

/-- What every step has to see to: nobody is forgotten, a message that is gone
was read, whoever is new to a party is told of it, and so are those that asked
when another asks. -/
structure Step (before after : Acquaintance ι) : Prop where
  known : ∀ i j, before.knows i j → after.knows i j
  delivered : ∀ i j, before.coming i j → after.Meets i j
  answers : ∀ i j, i ≠ j → after.knows i j →
    before.knows i j ∨ after.Meets j i
  introduces : ∀ i ∈ after.asked, i ∈ before.asked ∨
    ∀ j ∈ after.asked, j ≠ i → after.Meets j i

theorem Step.meets (step : Step before after) (meets : before.Meets i j) :
    after.Meets i j := by
  rcases meets with knows | coming
  · exact .inl (step.known i j knows)
  · exact step.delivered i j coming

theorem Mutual.step (tied : before.Mutual) (step : Step before after) :
    after.Mutual := by
  constructor
  · intro i j different knows
    rcases step.answers i j different knows with earlier | told
    · exact step.meets (tied.answered i j different earlier)
    · exact told
  · intro i first j second different
    rcases step.introduces i first with earlier | told
    · rcases step.introduces j second with earlier' | told
      · exact (tied.asked i earlier j earlier' different).imp step.meets
          step.meets
      · exact .inl (told i first different)
    · exact .inr (told j second different.symm)

/-- When nothing is on its way, those that asked know each other. -/
theorem Mutual.knows (tied : after.Mutual)
    (quiet : ∀ i j, ¬ after.coming i j) (first : i ∈ after.asked)
    (second : j ∈ after.asked) (different : i ≠ j) : after.knows i j := by
  have known : ∀ {i j}, after.Meets i j → after.knows i j :=
    fun meets => meets.resolve_right (quiet _ _)
  rcases tied.asked i first j second different with meets | meets
  · exact known meets
  · exact known (tied.answered j i different.symm (known meets))

end Acquaintance

end SwitchPaxos

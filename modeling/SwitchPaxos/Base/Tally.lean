import Mathlib.Data.Finset.Card
import Mathlib.Data.List.TakeWhile

/-!
# Voices of a round

Parties announce rounds, in any order and as often as they like.  A round
gathers the parties that announced it for as long as nobody announces a later
one.
-/

namespace SwitchPaxos

variable {α : Type}

/-- The parties that announced a round. -/
def voices [DecidableEq α] (round : ℕ) (heard : List (ℕ × α)) : Finset α :=
  ((heard.filter fun announced => announced.1 = round).map Prod.snd).toFinset

/-- What was heard before anybody announced a later round. -/
def upTo (round : ℕ) (heard : List (ℕ × α)) : List (ℕ × α) :=
  heard.takeWhile fun announced => announced.1 ≤ round

/-- A quorum announced some round before anybody announced a later one. -/
def Quorate [DecidableEq α] (quorum : ℕ) (heard : List (ℕ × α)) : Prop :=
  ∃ round, quorum ≤ (voices round (upTo round heard)).card

variable {round quorum : ℕ} {heard more : List (ℕ × α)} {last : ℕ × α}

theorem upTo_of_forall_le
    (below : ∀ announced ∈ heard, announced.1 ≤ round) :
    upTo round heard = heard := by
  rw [upTo, List.takeWhile_eq_self_iff]
  intro announced member
  exact decide_eq_true (below announced member)

theorem upTo_append_of_lt {later : ℕ × α} (member : later ∈ heard)
    (closed : round < later.1) :
    upTo round (heard ++ more) = upTo round heard := by
  induction heard with
  | nil => cases member
  | cons first heard induction =>
      by_cases within : first.1 ≤ round
      · rcases List.mem_cons.mp member with rfl | member
        · omega
        · simp [upTo, within] at induction ⊢
          exact induction member
      · simp [upTo, within]

theorem upTo_subset_append : upTo round heard ⊆ upTo round (heard ++ more) := by
  by_cases below : ∀ announced ∈ heard, announced.1 ≤ round
  · rw [upTo_of_forall_le below, upTo, List.takeWhile_append_of_pos]
    · exact List.subset_append_left _ _
    · intro announced member
      exact decide_eq_true (below announced member)
  · push Not at below
    obtain ⟨later, member, closed⟩ := below
    rw [upTo_append_of_lt member closed]
    exact List.Subset.refl _

variable [DecidableEq α]

@[simp] theorem mem_voices {party : α} :
    party ∈ voices round heard ↔ (round, party) ∈ heard := by
  simp only [voices, List.mem_toFinset, List.mem_map, List.mem_filter,
    decide_eq_true_eq]
  constructor
  · rintro ⟨⟨announced, party⟩, ⟨member, rfl⟩, rfl⟩
    exact member
  · intro member
    exact ⟨(round, party), ⟨member, rfl⟩, rfl⟩

theorem voices_mono (subset : heard ⊆ more) :
    voices round heard ⊆ voices round more := by
  intro party member
  rw [mem_voices] at member ⊢
  exact subset member

theorem voices_snoc :
    voices round (heard ++ [last]) =
      if last.1 = round then insert last.2 (voices round heard)
      else voices round heard := by
  obtain ⟨announced, party⟩ := last
  ext other
  by_cases same : announced = round
  · subst same
    rw [if_pos rfl, Finset.mem_insert, mem_voices, mem_voices,
      List.mem_append, List.mem_singleton, Prod.mk.injEq, or_comm]
    simp
  · have different : round ≠ announced := fun equal => same equal.symm
    rw [if_neg same, mem_voices, mem_voices, List.mem_append,
      List.mem_singleton, Prod.mk.injEq]
    simp [different]

theorem Quorate.append (quorate : Quorate quorum heard) :
    Quorate quorum (heard ++ more) := by
  obtain ⟨round, enough⟩ := quorate
  exact ⟨round, enough.trans
    (Finset.card_le_card (voices_mono upTo_subset_append))⟩

/-- Where no quorum was there before, the last announcement completes one only
in its own round, and only if that is the latest. -/
theorem quorate_snoc (before : ¬ Quorate quorum heard) :
    Quorate quorum (heard ++ [last]) ↔
      (∀ announced ∈ heard, announced.1 ≤ last.1) ∧
        quorum ≤ (voices last.1 (heard ++ [last])).card := by
  constructor
  · rintro ⟨round, enough⟩
    by_cases below : ∀ announced ∈ heard, announced.1 ≤ round
    · by_cases own : last.1 = round
      · refine ⟨fun announced member => own ▸ below announced member, ?_⟩
        have all : ∀ announced ∈ heard ++ [last], announced.1 ≤ round := by
          intro announced member
          rcases List.mem_append.mp member with earlier | here
          · exact below announced earlier
          · rw [List.mem_singleton.mp here]
            exact own.le
        rwa [upTo_of_forall_le all, ← own] at enough
      · -- The last announcement is none of this round's.
        refine absurd ⟨round, enough.trans (Finset.card_le_card ?_)⟩ before
        have unchanged : voices round (upTo round (heard ++ [last])) ⊆
            voices round (heard ++ [last]) :=
          voices_mono (List.takeWhile_prefix _).subset
        rw [voices_snoc, if_neg own] at unchanged
        rwa [upTo_of_forall_le below]
    · push Not at below
      obtain ⟨later, member, closed⟩ := below
      rw [upTo_append_of_lt member closed] at enough
      exact absurd ⟨round, enough⟩ before
  · rintro ⟨below, enough⟩
    refine ⟨last.1, ?_⟩
    rwa [upTo_of_forall_le]
    intro announced member
    rcases List.mem_append.mp member with earlier | here
    · exact below announced earlier
    · rw [List.mem_singleton.mp here]

end SwitchPaxos

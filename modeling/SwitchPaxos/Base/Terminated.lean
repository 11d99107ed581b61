import Mathlib.Data.List.TakeWhile

/-!
# Words with a terminator

If each word ends with a letter that is nowhere else in it, one can tell the
words from what they are joined to.
-/

namespace SwitchPaxos

variable {α : Type}

/-- The word ends with the letter, which is not in it before. -/
def Terminated (letter : α) (word : List α) : Prop :=
  ∃ body, letter ∉ body ∧ word = body ++ [letter]

namespace Terminated

variable [DecidableEq α] {letter : α} {word word' rest rest' : List α}

theorem takeWhile_append (terminated : Terminated letter word)
    (rest : List α) :
    (word ++ rest).takeWhile (· ≠ letter) ++ [letter] = word := by
  obtain ⟨body, absent, rfl⟩ := terminated
  have others : ∀ other ∈ body, decide (other ≠ letter) = true := by
    intro other member
    rw [decide_eq_true_iff]
    rintro rfl
    exact absent member
  rw [List.append_assoc, List.takeWhile_append_of_pos others]
  simp

theorem append_inj (first : Terminated letter word)
    (second : Terminated letter word') (same : word ++ rest = word' ++ rest') :
    word = word' ∧ rest = rest' := by
  have words : word = word' := by
    rw [← first.takeWhile_append rest, same, second.takeWhile_append]
  subst words
  exact ⟨rfl, List.append_cancel_left same⟩

omit [DecidableEq α] in
theorem ne_nil (terminated : Terminated letter word) : word ≠ [] := by
  obtain ⟨body, -, rfl⟩ := terminated
  exact List.append_ne_nil_of_right_ne_nil body (List.cons_ne_nil _ _)

/-- Words that are joined can be told apart again. -/
theorem flatten_inj {first second : List (List α)}
    (terminated : ∀ word ∈ first, Terminated letter word)
    (terminated' : ∀ word ∈ second, Terminated letter word)
    (same : first.flatten = second.flatten) : first = second := by
  induction first generalizing second with
  | nil =>
      cases second with
      | nil => rfl
      | cons word second =>
          have empty := (List.append_eq_nil_iff.mp same.symm).1
          exact absurd empty (terminated' word List.mem_cons_self).ne_nil
  | cons word first induction =>
      obtain ⟨head, tail⟩ := List.forall_mem_cons.mp terminated
      cases second with
      | nil =>
          have empty := (List.append_eq_nil_iff.mp same).1
          exact absurd empty head.ne_nil
      | cons word' second =>
          obtain ⟨head', tail'⟩ := List.forall_mem_cons.mp terminated'
          obtain ⟨rfl, rest⟩ := head.append_inj head' same
          rw [induction tail tail' rest]

end Terminated

end SwitchPaxos

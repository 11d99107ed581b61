import Mathlib.Data.Finset.Sort
import Mathlib.Data.List.Sort

/-!
# Sorting a finite set by computation

`Finset.sort` sorts by merging, which the kernel does not unfold.  The same
list computed by insertion evaluates on concrete sets.
-/

namespace SwitchPaxos

variable {α : Type} [LinearOrder α]

/-- The elements of a set in increasing order. -/
def sorted (items : Finset α) : List α :=
  Quot.liftOn items.val (List.insertionSort (· ≤ ·)) fun left right same =>
    List.Perm.eq_of_pairwise' (List.pairwise_insertionSort _ _)
      (List.pairwise_insertionSort _ _)
      (((List.perm_insertionSort _ left).trans same).trans
        (List.perm_insertionSort _ right).symm)

theorem coe_sorted (items : Finset α) :
    (sorted items : Multiset α) = items.val := by
  obtain ⟨values, nodup⟩ := items
  induction values using Quotient.inductionOn with
  | h values =>
      exact Multiset.coe_eq_coe.mpr (List.perm_insertionSort _ values)

theorem sorted_eq_sort (items : Finset α) : sorted items = items.sort := by
  refine List.Perm.eq_of_pairwise' (r := (· ≤ ·)) ?_
    (Finset.pairwise_sort items _) ?_
  · obtain ⟨values, nodup⟩ := items
    induction values using Quotient.inductionOn with
    | h values => exact List.pairwise_insertionSort _ values
  · apply Multiset.coe_eq_coe.mp
    rw [coe_sorted, Finset.sort_eq]

@[simp] theorem mem_sorted {items : Finset α} {item : α} :
    item ∈ sorted items ↔ item ∈ items := by
  simp [sorted_eq_sort]

theorem sorted_nodup (items : Finset α) : (sorted items).Nodup := by
  rw [sorted_eq_sort]
  exact Finset.sort_nodup items _

@[simp] theorem length_sorted (items : Finset α) :
    (sorted items).length = items.card := by
  simp [sorted_eq_sort]

theorem le_of_getLast?_sorted {items : Finset α} {last : α}
    (found : (sorted items).getLast? = some last) :
    last ∈ items ∧ ∀ item ∈ items, item ≤ last := by
  obtain ⟨before, whole⟩ := List.getLast?_eq_some_iff.mp found
  refine ⟨mem_sorted.mp (List.mem_of_getLast? found), ?_⟩
  intro item member
  have inOrder : (sorted items).Pairwise (· ≤ ·) := by
    rw [sorted_eq_sort]
    exact Finset.pairwise_sort items _
  have listed := mem_sorted.mpr member
  rw [whole] at inOrder listed
  rcases List.mem_append.mp listed with earlier | here
  · exact (List.pairwise_append.mp inOrder).2.2 item earlier last
      (List.mem_singleton_self last)
  · exact (List.mem_singleton.mp here).le

example : sorted ({3, 1, 2} : Finset ℕ) = [1, 2, 3] := by decide

theorem filterMap_pick {β γ : Type} [DecidableEq β] {items : List β}
    (nodup : items.Nodup) (item : β) (value : β → Option γ) :
    items.filterMap (fun other => if other = item then value other else none) =
      if item ∈ items then (value item).toList else [] := by
  induction items with
  | nil => rfl
  | cons first items induction =>
      obtain ⟨fresh, nodup⟩ := List.nodup_cons.mp nodup
      by_cases same : first = item
      · subst same
        rw [List.filterMap_cons, if_pos rfl, induction nodup, if_neg fresh,
          if_pos List.mem_cons_self]
        cases value first <;> rfl
      · have different : item ≠ first := fun equal => same equal.symm
        simp [same, different, induction nodup]

end SwitchPaxos

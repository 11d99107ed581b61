import Mathlib.Data.List.AList

/-!
# Dictionaries

A Python dictionary is a list of entries with different keys.
-/

namespace SwitchPaxos

abbrev Dict (κ ν : Type) : Type := AList fun _ : κ => ν

namespace Dict

variable {κ ν : Type} [DecidableEq κ]

/-- A dictionary as it is written down, `{key: value, ...}`. -/
def display (items : List (κ × ν)) : Dict κ ν :=
  items.foldl (fun dict item => dict.insert item.1 item.2) ∅

/-- The values, in the order of the entries. -/
def values (dict : Dict κ ν) : List ν := dict.entries.map Sigma.snd

/-- The keys that hold one value. -/
def keysOf [DecidableEq ν] (dict : Dict κ ν) (value : ν) : List κ :=
  (dict.entries.filter fun entry => entry.2 = value).map Sigma.fst

/-- Delete every key that passes a test. -/
def discard (test : κ → Bool) (dict : Dict κ ν) : Dict κ ν :=
  dict.keys.foldl (fun rest key => if test key then rest.erase key else rest)
    dict

theorem lookup_insert_eq (dict : Dict κ ν) (key other : κ) (value : ν) :
    (dict.insert key value).lookup other =
      if other = key then some value else dict.lookup other := by
  split
  · next same => subst same; exact AList.lookup_insert dict
  · next different => exact AList.lookup_insert_ne different

private theorem lookup_foldl_erase (test : κ → Bool) (keys : List κ)
    (dict : Dict κ ν) (key : κ) :
    (keys.foldl (fun rest key => if test key then rest.erase key else rest)
      dict).lookup key =
      if key ∈ keys ∧ test key then none else dict.lookup key := by
  induction keys generalizing dict with
  | nil => simp
  | cons head keys induction =>
      rw [List.foldl_cons, induction]
      by_cases same : key = head
      · subst same
        by_cases passes : test key <;> simp [passes]
      · by_cases passes : test head
        · simp [passes, same, AList.lookup_erase_ne same]
        · simp [passes, same]

theorem lookup_discard (test : κ → Bool) (dict : Dict κ ν) (key : κ) :
    (dict.discard test).lookup key =
      if test key then none else dict.lookup key := by
  rw [discard, lookup_foldl_erase]
  by_cases member : key ∈ dict.keys
  · simp [member]
  · have absent : dict.lookup key = none :=
      AList.lookup_eq_none.mpr fun present => member present
    simp [member, absent]

theorem mem_keysOf [DecidableEq ν] {dict : Dict κ ν} {key : κ} {value : ν} :
    key ∈ dict.keysOf value ↔ dict.lookup key = some value := by
  rw [← Option.mem_def, AList.mem_lookup_iff]
  simp only [keysOf, List.mem_map, List.mem_filter, decide_eq_true_eq]
  constructor
  · rintro ⟨⟨key, found⟩, ⟨member, rfl⟩, rfl⟩
    exact member
  · intro member
    exact ⟨⟨key, value⟩, ⟨member, rfl⟩, rfl⟩

theorem mem_values {dict : Dict κ ν} {value : ν} :
    value ∈ dict.values ↔ ∃ key, dict.lookup key = some value := by
  simp only [← Option.mem_def, AList.mem_lookup_iff, values, List.mem_map]
  constructor
  · rintro ⟨⟨key, found⟩, member, rfl⟩
    exact ⟨key, member⟩
  · rintro ⟨key, member⟩
    exact ⟨⟨key, value⟩, member, rfl⟩

theorem mem_values_insert {dict : Dict κ ν} {key : κ} {value other : ν}
    (member : other ∈ Dict.values (dict.insert key value)) :
    other = value ∨ other ∈ dict.values := by
  obtain ⟨found, holds⟩ := mem_values.mp member
  rw [lookup_insert_eq] at holds
  by_cases same : found = key
  · rw [if_pos same] at holds
    exact .inl (Option.some.inj holds).symm
  · rw [if_neg same] at holds
    exact .inr (mem_values.mpr ⟨found, holds⟩)

end Dict

end SwitchPaxos

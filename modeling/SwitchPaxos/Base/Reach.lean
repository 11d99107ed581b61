import SwitchPaxos.Base.Run

/-!
# What a system can be led to

A scheduler leads a system from one state to another if it chooses the actions
of a run among those that it is allowed to take.  This is how one says that a
system is never stuck: wherever it is, it can still be led to its goal.
-/

namespace SwitchPaxos.System

variable {σ ι : Type} (system : System σ ι) (allowed : ι → Prop)

/-- The allowed actions of some run lead from one state to the other. -/
def Leads (start finish : σ) : Prop :=
  ∃ actions, system.Run start actions ∧
    (∀ action ∈ actions, allowed action) ∧
    system.after start actions = finish

variable {system allowed}

namespace Leads

theorem refl (start : σ) : system.Leads allowed start start :=
  ⟨[], trivial, by simp, rfl⟩

theorem single {start : σ} {action : ι} (enabled : system.Enabled start action)
    (may : allowed action) :
    system.Leads allowed start (system.step start action) :=
  ⟨[action], ⟨enabled, trivial⟩, by simpa using may, rfl⟩

theorem trans {start middle finish : σ}
    (first : system.Leads allowed start middle)
    (second : system.Leads allowed middle finish) :
    system.Leads allowed start finish := by
  obtain ⟨earlier, run, may, rfl⟩ := first
  obtain ⟨later, run', may', rfl⟩ := second
  refine ⟨earlier ++ later, each_append.mpr ⟨run, run'⟩, ?_,
    after_append earlier later⟩
  intro action member
  rcases List.mem_append.mp member with before | after
  · exact may action before
  · exact may' action after

theorem invariant {invariant : σ → Prop} {start finish : σ}
    (leads : system.Leads allowed start finish)
    (preserved : ∀ state action, invariant state →
      system.Enabled state action → allowed action →
      invariant (system.step state action))
    (initial : invariant start) : invariant finish := by
  obtain ⟨actions, run, may, rfl⟩ := leads
  induction actions generalizing start with
  | nil => exact initial
  | cons action actions induction =>
      apply induction
      · exact preserved _ _ initial run.1 (may action List.mem_cons_self)
      · exact run.2
      · exact fun other member => may other (List.mem_cons_of_mem action member)

/-- A goal that can be reached for one item after the other can be reached for
all of them. -/
theorem forEach {α : Type} (done : List α → σ → Prop) (items : List α)
    (next : ∀ earlier item rest state, items = earlier ++ item :: rest →
      done earlier state →
      ∃ later, system.Leads allowed state later ∧
        done (earlier ++ [item]) later)
    {start : σ} (initial : done [] start) :
    ∃ finish, system.Leads allowed start finish ∧ done items finish := by
  have upTo : ∀ earlier rest, items = earlier ++ rest →
      ∃ finish, system.Leads allowed start finish ∧ done earlier finish := by
    intro earlier
    induction earlier using List.reverseRecOn with
    | nil => exact fun _ _ => ⟨start, .refl start, initial⟩
    | append_singleton earlier item induction =>
        intro rest split
        rw [List.append_assoc] at split
        obtain ⟨state, led, reached⟩ := induction _ split
        obtain ⟨later, further, goal⟩ :=
          next earlier item rest state split reached
        exact ⟨later, led.trans further, goal⟩
  exact upTo items [] (List.append_nil items).symm

/-- Where some allowed action makes a measure smaller as long as the goal is
not reached, the goal can be reached. -/
theorem of_decreasing {invariant goal : σ → Prop} (measure : σ → ℕ)
    (preserved : ∀ state action, invariant state →
      system.Enabled state action → invariant (system.step state action))
    (next : ∀ state, invariant state → ¬ goal state →
      ∃ action, system.Enabled state action ∧ allowed action ∧
        measure (system.step state action) < measure state)
    {start : σ} (initial : invariant start) :
    ∃ finish, system.Leads allowed start finish ∧ goal finish := by
  induction size : measure start using Nat.strongRecOn
    generalizing start with
  | ind size induction =>
      subst size
      by_cases reached : goal start
      · exact ⟨start, .refl start, reached⟩
      · obtain ⟨action, enabled, may, smaller⟩ := next start initial reached
        obtain ⟨finish, led, goal⟩ :=
          induction _ smaller (preserved start action initial enabled) rfl
        exact ⟨finish, (Leads.single enabled may).trans led, goal⟩

end Leads

end SwitchPaxos.System

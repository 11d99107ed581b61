import SwitchPaxos.Base.Channel
import Mathlib.Algebra.BigOperators.Group.Finset.Piecewise
import Mathlib.Algebra.BigOperators.Ring.Nat
import Mathlib.Algebra.Order.BigOperators.Group.Finset

/-!
# The load of channels

What is under way between some parties, each message with its weight.  The
load shrinks as long as a message that arrives weighs more than what its
receiver sends because of it.
-/

namespace SwitchPaxos.Channels

variable {ι μ : Type} [DecidableEq ι]

def load (weight : μ → ℕ) (parties : Finset ι) (channels : Channels ι μ) :
    ℕ :=
  ∑ link ∈ parties ×ˢ parties, ((channels link.1 link.2).map weight).sum

variable {weight : μ → ℕ} {parties : Finset ι} {channels : Channels ι μ}
  {src dst : ι} {message : μ}

theorem load_receive (sender : src ∈ parties) (receiver : dst ∈ parties)
    (oldest : (channels src dst).head? = some message) :
    (channels.receive src dst).load weight parties + weight message =
      channels.load weight parties := by
  have link : (src, dst) ∈ parties ×ˢ parties :=
    Finset.mem_product.mpr ⟨sender, receiver⟩
  have others : ∀ other ∈ (parties ×ˢ parties).erase (src, dst),
      ((channels.receive src dst other.1 other.2).map weight).sum =
        ((channels other.1 other.2).map weight).sum := by
    intro other member
    have different : ¬ (other.1 = src ∧ other.2 = dst) := fun same =>
      Finset.ne_of_mem_erase member (Prod.ext same.1 same.2)
    rw [receive_of_ne different]
  obtain ⟨rest, split⟩ : ∃ rest, channels src dst = message :: rest := by
    cases queue : channels src dst with
    | nil =>
        rw [queue] at oldest
        cases oldest
    | cons first rest =>
        rw [queue] at oldest
        cases oldest
        exact ⟨rest, rfl⟩
  unfold load
  rw [← Finset.add_sum_erase _ _ link, ← Finset.add_sum_erase _ _ link,
    Finset.sum_congr rfl others, receive_self, split]
  simp only [List.tail_cons, List.map_cons, List.sum_cons]
  omega

/-- What is sent is shared out among the receivers. -/
private theorem sum_filter_le (address : μ → ι) (messages : List μ) :
    ∑ party ∈ parties, ((messages.filter fun message =>
      address message = party).map weight).sum ≤
        (messages.map weight).sum := by
  induction messages with
  | nil => simp
  | cons message messages induction =>
      have each : ∀ party, (((message :: messages).filter fun message =>
          address message = party).map weight).sum =
            (if address message = party then weight message else 0) +
              ((messages.filter fun message =>
                address message = party).map weight).sum := by
        intro party
        by_cases here : address message = party <;> simp [here]
      have once : ∑ party ∈ parties,
          (if address message = party then weight message else 0) ≤
            weight message := by
        rw [Finset.sum_ite_eq]
        split
        · exact le_rfl
        · exact Nat.zero_le _
      simp only [each, Finset.sum_add_distrib, List.map_cons, List.sum_cons]
      exact Nat.add_le_add once induction

theorem load_send_le (address : μ → ι) (messages : List μ) :
    (channels.send src address messages).load weight parties ≤
      channels.load weight parties + (messages.map weight).sum := by
  have each : ∀ link : ι × ι,
      ((channels.send src address messages link.1 link.2).map weight).sum =
        ((channels link.1 link.2).map weight).sum +
          if link.1 = src then ((messages.filter fun message =>
            address message = link.2).map weight).sum else 0 := by
    intro link
    by_cases sends : link.1 = src
    · rw [sends, send_self]
      simp
    · rw [send_of_ne sends]
      simp [sends]
  unfold load
  simp only [each, Finset.sum_add_distrib]
  apply Nat.add_le_add_left
  rw [Finset.sum_product]
  calc ∑ first ∈ parties, ∑ second ∈ parties,
        (if first = src then ((messages.filter fun message =>
          address message = second).map weight).sum else 0)
      = ∑ first ∈ parties, if first = src then
          ∑ second ∈ parties, ((messages.filter fun message =>
            address message = second).map weight).sum else 0 := by
        apply Finset.sum_congr rfl
        intro first _
        split
        · rfl
        · exact Finset.sum_const_zero
    _ ≤ ∑ second ∈ parties, ((messages.filter fun message =>
          address message = second).map weight).sum := by
        rw [Finset.sum_ite_eq']
        split
        · exact le_rfl
        · exact Nat.zero_le _
    _ ≤ (messages.map weight).sum := sum_filter_le address messages

end SwitchPaxos.Channels

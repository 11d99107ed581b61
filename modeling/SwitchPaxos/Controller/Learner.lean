import SwitchPaxos.Base.Tally
import SwitchPaxos.Controller.NodeSpec

/-!
# The learner of a slot

`on_learn` lets four kinds of LEARN pass without counting them and drops its
count when a later round begins.  What it learns from any number of messages
is a quorum that spoke up in one round before a later round was heard of.
-/

namespace SwitchPaxos

namespace Slot

variable {heard : List (ℕ × EthAddr)} {slot : Slot} {n : ℕ} {src : EthAddr}

/-- The slot after a LEARN. -/
def hear (slot : Slot) (learn : ℕ × EthAddr) : Slot :=
  (slot.onLearn learn.1 learn.2).getD slot

/-- A slot that learned keeps what it learned; one that did not counts those
that spoke in the latest round. -/
structure Counts (nodeCount : ℕ) (heard : List (ℕ × EthAddr)) (slot : Slot) :
    Prop where
  nodes : slot.nodeCount = nodeCount
  learned : slot.learned = true ↔ Quorate (1 + nodeCount / 2) heard
  latest : slot.learned = false →
    ∀ learn ∈ heard, learn.1 ≤ slot.hrnd
  heardOf : slot.learned = false → slot.hrnd ≠ 0 →
    ∃ learn ∈ heard, learn.1 = slot.hrnd
  learns : slot.learned = false → slot.learns = voices slot.hrnd heard

theorem counts_new (vrnd : Option ℕ) (vval : Option Bytes) (nodeCount : ℕ) :
    (Slot.new vrnd vval nodeCount).Counts nodeCount [] := by
  refine ⟨rfl, ?_, ?_, ?_, ?_⟩
  · rw [not_learned_new]
    constructor
    · intro impossible
      cases impossible
    · rintro ⟨round, enough⟩
      exact absurd enough (by simp [upTo, voices])
  · intro _ learn member
    cases member
  · intro _ later
    exact absurd rfl later
  · intro _
    rfl

theorem onLearn_of_learned (learned : slot.learned = true) :
    slot.onLearn n src = none := by
  rw [onLearn, if_pos learned]

theorem onLearn_of_lt (stale : n < slot.hrnd) : slot.onLearn n src = none := by
  rw [onLearn, if_pos stale, ite_self]

theorem onLearn_of_mem (current : slot.hrnd = n)
    (duplicate : src ∈ slot.learns) :
    slot.onLearn n src = none := by
  subst current
  simp [onLearn, duplicate]

theorem onLearn_of_gt (notYet : slot.learned = false) (newer : slot.hrnd < n) :
    slot.onLearn n src = some { slot with hrnd := n, learns := {src} } := by
  have fresh : ¬ n < slot.hrnd := by omega
  simp [onLearn, notYet, fresh, newer, resetLearns, updateLearns]

theorem onLearn_of_not_mem (notYet : slot.learned = false)
    (current : slot.hrnd = n) (first : src ∉ slot.learns) :
    slot.onLearn n src =
      some { slot with learns := insert src slot.learns } := by
  subst current
  simp [onLearn, notYet, first, updateLearns]

theorem Counts.extend {nodeCount : ℕ} (counts : slot.Counts nodeCount heard)
    (notYet : slot.learned = false) {slot' : Slot}
    (sameCount : slot'.nodeCount = nodeCount) (round : slot'.hrnd = n)
    (notStale : slot.hrnd ≤ n)
    (learns : slot'.learns = voices n (heard ++ [(n, src)])) :
    slot'.Counts nodeCount (heard ++ [(n, src)]) := by
  have below : ∀ learn ∈ heard, learn.1 ≤ n := fun learn member =>
    (counts.latest notYet learn member).trans notStale
  have notBefore : ¬ Quorate (1 + nodeCount / 2) heard := by
    rw [← counts.learned, notYet]
    exact Bool.false_ne_true
  refine ⟨sameCount, ?_, ?_, ?_, ?_⟩
  · rw [quorate_snoc notBefore, ← learns]
    simp only [Slot.learned, votes, requiredLearns, sameCount,
      decide_eq_true_eq]
    exact ⟨fun enough => ⟨below, enough⟩, fun both => both.2⟩
  · intro _ learn member
    rw [round]
    rcases List.mem_append.mp member with earlier | here
    · exact below learn earlier
    · rw [List.mem_singleton.mp here]
  · intro _ _
    exact ⟨(n, src), by simp, round.symm⟩
  · intro _
    rw [round, learns]

theorem Counts.ignore {nodeCount : ℕ} (counts : slot.Counts nodeCount heard)
    (notYet : slot.learned = false) (stale : n < slot.hrnd) :
    slot.Counts nodeCount (heard ++ [(n, src)]) := by
  have notBefore : ¬ Quorate (1 + nodeCount / 2) heard := by
    rw [← counts.learned, notYet]
    exact Bool.false_ne_true
  obtain ⟨later, member, round⟩ := counts.heardOf notYet (by omega)
  refine ⟨counts.nodes, ?_, ?_, ?_, ?_⟩
  · rw [quorate_snoc notBefore, notYet]
    constructor
    · intro impossible
      cases impossible
    · rintro ⟨below, -⟩
      have := below later member
      omega
  · intro _ learn among
    rcases List.mem_append.mp among with earlier | here
    · exact counts.latest notYet learn earlier
    · rw [List.mem_singleton.mp here]
      exact stale.le
  · intro _ _
    exact ⟨later, List.mem_append_left _ member, round⟩
  · intro _
    rw [voices_snoc, if_neg stale.ne, counts.learns notYet]

/-- One LEARN, along the four exits of `on_learn`. -/
theorem Counts.hear {nodeCount : ℕ} (counts : slot.Counts nodeCount heard)
    (learn : ℕ × EthAddr) :
    (slot.hear learn).Counts nodeCount (heard ++ [learn]) := by
  obtain ⟨n, src⟩ := learn
  cases already : slot.learned with
  | true =>
      have quorate : Quorate _ (heard ++ [(n, src)]) :=
        (counts.learned.mp already).append
      have kept : slot.hear (n, src) = slot := by
        rw [Slot.hear, onLearn_of_learned already, Option.getD_none]
      rw [kept]
      have never : slot.learned ≠ false := by simp [already]
      exact ⟨counts.nodes, ⟨fun _ => quorate, fun _ => already⟩,
        fun notYet => absurd notYet never, fun notYet => absurd notYet never,
        fun notYet => absurd notYet never⟩
  | false =>
      rcases lt_trichotomy n slot.hrnd with stale | current | newer
      · rw [Slot.hear, onLearn_of_lt stale, Option.getD_none]
        exact counts.ignore already stale
      · have known := counts.learns already
        by_cases duplicate : src ∈ slot.learns
        · rw [Slot.hear, onLearn_of_mem current.symm duplicate,
            Option.getD_none]
          refine counts.extend already counts.nodes current.symm
            current.ge ?_
          rw [known, ← current, mem_voices] at duplicate
          rw [known, voices_snoc, if_pos rfl, ← current,
            Finset.insert_eq_of_mem (mem_voices.mpr duplicate)]
        · rw [Slot.hear, onLearn_of_not_mem already current.symm duplicate,
            Option.getD_some]
          refine counts.extend already counts.nodes current.symm
            current.ge ?_
          rw [voices_snoc, if_pos rfl, known, ← current]
      · rw [Slot.hear, onLearn_of_gt already newer, Option.getD_some]
        refine counts.extend already counts.nodes rfl newer.le ?_
        have nobody : voices n heard = ∅ := by
          rw [Finset.eq_empty_iff_forall_notMem]
          intro party member
          have := counts.latest already _ (mem_voices.mp member)
          simp only at this
          omega
        rw [voices_snoc, if_pos rfl, nobody, insert_empty_eq]

theorem Counts.foldl {nodeCount : ℕ} (counts : slot.Counts nodeCount heard)
    (more : List (ℕ × EthAddr)) :
    (more.foldl Slot.hear slot).Counts nodeCount (heard ++ more) := by
  induction more generalizing heard slot with
  | nil => simpa using counts
  | cons learn more induction =>
      have next := induction (counts.hear learn)
      rwa [List.append_assoc] at next

end Slot

namespace PaxosController

/-- A call of `on_learn`, with the answers of `process_message` in it. -/
structure LearnCall where
  answer : ℕ → Bool
  event : Option PacketIn
  message : Bytes

/-- The node after calls of `on_learn`. -/
def learnAll (self : PaxosController) (calls : List LearnCall) :
    PaxosController :=
  calls.foldl
    (fun self call => (onLearn call.answer call.event call.message self).state)
    self

/-- The LEARN for a slot that a call brings to a node: well formed and meant
for the node. -/
def learnFor (seqno : ℕ) (self : PaxosController) (call : LearnCall) :
    Option (ℕ × EthAddr) :=
  match PaxosMessage.unpackLearn call.message with
  | .ok (n, other) =>
      if other = seqno ∧ self.Addressed call.event then
        some (n, (self.getEtherAddrs call.event).1)
      else none
  | .error _ => none

variable {self : PaxosController} {seqno : ℕ}

theorem mac_onLearn (call : LearnCall) :
    (onLearn call.answer call.event call.message self).state.mac =
      self.mac := by
  rcases onLearn_cases call.answer call.event call.message self with
    ⟨n, other, -, -, counted⟩ | ⟨result, ignored⟩
  · rw [counted, learnFrom_apply]
    rfl
  · rw [ignored]

theorem slotAt_onLearn (call : LearnCall) :
    (onLearn call.answer call.event call.message
      self).state.state.slots.slotAt seqno =
        (self.learnFor seqno call).toList.foldl Slot.hear
          (self.state.slots.slotAt seqno) := by
  unfold learnFor
  cases decoded : PaxosMessage.unpackLearn call.message with
  | error failure => rw [onLearn_malformed decoded]; rfl
  | ok fields =>
      obtain ⟨n, other⟩ := fields
      by_cases addressed : self.Addressed call.event
      · rw [onLearn_addressed call.answer decoded addressed, learnFrom_apply]
        simp only [slots_withSlots, Slots.slotAt_learn]
        by_cases same : other = seqno
        · subst same
          simp [addressed, Slot.hear]
        · have different : seqno ≠ other := fun equal => same equal.symm
          simp [same, different]
      · rw [onLearn_ignored decoded addressed]
        simp [addressed]

theorem learnFor_congr {other : PaxosController} (same : other.mac = self.mac)
    (call : LearnCall) :
    other.learnFor seqno call = self.learnFor seqno call := by
  have addrs : other.getEtherAddrs call.event =
      self.getEtherAddrs call.event := by
    simp only [getEtherAddrs, same]
  have meant : other.Addressed call.event ↔ self.Addressed call.event := by
    simp only [Addressed, addrs, same]
  simp only [learnFor, addrs, meant]

theorem slotAt_learnAll (calls : List LearnCall) :
    (self.learnAll calls).state.slots.slotAt seqno =
      (calls.filterMap (self.learnFor seqno)).foldl Slot.hear
        (self.state.slots.slotAt seqno) := by
  induction calls generalizing self with
  | nil => rfl
  | cons call calls induction =>
      have next : ∀ other,
          (onLearn call.answer call.event call.message
            self).state.learnFor seqno other = self.learnFor seqno other :=
        learnFor_congr (mac_onLearn call)
      rw [learnAll, List.foldl_cons, ← learnAll, induction,
        slotAt_onLearn call, funext next]
      cases hears : self.learnFor seqno call <;> simp [hears]

/-- A fresh slot is learned after any calls of `on_learn` exactly if a quorum
of senders is heard in one round before a later round is heard of, and it
stays learned. -/
theorem learned_iff_quorate {vrnd : Option ℕ} {vval : Option Bytes}
    {nodeCount : ℕ}
    (fresh : self.state.slots.slotAt seqno = Slot.new vrnd vval nodeCount)
    (calls : List LearnCall) :
    (((self.learnAll calls).state.slots.slotAt seqno).learned = true ↔
      Quorate (1 + nodeCount / 2)
        (calls.filterMap (self.learnFor seqno))) ∧
    (((self.learnAll calls).state.slots.slotAt seqno).learned = true →
      ∀ more, ((self.learnAll
        (calls ++ more)).state.slots.slotAt seqno).learned = true) := by
  have learned : ∀ calls,
      ((self.learnAll calls).state.slots.slotAt seqno).learned = true ↔
        Quorate (1 + nodeCount / 2)
          (calls.filterMap (self.learnFor seqno)) := by
    intro calls
    rw [slotAt_learnAll, fresh]
    exact ((Slot.counts_new vrnd vval nodeCount).foldl _).learned
  refine ⟨learned calls, fun already more => ?_⟩
  rw [learned, List.filterMap_append]
  exact ((learned calls).mp already).append

/-- Of three nodes two send LEARN in round 5, and one of round 4 comes in
between. -/
theorem learned_iff_quorate_three :
    let node : PaxosController :=
      { PaxosController.new 1
          { ports := {65534}
            desc := fun _ => ⟨1, "S1"⟩
            nonempty := localPort_nonempty } false with
        state := { PaxosState.new 1 with slots := Slots.new 3 } }
    let learn := fun (src : EthAddr) (n : UInt8) =>
      (⟨fun _ => true,
        some (Frame.upcall ⟨src, 1, PaxosMessage.LEARN, []⟩ 1),
        [0, 0, 0, n, 0, 0, 0, 0]⟩ : LearnCall)
    let calls := [learn 2 5, learn 3 4, learn 3 5]
    ((node.learnAll calls).state.slots.slotAt 0).learned = true ∧
      ∀ more, ((node.learnAll
        (calls ++ more)).state.slots.slotAt 0).learned = true := by
  intro node learn calls
  have fresh : node.state.slots.slotAt 0 = Slot.new none none 3 := rfl
  have learned := (learned_iff_quorate fresh calls).1.mpr ⟨5, by decide⟩
  exact ⟨learned, (learned_iff_quorate fresh calls).2 learned⟩

end PaxosController

end SwitchPaxos

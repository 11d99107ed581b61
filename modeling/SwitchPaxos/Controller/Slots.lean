import SwitchPaxos.Base.Dict
import SwitchPaxos.Base.Handler
import SwitchPaxos.Wire.Message
import Mathlib.Data.Finset.Card

/-!
# The slot store

One `Slot` per sequence number holds the acceptor's vote and the learner's
count; `Slots` holds them together with the position `cseq` of the queue and
the set of processed rounds and sequence numbers.  An operation is one step
here, as the store holds its mutex for it, so the assertions that the mutex is
locked hold.

That a handler and a turn of a background thread are one step each as well is
an assumption: `on_accept` writes to the slot that it got from `get_slot` when
the mutex is free again, and `add_node` counts the nodes before it takes it.
-/

namespace SwitchPaxos

structure Slot where
  -- Acceptor
  vrnd : Option ℕ
  vval : Option Bytes
  -- Learner
  learns : Finset EthAddr
  hrnd : ℕ
  nodeCount : ℕ
deriving DecidableEq

namespace Slot

def new (vrnd : Option ℕ) (vval : Option Bytes) (nodeCount : ℕ) : Slot :=
  { vrnd, vval, learns := ∅, hrnd := 0, nodeCount }

def resetLearns (slot : Slot) : Slot := { slot with learns := ∅ }

def votes (slot : Slot) : ℕ := slot.learns.card

def updateLearns (src : EthAddr) (slot : Slot) : Slot :=
  { slot with learns := insert src slot.learns }

def requiredLearns (slot : Slot) : ℕ := 1 + slot.nodeCount / 2

def learned (slot : Slot) : Bool := slot.requiredLearns ≤ slot.votes

/-- What `on_learn` does to the slot before it goes on to the queue, or
nothing where it returns.  A slot that was just reset counts nobody, so the
return for a duplicate leaves the slot as it was found. -/
def onLearn (n : ℕ) (src : EthAddr) (slot : Slot) : Option Slot :=
  if slot.learned then none
  else if n < slot.hrnd then none
  else
    let slot :=
      if slot.hrnd < n then ({ slot with hrnd := n }).resetLearns else slot
    if slot.hrnd = n then
      if src ∉ slot.learns then some (slot.updateLearns src) else none
    else some slot

/-- The vote of an acceptor. -/
def vote (n : ℕ) (v : Bytes) (slot : Slot) : Slot :=
  { slot with vrnd := some n, vval := some v }

/-- The acceptor's half of a slot. -/
def ballot (slot : Slot) : Option ℕ × Option Bytes := (slot.vrnd, slot.vval)

@[simp] theorem ballot_new (vrnd : Option ℕ) (vval : Option Bytes)
    (nodeCount : ℕ) : (new vrnd vval nodeCount).ballot = (vrnd, vval) := rfl

@[simp] theorem ballot_vote (n : ℕ) (v : Bytes) (slot : Slot) :
    (slot.vote n v).ballot = (some n, some v) := rfl

@[simp] theorem learned_vote (n : ℕ) (v : Bytes) (slot : Slot) :
    (slot.vote n v).learned = slot.learned := rfl

theorem not_learned_new (vrnd : Option ℕ) (vval : Option Bytes)
    (nodeCount : ℕ) : (new vrnd vval nodeCount).learned = false := by
  simp [learned, new, votes, requiredLearns]

/-- A LEARN that is counted leaves the slot in its round, with the sender
among those counted and nobody new but the sender. -/
theorem onLearn_some {n : ℕ} {src : EthAddr} {slot slot' : Slot}
    (counted : slot.onLearn n src = some slot') :
    slot.learned = false ∧ slot.hrnd ≤ n ∧
      ∃ learns, learns ⊆ slot.learns ∧ (slot.hrnd = n ∨ learns = ∅) ∧
        slot' = { slot with hrnd := n, learns := insert src learns } := by
  unfold onLearn at counted
  by_cases learned : slot.learned
  · simp [learned] at counted
  by_cases stale : n < slot.hrnd
  · simp [learned, stale] at counted
  simp only [Bool.not_eq_true] at learned
  refine ⟨learned, by omega, ?_⟩
  by_cases newer : slot.hrnd < n
  · refine ⟨∅, by simp, .inr rfl, ?_⟩
    simp [learned, stale, newer, resetLearns, updateLearns] at counted
    exact counted.symm
  have current : slot.hrnd = n := by omega
  by_cases duplicate : src ∈ slot.learns
  · simp [learned, current, duplicate] at counted
  · refine ⟨slot.learns, subset_rfl, .inl current, ?_⟩
    simp [learned, current, duplicate, updateLearns] at counted
    exact counted.symm

theorem ballot_onLearn {n : ℕ} {src : EthAddr} {slot slot' : Slot}
    (counted : slot.onLearn n src = some slot') :
    slot'.ballot = slot.ballot := by
  obtain ⟨-, -, learns, -, -, rfl⟩ := onLearn_some counted
  rfl

end Slot

structure Slots where
  slots : Dict ℕ Slot
  nodeCount : ℕ
  cseq : ℕ
  processed : Finset (ℕ × ℕ)

/-- One call of `process_message` and its answer. -/
structure Handed where
  n : ℕ
  seqno : ℕ
  vval : Option Bytes
  answer : Bool
deriving DecidableEq

namespace Slots

def new (nodeCount : ℕ) : Slots :=
  { slots := ∅, nodeCount, cseq := 0, processed := ∅ }

def isProcessed (n seqno : ℕ) (slots : Slots) : Bool :=
  (n, seqno) ∈ slots.processed

def setProcessed (n seqno : ℕ) (slots : Slots) : Slots :=
  { slots with processed := insert (n, seqno) slots.processed }

/-- The generator advances once the loop over it asks for the next slot. -/
def advance (slots : Slots) : Slots := { slots with cseq := slots.cseq + 1 }

/-- Write a slot back: the source updates the object in place. -/
def putSlot (seqno : ℕ) (slot : Slot) (slots : Slots) : Slots :=
  { slots with slots := slots.slots.insert seqno slot }

def getSlot (seqno : ℕ) (slots : Slots) : Slot × Slots :=
  match slots.slots.lookup seqno with
  | some slot => (slot, slots)
  | none =>
      let slot := Slot.new none none slots.nodeCount
      (slot, slots.putSlot seqno slot)

def garbageCollect (n : ℕ) (slots : Slots) : Slots :=
  { slots with
    slots := slots.slots.discard fun seqno => slots.isProcessed n seqno }

/-- The source walks over the keys of the store and sets an attribute on each
of them; a key is a number, so the first one ends the walk. -/
def updateNodeCount (nodeCount : ℕ) : Handler Slots Handed Failure Unit := do
  Handler.modify fun slots => { slots with nodeCount }
  let slots ← Handler.get
  if slots.slots.keys = [] then pure () else Handler.raise .noAttribute

/-- The loop of `process_queue(n)` over the generator `queue(n)`, with the
answers `process_message` gives.  The body of the loop repeats the assertion
of the generator. -/
def walk (answer : ℕ → Bool) (n : ℕ) :
    ℕ → Handler Slots Handed Failure Unit
  | 0 => pure ()
  | fuel + 1 => do
      let slots ← Handler.get
      match slots.slots.lookup slots.cseq with
      | none => pure ()
      | some slot =>
          if slots.isProcessed n slots.cseq then
            Handler.raise .assertNotProcessed
          else if slot.learned then do
            Handler.emit ⟨n, slots.cseq, slot.vval, answer slots.cseq⟩
            if answer slots.cseq then do
              Handler.modify (setProcessed n slots.cseq)
              Handler.modify advance
              walk answer n fuel
            else pure ()
          else pure ()

/-- Each stored slot is passed at most once in a walk. -/
def processQueue (answer : ℕ → Bool) (n : ℕ) :
    Handler Slots Handed Failure Unit := do
  let slots ← Handler.get
  walk answer n slots.slots.keys.length

end Slots

end SwitchPaxos

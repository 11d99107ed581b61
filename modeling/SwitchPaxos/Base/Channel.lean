import Mathlib.Data.List.Induction
import Mathlib.Data.List.Range

/-!
# Channels

A network without loss keeps, for each ordered pair of parties, the messages
under way from one to the other, the oldest first.  A channel may be used to
send word of something only after it was used to hand that thing over; the
receiver then knows of everything it is told.
-/

namespace SwitchPaxos

/-- What is under way from one party to another, the oldest first. -/
abbrev Channels (ι μ : Type) : Type := ι → ι → List μ

namespace Channels

variable {ι μ : Type} [DecidableEq ι]

/-- The oldest message arrives. -/
def receive (src dst : ι) (channels : Channels ι μ) : Channels ι μ :=
  fun first second =>
    if first = src ∧ second = dst then (channels first second).tail
    else channels first second

/-- A party sends messages to the parties they are addressed to. -/
def send (src : ι) (address : μ → ι) (messages : List μ)
    (channels : Channels ι μ) : Channels ι μ :=
  fun first second =>
    if first = src then
      channels first second ++ messages.filter fun message =>
        address message = second
    else channels first second

variable {channels : Channels ι μ} {src dst first second : ι} {message : μ}

theorem mem_of_mem_receive
    (member : message ∈ channels.receive src dst first second) :
    message ∈ channels first second := by
  unfold receive at member
  split at member
  · exact List.mem_of_mem_tail member
  · exact member

theorem receive_of_ne (other : ¬ (first = src ∧ second = dst)) :
    channels.receive src dst first second = channels first second :=
  if_neg other

theorem receive_self :
    channels.receive src dst src dst = (channels src dst).tail :=
  if_pos ⟨rfl, rfl⟩

theorem mem_send {address : μ → ι} {messages : List μ} :
    message ∈ channels.send src address messages first second ↔
      message ∈ channels first second ∨
        (first = src ∧ message ∈ messages ∧ address message = second) := by
  unfold send
  split
  · next same => simp [same]
  · next other => simp [other]

theorem send_of_ne {address : μ → ι} {messages : List μ}
    (other : first ≠ src) :
    channels.send src address messages first second = channels first second :=
  if_neg other

theorem send_self {address : μ → ι} {messages : List μ} :
    channels.send src address messages src second =
      channels src second ++ messages.filter fun message =>
        address message = second :=
  if_pos rfl

@[simp] theorem send_nil {address : μ → ι} :
    channels.send src address [] = channels := by
  funext first second
  simp [send]

end Channels

section Heralded

variable {μ β : Type} (heralds tells : μ → β → Prop)

/-- Whatever a message tells of is known when it arrives, where each message
that arrives makes known what it heralds. -/
def Heralded : (β → Prop) → List μ → Prop
  | _, [] => True
  | known, message :: messages =>
      (∀ item, tells message item → known item) ∧
        Heralded (fun item => known item ∨ heralds message item) messages

variable {heralds tells} {known known' : β → Prop}

theorem Heralded.mono {messages : List μ}
    (heralded : Heralded heralds tells known messages)
    (more : ∀ item, known item → known' item) :
    Heralded heralds tells known' messages := by
  induction messages generalizing known known' with
  | nil => trivial
  | cons message messages induction =>
      refine ⟨fun item told => more item (heralded.1 item told), ?_⟩
      exact induction heralded.2 fun item => Or.imp_left (more item)

theorem Heralded.tail {messages : List μ}
    (heralded : Heralded heralds tells known messages)
    (more : ∀ item, known item → known' item)
    (learnt : ∀ message, messages.head? = some message →
      ∀ item, heralds message item → known' item) :
    Heralded heralds tells known' messages.tail := by
  cases messages with
  | nil => trivial
  | cons message messages =>
      refine heralded.2.mono fun item known => ?_
      exact known.elim (more item) (learnt message rfl item)

theorem heralded_of_known {messages : List μ}
    (all : ∀ message ∈ messages, ∀ item, tells message item → known item) :
    Heralded heralds tells known messages := by
  induction messages generalizing known with
  | nil => trivial
  | cons message messages induction =>
      refine ⟨all message List.mem_cons_self, ?_⟩
      apply induction
      intro other member item told
      exact .inl (all other (List.mem_cons_of_mem _ member) item told)

theorem heralded_append {first second : List μ} :
    Heralded heralds tells known (first ++ second) ↔
      Heralded heralds tells known first ∧
        Heralded heralds tells
          (fun item => known item ∨ ∃ message ∈ first, heralds message item)
          second := by
  induction first generalizing known with
  | nil => simp [Heralded]
  | cons message first induction =>
      simp [Heralded, induction, and_assoc, or_assoc]

theorem heralded_announce {first second : List μ}
    (silent : ∀ message ∈ first, ∀ item, ¬ tells message item)
    (announced : ∀ message ∈ second, ∀ item, tells message item →
      ∃ earlier ∈ first, heralds earlier item) :
    Heralded heralds tells known (first ++ second) := by
  rw [heralded_append]
  constructor
  · apply heralded_of_known
    intro message member item told
    exact absurd told (silent message member item)
  · apply heralded_of_known
    intro message member item told
    exact .inr (announced message member item told)

end Heralded

/-- A list whose keys are consecutive, taken out of a list with increasing
keys from the same key on, is a prefix of it. -/
theorem prefix_of_consecutive {β : Type} {part whole : List (ℕ × β)}
    {first count : ℕ}
    (increasing : whole.Pairwise fun earlier later => earlier.1 < later.1)
    (from_first : ∀ entry ∈ whole, first ≤ entry.1)
    (keys : part.map Prod.fst = List.range' first count)
    (subset : ∀ entry ∈ part, entry ∈ whole) : part <+: whole := by
  induction part generalizing whole first count with
  | nil => exact List.nil_prefix
  | cons entry part induction =>
      cases count with
      | zero => simp at keys
      | succ count =>
          simp only [List.map_cons, List.range'_succ, List.cons.injEq] at keys
          obtain ⟨key, keys⟩ := keys
          cases whole with
          | nil => exact absurd (subset entry List.mem_cons_self) (by simp)
          | cons head whole =>
              obtain ⟨below, rest⟩ := List.pairwise_cons.mp increasing
              -- The first key is the smallest one of both lists.
              have same : entry = head := by
                rcases List.mem_cons.mp (subset entry List.mem_cons_self) with
                  here | later
                · exact here
                · have above := below entry later
                  have least := from_first head List.mem_cons_self
                  omega
              subst same
              refine List.cons_prefix_cons.mpr ⟨rfl, ?_⟩
              apply induction rest _ keys
              · intro other member
                have later : other.1 ∈ part.map Prod.fst :=
                  List.mem_map_of_mem member
                rw [keys, List.mem_range'_1] at later
                rcases List.mem_cons.mp
                  (subset other (List.mem_cons_of_mem _ member)) with
                  here | inWhole
                · rw [here] at later
                  omega
                · exact inWhole
              · intro other member
                have above := below other member
                omega

end SwitchPaxos

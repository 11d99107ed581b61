import SwitchPaxos.Base.Dict
import SwitchPaxos.Base.Run
import SwitchPaxos.Base.Sorted
import Mathlib.Algebra.Order.Field.Rat
import Mathlib.Data.String.Basic

/-!
# Measuring round trips

`rtt-udp` sends numbered messages and waits until three hosts answered each of
them.  The loop that prints a row runs over the addresses of the hosts with the
variable that holds the destination of the messages.
-/

namespace SwitchPaxos.RttUdp

structure Datagram where
  host : String
  port : ℕ
  n : ℕ
  data : String
  -- What the clock said before
  time : ℚ
deriving DecidableEq

/-- An answer, and what the clock said when it was received. -/
structure Reply where
  rip : String
  seq : ℕ
  now : ℚ
deriving DecidableEq

structure Row where
  n : ℕ
  rtts : List ℚ
deriving DecidableEq

/-- Where the program is: before a message, in the loop that receives, at the
end, or ended by an exception. -/
inductive Phase where
  | sending
  | receiving
  | returned
  | raised
deriving DecidableEq

/-- The variables of `send`, and what it sent, received and printed. -/
structure Send where
  host : String
  port : ℕ
  its : ℕ
  data : String
  n : ℕ
  start : Dict ℕ ℚ
  rtts : Dict ℕ (Dict String ℚ)
  phase : Phase
  sent : List Datagram
  received : List Reply
  printed : List Row

namespace Send

/-- The next number of the loop over `xrange(its)`, if there is one. -/
def goOn (n : ℕ) (self : Send) : Send :=
  { self with
    n
    phase := if n < self.its then .sending else .returned }

/-- `send` as it is called. -/
def new (host : String) (port its : ℕ) (data : String) : Send :=
  goOn 0
    { host, port, its, data
      n := 0
      start := ∅
      rtts := ∅
      phase := .sending
      sent := []
      received := []
      printed := [] }

/-- Print the row of the message; `for host in ...` sets `host`. -/
def printRow (rtts : Dict String ℚ) (self : Send) : Send :=
  let hosts := sorted rtts.keys.toFinset
  { self with
    host := hosts.getLast?.getD self.host
    printed := self.printed ++ [⟨self.n, hosts.filterMap rtts.lookup⟩] }

def expectedReplies : ℕ := 3

/-- The condition of the loop that receives, and what comes after it. -/
def await (self : Send) : Send :=
  match self.rtts.lookup self.n with
  | none => { self with phase := .raised }
  | some rtts =>
      if rtts.keys.length < expectedReplies then
        { self with phase := .receiving }
      else (self.printRow rtts).goOn (self.n + 1)

/-- The tables know of a message that is sent. -/
def enterMessage (now : ℚ) (self : Send) : Send :=
  { self with
    start := self.start.insert self.n now
    rtts := if self.n ∈ self.rtts then self.rtts
      else self.rtts.insert self.n ∅
    sent := self.sent ++ [⟨self.host, self.port, self.n, self.data, now⟩] }

def sendto (now : ℚ) (self : Send) : Send := (self.enterMessage now).await

/-- The time of a reply is entered in the table of its message. -/
def enterReply (reply : Reply) (rtts : Dict String ℚ) (start : ℚ)
    (self : Send) : Send :=
  { self with
    rtts := self.rtts.insert reply.seq
      (rtts.insert reply.rip ((reply.now - start) * 1000))
    received := self.received ++ [reply] }

def recvfrom (reply : Reply) (self : Send) : Send :=
  match self.rtts.lookup reply.seq, self.start.lookup reply.seq with
  | some rtts, some start =>
      if reply.rip ∈ rtts then
        -- OOPS, duplicate reply
        { self with phase := .returned }
      else (self.enterReply reply rtts start).await
  | _, _ => { self with phase := .raised }

end Send

/-- The clock is read and a message is sent, an answer is received, or nothing
comes before the time-out. -/
inductive Action where
  | sendto (now : ℚ)
  | recvfrom (reply : Reply)
  | timeout

def Action.isSendto : Action → Bool
  | .sendto _ => true
  | _ => false

namespace Send

def step (self : Send) : Action → Send
  | .sendto now => self.sendto now
  | .recvfrom reply => self.recvfrom reply
  | .timeout => self

/-- Responders answer messages that were sent, each of them at most once. -/
def Enabled (responders : Finset String) (self : Send) : Action → Prop
  | .sendto _ => self.phase = .sending
  | .recvfrom reply => self.phase = .receiving ∧ reply.rip ∈ responders ∧
      (∃ datagram ∈ self.sent, datagram.n = reply.seq) ∧
      ∀ other ∈ self.received, other.rip = reply.rip → other.seq ≠ reply.seq
  | .timeout => self.phase = .receiving

instance (responders : Finset String) (self : Send) :
    (action : Action) → Decidable (Enabled responders self action)
  | .sendto _ => inferInstanceAs (Decidable (_ = _))
  | .recvfrom _ => inferInstanceAs (Decidable (_ ∧ _ ∧ _ ∧ _))
  | .timeout => inferInstanceAs (Decidable (_ = _))

def system (responders : Finset String) : System Send Action :=
  { Enabled := Enabled responders
    step := step }

instance (responders : Finset String) (self : Send) (actions : List Action) :
    Decidable ((system responders).Run self actions) :=
  inferInstanceAs (Decidable (System.Each (system responders)
    (Enabled responders) self actions))

/-- The time, in milliseconds, from sending a message to the reply of a
responder. -/
def RoundTrip (self : Send) (n : ℕ) (rip : String) (rtt : ℚ) : Prop :=
  ∃ datagram ∈ self.sent, datagram.n = n ∧
    ∃ reply ∈ self.received, reply.rip = rip ∧ reply.seq = n ∧
      rtt = (reply.now - datagram.time) * 1000

/-- All messages went where the caller said, and each row holds one round trip
for each responder. -/
def Faithful (responders : Finset String) (host : String) (port : ℕ)
    (self : Send) : Prop :=
  (∀ datagram ∈ self.sent, datagram.host = host ∧ datagram.port = port) ∧
    ∀ row ∈ self.printed,
      List.Forall₂ (self.RoundTrip row.n) (sorted responders) row.rtts

/-- Where the messages go: the first one to the caller's host, the others to
the responder that comes last. -/
def destination (responders : Finset String) (host : String) (n : ℕ) :
    String :=
  if n = 0 then host else (sorted responders).getLast?.getD host

/-- The tables hold what was sent and received. -/
structure Kept (responders : Finset String) (run : Send) : Prop where
  start : ∀ seq time, run.start.lookup seq = some time ↔
    ∃ datagram ∈ run.sent, datagram.n = seq ∧ datagram.time = time
  rtts : ∀ seq, (∃ table, run.rtts.lookup seq = some table) ↔
    ∃ datagram ∈ run.sent, datagram.n = seq
  entries : ∀ seq table, run.rtts.lookup seq = some table →
    ∀ rip rtt, table.lookup rip = some rtt ↔ run.RoundTrip seq rip rtt
  senders : ∀ reply ∈ run.received, reply.rip ∈ responders
  answered : ∀ reply ∈ run.received, ∃ datagram ∈ run.sent,
    datagram.n = reply.seq

/-- The messages up to a number were sent, each one to where `host` led. -/
structure Sound (responders : Finset String) (host : String) (port count : ℕ)
    (run : Send) : Prop extends Kept responders run where
  toPort : run.port = port
  toHost : run.host = destination responders host run.n
  sent : run.sent.map Datagram.n = List.range count
  destinations : ∀ datagram ∈ run.sent,
    datagram.host = destination responders host datagram.n ∧
      datagram.port = port
  rows : ∀ row ∈ run.printed,
    List.Forall₂ (run.RoundTrip row.n) (sorted responders) row.rtts

/-- How many messages were sent, between two steps. -/
def count (self : Send) : ℕ :=
  if self.phase = .receiving then self.n + 1 else self.n

variable {responders : Finset String} {host : String} {port : ℕ} {self : Send}

theorem RoundTrip.mono {later : Send} (sent : self.sent ⊆ later.sent)
    (received : self.received ⊆ later.received) {n : ℕ} {rip : String}
    {rtt : ℚ} (trip : self.RoundTrip n rip rtt) :
    later.RoundTrip n rip rtt := by
  obtain ⟨datagram, there, number, reply, back, answer⟩ := trip
  exact ⟨datagram, sent there, number, reply, received back, answer⟩

theorem RoundTrip.enterMessage {n : ℕ} {rip : String} {rtt : ℚ}
    (trip : self.RoundTrip n rip rtt) (now : ℚ) :
    (self.enterMessage now).RoundTrip n rip rtt := by
  refine trip.mono ?_ ?_
  · exact List.subset_append_left _ _
  · exact List.Subset.refl _

theorem RoundTrip.enterReply {n : ℕ} {rip : String} {rtt : ℚ}
    (trip : self.RoundTrip n rip rtt) (reply : Reply) (rtts : Dict String ℚ)
    (start : ℚ) : (self.enterReply reply rtts start).RoundTrip n rip rtt := by
  refine trip.mono ?_ ?_
  · exact List.Subset.refl _
  · exact List.subset_append_left _ _

theorem forall₂_filterMap {α β : Type} {related : α → β → Prop}
    {value : α → Option β} {items : List α}
    (each : ∀ item ∈ items, ∃ found, value item = some found ∧
      related item found) :
    List.Forall₂ related items (items.filterMap value) := by
  induction items with
  | nil => exact .nil
  | cons item items induction =>
      obtain ⟨found, here, holds⟩ := each item List.mem_cons_self
      rw [List.filterMap_cons_some here]
      exact .cons holds (induction fun other member =>
        each other (List.mem_cons_of_mem _ member))

/-- A table with three entries has one for each of three responders. -/
theorem Kept.full (kept : self.Kept responders) (three : responders.card = 3)
    {seq : ℕ} {table : Dict String ℚ}
    (found : self.rtts.lookup seq = some table)
    (enough : ¬ table.keys.length < expectedReplies) :
    table.keys.toFinset = responders := by
  apply Finset.eq_of_subset_of_card_le
  · intro rip member
    have entry : (table.lookup rip).isSome :=
      AList.lookup_isSome.mpr (List.mem_toFinset.mp member)
    obtain ⟨rtt, lookup⟩ := Option.isSome_iff_exists.mp entry
    obtain ⟨-, -, -, reply, received, rfl, -⟩ :=
      (kept.entries seq table found rip rtt).mp lookup
    exact kept.senders reply received
  · rw [List.toFinset_card_of_nodup table.keys_nodup, three]
    exact Nat.le_of_not_lt enough

theorem getLast?_getD (three : responders.card = 3) (first second : String) :
    (sorted responders).getLast?.getD first =
      (sorted responders).getLast?.getD second := by
  have some : (sorted responders).getLast? ≠ none := by
    rw [ne_eq, List.getLast?_eq_none_iff]
    apply List.ne_nil_of_length_pos
    rw [length_sorted, three]
    decide
  obtain ⟨last, found⟩ := Option.ne_none_iff_exists'.mp some
  rw [found, Option.getD_some, Option.getD_some]

theorem sent_enterMessage (self : Send) (now : ℚ) :
    (self.enterMessage now).sent =
      self.sent ++ [⟨self.host, self.port, self.n, self.data, now⟩] := rfl

theorem roundTrip_enterMessage (now : ℚ) {n : ℕ} (different : n ≠ self.n)
    {rip : String} {rtt : ℚ} :
    (self.enterMessage now).RoundTrip n rip rtt ↔ self.RoundTrip n rip rtt := by
  constructor
  · rintro ⟨datagram, member, number, answer⟩
    rcases List.mem_append.mp member with earlier | here
    · exact ⟨datagram, earlier, number, answer⟩
    · rw [List.mem_singleton.mp here] at number
      exact absurd number.symm different
  · intro trip
    exact trip.enterMessage now

namespace Kept

variable (kept : self.Kept responders)
  (fresh : ∀ datagram ∈ self.sent, datagram.n ≠ self.n)
include kept fresh

theorem start_enterMessage (now : ℚ) (seq : ℕ) (time : ℚ) :
    (self.enterMessage now).start.lookup seq = some time ↔
      ∃ datagram ∈ (self.enterMessage now).sent,
        datagram.n = seq ∧ datagram.time = time := by
  have start : (self.enterMessage now).start = self.start.insert self.n now :=
    rfl
  rw [start, Dict.lookup_insert_eq, sent_enterMessage]
  split
  · next same =>
      subst same
      constructor
      · intro value
        exact ⟨_, List.mem_append_right _ List.mem_cons_self, rfl,
          Option.some.inj value⟩
      · rintro ⟨datagram, member, number, rfl⟩
        rcases List.mem_append.mp member with earlier | here
        · exact absurd number (fresh datagram earlier)
        · rw [List.mem_singleton.mp here]
  · next different =>
      rw [kept.start]
      simp only [List.mem_append, List.mem_singleton, or_and_right,
        exists_or, exists_eq_left]
      constructor
      · exact .inl
      · rintro (earlier | ⟨same, -⟩)
        · exact earlier
        · exact absurd same.symm different

theorem lookup_rtts_enterMessage (now : ℚ) (seq : ℕ) :
    (self.enterMessage now).rtts.lookup seq =
      if seq = self.n then some ∅ else self.rtts.lookup seq := by
  have absent : self.n ∉ self.rtts := by
    intro present
    obtain ⟨datagram, member, same⟩ := (kept.rtts self.n).mp
      (Option.isSome_iff_exists.mp (AList.lookup_isSome.mpr present))
    exact fresh datagram member same
  have rtts : (self.enterMessage now).rtts = self.rtts.insert self.n ∅ :=
    if_neg absent
  rw [rtts, Dict.lookup_insert_eq]

theorem rtts_enterMessage (now : ℚ) (seq : ℕ) :
    (∃ table, (self.enterMessage now).rtts.lookup seq = some table) ↔
      ∃ datagram ∈ (self.enterMessage now).sent, datagram.n = seq := by
  rw [kept.lookup_rtts_enterMessage fresh, sent_enterMessage]
  split
  · next same =>
      subst same
      exact iff_of_true ⟨_, rfl⟩
        ⟨_, List.mem_append_right _ List.mem_cons_self, rfl⟩
  · next different =>
      rw [kept.rtts]
      simp only [List.mem_append, List.mem_singleton, or_and_right,
        exists_or, exists_eq_left]
      constructor
      · exact .inl
      · rintro (earlier | same)
        · exact earlier
        · exact absurd same.symm different

theorem not_roundTrip_enterMessage (now : ℚ) (rip : String) (rtt : ℚ) :
    ¬ (self.enterMessage now).RoundTrip self.n rip rtt := by
  rintro ⟨-, -, -, reply, received, -, number, -⟩
  obtain ⟨datagram, member, same⟩ := kept.answered reply received
  exact fresh datagram member (same.trans number)

theorem enterMessage (now : ℚ) :
    (self.enterMessage now).Kept responders := by
  refine ⟨kept.start_enterMessage fresh now, kept.rtts_enterMessage fresh now,
    ?_, kept.senders, ?_⟩
  · intro seq table found rip rtt
    rw [kept.lookup_rtts_enterMessage fresh] at found
    split at found
    · next same =>
        subst same
        obtain rfl := Option.some.inj found
        exact iff_of_false (by simp)
          (kept.not_roundTrip_enterMessage fresh now rip rtt)
    · next different =>
        rw [kept.entries seq table found, roundTrip_enterMessage now different]
  · intro reply received
    obtain ⟨datagram, member, same⟩ := kept.answered reply received
    exact ⟨datagram, List.mem_append_left _ member, same⟩

end Kept

/-- A reply of another responder, or to another message, makes no round
trip. -/
theorem roundTrip_enterReply {reply : Reply} (table : Dict String ℚ)
    (start : ℚ) {n : ℕ} {rip : String} {rtt : ℚ}
    (different : ¬ (reply.rip = rip ∧ reply.seq = n)) :
    (self.enterReply reply table start).RoundTrip n rip rtt ↔
      self.RoundTrip n rip rtt := by
  constructor
  · rintro ⟨datagram, member, same, answer, received, sender, number, time⟩
    rcases List.mem_append.mp received with earlier | here
    · exact ⟨datagram, member, same, answer, earlier, sender, number, time⟩
    · rw [List.mem_singleton.mp here] at sender number
      exact absurd ⟨sender, number⟩ different
  · intro trip
    exact trip.enterReply reply table start

namespace Kept

/-- The first reply of a responder to a message makes one round trip. -/
theorem roundTrip_enterReply_self (kept : self.Kept responders) {reply : Reply}
    (once : ∀ other ∈ self.received, other.rip = reply.rip →
      other.seq ≠ reply.seq) (table : Dict String ℚ) {start : ℚ}
    (sent : self.start.lookup reply.seq = some start) (rtt : ℚ) :
    (self.enterReply reply table start).RoundTrip reply.seq reply.rip rtt ↔
      (reply.now - start) * 1000 = rtt := by
  constructor
  · rintro ⟨datagram, member, same, answer, received, rip, seq, rfl⟩
    have time : start = datagram.time := by
      have again := (kept.start reply.seq datagram.time).mpr
        ⟨datagram, member, same, rfl⟩
      rw [sent] at again
      exact Option.some.inj again
    rcases List.mem_append.mp received with earlier | here
    · exact absurd seq (once answer earlier rip)
    · rw [List.mem_singleton.mp here, time]
  · rintro rfl
    obtain ⟨datagram, there, number, rfl⟩ := (kept.start _ _).mp sent
    exact ⟨datagram, there, number, reply,
      List.mem_append_right _ List.mem_cons_self, rfl, rfl, rfl⟩

theorem enterReply (kept : self.Kept responders) {reply : Reply}
    (among : reply.rip ∈ responders)
    (once : ∀ other ∈ self.received, other.rip = reply.rip →
      other.seq ≠ reply.seq) {table : Dict String ℚ}
    (found : self.rtts.lookup reply.seq = some table) {start : ℚ}
    (sent : self.start.lookup reply.seq = some start) :
    (self.enterReply reply table start).Kept responders := by
  have asked : ∃ datagram ∈ self.sent, datagram.n = reply.seq :=
    (kept.rtts reply.seq).mp ⟨table, found⟩
  refine ⟨kept.start, ?_, ?_, ?_, ?_⟩
  · intro seq
    rw [Send.enterReply, Dict.lookup_insert_eq]
    split
    · next same =>
        subst same
        exact iff_of_true ⟨_, rfl⟩ asked
    · exact kept.rtts seq
  · intro seq other lookup rip rtt
    rw [Send.enterReply, Dict.lookup_insert_eq] at lookup
    split at lookup
    · next same =>
        subst same
        obtain rfl := Option.some.inj lookup
        rw [Dict.lookup_insert_eq]
        split
        · next same =>
            subst same
            rw [kept.roundTrip_enterReply_self once table sent]
            exact Option.some_inj
        · next different =>
            rw [kept.entries reply.seq table found, roundTrip_enterReply]
            exact fun same => different same.1.symm
    · next different =>
        rw [kept.entries seq other lookup, roundTrip_enterReply]
        exact fun same => different same.2.symm
  · intro other received
    rcases List.mem_append.mp received with earlier | here
    · exact kept.senders other earlier
    · rwa [List.mem_singleton.mp here]
  · intro other received
    rcases List.mem_append.mp received with earlier | here
    · exact kept.answered other earlier
    · rw [List.mem_singleton.mp here]
      exact asked

end Kept

namespace Sound

/-- The condition of the loop that receives, with the row it may print. -/
theorem await (sound : self.Sound responders host port (self.n + 1))
    (three : responders.card = 3) :
    self.await.Sound responders host port self.await.count := by
  have current : ∃ datagram ∈ self.sent, datagram.n = self.n := by
    have member : self.n ∈ self.sent.map Datagram.n := by
      rw [sound.sent]
      exact List.mem_range.mpr (Nat.lt_succ_self _)
    exact List.mem_map.mp member
  obtain ⟨table, found⟩ := (sound.rtts self.n).mpr current
  unfold Send.await
  rw [found]
  dsimp only
  split
  · exact ⟨⟨sound.start, sound.rtts, sound.entries, sound.senders,
      sound.answered⟩, sound.toPort, sound.toHost, sound.sent,
      sound.destinations, sound.rows⟩
  · next enough =>
      have full := sound.full three found enough
      refine ⟨⟨sound.start, sound.rtts, sound.entries, sound.senders,
        sound.answered⟩, sound.toPort, ?_, ?_, sound.destinations, ?_⟩
      · simp only [goOn, printRow, full, destination, Nat.succ_ne_zero,
          if_false]
        exact getLast?_getD three _ _
      · have phase : (goOn (self.n + 1)
            (printRow table self)).phase ≠ .receiving := by
          unfold goOn
          dsimp only
          split <;> decide
        rw [count, if_neg phase]
        exact sound.sent
      · intro row member
        simp only [goOn, printRow, full] at member
        rcases List.mem_append.mp member with earlier | here
        · exact sound.rows row earlier
        · obtain rfl := List.mem_singleton.mp here
          apply forall₂_filterMap
          intro rip listed
          rw [mem_sorted, ← full, List.mem_toFinset] at listed
          obtain ⟨rtt, lookup⟩ := Option.isSome_iff_exists.mp
            (AList.lookup_isSome.mpr listed)
          exact ⟨rtt, lookup,
            (sound.entries self.n table found rip rtt).mp lookup⟩

theorem enterMessage (sound : self.Sound responders host port self.n)
    (now : ℚ) :
    (self.enterMessage now).Sound responders host port (self.n + 1) := by
  have fresh : ∀ datagram ∈ self.sent, datagram.n ≠ self.n := by
    intro datagram member
    have listed : datagram.n ∈ self.sent.map Datagram.n :=
      List.mem_map_of_mem member
    rw [sound.sent] at listed
    exact (List.mem_range.mp listed).ne
  refine ⟨sound.toKept.enterMessage fresh now, sound.toPort, sound.toHost, ?_,
    ?_, ?_⟩
  · rw [sent_enterMessage, List.map_append, sound.sent, List.range_succ]
    rfl
  · intro datagram member
    rcases List.mem_append.mp member with earlier | here
    · exact sound.destinations datagram earlier
    · rw [List.mem_singleton.mp here]
      exact ⟨sound.toHost, sound.toPort⟩
  · intro row member
    exact (sound.rows row member).imp fun _ _ trip => trip.enterMessage now

theorem enterReply {count : ℕ}
    (sound : self.Sound responders host port count) {reply : Reply}
    (among : reply.rip ∈ responders)
    (once : ∀ other ∈ self.received, other.rip = reply.rip →
      other.seq ≠ reply.seq) {table : Dict String ℚ}
    (found : self.rtts.lookup reply.seq = some table) {start : ℚ}
    (sent : self.start.lookup reply.seq = some start) :
    (self.enterReply reply table start).Sound responders host port count := by
  refine ⟨sound.toKept.enterReply among once found sent, sound.toPort,
    sound.toHost, sound.sent, sound.destinations, ?_⟩
  intro row member
  exact (sound.rows row member).imp fun _ _ trip =>
    trip.enterReply reply table _

theorem step (sound : self.Sound responders host port self.count)
    (three : responders.card = 3) {action : Action}
    (enabled : Enabled responders self action) :
    (self.step action).Sound responders host port
      (self.step action).count := by
  cases action with
  | sendto now =>
      have sending : self.phase = .sending := enabled
      rw [count, if_neg (by rw [sending]; decide)] at sound
      exact (sound.enterMessage now).await three
  | recvfrom reply =>
      obtain ⟨receiving, among, asked, once⟩ := enabled
      rw [count, if_pos receiving] at sound
      obtain ⟨table, found⟩ := (sound.rtts reply.seq).mpr asked
      obtain ⟨datagram, there, number⟩ := asked
      have sent := (sound.start reply.seq datagram.time).mpr
        ⟨datagram, there, number, rfl⟩
      have first : reply.rip ∉ table := by
        intro present
        obtain ⟨rtt, lookup⟩ := Option.isSome_iff_exists.mp
          (AList.lookup_isSome.mpr present)
        obtain ⟨-, -, -, other, received, rip, seq, -⟩ :=
          (sound.entries reply.seq table found reply.rip rtt).mp lookup
        exact once other received rip seq
      simp only [Send.step, recvfrom, found, sent, first, if_false]
      exact (sound.enterReply among once found sent).await three
  | timeout => exact sound

end Sound

theorem new_sound (its : ℕ) (data : String) :
    (new host port its data).Sound responders host port
      (new host port its data).count := by
  have none : (new host port its data).count = 0 := by
    have phase : (new host port its data).phase ≠ .receiving := by
      unfold new goOn
      dsimp only
      split <;> decide
    rw [count, if_neg phase]
    rfl
  rw [none]
  refine ⟨⟨?_, ?_, ?_, ?_, ?_⟩, rfl, rfl, rfl, ?_, ?_⟩
  · intro seq time
    exact iff_of_false (fun lookup => by cases lookup) (by simp [new, goOn])
  · intro seq
    exact iff_of_false (fun ⟨_, lookup⟩ => by cases lookup)
      (by simp [new, goOn])
  · intro seq table lookup
    cases lookup
  · intro reply member
    cases member
  · intro reply member
    cases member
  · intro datagram member
    cases member
  · intro row member
    cases member

theorem sent_await (self : Send) : self.await.sent = self.sent := by
  unfold await
  split
  · rfl
  · split <;> rfl

theorem sent_recvfrom (reply : Reply) (self : Send) :
    (self.recvfrom reply).sent = self.sent := by
  unfold recvfrom
  split
  · split
    · rfl
    · rw [sent_await]
      rfl
  · rfl

theorem length_sent_after (responders : Finset String) (self : Send)
    (actions : List Action) :
    ((system responders).after self actions).sent.length =
      self.sent.length + actions.countP Action.isSendto := by
  induction actions generalizing self with
  | nil => rfl
  | cons action actions induction =>
      rw [System.after_cons, induction, List.countP_cons]
      change (self.step action).sent.length + _ = _
      cases action with
      | sendto now =>
          rw [step, sendto, sent_await, enterMessage, List.length_append,
            List.length_singleton]
          simp only [Action.isSendto, if_true]
          omega
      | recvfrom reply =>
          rw [step, sent_recvfrom]
          rfl
      | timeout => rfl

theorem sound_after (three : responders.card = 3) {its : ℕ} {data : String}
    {actions : List Action}
    (run : (system responders).Run (new host port its data) actions) :
    ((system responders).after (new host port its data) actions).Sound
      responders host port ((system responders).after
        (new host port its data) actions).count := by
  refine @System.Run.invariant _ _ (system responders) _
    (fun self => self.Sound responders host port self.count) _ run ?_ ?_
  · intro self action sound enabled
    exact sound.step three enabled
  · exact new_sound its data

/-- The messages after the first one go where the caller said only if that is
the responder that comes last. -/
theorem destination_eq_iff (three : responders.card = 3) {n : ℕ}
    (later : n ≠ 0) :
    destination responders host n = host ↔
      (sorted responders).getLast? = some host := by
  rw [destination, if_neg later]
  constructor
  · intro same
    cases found : (sorted responders).getLast? with
    | none =>
        have empty := congrArg List.length (List.getLast?_eq_none_iff.mp found)
        rw [length_sorted, three] at empty
        cases empty
    | some last =>
        rw [found, Option.getD_some] at same
        rw [same]
  · intro found
    rw [found, Option.getD_some]

/-- With three responders, all messages go to the caller's host, and each row
holds a round trip for each responder, exactly if there is one message at most
or the caller's host is the responder that comes last. -/
theorem faithful_iff (three : responders.card = 3) {its : ℕ} {data : String}
    {actions : List Action}
    (run : (system responders).Run (new host port its data) actions) :
    Faithful responders host port
        ((system responders).after (new host port its data) actions) ↔
      actions.countP Action.isSendto ≤ 1 ∨
        (sorted responders).getLast? = some host := by
  have sound := sound_after three run
  have length := length_sent_after responders (new host port its data) actions
  rw [show (new host port its data).sent = [] from rfl, List.length_nil,
    Nat.zero_add] at length
  rw [← length]
  generalize (system responders).after (new host port its data) actions =
    reached at sound
  have count := congrArg List.length sound.sent
  rw [List.length_map, List.length_range] at count
  constructor
  · rintro ⟨destinations, -⟩
    by_cases single : reached.sent.length ≤ 1
    · exact .inl single
    · right
      have second : 1 ∈ reached.sent.map Datagram.n := by
        rw [sound.sent, List.mem_range]
        omega
      obtain ⟨datagram, member, number⟩ := List.mem_map.mp second
      rw [← destination_eq_iff three Nat.one_ne_zero, ← number,
        ← (sound.destinations datagram member).1]
      exact (destinations datagram member).1
  · intro condition
    refine ⟨?_, sound.rows⟩
    intro datagram member
    obtain ⟨toHost, toPort⟩ := sound.destinations datagram member
    refine ⟨?_, toPort⟩
    rw [toHost]
    by_cases first : datagram.n = 0
    · rw [destination, if_pos first]
    · rcases condition with single | greatest
      · have listed : datagram.n ∈ reached.sent.map Datagram.n :=
          List.mem_map_of_mem member
        rw [sound.sent, List.mem_range] at listed
        omega
      · exact (destination_eq_iff three first).mpr greatest

/-- The caller names the responder that comes last. -/
theorem faithful_iff_last :
    let responders : Finset String := {"10.0.0.1", "10.0.0.2", "10.0.0.3"}
    let start := new "10.0.0.3" 1234 2 "howdy"
    let actions : List Action :=
      [.sendto 0, .recvfrom ⟨"10.0.0.2", 0, 1⟩, .timeout,
        .recvfrom ⟨"10.0.0.1", 0, 2⟩, .recvfrom ⟨"10.0.0.3", 0, 3⟩, .sendto 4]
    let reached := (system responders).after start actions
    reached.printed = [⟨0, [2000, 1000, 3000]⟩] ∧
      Faithful responders "10.0.0.3" 1234 reached := by
  intro responders start actions reached
  have three : responders.card = 3 := by decide
  have run : (system responders).Run start actions := by decide
  exact ⟨by decide +kernel, (faithful_iff three run).mpr (.inr (by decide))⟩

/-- Three hosts answer the first of two messages to the first host: the second
message goes to the third host. -/
theorem second_message_astray :
    let responders : Finset String := {"10.0.0.1", "10.0.0.2", "10.0.0.3"}
    let start := new "10.0.0.1" 1234 2 "howdy"
    let actions : List Action :=
      [.sendto 0, .recvfrom ⟨"10.0.0.2", 0, 1⟩, .recvfrom ⟨"10.0.0.1", 0, 2⟩,
        .recvfrom ⟨"10.0.0.3", 0, 3⟩, .sendto 4]
    let reached := (system responders).after start actions
    (system responders).Run start actions ∧
      reached.sent.map (fun datagram => (datagram.n, datagram.host)) =
        [(0, "10.0.0.1"), (1, "10.0.0.3")] ∧
      ¬ Faithful responders "10.0.0.1" 1234 reached := by
  intro responders start actions reached
  have run : (system responders).Run start actions := by decide
  have sent : reached.sent.map (fun datagram => (datagram.n, datagram.host)) =
      [(0, "10.0.0.1"), (1, "10.0.0.3")] := by decide
  refine ⟨run, sent, ?_⟩
  rintro ⟨destinations, -⟩
  have member : (1, "10.0.0.3") ∈
      reached.sent.map fun datagram => (datagram.n, datagram.host) := by
    rw [sent]
    decide
  obtain ⟨datagram, listed, same⟩ := List.mem_map.mp member
  have host := (destinations datagram listed).1
  rw [(Prod.mk.inj same).2] at host
  exact absurd host (by decide)

/-- The loop is not beyond its last number. -/
structure Within (its : ℕ) (run : Send) : Prop where
  asked : run.its = its
  going : run.phase = .sending ∨ run.phase = .receiving → run.n < its
  bound : run.n ≤ its

theorem Within.goOn {its n : ℕ} (within : self.Within its) (bound : n ≤ its) :
    (self.goOn n).Within its := by
  refine ⟨within.asked, ?_, bound⟩
  intro going
  unfold Send.goOn at going ⊢
  dsimp only at going ⊢
  rw [within.asked] at going
  split at going
  · assumption
  · simp at going

theorem Within.await {its : ℕ} (within : self.Within its)
    (more : self.n < its) : self.await.Within its := by
  unfold Send.await
  split
  · exact ⟨within.asked, fun _ => more, within.bound⟩
  · split
    · exact ⟨within.asked, fun _ => more, within.bound⟩
    · exact Within.goOn ⟨within.asked, within.going, within.bound⟩ more

theorem Within.step {its : ℕ} (within : self.Within its) {action : Action}
    (enabled : Enabled responders self action) :
    (self.step action).Within its := by
  cases action with
  | sendto now =>
      have more := within.going (.inl enabled)
      exact Within.await ⟨within.asked, within.going, within.bound⟩ more
  | recvfrom reply =>
      have more := within.going (.inr enabled.1)
      rw [Send.step, Send.recvfrom]
      split
      · split
        · exact ⟨within.asked, fun going => by simp at going, within.bound⟩
        · exact Within.await ⟨within.asked, within.going, within.bound⟩ more
      · exact ⟨within.asked, fun going => by simp at going, within.bound⟩
  | timeout => exact within

/-- No more messages are sent than the caller asked for. -/
theorem countP_isSendto_le (three : responders.card = 3) {its : ℕ}
    {data : String} {actions : List Action}
    (run : (system responders).Run (new host port its data) actions) :
    actions.countP Action.isSendto ≤ its := by
  have within : ((system responders).after (new host port its data)
      actions).Within its := by
    refine run.invariant (fun _ _ within enabled => within.step enabled) ?_
    unfold new goOn
    refine ⟨rfl, ?_, Nat.zero_le its⟩
    dsimp only
    intro going
    split at going
    · assumption
    · simp at going
  have length := length_sent_after responders (new host port its data) actions
  have numbers := congrArg List.length (sound_after three run).sent
  rw [List.length_map, List.length_range, length, count] at numbers
  have none : (new host port its data).sent.length = 0 := rfl
  split at numbers
  · next receiving =>
      have := within.going (.inr receiving)
      omega
  · have := within.bound
    omega

end Send

end SwitchPaxos.RttUdp

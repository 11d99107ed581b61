import SwitchPaxos.Base.Hexadecimal
import SwitchPaxos.Base.Run
import SwitchPaxos.Base.Terminated
import Mathlib.Data.Nat.Digits.Lemmas

/-!
# Verifying the order

`verify-ordering-client` sends datagrams that are all different, and
`verify-ordering-server` joins what a host receives and prints digests of it.
Hosts that print the same digests received the same datagrams in the same
order, as one can tell the datagrams apart again.
-/

namespace SwitchPaxos.VerifyOrdering

/-- `"[%s %13s 0x%08x]" % (interface, curtime, randnum)` -/
def datagram (interface curtime : Bytes) (randnum : ℕ) : Bytes :=
  [0x5B] ++ interface ++ [0x20] ++ curtime.leftpad 13 0x20 ++
    [0x20, 0x30, 0x78] ++
    ((Nat.digits 16 randnum).reverse.map hexDigit).leftpad 8 0x30 ++ [0x5D]

/-- A datagram of a client that `recvfrom` reads whole.  There is no `]` in
the name of an interface, nor in the time. -/
def FromClient (data : Bytes) : Prop :=
  ∃ interface curtime randnum, 0x5D ∉ interface ∧ 0x5D ∉ curtime ∧
    data = datagram interface curtime randnum ∧ data.length ≤ 1024

/-- What ends the wait for a datagram. -/
inductive Arrival where
  | datagram (data : Bytes)
  | timeout
  | interrupt

/-- The datagrams, as far as `recvfrom` reads them. -/
def received (arrivals : List Arrival) : List Bytes :=
  arrivals.filterMap fun arrival =>
    match arrival with
    | .datagram data => some (data.take 1024)
    | _ => none

inductive Line (Digest : Type) where
  | report (bytes : ℕ) (digest : Digest)
  | blank
  | received (numrecv : ℕ)
deriving DecidableEq

/-- The variables of `listen`, what it printed, and what it returned. -/
structure Listen (Digest : Type) where
  total : List Bytes
  numrecv : ℕ
  printed : List (Line Digest)
  returned : Option ℕ

def recvstop : ℕ := 600

def reportEvery : ℕ := 50

section Listen

variable {Digest : Type} (sha256 : Bytes → Digest)

/-- The line that `report_sha` prints. -/
def reportSha (total : List Bytes) : Line Digest :=
  .report total.flatten.length (sha256 total.flatten)

namespace Listen

def new : Listen Digest :=
  { total := [], numrecv := 0, printed := [], returned := none }

/-- What is done after a `KeyboardInterrupt`. -/
def stop (listen : Listen Digest) : Listen Digest :=
  { listen with
    printed := listen.printed ++
      [.blank, reportSha sha256 listen.total, .received listen.numrecv]
    returned := some 0 }

/-- A datagram is entered; the last one counts as an interrupt. -/
def enter (data : Bytes) (listen : Listen Digest) : Listen Digest :=
  let total := listen.total ++ [data.take 1024]
  let numrecv := listen.numrecv + 1
  let next := { listen with total, numrecv }
  if numrecv = recvstop then next.stop sha256
  else if numrecv % reportEvery = 0 then
    { next with printed := next.printed ++ [reportSha sha256 total] }
  else next

/-- One turn of the loop of `listen`. -/
def turn (listen : Listen Digest) (arrival : Arrival) : Listen Digest :=
  if listen.returned.isSome then listen
  else
    match arrival with
    | .datagram data => listen.enter sha256 data
    | .timeout => listen
    | .interrupt => listen.stop sha256

def after (arrivals : List Arrival) : Listen Digest :=
  arrivals.foldl (turn sha256) new

end Listen

/-- The reports among the lines. -/
def reports (lines : List (Line Digest)) : List (ℕ × Digest) :=
  lines.filterMap fun line =>
    match line with
    | .report bytes digest => some (bytes, digest)
    | _ => none

/-- The report on the first datagrams. -/
def reportOn (data : List Bytes) (count : ℕ) : ℕ × Digest :=
  ((data.take count).flatten.length, sha256 (data.take count).flatten)

/-- How many reports there are on so many datagrams. -/
def reportCount (numrecv : ℕ) : ℕ := min numrecv recvstop / reportEvery

/-- All reports on the datagrams. -/
def reportsOn (data : List Bytes) : List (ℕ × Digest) :=
  (List.range (reportCount data.length)).map fun k =>
    reportOn sha256 data (reportEvery * (k + 1))

/-- Nobody interrupts the server. -/
def Uninterrupted (arrivals : List Arrival) : Prop :=
  ∀ arrival ∈ arrivals, arrival ≠ .interrupt

section Reports

variable (data : List Bytes) (entry : Bytes) (first second : List (Line Digest))

theorem reports_append :
    reports (first ++ second) = reports first ++ reports second :=
  List.filterMap_append

theorem received_append (first second : List Arrival) :
    received (first ++ second) = received first ++ received second :=
  List.filterMap_append

variable {data} in
theorem reportOn_append {count : ℕ} (within : count ≤ data.length) :
    reportOn sha256 (data ++ [entry]) count = reportOn sha256 data count := by
  rw [reportOn, List.take_append_of_le_length within]
  rfl

theorem reportCount_le (numrecv : ℕ) :
    reportEvery * reportCount numrecv ≤ numrecv := by
  unfold reportCount reportEvery
  omega

private theorem reportsOn_prefix :
    (List.range (reportCount data.length)).map (fun k =>
        reportOn sha256 (data ++ [entry]) (reportEvery * (k + 1))) =
      reportsOn sha256 data := by
  apply List.map_congr_left
  intro k member
  apply reportOn_append
  have bound := reportCount_le data.length
  have inside := List.mem_range.mp member
  unfold reportEvery at bound ⊢
  omega

/-- A datagram adds a report each time, until enough are received. -/
theorem reportsOn_snoc :
    reportsOn sha256 (data ++ [entry]) = reportsOn sha256 data ++
      if data.length < recvstop ∧ (data.length + 1) % reportEvery = 0 then
        [reportOn sha256 (data ++ [entry]) (data.length + 1)]
      else [] := by
  rw [reportsOn, List.length_append, List.length_singleton]
  split
  · next due =>
      have count : reportCount (data.length + 1) =
          reportCount data.length + 1 := by
        unfold reportCount reportEvery recvstop at *
        omega
      have last : reportEvery * (reportCount data.length + 1) =
          data.length + 1 := by
        unfold reportCount reportEvery recvstop at *
        omega
      rw [count, List.range_succ, List.map_append, reportsOn_prefix,
        List.map_singleton, last]
  · next notDue =>
      have count : reportCount (data.length + 1) =
          reportCount data.length := by
        unfold reportCount reportEvery recvstop at *
        omega
      rw [count, reportsOn_prefix, List.append_nil]

end Reports

/-- What a server that nobody interrupts knows of what arrived. -/
structure Listen.Reported (data : List Bytes) (listen : Listen Digest) :
    Prop where
  reports : reports listen.printed = reportsOn sha256 data
  stopped : listen.returned.isSome ↔ recvstop ≤ data.length
  total : data.length < recvstop →
    listen.total = data ∧ listen.numrecv = data.length

theorem Listen.Reported.enter {data : List Bytes} {entry : Bytes}
    {listen : Listen Digest} (reported : listen.Reported sha256 data)
    (more : data.length < recvstop) :
    (listen.enter sha256 entry).Reported sha256
      (data ++ [entry.take 1024]) := by
  obtain ⟨total, numrecv⟩ := reported.total more
  have running : listen.returned.isSome = false := by
    rw [Bool.eq_false_iff, Ne, reported.stopped]
    omega
  have snoc := reportsOn_snoc sha256 data (entry.take 1024)
  have whole : reportOn sha256 (data ++ [entry.take 1024])
      (data.length + 1) =
      ((data ++ [entry.take 1024]).flatten.length,
        sha256 (data ++ [entry.take 1024]).flatten) := by
    rw [reportOn, List.take_of_length_le (by simp)]
  unfold Listen.enter
  simp only [total, numrecv]
  split
  · next last =>
      have due : (data.length + 1) % reportEvery = 0 := by
        unfold reportEvery recvstop at *
        omega
      rw [if_pos ⟨more, due⟩, whole] at snoc
      constructor
      · rw [snoc, Listen.stop, reports_append, reported.reports]
        rfl
      · simp [Listen.stop, last]
      · simp [last]
  · next notLast =>
      have fewer : data.length + 1 < recvstop := by omega
      split
      · next due =>
          rw [if_pos ⟨more, due⟩, whole] at snoc
          constructor
          · rw [snoc, reports_append, reported.reports]
            rfl
          · simp [running, fewer]
          · simp
      · next notDue =>
          rw [if_neg fun both => notDue both.2, List.append_nil] at snoc
          constructor
          · rw [snoc]
            exact reported.reports
          · simp [running, fewer]
          · simp

/-- Whatever arrives, a server that nobody interrupts has printed all reports
there are. -/
theorem reported_after {arrivals : List Arrival}
    (uninterrupted : Uninterrupted arrivals) :
    (Listen.after sha256 arrivals).Reported sha256 (received arrivals) := by
  induction arrivals using List.reverseRecOn with
  | nil =>
      constructor
      · rfl
      · simp [Listen.after, Listen.new, received, recvstop]
      · intro _
        exact ⟨rfl, rfl⟩
  | append_singleton arrivals arrival induction =>
      have reported := induction fun other member =>
        uninterrupted other (List.mem_append_left _ member)
      have notNow := uninterrupted arrival
        (List.mem_append_right _ List.mem_cons_self)
      rw [received_append, Listen.after, List.foldl_append]
      change ((Listen.after sha256 arrivals).turn sha256 arrival).Reported _ _
      unfold Listen.turn
      cases arrival with
      | interrupt => exact absurd rfl notNow
      | timeout =>
          have nothing : received [.timeout] = [] := rfl
          rw [nothing, List.append_nil, ite_self]
          exact reported
      | datagram data =>
          have one : received [.datagram data] = [data.take 1024] := rfl
          rw [one]
          split
          · next stopped =>
              have enough := reported.stopped.mp stopped
              have notFewer : ¬ (received arrivals).length < recvstop := by
                omega
              have snoc := reportsOn_snoc sha256 (received arrivals)
                (data.take 1024)
              rw [if_neg fun both => notFewer both.1, List.append_nil] at snoc
              constructor
              · rw [snoc]
                exact reported.reports
              · simp only [List.length_append, stopped, true_iff]
                omega
              · intro fewer
                rw [List.length_append] at fewer
                omega
          · next running =>
              apply reported.enter
              rw [reported.stopped] at running
              omega

/-- The datagrams that there is a report on. -/
def reported (data : List Bytes) : List Bytes :=
  data.take (reportEvery * reportCount data.length)

theorem length_reported (data : List Bytes) :
    (reported data).length = reportEvery * reportCount data.length := by
  rw [reported, List.length_take]
  exact Nat.min_eq_left (reportCount_le data.length)

theorem reportsOn_reported (data : List Bytes) :
    reportsOn sha256 data =
      (List.range ((reported data).length / reportEvery)).map fun k =>
        reportOn sha256 (reported data) (reportEvery * (k + 1)) := by
  have count : (reported data).length / reportEvery =
      reportCount data.length := by
    rw [length_reported]
    exact Nat.mul_div_cancel_left _ (by decide)
  rw [count, reportsOn]
  apply List.map_congr_left
  intro k member
  have inside := List.mem_range.mp member
  have within : reportEvery * (k + 1) ≤
      reportEvery * reportCount data.length :=
    Nat.mul_le_mul_left _ inside
  rw [reportOn, reportOn, reported, List.take_take, Nat.min_eq_left within]

theorem getLast?_reportsOn {data : List Bytes} (some : reported data ≠ []) :
    (reportsOn sha256 data).getLast? = Option.some
      ((reported data).flatten.length, sha256 (reported data).flatten) := by
  have positive : 0 < reportCount data.length := by
    by_contra none
    have nothing : reportCount data.length = 0 := by omega
    have empty := length_reported data
    rw [nothing, Nat.mul_zero] at empty
    exact some (List.eq_nil_of_length_eq_zero empty)
  obtain ⟨last, count⟩ := Nat.exists_eq_add_one_of_ne_zero positive.ne'
  rw [reportsOn, count, List.range_succ, List.map_append, List.map_singleton,
    List.getLast?_concat, reportOn, ← count]
  rfl

theorem length_reportsOn (data : List Bytes) :
    (reportsOn sha256 data).length = reportCount data.length := by
  simp [reportsOn]

theorem hexDigit_ne_bracket : ∀ n < 16, hexDigit n ≠ 0x5D := by decide

theorem FromClient.terminated {data : Bytes} (client : FromClient data) :
    Terminated 0x5D data := by
  obtain ⟨interface, curtime, randnum, absent, absent', rfl, -⟩ := client
  refine ⟨_, ?_, rfl⟩
  have digits : ∀ digit ∈ Nat.digits 16 randnum, hexDigit digit ≠ 0x5D :=
    fun digit member => hexDigit_ne_bracket digit
      (Nat.digits_lt_base (by decide) member)
  simpa [absent, absent'] using digits

/-- Joined datagrams of clients can be told apart. -/
theorem terminated_reported {arrivals : List Arrival}
    (clients : ∀ data, .datagram data ∈ arrivals → FromClient data) :
    ∀ data ∈ reported (received arrivals), Terminated 0x5D data := by
  intro data member
  obtain ⟨arrival, arrives, read⟩ :=
    List.mem_filterMap.mp (List.mem_of_mem_take member)
  cases arrival with
  | datagram sent =>
      have client := clients sent arrives
      cases read
      have whole : sent.take 1024 = sent := by
        obtain ⟨_, _, _, -, -, -, short⟩ := client
        exact List.take_of_length_le short
      rw [whole]
      exact client.terminated
  | timeout => cases read
  | interrupt => cases read

/-- Servers that nobody interrupts print the same reports exactly if the
datagrams of the clients that they report on are the same, and in the same
order, as long as the digests do not collide. -/
theorem same_reports_iff {first second : List Arrival}
    (uninterrupted : Uninterrupted first)
    (uninterrupted' : Uninterrupted second)
    (clients : ∀ data, .datagram data ∈ first → FromClient data)
    (clients' : ∀ data, .datagram data ∈ second → FromClient data)
    (collisionFree :
      sha256 (reported (received first)).flatten =
          sha256 (reported (received second)).flatten →
        (reported (received first)).flatten =
          (reported (received second)).flatten) :
    reports (Listen.after sha256 first).printed =
        reports (Listen.after sha256 second).printed ↔
      reported (received first) = reported (received second) := by
  rw [(reported_after sha256 uninterrupted).reports,
    (reported_after sha256 uninterrupted').reports]
  constructor
  · intro same
    have counts := congrArg List.length same
    rw [length_reportsOn, length_reportsOn] at counts
    have lengths : (reported (received first)).length =
        (reported (received second)).length := by
      rw [length_reported, length_reported, counts]
    by_cases nothing : reported (received first) = []
    · rw [nothing] at lengths ⊢
      exact (List.eq_nil_of_length_eq_zero lengths.symm).symm
    · have something : reported (received second) ≠ [] := by
        intro empty
        rw [empty] at lengths
        exact nothing (List.eq_nil_of_length_eq_zero lengths)
      have last := congrArg List.getLast? same
      rw [getLast?_reportsOn sha256 nothing,
        getLast?_reportsOn sha256 something, Option.some.injEq,
        Prod.mk.injEq] at last
      exact Terminated.flatten_inj (terminated_reported clients)
        (terminated_reported clients') (collisionFree last.2)
  · intro same
    rw [reportsOn_reported, reportsOn_reported, same]

end Listen

/-- A timeout does not matter. -/
theorem same_reports_iff_timeout :
    let datagrams := List.replicate 50
      (Arrival.datagram (datagram [0x68, 0x31] [0x37] 255))
    let first := reports (Listen.after id datagrams).printed
    let second := reports (Listen.after id (.timeout :: datagrams)).printed
    first = [(1450, (List.replicate 50
      (datagram [0x68, 0x31] [0x37] 255)).flatten)] ∧
      (first = second ↔ reported (received datagrams) =
        reported (received (.timeout :: datagrams))) := by
  intro datagrams first second
  have client : FromClient (datagram [0x68, 0x31] [0x37] 255) :=
    ⟨_, _, _, by decide, by decide, rfl, by decide⟩
  have clients : ∀ data, .datagram data ∈ datagrams → FromClient data := by
    intro data member
    cases List.eq_of_mem_replicate member
    exact client
  have uninterrupted : Uninterrupted datagrams := by
    rintro _ member rfl
    cases List.eq_of_mem_replicate member
  refine ⟨by decide +kernel, ?_⟩
  apply same_reports_iff id uninterrupted _ clients
  · intro data member
    apply clients
    simpa using member
  · exact id
  · intro arrival member
    rcases List.mem_cons.mp member with rfl | later
    · exact Arrival.noConfusion
    · exact uninterrupted arrival later

end SwitchPaxos.VerifyOrdering

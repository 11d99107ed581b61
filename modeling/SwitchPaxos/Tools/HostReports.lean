import SwitchPaxos.Controller.Hosts
import SwitchPaxos.Tools.VerifyOrdering

/-!
# What the hosts report

A server on each host reports on what the host is sent.  The hosts get the
client packets in one order, so no two of the servers print reports that
differ: one of them may only be ahead of the other.
-/

namespace SwitchPaxos

namespace VerifyOrdering

variable {Digest : Type} (sha256 : Bytes → Digest)

theorem reportsOn_mono {first second : List Bytes} (less : first <+: second) :
    reportsOn sha256 first <+: reportsOn sha256 second := by
  obtain ⟨more, rfl⟩ := less
  induction more using List.reverseRecOn with
  | nil =>
      rw [List.append_nil]
  | append_singleton more entry induction =>
      rw [← List.append_assoc, reportsOn_snoc]
      exact induction.trans (List.prefix_append _ _)

end VerifyOrdering

namespace Service

open VerifyOrdering

variable {N : Finset EthAddr} {leader : EthAddr} {service : Service}
  (rewrite : EthAddr → IPAddr → Option Bytes → Frame)
  {payload : Frame → Bytes} {content : Bytes → Bytes}

/-- Rewriting the addresses of a packet leaves what it carries. -/
def Carries (payload : Frame → Bytes) (content : Bytes → Bytes) : Prop :=
  ∀ mac dstip v, payload (rewrite mac dstip (some v)) = content v

variable {rewrite} in
theorem Carries.payloads (carries : Carries rewrite payload content)
    {knows : EthAddr → IPAddr → Prop} {frames : List Frame}
    {packets : List Bytes}
    (readdressed : List.Forall₂ (Readdressed rewrite knows) frames
      (packets.map some)) :
    frames.map payload = packets.map content := by
  induction packets generalizing frames with
  | nil =>
      cases readdressed
      rfl
  | cons v packets induction =>
      cases readdressed with
      | cons first rest =>
          obtain ⟨mac, dstip, -, rfl⟩ := first
          rw [List.map_cons, List.map_cons, carries mac dstip v,
            induction rest]

/-- The server on a host reads all that the host is sent. -/
def Reads (payload : Frame → Bytes) (frames : List Frame)
    (arrivals : List Arrival) : Prop :=
  VerifyOrdering.received arrivals =
    frames.map fun frame => (payload frame).take 1024

/-- Servers that nobody interrupts, on any two hosts, never print different
reports. -/
theorem hosts_report_alike {Digest : Type} (sha256 : Bytes → Digest)
    (three : N.card = 3) (starts : service.network.Starts N leader)
    {actions : List ServiceAction}
    (run : (system rewrite N).Run service actions)
    (apart : (system rewrite N).Each Apart service actions)
    (carries : Carries rewrite payload content)
    {mac other : EthAddr} (member : mac ∈ N) (otherMember : other ∈ N)
    {port otherPort : Port}
    (host : (system rewrite N).Each (HostOn mac port) service actions)
    (otherHost :
      (system rewrite N).Each (HostOn other otherPort) service actions)
    {first second : List Arrival} (uninterrupted : Uninterrupted first)
    (otherUninterrupted : Uninterrupted second)
    (reads : Reads payload
      (((system rewrite N).after service actions).received mac port) first)
    (otherReads : Reads payload
      (((system rewrite N).after service actions).received other otherPort)
      second) :
    reports (Listen.after sha256 first).printed <+:
        reports (Listen.after sha256 second).printed ∨
      reports (Listen.after sha256 second).printed <+:
        reports (Listen.after sha256 first).printed := by
  obtain ⟨sofar, order, received⟩ :=
    received_packets rewrite three starts run apart member host
  obtain ⟨otherSofar, otherOrder, otherReceived⟩ :=
    received_packets rewrite three starts run apart otherMember otherHost
  have short : Carries rewrite (fun frame => (payload frame).take 1024)
      fun v => (content v).take 1024 :=
    fun mac dstip v => congrArg (List.take 1024) (carries mac dstip v)
  rw [Reads, short.payloads received] at reads
  rw [Reads, short.payloads otherReceived] at otherReads
  rw [(reported_after sha256 uninterrupted).reports,
    (reported_after sha256 otherUninterrupted).reports, reads, otherReads]
  rcases List.prefix_or_prefix_of_prefix order otherOrder with less | more
  · exact .inl (reportsOn_mono sha256 (less.map _))
  · exact .inr (reportsOn_mono sha256 (more.map _))

/-- The hosts of the first two nodes got one packet so far. -/
theorem hosts_report_alike_first :
    let first := [Arrival.datagram [7]]
    let second := [.timeout, Arrival.datagram [7]]
    reports (Listen.after id first).printed <+:
        reports (Listen.after id second).printed ∨
      reports (Listen.after id second).printed <+:
        reports (Listen.after id first).printed := by
  intro first second
  obtain ⟨run, apart, host, otherHost⟩ := firstPacket_runs
  have carries : Carries ControlledSwitch.readdressed Frame.payload id :=
    fun _ _ _ => rfl
  apply hosts_report_alike ControlledSwitch.readdressed id (by decide)
    threeHosts_starts run apart carries (by simp) (by simp) host otherHost
  · simp [Uninterrupted, first]
  · simp [Uninterrupted, second]
  · rw [Reads]
    decide +kernel
  · rw [Reads]
    decide +kernel

end Service

end SwitchPaxos

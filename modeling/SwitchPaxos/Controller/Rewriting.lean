import SwitchPaxos.Wire.Ethernet
import Mathlib.Data.List.Forall2

/-!
# Rewriting destinations

`rewrite_destinations` lets the packet library parse a packet, sets destination
addresses and a checksum in it, and the library packs the result when it is
sent.  Whatever the library finds in a packet, nothing else of it changes.
-/

namespace SwitchPaxos

/-- The protocols that `rewrite_destinations` looks for. -/
inductive Protocol where
  | ipv4
  | ipv6
  | tcp
  | udp
deriving DecidableEq

/-- A header inside a frame. -/
structure Header where
  -- None of the above for other protocols
  protocol : Option Protocol
  -- Empty but for IP
  dstip : Bytes
  csum : ℕ
  -- All other fields
  fields : Bytes
deriving DecidableEq

/-- A frame as the packet library parses it: headers, the outermost one first,
and what comes after them. -/
structure Parsed where
  src : EthAddr
  dst : EthAddr
  type : UInt16
  headers : List Header
  data : Bytes
deriving DecidableEq

/-- What `rewrite_destinations` uses of the packet library. -/
structure PacketLibrary where
  -- `pkt.ethernet(raw=raw_packet)`, where the packet can be `None`
  ethernet : Option Bytes → Parsed
  -- `checksum` of the header that is found
  checksum : Protocol → Parsed → ℕ
  -- What comes after the Ethernet header of a frame that is sent
  pack : List Header → Bytes → Bytes

namespace Parsed

def find (protocol : Protocol) (eth : Parsed) : Option Header :=
  eth.headers.find? fun header => header.protocol = some protocol

/-- Assign to fields of the header that `find` returns. -/
def assign (protocol : Protocol) (change : Header → Header) :
    List Header → List Header
  | [] => []
  | header :: headers =>
      if header.protocol = some protocol then change header :: headers
      else header :: assign protocol change headers

end Parsed

namespace PacketLibrary

open Parsed

variable (library : PacketLibrary)

/-- `header.csum = header.checksum()` -/
def sum (protocol : Protocol) (eth : Parsed) : Parsed :=
  { eth with
    headers := assign protocol
      (fun header => { header with csum := library.checksum protocol eth })
      eth.headers }

/-- An IP header is given a destination.  It has no field for the address of
the Ethernet frame, which the source sets as well. -/
def redirect (protocol : Protocol) (dstip : IPAddr) (eth : Parsed) : Parsed :=
  library.sum protocol
    { eth with
      headers := assign protocol
        (fun ip => { ip with dstip := bigEndian 4 dstip }) eth.headers }

def rewriteDestinations (mac : EthAddr) (dstip : IPAddr)
    (rawPacket : Option Bytes) : Parsed :=
  let eth := { library.ethernet rawPacket with dst := mac }
  if (eth.find .ipv4).isSome then library.redirect .ipv4 dstip eth
  else if (eth.find .ipv6).isSome then library.redirect .ipv6 dstip eth
  else if (eth.find .tcp).isSome then library.sum .tcp eth
  else if (eth.find .udp).isSome then library.sum .udp eth
  else eth

/-- The frame that is sent. -/
def frame (eth : Parsed) : Frame :=
  { src := eth.src
    dst := eth.dst
    type := eth.type
    payload := library.pack eth.headers eth.data }

def rewrite (mac : EthAddr) (dstip : IPAddr) (rawPacket : Option Bytes) :
    Frame :=
  library.frame (library.rewriteDestinations mac dstip rawPacket)

end PacketLibrary

namespace Parsed

/-- The IP header of a frame. -/
def ip (eth : Parsed) : Option Header := (eth.find .ipv4).or (eth.find .ipv6)

/-- A header but for its checksum, and maybe for its destination. -/
structure Header.Alike (dstip : IPAddr) (before after : Header) : Prop where
  protocol : after.protocol = before.protocol
  fields : after.fields = before.fields
  dstip : after.dstip = before.dstip ∨ after.dstip = bigEndian 4 dstip

/-- A frame is sent to another Ethernet address, and what is in it to another IP
address.  Nothing else changes but checksums. -/
structure Redirected (mac : EthAddr) (dstip : IPAddr) (before after : Parsed) :
    Prop where
  dst : after.dst = mac
  src : after.src = before.src
  type : after.type = before.type
  data : after.data = before.data
  headers : List.Forall₂ (Header.Alike dstip) before.headers after.headers
  ip : after.ip.map Header.dstip = before.ip.map fun _ => bigEndian 4 dstip

variable {dstip : IPAddr} {protocol other : Protocol}

theorem Header.Alike.refl (header : Header) :
    Header.Alike dstip header header :=
  ⟨rfl, rfl, .inl rfl⟩

theorem alike_assign (change : Header → Header)
    (alike : ∀ header, Header.Alike dstip header (change header))
    (headers : List Header) :
    List.Forall₂ (Header.Alike dstip) headers
      (assign protocol change headers) := by
  induction headers with
  | nil => exact .nil
  | cons header headers induction =>
      unfold assign
      split
      · exact .cons (alike header) (List.forall₂_same.mpr fun other _ =>
          Header.Alike.refl other)
      · exact .cons (Header.Alike.refl header) induction

theorem assign_assign (change change' : Header → Header)
    (keeps : ∀ header, (change header).protocol = header.protocol)
    (headers : List Header) :
    assign protocol change' (assign protocol change headers) =
      assign protocol (fun header => change' (change header)) headers := by
  induction headers with
  | nil => rfl
  | cons header headers induction =>
      simp only [assign]
      split
      · next here => simp [assign, keeps, here]
      · next away => simp [assign, away, induction]

/-- Only the header that is found is changed. -/
theorem find_assign (change : Header → Header)
    (keeps : ∀ header, (change header).protocol = header.protocol)
    (headers : List Header) :
    (assign protocol change headers).find?
        (fun header => header.protocol = some other) =
      (headers.find? fun header => header.protocol = some other).map
        (if other = protocol then change else id) := by
  induction headers with
  | nil => rfl
  | cons header headers induction =>
      by_cases here : header.protocol = some protocol
      · by_cases same : other = protocol
        · simp [assign, here, keeps, same]
        · have away : ¬ header.protocol = some other := by
            rw [here]
            exact fun found => same (Option.some.inj found).symm
          simp [assign, here, keeps, same, Ne.symm same]
      · rw [assign, if_neg here, List.find?_cons, List.find?_cons, induction]
        by_cases found : header.protocol = some other
        · have away : ¬ other = protocol := by
            rintro rfl
            exact here found
          simp [found, away]
        · simp [found]

end Parsed

namespace PacketLibrary

open Parsed

variable {library : PacketLibrary} {mac : EthAddr} {dstip : IPAddr}
  {eth : Parsed} {protocol : Protocol}

/-- What becomes of an IP header. -/
private def toward (dstip : IPAddr) (csum : ℕ) (ip : Header) : Header :=
  { ip with dstip := bigEndian 4 dstip, csum }

/-- What becomes of the header of another protocol. -/
private def summed (csum : ℕ) (header : Header) : Header :=
  { header with csum }

private theorem headers_redirect (library : PacketLibrary)
    (protocol : Protocol) (dstip : IPAddr) (eth : Parsed) :
    ∃ csum, (library.redirect protocol dstip eth).headers =
      assign protocol (toward dstip csum) eth.headers :=
  ⟨_, assign_assign (fun ip => { ip with dstip := bigEndian 4 dstip }) _
    (fun _ => rfl) eth.headers⟩

private theorem redirected_ip (library : PacketLibrary)
    (found : (eth.find protocol).isSome)
    (kind : protocol = .ipv4 ∨ protocol = .ipv6 ∧ eth.find .ipv4 = none) :
    Redirected mac dstip eth
      (library.redirect protocol dstip { eth with dst := mac }) := by
  obtain ⟨csum, headers⟩ :=
    headers_redirect library protocol dstip { eth with dst := mac }
  have finds : ∀ other,
      (library.redirect protocol dstip { eth with dst := mac }).find other =
        (eth.find other).map
          (if other = protocol then toward dstip csum else id) := by
    intro other
    rw [Parsed.find, headers]
    exact find_assign (toward dstip csum) (fun _ => rfl) eth.headers
  refine ⟨rfl, rfl, rfl, rfl, ?_, ?_⟩
  · rw [headers]
    exact alike_assign (toward dstip csum)
      (fun header => ⟨rfl, rfl, .inr rfl⟩) eth.headers
  · obtain ⟨header, first⟩ := Option.isSome_iff_exists.mp found
    rw [Parsed.ip, Parsed.ip, finds, finds]
    rcases kind with rfl | ⟨rfl, none⟩
    · rw [first]
      rfl
    · rw [none, first]
      rfl

private theorem redirected_sum (library : PacketLibrary)
    (none4 : eth.find .ipv4 = none) (none6 : eth.find .ipv6 = none) :
    Redirected mac dstip eth
      (library.sum protocol { eth with dst := mac }) := by
  have csum : ∃ csum, (library.sum protocol { eth with dst := mac }).headers =
      assign protocol (summed csum) eth.headers := ⟨_, rfl⟩
  obtain ⟨csum, headers⟩ := csum
  refine ⟨rfl, rfl, rfl, rfl, ?_, ?_⟩
  · rw [headers]
    exact alike_assign (summed csum) (fun header => ⟨rfl, rfl, .inl rfl⟩)
      eth.headers
  have none : ∀ other, eth.find other = none →
      (library.sum protocol { eth with dst := mac }).find other = none := by
    intro other none
    rw [Parsed.find, headers]
    refine (find_assign (summed csum) (fun _ => rfl) eth.headers).trans ?_
    exact Option.map_eq_none_iff.mpr none
  rw [Parsed.ip, Parsed.ip, none .ipv4 none4, none .ipv6 none6, none4, none6]
  rfl

/-- What is sent differs from the packet only in where it goes. -/
theorem redirected (library : PacketLibrary) (mac : EthAddr) (dstip : IPAddr)
    (rawPacket : Option Bytes) :
    Redirected mac dstip (library.ethernet rawPacket)
      (library.rewriteDestinations mac dstip rawPacket) := by
  generalize found : library.ethernet rawPacket = eth
  have same : ∀ protocol,
      Parsed.find protocol { eth with dst := mac } = eth.find protocol :=
    fun protocol => rfl
  simp only [rewriteDestinations, found, same]
  by_cases ip4 : (eth.find .ipv4).isSome
  · rw [if_pos ip4]
    exact redirected_ip library ip4 (.inl rfl)
  have none4 := Option.not_isSome_iff_eq_none.mp ip4
  rw [if_neg ip4]
  by_cases ip6 : (eth.find .ipv6).isSome
  · rw [if_pos ip6]
    exact redirected_ip library ip6 (.inr ⟨rfl, none4⟩)
  have none6 := Option.not_isSome_iff_eq_none.mp ip6
  rw [if_neg ip6]
  split
  · exact redirected_sum library none4 none6
  split
  · exact redirected_sum library none4 none6
  · refine ⟨rfl, rfl, rfl, rfl, List.forall₂_same.mpr fun header _ =>
      Header.Alike.refl header, ?_⟩
    have none : eth.ip = none := by
      rw [Parsed.ip, none4, none6]
      rfl
    rw [none]
    exact Option.map_eq_none_iff.mpr none

/-- The sum of words of two bytes, where carries are added. -/
def onesComplement : Bytes → ℕ
  | high :: low :: bytes =>
      let sum := 256 * high.toNat + low.toNat + onesComplement bytes
      sum % 65536 + sum / 65536
  | _ => 0

/-- A library that knows IPv4 headers without options, and no other ones. -/
def ipv4 : PacketLibrary where
  ethernet rawPacket :=
    let raw := rawPacket.getD []
    let type := UInt16.ofNat (ofBigEndian ((raw.drop 12).take 2))
    let body := raw.drop 14
    let found := type = 0x0800 ∧ body.head? = some 0x45 ∧ 20 ≤ body.length
    { dst := EthAddr.ofRaw (raw.take 6)
      src := EthAddr.ofRaw ((raw.drop 6).take 6)
      type
      headers :=
        if found then
          [{ protocol := some .ipv4
             dstip := (body.drop 16).take 4
             csum := ofBigEndian ((body.drop 10).take 2)
             fields := body.take 10 ++ (body.drop 12).take 4 }]
        else []
      data := if found then body.drop 20 else body }
  checksum protocol eth :=
    match eth.find protocol with
    | some header => 65535 - onesComplement (header.fields ++ header.dstip)
    | none => 0
  pack headers data :=
    headers.foldr (fun header rest =>
      header.fields.take 10 ++ bigEndian 2 header.csum ++
        header.fields.drop 10 ++ header.dstip ++ rest) data

end PacketLibrary

end SwitchPaxos

import SwitchPaxos.Wire.Ethernet
import Mathlib.Data.Int.Order.Basic

/-!
# The wire format of Paxos messages

`PaxosMessage` packs the parameters of a message behind the Ethernet header:
two unsigned 32-bit integers in network order, and for ACCEPT and CLIENT the
client packet behind them.
-/

namespace SwitchPaxos

/-- The exceptions the controllers can end in. -/
inductive Failure where
  /-- A payload has the wrong length. -/
  | assertPayload
  /-- A number does not fit the field it is packed into. -/
  | assertU32
  /-- A raw address is not six bytes long. -/
  | assertMac
  /-- The queue met a slot of this round that is already processed. -/
  | assertNotProcessed
  /-- A host has the address of a Paxos node. -/
  | assertNotPaxos
  /-- There is no node to pick a round for. -/
  | assertNodes
  /-- `list.remove` did not find the item. -/
  | notInList
  /-- An attribute is missing. -/
  | noAttribute
deriving DecidableEq

def UINT32_MAX : ℕ := 2 * 2 ^ 31 - 1

def assertU32 (n : ℤ) : Except Failure Unit :=
  if 0 ≤ n ∧ n ≤ UINT32_MAX then .ok () else .error .assertU32

namespace PaxosMessage

def JOIN : UInt16 := 0x7A00
def ACCEPT : UInt16 := 0x7A01
def LEARN : UInt16 := 0x7A02
def TRUST : UInt16 := 0x7A04
def PROMISE : UInt16 := 0x7A08
def PREPARE : UInt16 := 0x7A20
def CLIENT : UInt16 := 0x7A40

/-- The keys of `typemap`. -/
def typemap : List UInt16 :=
  [ACCEPT, CLIENT, JOIN, LEARN, PREPARE, PROMISE, TRUST]

def isPaxosType (ethernetType : UInt16) : Bool :=
  ethernetType &&& 0xFF00 == 0x7A00

def isKnownPaxosType (ethernetType : UInt16) : Bool :=
  ethernetType ∈ typemap

/-- `pack("!I", n)` for a number that fits. -/
def packI (n : ℤ) : Bytes := bigEndian 4 n.toNat

def packJoin (nId : ℤ) (mac : Bytes) : Except Failure Bytes := do
  assertU32 nId
  if mac.length = 6 then .ok (packI nId ++ mac) else .error .assertMac

def unpackJoin (payload : Bytes) : Except Failure (ℕ × Bytes) :=
  if payload.length = 10 then
    .ok (ofBigEndian (payload.take 4), payload.drop 4)
  else
    .error .assertPayload

def packAccept (crnd seqno : ℤ) (cval : Bytes) : Except Failure Bytes := do
  assertU32 crnd
  assertU32 seqno
  .ok (packI crnd ++ packI seqno ++ cval)

def unpackAccept (payload : Bytes) : Except Failure (ℕ × ℕ × Bytes) :=
  if 8 ≤ payload.length then
    .ok (ofBigEndian (payload.take 4),
      ofBigEndian ((payload.drop 4).take 4), payload.drop 8)
  else
    .error .assertPayload

def packLearn (n seqno : ℤ) : Except Failure Bytes := do
  assertU32 n
  assertU32 seqno
  .ok (packI n ++ packI seqno)

def unpackLearn (payload : Bytes) : Except Failure (ℕ × ℕ) :=
  if 8 ≤ payload.length then
    .ok (ofBigEndian (payload.take 4),
      ofBigEndian ((payload.drop 4).take 4))
  else
    .error .assertPayload

def packClient (payload : Bytes) : Bytes := packI 0 ++ packI 0 ++ payload

def unpackClient (payload : Bytes) : Except Failure Bytes :=
  if 8 ≤ payload.length then .ok (payload.drop 8) else .error .assertPayload

/-- The header that ACCEPT and LEARN share. -/
def header (n seqno : ℕ) : Bytes := packI n ++ packI seqno

@[simp] theorem length_packI (n : ℤ) : (packI n).length = 4 :=
  length_bigEndian _ _

@[simp] theorem length_header (n seqno : ℕ) : (header n seqno).length = 8 := by
  simp [header]

private theorem assertU32_cast (n : ℕ) :
    assertU32 n = if n ≤ UINT32_MAX then .ok () else .error .assertU32 := by
  simp [assertU32]

theorem packAccept_cast (n seqno : ℕ) (v : Bytes) :
    packAccept n seqno v =
      if n ≤ UINT32_MAX ∧ seqno ≤ UINT32_MAX then .ok (header n seqno ++ v)
      else .error .assertU32 := by
  by_cases first : n ≤ UINT32_MAX <;> by_cases second : seqno ≤ UINT32_MAX <;>
    simp [packAccept, assertU32_cast, first, second, header, bind, Except.bind]

theorem packLearn_cast (n seqno : ℕ) :
    packLearn n seqno =
      if n ≤ UINT32_MAX ∧ seqno ≤ UINT32_MAX then .ok (header n seqno)
      else .error .assertU32 := by
  by_cases first : n ≤ UINT32_MAX <;> by_cases second : seqno ≤ UINT32_MAX <;>
    simp [packLearn, assertU32_cast, first, second, header, bind, Except.bind]

private theorem lt_of_le_max {n : ℕ} (fits : n ≤ UINT32_MAX) : n < 256 ^ 4 := by
  simp only [UINT32_MAX] at fits
  omega

theorem ofBigEndian_packI {n : ℕ} (fits : n ≤ UINT32_MAX) :
    ofBigEndian (packI n) = n :=
  ofBigEndian_bigEndian_of_lt (lt_of_le_max fits)

private theorem take_header (n seqno : ℕ) (v : Bytes) :
    (header n seqno ++ v).take 4 = packI n := by
  rw [header, List.append_assoc, List.take_left' (length_packI _)]

private theorem take_drop_header (n seqno : ℕ) (v : Bytes) :
    ((header n seqno ++ v).drop 4).take 4 = packI seqno := by
  rw [header, List.append_assoc, List.drop_left' (length_packI _),
    List.take_left' (length_packI _)]

theorem unpackAccept_header {n seqno : ℕ} (first : n ≤ UINT32_MAX)
    (second : seqno ≤ UINT32_MAX) (v : Bytes) :
    unpackAccept (header n seqno ++ v) = .ok (n, seqno, v) := by
  have long : 8 ≤ (header n seqno ++ v).length := by simp
  rw [unpackAccept, if_pos long, take_header, take_drop_header,
    ofBigEndian_packI first, ofBigEndian_packI second,
    List.drop_left' (length_header _ _)]

theorem unpackLearn_header {n seqno : ℕ} (first : n ≤ UINT32_MAX)
    (second : seqno ≤ UINT32_MAX) :
    unpackLearn (header n seqno) = .ok (n, seqno) := by
  have whole := take_header n seqno []
  have rest := take_drop_header n seqno []
  rw [List.append_nil] at whole rest
  rw [unpackLearn, if_pos (by simp), whole, rest, ofBigEndian_packI first,
    ofBigEndian_packI second]

theorem unpackAccept_error {payload : Bytes} {failure : Failure}
    (malformed : unpackAccept payload = .error failure) :
    failure = .assertPayload := by
  unfold unpackAccept at malformed
  split at malformed <;> cases malformed
  rfl

theorem unpackLearn_error {payload : Bytes} {failure : Failure}
    (malformed : unpackLearn payload = .error failure) :
    failure = .assertPayload := by
  unfold unpackLearn at malformed
  split at malformed <;> cases malformed
  rfl

theorem unpackClient_error {payload : Bytes} {failure : Failure}
    (malformed : unpackClient payload = .error failure) :
    failure = .assertPayload := by
  unfold unpackClient at malformed
  split at malformed <;> cases malformed
  rfl

/-- Whatever a payload decodes to fits the fields it was read from. -/
theorem unpackAccept_le {payload : Bytes} {n seqno : ℕ} {v : Bytes}
    (decoded : unpackAccept payload = .ok (n, seqno, v)) :
    n ≤ UINT32_MAX ∧ seqno ≤ UINT32_MAX := by
  unfold unpackAccept at decoded
  split at decoded
  · next long =>
      simp only [Except.ok.injEq, Prod.mk.injEq] at decoded
      obtain ⟨rfl, rfl, -⟩ := decoded
      have first := ofBigEndian_lt (payload.take 4)
      have second := ofBigEndian_lt ((payload.drop 4).take 4)
      rw [List.length_take, Nat.min_eq_left (by omega)] at first
      rw [List.length_take, List.length_drop, Nat.min_eq_left (by omega)]
        at second
      simp only [UINT32_MAX]
      omega
  · cases decoded

end PaxosMessage

namespace Frame

/-- The frame `send_accept` outputs. -/
def accept (src dst : EthAddr) (n seqno : ℕ) (v : Bytes) : Frame :=
  { src, dst, type := PaxosMessage.ACCEPT
    payload := PaxosMessage.header n seqno ++ v }

/-- The frame `send_learn` outputs. -/
def learn (src dst : EthAddr) (n seqno : ℕ) : Frame :=
  { src, dst, type := PaxosMessage.LEARN
    payload := PaxosMessage.header n seqno }

/-- The frame a client packet is wrapped into. -/
def client (src dst : EthAddr) (v : Bytes) : Frame :=
  { src, dst, type := PaxosMessage.CLIENT
    payload := PaxosMessage.packClient v }

/-- The upcall for a frame that carries no IPv4 packet. -/
def upcall (frame : Frame) (port : Port) : PacketIn :=
  { port, parsed := frame, srcip := none }

end Frame

end SwitchPaxos

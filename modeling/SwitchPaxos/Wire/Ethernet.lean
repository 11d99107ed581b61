import Mathlib.Data.Fintype.Basic
import SwitchPaxos.Base.BigEndian

/-!
# Frames and upcalls

Addresses, Ethernet frames and the packet-in events a switch raises.  The
OpenFlow library hands addresses around as objects; their raw form is six
bytes in network order.
-/

namespace SwitchPaxos

abbrev EthAddr : Type := Fin (2 ^ 48)

instance neZero_ethAddr : NeZero (2 ^ 48) := ⟨by decide⟩

namespace EthAddr

def toRaw (address : EthAddr) : Bytes := bigEndian 6 address.val

/-- The address with the given raw form, which has to be six bytes long. -/
def ofRaw (raw : Bytes) : EthAddr := Fin.ofNat (2 ^ 48) (ofBigEndian raw)

@[simp] theorem length_toRaw (address : EthAddr) :
    address.toRaw.length = 6 := length_bigEndian _ _

@[simp] theorem ofRaw_toRaw (address : EthAddr) :
    ofRaw address.toRaw = address := by
  have small : address.val < 256 ^ 6 := address.isLt
  apply Fin.ext
  rw [ofRaw, toRaw, ofBigEndian_bigEndian_of_lt small]
  exact Nat.mod_eq_of_lt address.isLt

end EthAddr

/-- `ff:ff:ff:ff:ff:ff` -/
def ETHER_BROADCAST : EthAddr := 0xFFFFFFFFFFFF

abbrev IPAddr : Type := Fin (2 ^ 32)

instance neZero_ipAddr : NeZero (2 ^ 32) := ⟨by decide⟩

/-- Port numbers of a switch, the reserved ones included. -/
abbrev Port : Type := ℕ

/-- Output to every port but the one the packet came in on. -/
def OFPP_ALL : Port := 0xFFFC

/-- Whether a frame that is output leaves through a port.  It never leaves
through the one it came in on; a frame that a controller made came in on none.
-/
abbrev LeavesOn (ingress : Option Port) (output port : Port) : Prop :=
  (output = OFPP_ALL ∨ output = port) ∧ some port ≠ ingress

structure Frame where
  src : EthAddr
  dst : EthAddr
  type : UInt16
  payload : Bytes
deriving DecidableEq

/-- An upcall: the port the frame arrived on, the frame, and the source
address of the IPv4 header in it, if the packet library finds one. -/
structure PacketIn where
  port : Port
  parsed : Frame
  srcip : Option IPAddr

end SwitchPaxos

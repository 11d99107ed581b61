import SwitchPaxos.Base.Dict
import SwitchPaxos.Base.Handler
import SwitchPaxos.Wire.Message

/-!
# The learning switch

`BaselineController` learns which port an address is on, forwards what it
knows and floods what it does not.  With `addFlows` it installs flows, so that
the switch forwards the following frames on its own.
-/

namespace SwitchPaxos

/-- What a controller sends to its switch. -/
inductive SwitchCommand where
  /-- Output a frame on a port. -/
  | packetOut (frame : Frame) (port : Port)
  /-- Release a buffered frame without any action. -/
  | drop
  /-- Install a flow; no source address matches every source. -/
  | flowMod (dlSrc : Option EthAddr) (dlDst : EthAddr) (port : Port)
  /-- Delete all flows. -/
  | clearFlows
deriving DecidableEq

structure BaselineController where
  addFlows : Bool
  learnIpAddresses : Bool
  macports : Dict EthAddr Port
  macip : Dict EthAddr IPAddr

namespace BaselineController

abbrev Handler (α : Type) : Type :=
  SwitchPaxos.Handler BaselineController SwitchCommand Failure α

/-- What `__init__` sets up for a controller that knows nobody. -/
def new (addFlows learnIpAddresses : Bool) : BaselineController :=
  { addFlows, learnIpAddresses, macports := ∅, macip := ∅ }

def learnPort (mac : EthAddr) (port : Port) (self : BaselineController) :
    BaselineController :=
  if mac ∈ self.macports then self
  else { self with macports := self.macports.insert mac port }

def learnIp (mac : EthAddr) (ip : IPAddr) (self : BaselineController) :
    BaselineController :=
  if mac ∈ self.macip then self
  else { self with macip := self.macip.insert mac ip }

def clearMacports (self : BaselineController) : BaselineController :=
  { self with macports := ∅ }

def clearFlowtable : Handler Unit := Handler.emit .clearFlows

def forward (packetIn : Frame) (port : Port) : Handler Unit :=
  Handler.emit (.packetOut packetIn port)

def broadcast (packetIn : Frame) : Handler Unit := forward packetIn OFPP_ALL

def drop : Handler Unit := Handler.emit .drop

def addForwardFlow (fromMac : Option EthAddr) (toMac : EthAddr) (port : Port) :
    Handler Unit :=
  Handler.emit (.flowMod fromMac toMac port)

/-- What `__init__` does to the switch when `clear_flows_on_startup` is set. -/
def start : Handler Unit := do
  clearFlowtable
  let self ← Handler.get
  if self.addFlows then addForwardFlow none ETHER_BROADCAST OFPP_ALL
  else pure ()

def connectionDown : Handler Unit := do
  Handler.modify clearMacports
  clearFlowtable

/-- What `_handle_PacketIn` learns from the sender of a frame. -/
def learnSender (event : PacketIn) (self : BaselineController) :
    BaselineController :=
  let self := self.learnPort event.parsed.src event.port
  match self.learnIpAddresses, event.srcip with
  | true, some srcip => self.learnIp event.parsed.src srcip
  | _, _ => self

def handlePacketIn (event : PacketIn) : Handler Unit := do
  let packet := event.parsed
  Handler.modify (learnSender event)
  let self ← Handler.get
  match self.macports.lookup packet.dst, self.macports.lookup packet.src with
  | none, _ => broadcast packet
  | some port, source =>
      if self.addFlows then do
        addForwardFlow (some packet.src) packet.dst port
        -- The sender's port is known by now, as the first line learns it.
        match source with
        | some source => addForwardFlow (some packet.dst) packet.src source
        | none => pure ()
        forward packet port
      else forward packet port

def portToMac (port : Port) (self : BaselineController) :
    Option (List EthAddr) :=
  if port ∈ self.macports.values then some (self.macports.keysOf port)
  else none

def macToIp (mac : EthAddr) (self : BaselineController) : Option IPAddr :=
  self.macip.lookup mac

variable (self : BaselineController)

theorem lookup_learnPort (mac other : EthAddr) (port : Port) :
    (self.learnPort mac port).macports.lookup other =
      if other = mac then some ((self.macports.lookup mac).getD port)
      else self.macports.lookup other := by
  unfold learnPort
  split
  · next known =>
      split
      · next same =>
          subst same
          obtain ⟨found, lookup⟩ :=
            Option.isSome_iff_exists.mp (AList.lookup_isSome.mpr known)
          rw [lookup, Option.getD_some]
      · rfl
  · next unknown =>
      rw [Dict.lookup_insert_eq, AList.lookup_eq_none.mpr unknown,
        Option.getD_none]

theorem macports_learnSender (event : PacketIn) :
    (self.learnSender event).macports =
      (self.learnPort event.parsed.src event.port).macports := by
  unfold learnSender
  dsimp only
  split
  · unfold learnIp
    split <;> rfl
  · rfl

end BaselineController

end SwitchPaxos

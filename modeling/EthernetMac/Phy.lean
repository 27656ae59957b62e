import EthernetMac.Mdio
import EthernetMac.LinkStatus

namespace EthernetMac

/-- A PHY with the standard registers, at an address of the management bus. -/
structure Phy where
  address : Nat
  timeoutMicros : Nat := Mdio.standardTimeoutMicros
deriving DecidableEq, Repr

namespace Phy

variable {ε : Type} [Bus ε]

def controlRegister : Nat := 0
def statusRegister : Nat := 1
def identifierHighRegister : Nat := 2
def identifierLowRegister : Nat := 3

def linkBit : UInt16 := 0x0004
def hundredBit : UInt16 := 0x2000
def fullDuplexBit : UInt16 := 0x0100

def at? (address : Nat) (timeoutMicros : Nat) : Except Failure Phy :=
  if Mdio.maxAddress < address then .error ConfigFault.invalidPhyAddress
  else .ok { address := address, timeoutMicros := timeoutMicros }

def read (phy : Phy) (register : Nat) : Attempt ε Failure UInt16 :=
  Mdio.read phy.timeoutMicros phy.address register

def identifier (phy : Phy) : Attempt ε Failure UInt32 := do
  let high ← phy.read identifierHighRegister
  let low ← phy.read identifierLowRegister
  return high.toUInt32 <<< 16 ||| low.toUInt32

/-- Whether the link is up. The first reading only releases a loss of the link that the PHY has held since it was
last asked. -/
def isLinkUp (phy : Phy) : Attempt ε Failure Bool := do
  let _ ← phy.read statusRegister
  let status ← phy.read statusRegister
  return status &&& linkBit != 0

def modeOf (control : UInt16) : LinkStatus :=
  .ofMode (if control &&& hundredBit != 0 then .hundred else .ten)
    (if control &&& fullDuplexBit != 0 then .full else .half)

/-- The state of the link; a link that is down has the standard mode. -/
def linkStatus (phy : Phy) : Attempt ε Failure LinkStatus := do
  if ← phy.isLinkUp then
    return modeOf (← phy.read controlRegister)
  else
    return {}

end Phy

end EthernetMac

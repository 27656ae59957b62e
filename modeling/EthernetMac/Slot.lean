import EthernetMac.Descriptor

namespace EthernetMac

/-- A routine of the application that was registered to receive transmit timestamps, by its number. -/
abbrev Callback := Nat

/-- What is to happen with the timestamp of a frame that was sent. -/
structure StampRequest where
  tag : UInt32 := 0
  callback : Option Callback := none
deriving DecidableEq, Repr, Inhabited

/-- The software's own part of a ring slot; the hardware skips over it. -/
structure Extension where
  buffer : UInt32 := 0
  sequence : UInt16 := 0
  request : StampRequest := {}
deriving DecidableEq, Repr, Inhabited

structure Slot where
  descriptor : Descriptor := {}
  ext : Extension := {}
deriving DecidableEq, Repr, Inhabited

namespace Slot

/-- The bytes from one slot to the next where the address of a routine has 64 bits, as on a host. Where it has 32, as
on the device itself, they are 32. -/
def size : Nat := 40

def skipWords : Nat := (size - Descriptor.size) / 4

/-- Gives the slot back to the hardware for another frame in its own block. -/
def rearm (slot : Slot) : Slot :=
  { slot with descriptor := Descriptor.armed slot.ext.buffer }

def takeRequest (slot : Slot) : StampRequest × Slot :=
  (slot.ext.request, { slot with ext := { slot.ext with request := {} } })

end Slot

end EthernetMac

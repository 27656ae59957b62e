import EthernetMac.Failure
import EthernetMac.Slot

namespace EthernetMac

/-- The bytes of the buffer in which frames that span several blocks are put together. -/
def maxFrameSize : Nat := 1536

def maxDescriptorLength : Nat := 0x3FFF

/-- The sizes that a driver is built for: the slots of both rings and the bytes of a block. -/
structure Geometry where
  rx : Nat
  tx : Nat
  buffer : Nat
  rx_pos : 0 < rx
  rx_le : rx ≤ 1024
  tx_pos : 0 < tx
  tx_le : tx ≤ 1024
  buffer_pos : 0 < buffer
  buffer_aligned : buffer % 4 = 0
  buffer_le : buffer ≤ maxDescriptorLength

namespace Geometry

/-- The geometry of the given sizes, if the peripheral can work with them. -/
def ofSizes? (rx tx buffer : Nat) : Option Geometry :=
  if fits : (0 < rx ∧ rx ≤ 1024) ∧ (0 < tx ∧ tx ≤ 1024) ∧ 0 < buffer ∧ buffer % 4 = 0 ∧
      buffer ≤ maxDescriptorLength then
    some ⟨rx, tx, buffer, fits.1.1, fits.1.2, fits.2.1.1, fits.2.1.2, fits.2.2.1, fits.2.2.2.1, fits.2.2.2.2⟩
  else
    none

def firstRx (g : Geometry) : Fin g.rx := ⟨0, g.rx_pos⟩

def firstTx (g : Geometry) : Fin g.tx := ⟨0, g.tx_pos⟩

/-- The receive slot of a number, which may go round the ring. -/
def rxSlot (g : Geometry) (number : Nat) : Fin g.rx := ⟨number % g.rx, Nat.mod_lt _ g.rx_pos⟩

def txSlot (g : Geometry) (number : Nat) : Fin g.tx := ⟨number % g.tx, Nat.mod_lt _ g.tx_pos⟩

def lengthFault? (g : Geometry) (length : Nat) : Option DmaFault :=
  if length = 0 then some .invalidLength
  else if g.buffer < length ∨ maxDescriptorLength < length then some .frameTooLarge
  else none

def memory (g : Geometry) : Nat :=
  (g.rx + g.tx) * Slot.size + (g.rx + g.tx) * g.buffer + maxFrameSize

end Geometry

/-- Where the hardware finds slot 0 of each ring and the first block; the transmit blocks follow the receive
blocks. Addresses may wrap at the top of the address space. -/
structure Placement where
  rxRing : UInt32
  txRing : UInt32
  blocks : UInt32
deriving DecidableEq, Repr

def Placement.txBlocks (placement : Placement) (g : Geometry) : UInt32 :=
  placement.blocks + UInt32.ofNat (g.rx * g.buffer)

end EthernetMac

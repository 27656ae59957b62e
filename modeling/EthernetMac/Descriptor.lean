import EthernetMac.Timestamp

namespace EthernetMac

/-- The four words of a DMA descriptor. What a word means depends on the direction of the ring and on whether the
software has filled the descriptor for the hardware or the hardware has written it back. -/
structure Descriptor where
  word0 : UInt32 := 0
  word1 : UInt32 := 0
  word2 : UInt32 := 0
  word3 : UInt32 := 0
deriving DecidableEq, Repr, Inhabited

namespace Descriptor

def size : Nat := 16

/-- All words zero: owned by the software and carrying nothing. -/
def blank : Descriptor := {}

def words (d : Descriptor) : List UInt32 := [d.word0, d.word1, d.word2, d.word3]

def ownBit : UInt32 := 0x80000000
def contextBit : UInt32 := 0x40000000
def firstBit : UInt32 := 0x20000000
def lastBit : UInt32 := 0x10000000
def errorBit : UInt32 := 0x00008000

/-- In word 1 of a received frame's last descriptor: a timestamp follows in the next descriptor. -/
def stampFollowsBit : UInt32 := 0x00004000

/-- In word 3 of a finished transmit descriptor: words 0 and 1 hold the time of transmission. -/
def stampCapturedBit : UInt32 := 0x00020000

def interruptBit : UInt32 := 0x80000000
def captureBit : UInt32 := 0x40000000
def lengthField : UInt32 := 0x00003FFF
def frameLengthField : UInt32 := 0x00007FFF

/-- Word 3 of a descriptor that waits for a frame: owned by the hardware, interrupt when done, buffer valid. -/
def armedWord : UInt32 := 0xC1000000

/-- Word 3 of a frame to send: owned by the hardware, first and last descriptor, all checksums inserted. -/
def submitWord : UInt32 := 0xB0030000

/-- The hardware may change the descriptor; the software may not look at it. -/
def isOwned (d : Descriptor) : Bool := d.word3 &&& ownBit != 0

def isContext (d : Descriptor) : Bool := d.word3 &&& contextBit != 0

def isFirst (d : Descriptor) : Bool := d.word3 &&& firstBit != 0

def isLast (d : Descriptor) : Bool := d.word3 &&& lastBit != 0

def hasError (d : Descriptor) : Bool := d.word3 &&& errorBit != 0

def packetLength (d : Descriptor) : Nat := (d.word3 &&& lengthField).toNat

def stampFollows (d : Descriptor) : Bool := d.word1 &&& stampFollowsBit != 0

def stampCaptured (d : Descriptor) : Bool := d.word3 &&& stampCapturedBit != 0

def wantsCapture (d : Descriptor) : Bool := d.word2 &&& captureBit != 0

def wantsInterrupt (d : Descriptor) : Bool := d.word2 &&& interruptBit != 0

def bufferLength (d : Descriptor) : Nat := (d.word2 &&& lengthField).toNat

def timestamp (d : Descriptor) : Timestamp := ⟨d.word1, d.word0⟩

def armed (buffer : UInt32) : Descriptor :=
  { word0 := buffer, word3 := armedWord }

def submission (buffer : UInt32) (length : Nat) (control : UInt32) : Descriptor :=
  { word0 := buffer
    word2 := control ||| (UInt32.ofNat length &&& lengthField)
    word3 := submitWord ||| (UInt32.ofNat length &&& frameLengthField) }

end Descriptor

end EthernetMac

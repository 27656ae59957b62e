import EthernetMac.Ring
import EthernetMac.Pool
import EthernetMac.Geometry
import EthernetMac.Event

namespace EthernetMac

structure Transmitter (g : Geometry) where
  ring : Ring g.tx
  pool : Pool g.tx g.buffer
  nextSlot : Fin g.tx
  submitted : UInt16
  /-- The sequence number of the last frame whose timestamp was delivered. -/
  acknowledged : UInt16
  /-- Held while timestamps are delivered. -/
  completing : Bool
  /-- Timestamps were asked for while others were being delivered. -/
  rescan : Bool

namespace Transmitter

variable {g : Geometry}

def blank (g : Geometry) (placement : Placement) : Transmitter g where
  ring := Ring.blank g.tx placement.txRing
  pool := Pool.blank g.tx g.buffer (placement.txBlocks g)
  nextSlot := g.firstTx
  submitted := 0
  acknowledged := 0
  completing := false
  rescan := false

/-- Gives each slot its block, takes all slots back, and starts the counts anew. -/
def clear (t : Transmitter g) : Transmitter g :=
  { t with
    ring := { t.ring with slots := Vector.ofFn fun i => { ext := { buffer := t.pool.address i } } }
    nextSlot := g.firstTx
    submitted := 0
    acknowledged := 0 }

def isReady (t : Transmitter g) : Bool :=
  !t.ring.isOwned t.nextSlot

def available (t : Transmitter g) : Nat :=
  t.ring.places.countP fun i => !t.ring.isOwned i

/-- The slot of a frame that was just copied into its block. -/
def filledSlot (slot : Slot) (length : Nat) (options : TxOptions) (sequence : UInt16) : Slot where
  descriptor := Descriptor.submission slot.ext.buffer length options.control
  ext := { slot.ext with sequence := sequence, request := options.request }

/-- Puts a frame into the slot `i` and hands the slot to the hardware. -/
def fill (t : Transmitter g) (i : Fin g.tx) (bytes : Array UInt8) (options : TxOptions) : Transmitter g :=
  { t with
    ring := t.ring.modifySlot i fun slot => filledSlot slot bytes.size options (t.submitted + 1)
    pool := t.pool.fill i bytes
    submitted := t.submitted + 1
    nextSlot := Ring.next i }

/-- A slot whose frame was sent and whose timestamp was captured. -/
def isStamped (t : Transmitter g) (i : Fin g.tx) : Bool :=
  !t.ring.isOwned i && (t.ring.descriptor i).stampCaptured

/-- How far a slot's sequence number lies after the last one acknowledged; the far half of the circle counts as
before it. -/
def distance (t : Transmitter g) (i : Fin g.tx) : Int :=
  ((t.ring.slot i).ext.sequence - t.acknowledged).toInt16.toInt

/-- Of two stamped slots the one that was submitted first; of two equal ones the one met first. -/
def closer (t : Transmitter g) (best : Option (Fin g.tx)) (i : Fin g.tx) : Option (Fin g.tx) :=
  match best with
  | none => some i
  | some j => if t.distance i < t.distance j then some i else some j

/-- The stamped slot that follows the last acknowledged one most closely. One that comes right after it is
preferred to any other. -/
def nextStamped? (t : Transmitter g) : Option (Fin g.tx) :=
  let stamped := t.ring.places.filter t.isStamped
  (stamped.find? fun i => t.distance i = 1).or (stamped.foldl t.closer none)

/-- Takes the timestamp out of a slot: the slot becomes blank, its request is spent, and its sequence number is
acknowledged. -/
def takeStamp (t : Transmitter g) (i : Fin g.tx) : (Option Callback × TxTimestamp) × Transmitter g :=
  let slot := t.ring.slot i
  let (request, spent) := slot.takeRequest
  ((request.callback, ⟨slot.descriptor.timestamp, request.tag⟩),
    { t with
      ring := t.ring.setSlot i { spent with descriptor := .blank }
      acknowledged := slot.ext.sequence })

end Transmitter

end EthernetMac

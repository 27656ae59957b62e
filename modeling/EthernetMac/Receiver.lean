import EthernetMac.Ring
import EthernetMac.Pool
import EthernetMac.Geometry
import EthernetMac.Diagnostic

namespace EthernetMac

/-- What comes of the promise of a frame's last descriptor that a stamp follows it. -/
inductive StampContext (n : Nat) where
  | unpromised
  | missing
  | inSlot (i : Fin n)
deriving DecidableEq, Repr

def StampContext.count {n : Nat} : StampContext n → Nat
  | .inSlot _ => 1
  | _ => 0

/-- What the slots from a software-owned one on hold. Each run but the last kind takes the slot that it starts at and
the `following` ones; a frame takes the slot of its stamp too. -/
inductive Run (n : Nat) where
  | frame (last : Fin n) (following : Nat) (context : StampContext n)
  | stray (following : Nat)
  | overflow (following : Nat)
  | incomplete
deriving DecidableEq, Repr

def Run.beyond {n : Nat} : Run n → Nat
  | .frame _ following context => following + context.count
  | .stray following => following
  | .overflow following => following
  | .incomplete => 0

namespace Ring

variable {n : Nat}

/-- Walks back from `start` over at most the given number of slots, and stops in front of a hardware-owned one. -/
def afterOwned? (ring : Ring n) : Nat → Fin n → Option (Fin n)
  | 0, _ => none
  | count + 1, start =>
    if ring.isOwned (previous start) then some start else ring.afterOwned? count (previous start)

/-- The oldest slot that the hardware has written and not been given back, `position` being the slot it writes next.
When all other slots are software-owned, its own slot decides: if that too is software-owned the ring is full, and the
oldest slot is the hardware's. -/
def oldest (ring : Ring n) (position : Fin n) : Fin n :=
  (ring.afterOwned? (n - 1) position).getD (if ring.isOwned position then next position else position)

/-- The verdict on a frame whose last descriptor is at `last`, with `room` more slots that may be looked at. -/
def closeRun (ring : Ring n) (room following : Nat) (last : Fin n) : Run n :=
  if (ring.descriptor last).stampFollows then
    if room = 0 ∨ ring.isOwned (next last) then .incomplete
    else if (ring.descriptor (next last)).isContext then .frame last following (.inSlot (next last))
    else .frame last following .missing
  else
    .frame last following .unpromised

/-- Follows a frame from the slot at `last` on; `following` slots after its first have been seen, and `room` more may
be. A frame that fills the ring without an end can never be finished by the hardware. -/
def followRun (ring : Ring n) (room following : Nat) (last : Fin n) : Run n :=
  if (ring.descriptor last).isLast then ring.closeRun room following last
  else if following + 1 = n then .overflow following
  else match room with
    | 0 => .incomplete
    | room + 1 =>
      if ring.isOwned (next last) then .incomplete
      else if (ring.descriptor (next last)).isFirst || (ring.descriptor (next last)).isContext then .stray following
      else ring.followRun room (following + 1) (next last)

/-- The run that starts at a software-owned slot, seen through that slot and `room` more. -/
def scan (ring : Ring n) (first : Fin n) (room : Nat) : Run n :=
  if (ring.descriptor first).isContext || !(ring.descriptor first).isFirst then .stray 0
  else ring.followRun room 0 first

/-- The length of a whole frame of the given number of segments, or why the frame cannot be offered. -/
def frameLength (ring : Ring n) (buffer : Nat) (last : Fin n) (segments : Nat) : Except Diagnostic Nat :=
  let descriptor := ring.descriptor last
  let length := descriptor.packetLength
  if descriptor.hasError then .error (.frameError descriptor.word3)
  else if length = 0 ∨ segments * buffer < length then .error (.lengthInvalid length segments)
  else if segments ≠ 1 ∧ maxFrameSize < length then .error (.lengthExceedsScratch length)
  else .ok length

def stampAt? (ring : Ring n) : StampContext n → Option Timestamp
  | .inSlot i => some (ring.descriptor i).timestamp
  | _ => none

end Ring

/-- What is copied at a time when a frame is put together: the first `length` bytes of a block, to `offset`. -/
structure Piece (n : Nat) where
  block : Fin n
  length : Nat
  offset : Nat
deriving DecidableEq, Repr

/-- The pieces that are still to be copied of `length` bytes, `copied` of them being in place. The bytes fill one block
of `size` bytes after the other, and go on in the block `i`. -/
def Piece.cut {n size : Nat} (positive : 0 < size) (length copied : Nat) (i : Fin n) : List (Piece n) :=
  if copied < length then
    let chunk := min (length - copied) size
    ⟨i, chunk, copied⟩ :: cut positive length (copied + chunk) (Ring.next i)
  else
    []
termination_by length - copied

namespace Pool

variable {n size : Nat}

def copy {target : Nat} (pool : Pool n size) (into : Block target) (piece : Piece n) : Block target :=
  into.overlay piece.offset ((pool.block piece.block).take piece.length)

/-- The first `length` bytes of the blocks from `first` on, put together in `scratch`. -/
def reassemble (pool : Pool n size) (positive : 0 < size) (scratch : Block maxFrameSize) (first : Fin n)
    (length : Nat) : Array UInt8 × Block maxFrameSize :=
  let length := min length maxFrameSize
  let scratch := (Piece.cut positive length 0 first).foldl pool.copy scratch
  (scratch.take length, scratch)

end Pool

structure Receiver (g : Geometry) where
  ring : Ring g.rx
  pool : Pool g.rx g.buffer
  scratch : Block maxFrameSize
  walking : Bool

namespace Receiver

variable {g : Geometry}

def blank (g : Geometry) (placement : Placement) : Receiver g where
  ring := Ring.blank g.rx placement.rxRing
  pool := Pool.blank g.rx g.buffer placement.blocks
  scratch := Vector.replicate maxFrameSize 0
  walking := false

/-- Gives each slot its block, and all slots to the hardware. -/
def arm (r : Receiver g) : Receiver g :=
  { r with ring := { r.ring with slots := Vector.ofFn fun i =>
      { descriptor := Descriptor.armed (r.pool.address i), ext := { buffer := r.pool.address i } } } }

/-- The first `length` bytes of the blocks from `first` on, put together in the scratch buffer. -/
def reassemble (r : Receiver g) (first : Fin g.rx) (length : Nat) : Array UInt8 × Receiver g :=
  let (bytes, scratch) := r.pool.reassemble g.buffer_pos r.scratch first length
  (bytes, { r with scratch := scratch })

/-- The bytes of a frame. One that lies in a single block is taken from there. -/
def frameBytes (r : Receiver g) (first : Fin g.rx) (segments length : Nat) : Array UInt8 × Receiver g :=
  if segments = 1 then ((r.pool.block first).take length, r) else r.reassemble first length

def freeCount (r : Receiver g) : Nat := r.ring.ownedCount

end Receiver

end EthernetMac

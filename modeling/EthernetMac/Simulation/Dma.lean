import EthernetMac.Receiver
import EthernetMac.Transmitter

namespace EthernetMac

/-- What the hardware writes back into a transmit slot when it has sent the frame. -/
def Descriptor.sent (stamp : Option Timestamp) (flags : UInt32) : Descriptor :=
  let time := stamp.getD .zero
  { word0 := time.nanoseconds
    word1 := time.seconds
    word3 := firstBit ||| lastBit ||| (if stamp.isSome then stampCapturedBit else 0) ||| flags }

/-- The hardware finishes the frame of a slot; the answer is whether it raises the interrupt. `none` when the slot is
not the hardware's. -/
def Transmitter.complete? {g : Geometry} (t : Transmitter g) (i : Fin g.tx) (stamp : Option Timestamp)
    (flags : UInt32) : Option (Bool × Transmitter g) :=
  if t.ring.isOwned i then
    some ((t.ring.descriptor i).wantsInterrupt, { t with ring := t.ring.setDescriptor i (.sent stamp flags) })
  else
    none

structure Arrival where
  bytes : Array UInt8
  timestamp : Option Timestamp := none
  first : Bool := true
  last : Bool := true
  /-- A timestamp is followed by the slot that holds it. -/
  context : Bool := true
  error : Bool := false
  flags : UInt32 := 0
deriving Repr

structure Arrival.Outcome (g : Geometry) where
  receiver : Receiver g
  position : Fin g.rx
  used : Nat
  stopped : Bool

namespace Arrival

variable {g : Geometry}

/-- What the hardware writes back for the part that ends at byte `upTo`. -/
def writeBack (arrival : Arrival) (isStart : Bool) (upTo : Nat) : Descriptor :=
  let closes := arrival.last && upTo == arrival.bytes.size
  { word1 := if closes && arrival.timestamp.isSome then Descriptor.stampFollowsBit else 0
    word3 := (UInt32.ofNat upTo &&& Descriptor.lengthField)
      ||| (if arrival.first && isStart then Descriptor.firstBit else 0)
      ||| (if closes then Descriptor.lastBit ||| arrival.flags ||| (if arrival.error then Descriptor.errorBit else 0)
          else 0) }

/-- Whether the hardware can write a part of a frame to a slot: the slot is its own and has its block. -/
def canTake (r : Receiver g) (i : Fin g.rx) : Bool :=
  r.ring.isOwned i && (r.ring.descriptor i).word0 == r.pool.address i

/-- Writes `parts` parts of a frame, one to a slot, from byte `done` on. -/
def store (arrival : Arrival) (r : Receiver g) (position : Fin g.rx) (done used : Nat) : (parts : Nat) → Outcome g
  | 0 => ⟨r, position, used, false⟩
  | parts + 1 =>
    if canTake r position then
      let upTo := min (done + g.buffer) arrival.bytes.size
      let filled := { r with
        ring := r.ring.setDescriptor position (arrival.writeBack (used == 0) upTo)
        pool := r.pool.fill position (arrival.bytes.extract done upTo) }
      arrival.store filled (Ring.next position) upTo (used + 1) parts
    else
      ⟨r, position, used, true⟩

/-- Writes the time of a frame to the slot behind it, if there is one to write. -/
def storeStamp (arrival : Arrival) (outcome : Outcome g) : Outcome g :=
  match arrival.timestamp with
  | some time =>
    if outcome.stopped || !arrival.last || !arrival.context then outcome
    else if outcome.receiver.ring.isOwned outcome.position then
      let stamp : Descriptor :=
        { word0 := time.nanoseconds, word1 := time.seconds, word3 := Descriptor.contextBit }
      { outcome with
        receiver := { outcome.receiver with ring := outcome.receiver.ring.setDescriptor outcome.position stamp }
        position := Ring.next outcome.position }
    else { outcome with stopped := true }
  | none => outcome

def receive (arrival : Arrival) (r : Receiver g) (position : Fin g.rx) : Outcome g :=
  arrival.storeStamp (arrival.store r position 0 0 ((arrival.bytes.size + g.buffer - 1) / g.buffer))

end Arrival

end EthernetMac

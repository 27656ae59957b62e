import Mathlib.Logic.Relation
import EthernetMac.Reception
import EthernetMac.Proofs.BringUp

namespace EthernetMac

/-- A frame as it comes in from the line, cut into the segments that the DMA lays into one block each. Every segment
but the last fills its block; the last one takes the rest, which may be nothing. -/
structure Reception (g : Geometry) where
  bytes : Array UInt8
  segments : Nat
  stamp : Option Timestamp
  faulty : Bool
  segments_pos : 0 < segments
  filled : (segments - 1) * g.buffer ≤ bytes.size
  covered : bytes.size ≤ segments * g.buffer

/-- What the DMA writes back at a time: one segment of a frame or, behind the last one, the frame's stamp. -/
structure Part (g : Geometry) where
  reception : Reception g
  index : Nat

namespace Reception

variable {g : Geometry}

def slots (f : Reception g) : Nat := f.segments + f.stamp.isSome.toNat

def parts (f : Reception g) : List (Part g) := (List.range f.slots).map (Part.mk f)

def frame (f : Reception g) : Frame := ⟨f.bytes, f.stamp⟩

/-- A frame is offered unless it is damaged, empty, or cut up and too long to be put together. -/
def isDeliverable (f : Reception g) : Bool :=
  !f.faulty && f.bytes.size != 0 && (f.segments == 1 || decide (f.bytes.size ≤ maxFrameSize))

/-- The frames among some receptions that are to be offered, in the order of reception. -/
def deliverables (receptions : List (Reception g)) : List Frame :=
  (receptions.filter isDeliverable).map frame

/-- A frame whose length fits the length field of a descriptor and whose slots fit the ring. -/
def FitsRing (f : Reception g) : Prop :=
  f.bytes.size ≤ maxDescriptorLength ∧ f.slots ≤ g.rx

end Reception

namespace Part

variable {g : Geometry}

def bytes (part : Part g) : Array UInt8 :=
  part.reception.bytes.extract (part.index * g.buffer) ((part.index + 1) * g.buffer)

/-- The words that the DMA may write back for a part of a frame. All bits that are not named here are free. -/
structure Describes (part : Part g) (d : Descriptor) : Prop where
  released : d.isOwned = false
  context : d.isContext = decide (part.index = part.reception.segments)
  first : part.index < part.reception.segments → d.isFirst = decide (part.index = 0)
  last : part.index < part.reception.segments → d.isLast = decide (part.index + 1 = part.reception.segments)
  length : part.index + 1 = part.reception.segments →
    d.packetLength = part.reception.bytes.size % (maxDescriptorLength + 1)
  error : part.index + 1 = part.reception.segments → d.hasError = part.reception.faulty
  stampFollows : part.index + 1 = part.reception.segments → d.stampFollows = part.reception.stamp.isSome
  stamp : part.index = part.reception.segments → part.reception.stamp = some d.timestamp

end Part

/-- Writes bytes to the block at an address, or nowhere when no block of the pool lies there. -/
def Pool.deposit {n size : Nat} (pool : Pool n size) (address : UInt32) (bytes : Array UInt8) : Pool n size :=
  match (List.finRange n).find? fun i => pool.address i = address with
  | some i => pool.fill i bytes
  | none => pool

/-- The DMA has stored bytes where the descriptor of a slot told it to, and has written the descriptor back. -/
def Receiver.writeBack {g : Geometry} (r : Receiver g) (i : Fin g.rx) (d : Descriptor) (bytes : Array UInt8) :
    Receiver g :=
  { r with
    ring := r.ring.setDescriptor i d
    pool := r.pool.deposit (r.ring.descriptor i).word0 bytes }

/-- The receive DMA: the slot that it writes next, the frames that it has written whole, and the part that it writes
next of a frame that it has begun. -/
structure ReceiveDma (g : Geometry) where
  position : Fin g.rx
  finished : List (Reception g) := []
  underway : Option (Part g) := none
  begun : ∀ part ∈ underway, 0 < part.index ∧ part.index < part.reception.slots := by simp

namespace ReceiveDma

variable {g : Geometry}

/-- The part is one that may be written next: the one that is due or, between two frames, the start of any frame. -/
def MayWrite (dma : ReceiveDma g) (part : Part g) : Prop :=
  match dma.underway with
  | some due => part = due
  | none => part.index = 0

def wrote (dma : ReceiveDma g) (part : Part g) : ReceiveDma g :=
  if more : part.index + 1 < part.reception.slots then
    { position := Ring.next dma.position
      finished := dma.finished
      underway := some ⟨part.reception, part.index + 1⟩
      begun := by
        intro due same
        obtain rfl := Option.mem_some_iff.mp same
        exact ⟨Nat.succ_pos _, more⟩ }
  else
    { position := Ring.next dma.position
      finished := dma.finished ++ [part.reception] }

/-- Before its first frame. -/
def fresh (position : Fin g.rx) : ReceiveDma g := { position := position }

/-- What is written so far of a frame that is not whole yet. -/
def unfinished (dma : ReceiveDma g) : List (Part g) :=
  match dma.underway with
  | some due => due.reception.parts.take due.index
  | none => []

def history (dma : ReceiveDma g) : List (Part g) :=
  dma.finished.flatMap Reception.parts ++ dma.unfinished

end ReceiveDma

/-- A frame that was offered to the application, what the application answered, and the frames that the DMA had
finished when the offer was made. -/
structure Offer (g : Geometry) where
  frame : Frame
  answer : Disposition
  finished : List (Reception g)

/-- The frames that the application has taken, in the order of the offers. -/
def Offer.consumed {g : Geometry} (offers : List (Offer g)) : List Frame :=
  (offers.filter (·.answer ≠ .retry)).map Offer.frame

/-- The surroundings of a driver with the receive DMA at work in them: the address of the ring that the DMA was given,
the offers made to the application so far, and all the rest of the peripheral. -/
structure ReceiveBench (g : Geometry) (σ : Type) where
  ringBase : UInt32
  dma : ReceiveDma g
  offers : List (Offer g) := []
  rest : σ

namespace ReceiveBench

variable {g : Geometry} {σ : Type}

def currentAddress (bench : ReceiveBench g σ) : UInt32 :=
  bench.ringBase + UInt32.ofNat (bench.dma.position.val * Slot.size)

/-- The current-descriptor register names the slot that the DMA writes next. Every other access goes to the rest of
the peripheral, which answers as it likes. -/
instance [Bus σ] : Bus (ReceiveBench g σ) where
  read offset bench :=
    if offset = Register.currentRxDescriptor.offset then (bench.currentAddress, bench)
    else ((Bus.read offset bench.rest).1, { bench with rest := (Bus.read offset bench.rest).2 })
  write offset value bench := { bench with rest := Bus.write offset value bench.rest }
  delay nanoseconds bench := { bench with rest := Bus.delay nanoseconds bench.rest }

/-- What the driver's accesses cannot change. -/
def core (bench : ReceiveBench g σ) : UInt32 × ReceiveDma g × List (Offer g) :=
  (bench.ringBase, bench.dma, bench.offers)

theorem core_untouched [Bus σ] : Bus.Untouched (core : ReceiveBench g σ → _) where
  read offset bench := by
    change core (if _ then _ else _ : UInt32 × ReceiveBench g σ).2 = _
    split <;> rfl
  write _ _ _ := rfl
  delay _ _ := rfl

end ReceiveBench

section Runs

variable {g : Geometry} {σ : Type}

/-- The application with a record of what it is offered and what it answers. -/
def Application.recorded (app : Application g (ReceiveBench g σ)) : Application g (ReceiveBench g σ) where
  onEvent event := do
    let finished := (← get).world.dma.finished
    let answer ← app.onEvent event
    if let .frameAvailable frame := event then
      Call.quiet (Board.modifyWorld fun bench =>
        { bench with offers := bench.offers ++ [⟨frame, answer, finished⟩] })
    return answer
  onStamp := app.onStamp

/-- What may happen beside the driver's own receive walk: the DMA writes one slot back, which must be the hardware's,
or something happens that leaves the receive side as it is. `admits` tells the frames that may come in. -/
inductive Meanwhile (admits : Reception g → Prop) :
    Board g (ReceiveBench g σ) → Board g (ReceiveBench g σ) → Prop
  | writeBack {board part d} :
      admits part.reception → board.world.dma.MayWrite part →
      board.mac.receiver.ring.isOwned board.world.dma.position = true → part.Describes d →
      Meanwhile admits board
        { board with
          mac := { board.mac with receiver := board.mac.receiver.writeBack board.world.dma.position d part.bytes }
          world := { board.world with dma := board.world.dma.wrote part } }
  | aside {before after} :
      after.mac.receiver = before.mac.receiver → after.world.core = before.world.core →
      (before.mac.lifecycle ≠ .uninitialized → after.mac.lifecycle ≠ .uninitialized) →
      Meanwhile admits before after

/-- While the application is at work on an event the DMA may go on, and anything may happen that leaves the receive
side alone. The application may answer as it likes, and may never answer. -/
def Application.SparesReceiver (admits : Reception g → Prop) (app : Application g (ReceiveBench g σ)) : Prop :=
  ∀ event before answer after, app.onEvent event before = some (answer, after) →
    Relation.ReflTransGen (Meanwhile admits) before after

/-- The boards that a run can reach after a bring-up: the DMA and the rest of the world go on at any time, and the
received frames are processed with any application. -/
inductive ReceiveReach [Bus σ] (admits : Reception g → Prop) : Board g (ReceiveBench g σ) → Prop
  | start {config placement before after} :
      before.mac = Mac.blank g placement → before.world.ringBase = placement.rxRing →
      before.world.dma.finished = [] → before.world.dma.underway = none → before.world.offers = [] →
      Board.init config before = (.ok (), after) → ReceiveReach admits after
  | meanwhile {before after} :
      ReceiveReach admits before → Meanwhile admits before after → ReceiveReach admits after
  | process {app before count after} :
      ReceiveReach admits before → Application.SparesReceiver admits app →
      Board.processReceived app.recorded before = some (count, after) → ReceiveReach admits after

end Runs

end EthernetMac

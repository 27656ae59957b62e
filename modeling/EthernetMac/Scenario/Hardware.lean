import EthernetMac.Scenario.Bench

namespace EthernetMac.Scenario

variable {g : Geometry}

def changeRegisters (change : RegisterFile → RegisterFile) : BoardM g Bench Reply := do
  Bench.modify fun bench => { bench with registers := change bench.registers }
  return .nothing

def peek (register : Register) : BoardM g Bench UInt32 :=
  return (← Bench.get).registers.peek register.offset

def poke (register : Register) (value : UInt32) : BoardM g Bench Unit :=
  Bench.modify fun bench => { bench with registers := bench.registers.poke register.offset value }

def raiseStatus (bits : UInt32) : BoardM g Bench Unit :=
  Bench.modify fun bench => { bench with registers := bench.registers.raise Register.channelStatus.offset bits }

def addressOf (ring : Ring g.rx) : RxPosition → UInt32
  | .raw address => address
  | .relative slot delta => ring.base + UInt32.ofInt (Int.ofNat (slot * Slot.size) + delta)

def completeSlot (slot : Nat) (stamp : Option Timestamp) (flags : UInt32) : BoardM g Bench Reply := do
  match (← Board.transmitter).complete? (g.txSlot slot) stamp flags with
  | none => return .text "not submitted"
  | some (raises, transmitter) =>
    Board.modifyTransmitter fun _ => transmitter
    if raises then raiseStatus (DmaCause.transmitComplete.bit ||| DmaCause.normalSummary.bit)
    return .flag raises

/-- Lays bytes over memory from the start of a receive block on. The transmit blocks follow the receive blocks. -/
def overlayBlocks (slot : Nat) (bytes : Array UInt8) : BoardM g Bench Unit := do
  let start := (g.rxSlot slot).val * g.buffer
  Board.modifyReceiver fun r => { r with pool := r.pool.overlay start bytes }
  Board.modifyTransmitter fun t => { t with pool := t.pool.overlay 0 (bytes.extract (g.rx * g.buffer - start)) }

def payload (t : Transmitter g) (slot : Nat) : Reply :=
  let i := g.txSlot slot
  if t.ring.isOwned i then
    let start := i.val * g.buffer
    .digest (.ofBytes (t.pool.bytes.extract start (start + (t.ring.descriptor i).bufferLength)))
  else .text "not submitted"

/-- The hardware receives from its position on, moves the position, and raises the interrupt. -/
def receive (arrival : Arrival) : BoardM g Bench Reply := do
  let receiver ← Board.receiver
  let start := (receiver.ring.indexOf? (← peek .currentRxDescriptor)).getD g.firstRx
  let outcome := arrival.receive receiver start
  Board.modifyReceiver fun _ => outcome.receiver
  poke .currentRxDescriptor (receiver.ring.slotAddress outcome.position)
  raiseStatus (DmaCause.receiveComplete.bit ||| DmaCause.normalSummary.bit)
  if outcome.stopped then
    raiseStatus (DmaCause.receiveBufferUnavailable.bit ||| DmaCause.abnormalSummary.bit)
  return .arrival outcome.used outcome.stopped

def setDescriptor (side : RingSide) (slot : Nat) (descriptor : Descriptor) : BoardM g Bench Unit :=
  match side with
  | .rx => Board.modifyReceiver fun r => { r with ring := r.ring.setDescriptor (g.rxSlot slot) descriptor }
  | .tx => Board.modifyTransmitter fun t => { t with ring := t.ring.setDescriptor (g.txSlot slot) descriptor }

/-- What the hardware does to the rings and blocks. There is nothing to do it to before they are laid out. -/
def stimulateRings : Stimulus → BoardM g Bench Reply
  | .rxPosition position => do
    poke .currentRxDescriptor (addressOf (← Board.receiver).ring position)
    return .nothing
  | .setDescriptor side slot descriptor => do
    setDescriptor side slot descriptor
    return .nothing
  | .overlayBlocks slot bytes => do
    overlayBlocks slot bytes
    return .nothing
  | .descriptor .rx slot => return .descriptor ((← Board.receiver).ring.descriptor (g.rxSlot slot)).words
  | .descriptor .tx slot => return .descriptor ((← Board.transmitter).ring.descriptor (g.txSlot slot)).words
  | .complete slot stamp flags => completeSlot slot stamp flags
  | .payload slot => return payload (← Board.transmitter) slot
  | .receive arrival => receive arrival
  | _ => return .nothing

def stimulate : Stimulus → BoardM g Bench Reply
  | .preset offset value => changeRegisters (·.poke offset value)
  | .hold offset bits => changeRegisters (·.hold offset bits)
  | .release offset => changeRegisters (·.release offset)
  | .queueReads offset values => changeRegisters (·.enqueue offset values)
  | .readCount offset => return .number ((← Bench.get).registers.readCount offset)
  | .raise bits => do
    raiseStatus bits
    return .nothing
  | .device address register value => changeRegisters (·.setDevice address register value)
  | stimulus => do
    if (← Board.lifecycle) = .uninitialized then
      return .text "not initialized"
    else
      stimulateRings stimulus

end EthernetMac.Scenario

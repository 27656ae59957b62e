import EthernetMac.Board
import EthernetMac.Register

namespace EthernetMac.Board

variable {g : Geometry} {ε : Type}

/-- Puts a frame of valid length into a software-owned slot and hands the slot to the hardware; answers the sequence
number of the frame. Writing the tail pointer wakes a channel that has gone idle. -/
def fillSlot [Bus ε] (i : Fin g.tx) (bytes : Array UInt8) (options : TxOptions) : BoardM g ε UInt16 := do
  modifyTransmitter fun t => t.fill i bytes options
  onBus (Register.txTailPointer.write 0)
  return (← transmitter).submitted

def submitNow [Bus ε] (bytes : Array UInt8) (options : TxOptions) : BoardM g ε (Except Failure UInt16) := do
  match g.lengthFault? bytes.size with
  | some fault => return .error fault
  | none =>
    let transmitter ← transmitter
    if transmitter.isReady then
      return .ok (← fillSlot transmitter.nextSlot bytes options)
    else
      return .error DmaFault.descriptorBusy

/-- Waits for a slot: while the hardware owns it, `idle` is what the surroundings do meanwhile. It does not return
when the slot is still taken after `spins` turns. -/
def awaitSlot (i : Fin g.tx) (idle : BoardM g ε Unit) (spins : Nat) : Call g ε Unit := do
  if (← get).mac.transmitter.ring.isOwned i then
    match spins with
    | 0 => failure
    | spins + 1 =>
      Call.quiet idle
      awaitSlot i idle spins

/-- Submits a frame, waiting for the next slot to become free. -/
def submitWaiting [Bus ε] (bytes : Array UInt8) (options : TxOptions) (idle : BoardM g ε Unit) (spins : Nat) :
    Call g ε (Except Failure UInt16) := do
  match g.lengthFault? bytes.size with
  | some fault => return .error fault
  | none =>
    let i := (← get).mac.transmitter.nextSlot
    awaitSlot i idle spins
    return .ok (← Call.quiet (fillSlot i bytes options))

def tryTransmit [Bus ε] (bytes : Array UInt8) (options : TxOptions) : BoardM g ε (Except Failure UInt16) := do
  if (← lifecycle) = .running then
    submitNow bytes options
  else
    return .error BusFault.invalidState

def transmit [Bus ε] (bytes : Array UInt8) (options : TxOptions) (idle : BoardM g ε Unit) (spins : Nat) :
    Call g ε (Except Failure UInt16) := do
  if (← get).mac.lifecycle = .running then
    submitWaiting bytes options idle spins
  else
    return .error BusFault.invalidState

end EthernetMac.Board

import EthernetMac.Board
import EthernetMac.Reset
import EthernetMac.Peripheral

namespace EthernetMac.Board

variable {g : Geometry} {ε : Type} [Bus ε]

/-- Lays out both rings and programs them into the DMA channel, without starting it. No ring address is zero to the
hardware, so with tail pointers of zero a channel never finds itself at the end of its ring. -/
def layOutRings (burst : UInt32) : BoardM g ε Unit := do
  modifyReceiver Receiver.arm
  modifyTransmitter Transmitter.clear
  let rxBase := (← receiver).ring.base
  let txBase := (← transmitter).ring.base
  onBus do
    Register.channelControl.write (UInt32.ofNat Slot.skipWords <<< Fields.skipLengthShift &&& Fields.skipLength)
    Register.txControl.write (burst <<< Fields.burstShift &&& Fields.burst)
    Register.rxControl.write
      (burst <<< Fields.burstShift &&& Fields.burst |||
        (UInt32.ofNat g.buffer <<< Fields.bufferSizeShift &&& Fields.bufferSize))
    Register.txRingLength.write (UInt32.ofNat (g.tx - 1) &&& Fields.ringLength)
    Register.txListAddress.write txBase
    Register.rxRingLength.write (UInt32.ofNat (g.rx - 1) &&& Fields.ringLength)
    Register.rxListAddress.write rxBase
    Register.txTailPointer.write 0
    Register.rxTailPointer.write 0

def configureMac (config : Config) : StateM ε Unit := do
  Register.mdioAddress.write (config.clock.code <<< Fields.mdioClockShift &&& Fields.mdioClock)
  Peripheral.setStation config.address
  Register.packetFilter.write
    (if config.promiscuous then Fields.promiscuous else Fields.passMulticast ||| Fields.hashOrPerfect)
  Register.macConfiguration.write (Peripheral.modeBits config.speed config.duplex ||| Fields.checksumOffload)
  Register.txQueueMode.write Fields.txQueueOperation
  Register.rxQueueMode.write Fields.rxStoreAndForward

/-- Brings the driver up, once. Until the reset is done nothing but the reset has happened. -/
def init (config : Config) : BoardM g ε (Except Failure Unit) := do
  if (← lifecycle) ≠ .uninitialized then
    return .error ConfigFault.alreadyInitialized
  else match config.validate with
    | .error fault => return .error fault
    | .ok _ =>
      match ← attempt (softReset config.resetTimeoutMs) with
      | .error fault => return .error fault
      | .ok _ =>
        onBus (configureMac config)
        layOutRings config.burst.beats
        setLifecycle .initialized
        return .ok ()

/-- Lets traffic through. A running driver stays as it is. -/
def start : BoardM g ε (Except Failure Unit) := do
  match ← lifecycle with
  | .running => return .ok ()
  | .uninitialized => return .error BusFault.invalidState
  | _ =>
    onBus do
      Peripheral.acknowledge .everyCause
      Peripheral.enableInterrupts .enabled
      Peripheral.startReception
      Peripheral.startTransmission
      Peripheral.enableReceiver
      Peripheral.enableTransmitter
    setLifecycle .running
    return .ok ()

def stop : BoardM g ε (Except Failure Unit) := do
  if (← lifecycle) = .running then
    onBus do
      Peripheral.stopTransmission
      Peripheral.disableTransmitter
      Peripheral.disableReceiver
      Peripheral.stopReception
      Peripheral.enableInterrupts .empty
    setLifecycle .stopped
    return .ok ()
  else
    return .error BusFault.invalidState

end EthernetMac.Board

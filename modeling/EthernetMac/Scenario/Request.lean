import EthernetMac.Clock.Pulse
import EthernetMac.Phy
import EthernetMac.Reset
import EthernetMac.Scenario.Reply

namespace EthernetMac

/-- An operation on the bus alone. -/
inductive Request where
  | load (offset : UInt32)
  | store (offset value : UInt32)
  | setBits (offset bits : UInt32)
  | clearBits (offset bits : UInt32)
  | flipBits (offset bits : UInt32)
  | add (offset amount : UInt32)
  | anySet (register : Register) (bits : UInt32)
  | startTransmission
  | stopTransmission
  | startReception
  | stopReception
  | enableTransmitter
  | disableTransmitter
  | enableReceiver
  | disableReceiver
  | requestReset
  | isResetComplete
  | station
  | setStation (address : MacAddress)
  | setMode (speed : Speed) (duplex : Duplex)
  | mdioBusy
  | mdioRead (timeoutMicros phy register : Nat)
  | mdioWrite (timeoutMicros phy register : Nat) (value : UInt16)
  | phyAt (address : Nat)
  | phyIdentifier (timeoutMicros address : Nat)
  | phyLinkUp (timeoutMicros address : Nat)
  | phyStatus (timeoutMicros address : Nat)
  | clockEnable
  | clockDisable
  | clockEnabled
  | fineCorrection (fine : Bool)
  | setTime (seconds nanoseconds : UInt32)
  | stepTime (seconds nanoseconds : UInt32) (direction : Clock.Direction)
  | now
  | addend
  | setAddend (value : UInt32)
  | increment
  | setIncrement (value : UInt8)
  | setAuxiliary (channel : Nat) (enabled : Bool)
  | clearAuxiliary
  | auxiliaryCount
  | auxiliarySnapshot
  | pulseRate (rate : Clock.PulseRate)
  | startPulses (high period : UInt32)
  | stopPulses

namespace Request

variable {ε : Type} [Bus ε]

def silently (act : StateM ε Unit) : StateM ε Reply := do
  act
  return .nothing

def attempted {α : Type} (value : α → Value) (act : Attempt ε Failure α) : StateM ε Reply :=
  return .ofResult value (← act.run)

def attemptedPart {α : Type} (value : α → Value) (act : Attempt ε BusFault α) : StateM ε Reply :=
  return .partOutcome ((← (act.relabel Failure.bus).run).map value)

/-- An operation on the PHY at an address, if there can be one. -/
def onPhy {α : Type} (timeoutMicros address : Nat) (value : α → Value) (act : Phy → Attempt ε Failure α) :
    StateM ε Reply :=
  match Phy.at? address timeoutMicros with
  | .error failure => return .outcome (.error failure)
  | .ok phy => attempted value (act phy)

def run : Request → StateM ε Reply
  | .load offset => return .register offset (← Bus.load offset)
  | .store offset value => silently (Bus.store offset value)
  | .setBits offset bits => silently (Bus.setBits offset bits)
  | .clearBits offset bits => silently (Bus.clearBits offset bits)
  | .flipBits offset bits => silently (Bus.update offset (· ^^^ bits))
  | .add offset amount => silently (Bus.update offset (· + amount))
  | .anySet register bits => return .flag (← register.anySet bits)
  | .startTransmission => silently Peripheral.startTransmission
  | .stopTransmission => silently Peripheral.stopTransmission
  | .startReception => silently Peripheral.startReception
  | .stopReception => silently Peripheral.stopReception
  | .enableTransmitter => silently Peripheral.enableTransmitter
  | .disableTransmitter => silently Peripheral.disableTransmitter
  | .enableReceiver => silently Peripheral.enableReceiver
  | .disableReceiver => silently Peripheral.disableReceiver
  | .requestReset => silently Peripheral.requestReset
  | .isResetComplete => return .flag (← Peripheral.isResetComplete)
  | .station => return .bytes (← Peripheral.station)
  | .setStation address => silently (Peripheral.setStation address)
  | .setMode speed duplex => silently (Peripheral.setMode speed duplex)
  | .mdioBusy => return .flag (← Peripheral.isMdioBusy)
  | .mdioRead timeout phy register => attempted (.number ·.toNat) (Mdio.read timeout phy register)
  | .mdioWrite timeout phy register value => attempted (fun _ => .done) (Mdio.write timeout phy register value)
  | .phyAt address => return .ofResult (.number ·.address) (Phy.at? address Mdio.standardTimeoutMicros)
  | .phyIdentifier timeout address => onPhy timeout address (.number ·.toNat) Phy.identifier
  | .phyLinkUp timeout address => onPhy timeout address .flag Phy.isLinkUp
  | .phyStatus timeout address => onPhy timeout address .link Phy.linkStatus
  | .clockEnable => silently Clock.enable
  | .clockDisable => silently Clock.disable
  | .clockEnabled => return .flag (← Clock.isEnabled)
  | .fineCorrection fine => silently (Clock.setFineCorrection fine)
  | .setTime seconds nanoseconds => attempted (fun _ => .done) (Clock.setTime seconds nanoseconds)
  | .stepTime seconds nanoseconds direction =>
    attempted (fun _ => .done) (Clock.step seconds nanoseconds direction)
  | .now => return .stamp (← Clock.now)
  | .addend => return .ofWord (← Clock.addend)
  | .setAddend value => attemptedPart (fun _ => .done) (Clock.setAddend value)
  | .increment => return .number (← Clock.increment).toNat
  | .setIncrement value => silently (Clock.setIncrement value)
  | .setAuxiliary channel enabled => attempted (fun _ => .done) (Clock.setAuxiliaryChannel channel enabled)
  | .clearAuxiliary => silently Clock.clearAuxiliary
  | .auxiliaryCount => return .number (← Clock.auxiliaryCount)
  | .auxiliarySnapshot => return .stamp (← Clock.auxiliarySnapshot)
  | .pulseRate rate => silently (Clock.setPulseRate rate)
  | .startPulses high period => attempted (fun _ => .done) (Clock.startPulses high period)
  | .stopPulses => attemptedPart (fun _ => .done) Clock.stopPulses

end Request

end EthernetMac

import EthernetMac.Register
import EthernetMac.Register.Fields
import EthernetMac.Register.DmaStatus
import EthernetMac.Config

namespace EthernetMac.Peripheral

variable {ε : Type} [Bus ε]

def startTransmission : StateM ε Unit :=
  Register.txControl.setBits Fields.startTransmission

def stopTransmission : StateM ε Unit :=
  Register.txControl.clearBits Fields.startTransmission

def startReception : StateM ε Unit :=
  Register.rxControl.setBits Fields.startReception

def stopReception : StateM ε Unit :=
  Register.rxControl.clearBits Fields.startReception

def enableTransmitter : StateM ε Unit :=
  Register.macConfiguration.setBits Fields.transmitterEnable

def disableTransmitter : StateM ε Unit :=
  Register.macConfiguration.clearBits Fields.transmitterEnable

def enableReceiver : StateM ε Unit :=
  Register.macConfiguration.setBits Fields.receiverEnable

def disableReceiver : StateM ε Unit :=
  Register.macConfiguration.clearBits Fields.receiverEnable

/-- Asks for a software reset; the hardware clears the request when the reset is done. -/
def requestReset : StateM ε Unit :=
  Register.dmaMode.setBits Fields.softwareReset

def isResetComplete : StateM ε Bool := do
  return !(← Register.dmaMode.anySet Fields.softwareReset)

def status : StateM ε DmaStatus := do
  return ⟨← Register.channelStatus.read⟩

/-- Acknowledges causes: the hardware takes back each status bit that is written as one. -/
def acknowledge (status : DmaStatus) : StateM ε Unit :=
  Register.channelStatus.write status.bits

def enableInterrupts (status : DmaStatus) : StateM ε Unit :=
  Register.interruptEnable.write status.bits

def isMdioBusy : StateM ε Bool :=
  Register.mdioAddress.anySet Fields.mdioBusy

def modeBits (speed : Speed) (duplex : Duplex) : UInt32 :=
  (if speed = .hundred then Fields.fastEthernet else 0) ||| (if duplex = .full then Fields.fullDuplex else 0)

/-- Brings the MAC to a link mode and leaves the rest of its configuration as it is. -/
def setMode (speed : Speed) (duplex : Duplex) : StateM ε Unit :=
  Register.macConfiguration.update fun value =>
    value &&& ~~~(Fields.fastEthernet ||| Fields.fullDuplex) ||| modeBits speed duplex

def stationHigh (address : MacAddress) : UInt32 :=
  (address.byte 4).toUInt32 ||| (address.byte 5).toUInt32 <<< 8

def stationLow (address : MacAddress) : UInt32 :=
  (address.byte 0).toUInt32 ||| (address.byte 1).toUInt32 <<< 8
    ||| (address.byte 2).toUInt32 <<< 16 ||| (address.byte 3).toUInt32 <<< 24

/-- Writes the station address. The low word makes the address take effect, so the high word goes first. -/
def setStation (address : MacAddress) : StateM ε Unit := do
  Register.stationHigh.write (stationHigh address)
  Register.stationLow.write (stationLow address)

def stationBytes (high low : UInt32) : MacAddress :=
  #v[low.toUInt8, (low >>> 8).toUInt8, (low >>> 16).toUInt8, (low >>> 24).toUInt8, high.toUInt8, (high >>> 8).toUInt8]

def station : StateM ε MacAddress := do
  let high ← Register.stationHigh.read
  let low ← Register.stationLow.read
  return stationBytes high low

end EthernetMac.Peripheral

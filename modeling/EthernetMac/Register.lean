import EthernetMac.Bus

namespace EthernetMac

inductive Register where
  | macConfiguration
  | packetFilter
  | mdioAddress
  | mdioData
  | stationHigh
  | stationLow
  | clockControl
  | subsecondIncrement
  | systemSeconds
  | systemNanoseconds
  | secondsUpdate
  | nanosecondsUpdate
  | addend
  | clockStatus
  | auxiliaryControl
  | auxiliaryNanoseconds
  | auxiliarySeconds
  | pulseControl
  | pulseTargetSeconds
  | pulseTargetNanoseconds
  | pulseInterval
  | pulseWidth
  | txQueueMode
  | rxQueueMode
  | dmaMode
  | channelControl
  | txControl
  | rxControl
  | txListAddress
  | rxListAddress
  | txTailPointer
  | rxTailPointer
  | txRingLength
  | rxRingLength
  | interruptEnable
  | currentTxDescriptor
  | currentRxDescriptor
  | channelStatus
deriving DecidableEq, Repr

namespace Register

def offset : Register → UInt32
  | .macConfiguration => 0x0000
  | .packetFilter => 0x0008
  | .mdioAddress => 0x0200
  | .mdioData => 0x0204
  | .stationHigh => 0x0300
  | .stationLow => 0x0304
  | .clockControl => 0x0B00
  | .subsecondIncrement => 0x0B04
  | .systemSeconds => 0x0B08
  | .systemNanoseconds => 0x0B0C
  | .secondsUpdate => 0x0B10
  | .nanosecondsUpdate => 0x0B14
  | .addend => 0x0B18
  | .clockStatus => 0x0B20
  | .auxiliaryControl => 0x0B40
  | .auxiliaryNanoseconds => 0x0B48
  | .auxiliarySeconds => 0x0B4C
  | .pulseControl => 0x0B70
  | .pulseTargetSeconds => 0x0B80
  | .pulseTargetNanoseconds => 0x0B84
  | .pulseInterval => 0x0B88
  | .pulseWidth => 0x0B8C
  | .txQueueMode => 0x0D00
  | .rxQueueMode => 0x0D30
  | .dmaMode => 0x1000
  | .channelControl => 0x1100
  | .txControl => 0x1104
  | .rxControl => 0x1108
  | .txListAddress => 0x1114
  | .rxListAddress => 0x111C
  | .txTailPointer => 0x1120
  | .rxTailPointer => 0x1128
  | .txRingLength => 0x112C
  | .rxRingLength => 0x1130
  | .interruptEnable => 0x1134
  | .currentTxDescriptor => 0x1144
  | .currentRxDescriptor => 0x114C
  | .channelStatus => 0x1160

/-- Where the window lies in the address space of the processor. -/
def windowBase : UInt32 := 0x40028000

variable {ε : Type} [Bus ε]

def read (register : Register) : StateM ε UInt32 :=
  Bus.load register.offset

def write (register : Register) (value : UInt32) : StateM ε Unit :=
  Bus.store register.offset value

def update (register : Register) (change : UInt32 → UInt32) : StateM ε Unit :=
  Bus.update register.offset change

def setBits (register : Register) (bits : UInt32) : StateM ε Unit :=
  Bus.setBits register.offset bits

def clearBits (register : Register) (bits : UInt32) : StateM ε Unit :=
  Bus.clearBits register.offset bits

def anySet (register : Register) (bits : UInt32) : StateM ε Bool := do
  let value ← register.read
  return value &&& bits != 0

end Register

end EthernetMac

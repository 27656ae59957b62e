namespace EthernetMac

/-- The causes that the DMA channel reports in its status register and that can raise the interrupt line. -/
inductive DmaCause where
  | transmitComplete
  | transmitStopped
  | transmitBufferUnavailable
  | receiveComplete
  | receiveBufferUnavailable
  | receiveStopped
  | receiveWatchdog
  | earlyTransmit
  | earlyReceive
  | fatalBusError
  | contextDescriptorError
  | abnormalSummary
  | normalSummary
deriving DecidableEq, Repr

namespace DmaCause

def all : List DmaCause :=
  [.transmitComplete, .transmitStopped, .transmitBufferUnavailable, .receiveComplete, .receiveBufferUnavailable,
    .receiveStopped, .receiveWatchdog, .earlyTransmit, .earlyReceive, .fatalBusError, .contextDescriptorError,
    .abnormalSummary, .normalSummary]

def bit : DmaCause → UInt32
  | .transmitComplete => 0x0001
  | .transmitStopped => 0x0002
  | .transmitBufferUnavailable => 0x0004
  | .receiveComplete => 0x0040
  | .receiveBufferUnavailable => 0x0080
  | .receiveStopped => 0x0100
  | .receiveWatchdog => 0x0200
  | .earlyTransmit => 0x0400
  | .earlyReceive => 0x0800
  | .fatalBusError => 0x1000
  | .contextDescriptorError => 0x2000
  | .abnormalSummary => 0x4000
  | .normalSummary => 0x8000

def label : DmaCause → String
  | .transmitComplete => "TI"
  | .transmitStopped => "TPS"
  | .transmitBufferUnavailable => "TBU"
  | .receiveComplete => "RI"
  | .receiveBufferUnavailable => "RBU"
  | .receiveStopped => "RPS"
  | .receiveWatchdog => "RWT"
  | .earlyTransmit => "ETI"
  | .earlyReceive => "ERI"
  | .fatalBusError => "FBE"
  | .contextDescriptorError => "CDE"
  | .abnormalSummary => "AIS"
  | .normalSummary => "NIS"

end DmaCause

/-- A reading of the status register. Bits without a cause are kept. -/
structure DmaStatus where
  bits : UInt32
deriving DecidableEq, Repr, Inhabited

namespace DmaStatus

def empty : DmaStatus := ⟨0⟩

def everyCause : DmaStatus := ⟨0xFFC7⟩

/-- The causes that the abnormal summary stands for. -/
def abnormal : DmaStatus := ⟨0x3786⟩

/-- The causes after which the channel does not go on by itself. -/
def errors : DmaStatus := ⟨0x3182⟩

/-- The two summaries, which are no causes of their own. -/
def summaries : DmaStatus := ⟨0xC000⟩

/-- What the driver lets through to the interrupt line while it runs. -/
def enabled : DmaStatus := ⟨0x8041⟩

def has (status : DmaStatus) (cause : DmaCause) : Bool :=
  status.bits &&& cause.bit != 0

def union (a b : DmaStatus) : DmaStatus := ⟨a.bits ||| b.bits⟩

def inter (a b : DmaStatus) : DmaStatus := ⟨a.bits &&& b.bits⟩

def diff (a b : DmaStatus) : DmaStatus := ⟨a.bits &&& ~~~b.bits⟩

def isEmpty (status : DmaStatus) : Bool :=
  status.bits == 0

def intersects (a b : DmaStatus) : Bool :=
  !(a.inter b).isEmpty

/-- Whether every bit of the reading has a cause. -/
def isKnown (status : DmaStatus) : Bool :=
  (status.diff everyCause).isEmpty

def hasAll (status : DmaStatus) : Bool :=
  status.inter everyCause == everyCause

def causes (status : DmaStatus) : List DmaCause :=
  DmaCause.all.filter status.has

end DmaStatus

/-- What one dispatch of the interrupt found: the status that it read and the number of transmit timestamps that it
delivered. -/
structure InterruptStatus where
  status : DmaStatus
  stamps : Nat := 0
deriving DecidableEq, Repr, Inhabited

namespace InterruptStatus

def idle : InterruptStatus := { status := .empty }

def ofBits (bits : UInt32) : InterruptStatus := { status := ⟨bits⟩ }

/-- Whether anything beside the two summaries was reported. -/
def any (s : InterruptStatus) : Bool :=
  !(s.status.diff .summaries).isEmpty

def hasError (s : InterruptStatus) : Bool :=
  s.status.intersects .errors

end InterruptStatus

end EthernetMac

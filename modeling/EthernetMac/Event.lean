import EthernetMac.LinkStatus
import EthernetMac.Slot

namespace EthernetMac

structure Frame where
  bytes : Array UInt8
  timestamp : Option Timestamp := none
deriving DecidableEq, Repr, Inhabited

structure TxTimestamp where
  timestamp : Timestamp
  tag : UInt32
deriving DecidableEq, Repr, Inhabited

inductive Event where
  | receiveReady
  | frameAvailable (frame : Frame)
  | transmitTimestamp (stamp : TxTimestamp)
  | linkChanged (link : LinkStatus)
deriving DecidableEq, Repr

/-- The application's answer. Only the answer to an offered frame has a consequence: a frame that is to be tried
again stays in the ring. -/
inductive Disposition where
  | accepted
  | dropped
  | retry
deriving DecidableEq, Repr, Inhabited

inductive TxOptions where
  | none
  | interruptOnCompletion
  | captureTimestamp (request : StampRequest)
deriving DecidableEq, Repr, Inhabited

namespace TxOptions

def capturesTimestamp : TxOptions → Bool
  | .captureTimestamp _ => true
  | _ => false

def request : TxOptions → StampRequest
  | .captureTimestamp request => request
  | _ => {}

def control : TxOptions → UInt32
  | .none => 0
  | .interruptOnCompletion => Descriptor.interruptBit
  | .captureTimestamp _ => Descriptor.interruptBit ||| Descriptor.captureBit

end TxOptions

end EthernetMac

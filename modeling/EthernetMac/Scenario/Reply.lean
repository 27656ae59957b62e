import EthernetMac.Failure
import EthernetMac.LinkStatus
import EthernetMac.Timestamp
import EthernetMac.Register.DmaStatus
import EthernetMac.Simulation.Digest

namespace EthernetMac

/-- What an operation that may fail answers when it does not. -/
inductive Value where
  | done
  | number (value : Nat)
  | flag (value : Bool)
  | link (link : LinkStatus)
deriving DecidableEq, Repr

inductive Reply where
  | nothing
  | flag (value : Bool)
  | number (value : Nat)
  | text (value : String)
  | bytes (address : MacAddress)
  | register (offset value : UInt32)
  | descriptor (words : List UInt32)
  | stamp (time : Timestamp)
  | link (link : Option LinkStatus)
  | digest (digest : Digest)
  | interrupt (status : InterruptStatus)
  | arrival (used : Nat) (stopped : Bool)
  | outcome (result : Except Failure Value)
  /-- The failures of one part of the driver only, told without naming the part. -/
  | partOutcome (result : Except Failure Value)
  /-- A reply, and the nanoseconds that the step waited. -/
  | timed (reply : Reply) (delay : Nat)
  | reset (result : Except Failure Value) (busy : Bool) (timeoutMs delay : Nat)
  | poll (result : Except Failure Value) (current : Option LinkStatus)

namespace Reply

def ofWord (value : UInt32) : Reply := .number value.toNat

def ofResult {α : Type} (value : α → Value) (result : Except Failure α) : Reply :=
  .outcome (result.map value)

end Reply

end EthernetMac

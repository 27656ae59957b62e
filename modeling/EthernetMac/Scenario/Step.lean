import EthernetMac.Event
import EthernetMac.Simulation.Dma
import EthernetMac.Scenario.Request

namespace EthernetMac

inductive RingSide where
  | rx
  | tx
deriving DecidableEq, Repr

inductive RxPosition where
  | raw (address : UInt32)
  /-- So many slots from slot 0, and so many bytes from there. -/
  | relative (slot : Nat) (delta : Int)
deriving DecidableEq, Repr

inductive LinkSource where
  | phy (address : Nat)
  | failing (fault : BusFault)
  | reading (link : LinkStatus)
deriving DecidableEq, Repr

inductive Stimulus where
  | preset (offset value : UInt32)
  | hold (offset bits : UInt32)
  | release (offset : UInt32)
  | queueReads (offset : UInt32) (values : List UInt32)
  | readCount (offset : UInt32)
  | raise (bits : UInt32)
  | device (address register value : UInt32)
  | rxPosition (position : RxPosition)
  | setDescriptor (side : RingSide) (slot : Nat) (descriptor : Descriptor)
  /-- Lays bytes over memory from the start of a receive block on. -/
  | overlayBlocks (slot : Nat) (bytes : Array UInt8)
  | descriptor (side : RingSide) (slot : Nat)
  | complete (slot : Nat) (stamp : Option Timestamp) (flags : UInt32)
  | payload (slot : Nat)
  | receive (arrival : Arrival)

inductive Action where
  | init (config : Config)
  | start
  | stop
  | tryTransmit (bytes : Array UInt8) (options : TxOptions)
  /-- With a release the hardware finishes the awaited slot, with or without a stamp, while the driver waits. -/
  | transmit (bytes : Array UInt8) (options : TxOptions) (release : Option (Option Timestamp))
  | cycle (count : Nat) (bytes : Array UInt8) (options : TxOptions)
  | processReceived
  | processCompletions
  | interrupt
  | symbol (side : RingSide) (i : Nat)
  | bus (request : Request)
  /-- A request whose answer goes with the time that it waited. -/
  | timedBus (request : Request)
  | reset (timeoutMs : UInt32)
  | poll (source : LinkSource)
  | current
  | hardware (stimulus : Stimulus)

mutual

/-- A step: an action, and how the handler answers the events that it brings. -/
inductive Step where
  | mk (action : Action) (traced : Bool) (plan : List PlanItem) (shared : Bool)

/-- The handler's answer to one event, after the steps that it takes first, if any. -/
inductive PlanItem where
  | mk (answer : Disposition) (steps : Option (List Step))

end

instance : Inhabited Step := ⟨.mk .current false [] false⟩

instance : Inhabited PlanItem := ⟨.mk .accepted none⟩

inductive Access where
  | read (offset value : UInt32)
  | write (offset value : UInt32)
deriving DecidableEq, Repr

/-- The accesses of a step, as far as they are kept. -/
structure AccessLog where
  /-- Whether reads are kept as well as writes. -/
  whole : Bool := false
  entries : Array Access := #[]
  omitted : Nat := 0

namespace AccessLog

def capacity : Nat := 400

def add (log : AccessLog) (access : Access) : AccessLog :=
  if log.entries.size < capacity then { log with entries := log.entries.push access }
  else { log with omitted := log.omitted + 1 }

end AccessLog

mutual

inductive Report where
  | tooDeep
  | mk (reply : Reply) (snapshot : String) (events : List Entry) (accesses : AccessLog) (notes : List Diagnostic)

inductive Entry where
  | event (event : Event) (nested : Option (List Report))
  | callback (number : Callback) (stamp : TxTimestamp)

end

end EthernetMac

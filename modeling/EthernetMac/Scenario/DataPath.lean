import EthernetMac.Completion
import EthernetMac.Lifecycle
import EthernetMac.Reception
import EthernetMac.RingPicture
import EthernetMac.Submission
import EthernetMac.Scenario.Reply
import EthernetMac.Simulation.Dma
import EthernetMac.Simulation.PlainMemory

namespace EthernetMac

/-- A step of a scenario on the rings alone, without the life cycle of the driver around them. -/
inductive DataPathStep where
  | layOut (burst : UInt32)
  | setCounters (submitted acknowledged : UInt16)
  | setNextSlot (slot : Nat)
  /-- Makes a slot one whose frame was sent and stamped. -/
  | stamped (slot : Nat) (sequence : UInt16) (request : StampRequest) (time : Timestamp)
  | setTxDescriptor (slot : Nat) (descriptor : Descriptor)
  | setReceived (slot : Nat) (bytes : Array UInt8) (descriptor : Descriptor)
  | setRxPosition (slot : Nat)
  | submit (bytes : Array UInt8) (options : TxOptions) (waiting : Bool)
  | walkReceived (plan : List Disposition)
  | scanCompletions (plan : List Disposition)
  | holdReceiver
  | holdTransmitter
  | freeGuards

inductive DataPathEntry where
  | event (event : Event)
  | callback (stamp : TxTimestamp)

/-- The surroundings of the rings: plain memory, and an application that answers by a plan. -/
structure DataPathBench where
  memory : PlainMemory := {}
  plan : List Disposition := []
  entries : Array DataPathEntry := #[]

instance : Bus DataPathBench where
  read offset bench :=
    let (value, memory) := Bus.read offset bench.memory
    (value, { bench with memory := memory })
  write offset value bench := { bench with memory := Bus.write offset value bench.memory }
  delay nanoseconds bench := { bench with memory := Bus.delay nanoseconds bench.memory }

/-- What the driver programmed and where it laid the blocks, each address told from the start of its ring or of the
first block. -/
structure LayoutReport where
  writes : List (UInt32 × UInt32)
  buffers : List UInt32
deriving DecidableEq, Repr

inductive DataPathReply where
  | layout (report : LayoutReport)
  | plain (reply : Reply)

structure DataPathReport where
  reply : DataPathReply
  entries : List DataPathEntry
  submitted : UInt16
  acknowledged : UInt16
  nextSlot : Nat
  ready : Bool
  extensions : List Extension
  rescan : Bool
  available : Nat
  free : Nat
  rx : String
  tx : String

namespace DataPath

variable {g : Geometry}

def deliveryLimit : Nat := 4294967296

def record (entry : DataPathEntry) : BoardM g DataPathBench Unit :=
  Board.modifyWorld fun bench => { bench with entries := bench.entries.push entry }

def application : Application g DataPathBench where
  onEvent event := do
    let plan := (← get).world.plan
    Call.quiet (Board.modifyWorld fun bench => { bench with plan := plan.tail })
    Call.quiet (record (.event event))
    return plan.headD .accepted
  onStamp _ stamp := Call.quiet (record (.callback stamp))

/-- A written value, told from the start of the ring if the register holds a ring's address. -/
def relative (mac : Mac g) (written : UInt32 × UInt32) : UInt32 × UInt32 :=
  if written.1 = Register.txListAddress.offset then (written.1, written.2 - mac.transmitter.ring.base)
  else if written.1 = Register.rxListAddress.offset then (written.1, written.2 - mac.receiver.ring.base)
  else written

def layoutReport (mac : Mac g) (writes : List (UInt32 × UInt32)) : LayoutReport :=
  let addresses := (mac.receiver.ring.slots.toList ++ mac.transmitter.ring.slots.toList).map (·.ext.buffer)
  { writes := writes.map (relative mac), buffers := addresses.map (· - addresses.headD 0) }

def layOut (burst : UInt32) : BoardM g DataPathBench DataPathReply := do
  Board.modifyWorld fun bench => { bench with memory := { bench.memory with writes := [] } }
  Board.layOutRings burst
  let board ← get
  return .layout (layoutReport board.mac board.world.memory.writes.reverse)

def nothing (act : BoardM g DataPathBench Unit) : Call g DataPathBench DataPathReply := do
  Call.quiet act
  return .plain .nothing

def stampedSlot (slot : Slot) (sequence : UInt16) (request : StampRequest) (time : Timestamp) : Slot where
  descriptor := .sent (some time) 0
  ext := { slot.ext with sequence := sequence, request := request }

def submit (bytes : Array UInt8) (options : TxOptions) (waiting : Bool) : Call g DataPathBench Reply := do
  let result ←
    if waiting && (← get).mac.transmitter.isReady then Board.submitWaiting bytes options (pure ()) 0
    else Call.quiet (Board.submitNow bytes options)
  return .ofResult (.number ·.toNat) result

def planned (plan : List Disposition) (call : Application g DataPathBench → Call g DataPathBench Nat) :
    Call g DataPathBench DataPathReply := do
  Call.quiet (Board.modifyWorld fun bench => { bench with plan := plan })
  return .plain (.number (← call application))

def perform : DataPathStep → Call g DataPathBench DataPathReply
  | .layOut burst => Call.quiet (layOut burst)
  | .setCounters submitted acknowledged =>
    nothing (Board.modifyTransmitter fun t => { t with submitted := submitted, acknowledged := acknowledged })
  | .setNextSlot slot => nothing (Board.modifyTransmitter fun t => { t with nextSlot := g.txSlot slot })
  | .stamped slot sequence request time =>
    nothing (Board.modifyTransmitter fun t =>
      { t with ring := t.ring.modifySlot (g.txSlot slot) (stampedSlot · sequence request time) })
  | .setTxDescriptor slot descriptor =>
    nothing (Board.modifyTransmitter fun t =>
      { t with ring := t.ring.setDescriptor (g.txSlot slot) descriptor })
  | .setReceived slot bytes descriptor =>
    nothing (Board.modifyReceiver fun r =>
      { r with
        pool := r.pool.fill (g.rxSlot slot) bytes
        ring := r.ring.setDescriptor (g.rxSlot slot) descriptor })
  | .setRxPosition slot => nothing do
    let address := (← Board.receiver).ring.slotAddress (g.rxSlot slot)
    Board.modifyWorld fun bench =>
      { bench with memory := bench.memory.poke Register.currentRxDescriptor.offset address }
  | .submit bytes options waiting => .plain <$> submit bytes options waiting
  | .walkReceived plan => planned plan Board.walkReceived
  | .scanCompletions plan =>
    planned plan fun app => Board.scanCompletions app deliveryLimit deliveryLimit
  | .holdReceiver => Call.quiet do
    let held := (← Board.receiver).walking
    Board.modifyReceiver fun r => { r with walking := true }
    return .plain (.flag !held)
  | .holdTransmitter => Call.quiet do
    let held := (← Board.transmitter).completing
    Board.modifyTransmitter fun t => { t with completing := true }
    return .plain (.flag !held)
  | .freeGuards => nothing do
    Board.modifyReceiver fun r => { r with walking := false }
    Board.modifyTransmitter fun t => { t with completing := false }

def report (reply : DataPathReply) (board : Board g DataPathBench) : DataPathReport :=
  let t := board.mac.transmitter
  let r := board.mac.receiver
  { reply := reply
    entries := board.world.entries.toList
    submitted := t.submitted
    acknowledged := t.acknowledged
    nextSlot := t.nextSlot.val
    ready := t.isReady
    extensions := t.ring.slots.toList.map (·.ext)
    rescan := t.rescan
    available := t.available
    free := r.freeCount
    rx := (r.picture (board.world.memory.word Register.currentRxDescriptor.offset)).text
    tx := t.picture.text }

def runStep (step : DataPathStep) : Call g DataPathBench DataPathReport := do
  Call.quiet (Board.modifyWorld fun bench => { bench with entries := #[] })
  let reply ← perform step
  return report reply (← get)

/-- Rings that were not laid out yet; the hardware's receive position lies inside slot 0. -/
def fresh (g : Geometry) (placement : Placement) : Board g DataPathBench where
  mac := .blank g placement
  world := { memory := ({} : PlainMemory).poke Register.currentRxDescriptor.offset (placement.rxRing + 4) }

def run (g : Geometry) (placement : Placement) (steps : List DataPathStep) : Option (List DataPathReport) :=
  (steps.mapM runStep).run' (fresh g placement)

end DataPath

end EthernetMac

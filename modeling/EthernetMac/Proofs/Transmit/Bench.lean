import EthernetMac.Interrupt
import EthernetMac.Submission
import EthernetMac.Proofs.BringUp
import EthernetMac.Proofs.Transmit.Selection

namespace EthernetMac

/-- A timestamp that was delivered, with the submission that it belongs to, counted from 0. The last two fields say
what the driver had to choose from: `previous` counts the submissions up to the one whose timestamp was delivered
before, and `others` are the ones whose timestamps waited too. -/
structure StampDelivery where
  index : Nat
  callback : Option Callback
  stamp : TxTimestamp
  previous : Nat
  others : List Nat

/-- What a finished descriptor tells of the time of transmission. -/
def Descriptor.captured (d : Descriptor) : Option Timestamp :=
  if d.stampCaptured then some d.timestamp else none

/-- The surroundings of a driver with a record of what is sent: the options of every frame that was submitted, what the
hardware wrote back for the ones it has sent, both in the order of submission, and the timestamps delivered. -/
structure TransmitBench (σ : Type) where
  submissions : List TxOptions := []
  writeBacks : List (Option Timestamp) := []
  deliveries : List StampDelivery := []
  rest : σ

namespace TransmitBench

variable {σ : Type}

instance [Bus σ] : Bus (TransmitBench σ) where
  read offset bench := ((Bus.read offset bench.rest).1, { bench with rest := (Bus.read offset bench.rest).2 })
  write offset value bench := { bench with rest := Bus.write offset value bench.rest }
  delay nanoseconds bench := { bench with rest := Bus.delay nanoseconds bench.rest }

/-- What the driver's accesses cannot change. -/
def record (bench : TransmitBench σ) : List TxOptions × List (Option Timestamp) × List StampDelivery :=
  (bench.submissions, bench.writeBacks, bench.deliveries)

theorem record_untouched [Bus σ] : Bus.Untouched (record : TransmitBench σ → _) where
  read _ _ := rfl
  write _ _ _ := rfl
  delay _ _ := rfl

def previous (bench : TransmitBench σ) : Nat :=
  (bench.deliveries.getLast?.map fun d => d.index + 1).getD 0

def delivered (bench : TransmitBench σ) : List Nat := bench.deliveries.map (·.index)

end TransmitBench

/-- The latest of `count` submissions that has the given sequence number. -/
def latestIndex (count : Nat) (sequence : UInt16) : Nat :=
  count - 1 - (UInt16.ofNat count - sequence).toNat

section Runs

variable {g : Geometry} {σ : Type}

/-- What is recorded of a timestamp when the driver has just taken it out of its slot. -/
def Board.deliveryOf (board : Board g (TransmitBench σ)) (callback : Option Callback) (stamp : TxTimestamp) :
    StampDelivery where
  index := latestIndex board.world.submissions.length board.mac.transmitter.acknowledged
  callback := callback
  stamp := stamp
  previous := board.world.previous
  others := (board.mac.transmitter.ring.places.filter board.mac.transmitter.isStamped).map fun i =>
    latestIndex board.world.submissions.length (board.mac.transmitter.ring.slot i).ext.sequence

def Board.logStamp (callback : Option Callback) (stamp : TxTimestamp) : BoardM g (TransmitBench σ) Unit :=
  modify fun board => { board with world := { board.world with
    deliveries := board.world.deliveries ++ [board.deliveryOf callback stamp] } }

/-- The application with a record of the timestamps that it is given. -/
def Application.logged (app : Application g (TransmitBench σ)) : Application g (TransmitBench σ) where
  onEvent
    | .transmitTimestamp stamp => do
      Call.quiet (Board.logStamp none stamp)
      app.onEvent (.transmitTimestamp stamp)
    | event => app.onEvent event
  onStamp callback stamp := do
    Call.quiet (Board.logStamp (some callback) stamp)
    app.onStamp callback stamp

/-- One upcall of the driver: the application is called on the first board and comes back with the second. -/
inductive Application.Upcall (app : Application g (TransmitBench σ)) :
    Board g (TransmitBench σ) → Board g (TransmitBench σ) → Prop
  | event {event before answer after} : app.onEvent event before = some (answer, after) → Upcall app before after
  | stamp {callback stamp before answer after} :
      app.onStamp callback stamp before = some (answer, after) → Upcall app before after

/-- Two boards that differ in nothing that the transmit side consists of. -/
structure SameTransmit (before after : Board g (TransmitBench σ)) : Prop where
  transmitter : after.mac.transmitter = before.mac.transmitter
  record : after.world.record = before.world.record
  up : before.mac.lifecycle ≠ .uninitialized → after.mac.lifecycle ≠ .uninitialized

def Board.booked (board : Board g (TransmitBench σ)) (options : TxOptions) : Board g (TransmitBench σ) :=
  { board with world := { board.world with submissions := board.world.submissions ++ [options] } }

/-- The board when the hardware has finished the oldest frame that it held. -/
def Board.finished (board : Board g (TransmitBench σ)) (d : Descriptor) : Board g (TransmitBench σ) where
  mac := { board.mac with transmitter := { board.mac.transmitter with
    ring := board.mac.transmitter.ring.setDescriptor (g.txSlot board.world.writeBacks.length) d } }
  world := { board.world with writeBacks := board.world.writeBacks ++ [d.captured] }
  journal := board.journal

/-- The runs of the transmit side from one board to another, of any length. The hardware finishes frames in the order
of submission at any time, and stamps a frame only if that was asked for. Frames are submitted at once or with waiting;
what goes on during a wait is a run that submits nothing. Timestamps are delivered by a scan or from an interrupt, to
any application whose upcalls are runs again, so that an application may submit frames, ask for scans, and be
overtaken by the hardware. Whatever leaves the transmit side as it is may happen too. -/
inductive TransmitRun [Bus σ] : Board g (TransmitBench σ) → Board g (TransmitBench σ) → Prop
  | still (board) : TransmitRun board board
  | aside {start before after} : TransmitRun start before → SameTransmit before after → TransmitRun start after
  | finish {start before d} : TransmitRun start before →
      before.mac.transmitter.ring.isOwned (g.txSlot before.world.writeBacks.length) = true → d.isOwned = false →
      (d.stampCaptured = true → ∃ request,
        before.world.submissions[before.world.writeBacks.length]? = some (.captureTimestamp request)) →
      TransmitRun start (before.finished d)
  | submit {start before bytes options sequence after} : TransmitRun start before →
      Board.tryTransmit bytes options before = (.ok sequence, after) → TransmitRun start (after.booked options)
  | transmit {start before bytes options idle spins sequence after} : TransmitRun start before →
      (∀ board, TransmitRun board (idle board).2) →
      (∀ board, (idle board).2.world.submissions = board.world.submissions) →
      Board.transmit bytes options idle spins before = some (.ok sequence, after) →
      TransmitRun start (after.booked options)
  | completions {start before app limit count after} : TransmitRun start before →
      (∀ called back, Application.Upcall app called back → TransmitRun called back) →
      Board.processCompletions app.logged limit before = some (count, after) → TransmitRun start after
  | interrupt {start before app limit status after} : TransmitRun start before →
      (∀ called back, Application.Upcall app called back → TransmitRun called back) →
      Board.interrupt app.logged limit before = some (status, after) → TransmitRun start after

/-- The boards that a run can reach after bring-up and start. -/
inductive TransmitReach [Bus σ] : Board g (TransmitBench σ) → Prop
  | start {config placement before ready after} :
      before.mac = Mac.blank g placement → before.world.record = ([], [], []) →
      Board.init config before = (.ok (), ready) → Board.start ready = (.ok (), after) → TransmitReach after
  | run {before after} : TransmitReach before → TransmitRun before after → TransmitReach after

end Runs

end EthernetMac

import EthernetMac.Interrupt
import EthernetMac.Proofs.BringUp
import EthernetMac.Reception
import EthernetMac.Submission

namespace EthernetMac

variable {g : Geometry} {ε : Type}

/-- The driver was brought up, whatever has become of it since. -/
def Board.IsUp (board : Board g ε) : Prop := board.mac.lifecycle ≠ .uninitialized

/-- What surrounds a driver in its runs: what happens without it, and what the world keeps on record of the frames that
the driver submits and of the timestamps that it delivers. -/
structure Setting (g : Geometry) (ε : Type) where
  /-- A step of the hardware, or of anything else that the driver has no part in. -/
  moves : Board g ε → Board g ε → Prop
  /-- How one turn of a wait for a slot may change the board. -/
  waits : Board g ε → Board g ε → Prop
  submitted : Fin g.tx → Array UInt8 → TxOptions → ε → ε
  delivered : Option Callback → TxTimestamp → ε → ε
  stays_up : ∀ {before after}, moves before after → before.IsUp → after.IsUp

/-- One upcall of the driver: the application is called on the first board and comes back with the second. -/
inductive Application.Reacts (app : Application g ε) : Board g ε → Board g ε → Prop
  | event {event before answer after} : app.onEvent event before = some (answer, after) → Reacts app before after
  | stamp {callback stamp before answer after} :
      app.onStamp callback stamp before = some (answer, after) → Reacts app before after

namespace Setting

/-- The application, with a record of the timestamps that it is given. -/
def record (s : Setting g ε) (app : Application g ε) : Application g ε where
  onEvent
    | .transmitTimestamp stamp => do
      Call.quiet (Board.modifyWorld (s.delivered none stamp))
      app.onEvent (.transmitTimestamp stamp)
    | event => app.onEvent event
  onStamp callback stamp := do
    Call.quiet (Board.modifyWorld (s.delivered (some callback) stamp))
    app.onStamp callback stamp

/-- The board after a submission, with a record of the frame if it was taken. -/
def enter (s : Setting g ε) (i : Fin g.tx) (bytes : Array UInt8) (options : TxOptions) (result : Except Failure UInt16)
    (board : Board g ε) : Board g ε :=
  match result with
  | .ok _ => { board with world := s.submitted i bytes options board.world }
  | .error _ => board

/-- The runs of a driver from one board to another, of any length and in any state of its life. All calls of the driver
may be made, with any arguments, any outcome and any application whose upcalls are runs again; what goes on while a
submission waits for its slot is a run too. Between two calls, in upcalls and in waits the setting moves on. What comes
of an upcall or of a wait is known to be a run only if it began on a board on which `held` is the case: from any other
board it may go on in any way. -/
inductive RunWhile [Bus ε] (s : Setting g ε) (held : Board g ε → Prop) : Board g ε → Board g ε → Prop
  | still (board) : RunWhile s held board board
  | move {start before after} : RunWhile s held start before → s.moves before after → RunWhile s held start after
  | init {start before config result after} : RunWhile s held start before →
      Board.init config before = (result, after) → RunWhile s held start after
  | start {start before result after} : RunWhile s held start before → Board.start before = (result, after) →
      RunWhile s held start after
  | stop {start before result after} : RunWhile s held start before → Board.stop before = (result, after) →
      RunWhile s held start after
  | tryTransmit {start before bytes options result after} : RunWhile s held start before →
      Board.tryTransmit bytes options before = (result, after) →
      RunWhile s held start (s.enter before.mac.transmitter.nextSlot bytes options result after)
  | transmit {start before bytes options idle spins result after} : RunWhile s held start before →
      (∀ board, held board → RunWhile s held board (idle board).2) → (∀ board, s.waits board (idle board).2) →
      Board.transmit bytes options idle spins before = some (result, after) →
      RunWhile s held start (s.enter before.mac.transmitter.nextSlot bytes options result after)
  | received {start before app count after} : RunWhile s held start before →
      (∀ called back, held called → Application.Reacts app called back → RunWhile s held called back) →
      Board.processReceived (s.record app) before = some (count, after) → RunWhile s held start after
  | completions {start before app limit count after} : RunWhile s held start before →
      (∀ called back, held called → Application.Reacts app called back → RunWhile s held called back) →
      Board.processCompletions (s.record app) limit before = some (count, after) → RunWhile s held start after
  | interrupt {start before app limit status after} : RunWhile s held start before →
      (∀ called back, held called → Application.Reacts app called back → RunWhile s held called back) →
      Board.interrupt (s.record app) limit before = some (status, after) → RunWhile s held start after

/-- The runs in which every upcall and every wait is a run, whatever it began on. -/
abbrev Run [Bus ε] (s : Setting g ε) : Board g ε → Board g ε → Prop := s.RunWhile fun _ => True

end Setting

/-- Surroundings with a record that is out of reach of the driver's accesses. -/
structure Recorded (ρ σ : Type) where
  record : ρ
  rest : σ

namespace Recorded

variable {ρ σ : Type}

instance [Bus σ] : Bus (Recorded ρ σ) where
  read offset env := ((Bus.read offset env.rest).1, { env with rest := (Bus.read offset env.rest).2 })
  write offset value env := { env with rest := Bus.write offset value env.rest }
  delay nanoseconds env := { env with rest := Bus.delay nanoseconds env.rest }

theorem untouched [Bus σ] : Bus.Untouched (record : Recorded ρ σ → ρ) where
  read _ _ := rfl
  write _ _ _ := rfl
  delay _ _ := rfl

def modify (change : ρ → ρ) (env : Recorded ρ σ) : Recorded ρ σ := { env with record := change env.record }

end Recorded

def Board.recorded {ρ σ : Type} (change : ρ → ρ) (board : Board g (Recorded ρ σ)) : Board g (Recorded ρ σ) :=
  { board with world := board.world.modify change }

/-- Whatever happens, it has nothing to do with the transmitter and is not recorded. -/
structure Board.SparesTransmitter {ρ σ : Type} (before after : Board g (Recorded ρ σ)) : Prop where
  transmitter : after.mac.transmitter = before.mac.transmitter
  up : after.IsUp ↔ before.IsUp
  record : after.world.record = before.world.record

theorem Application.accepting_reacts {called back : Board g ε} (upcall : accepting.Reacts called back) :
    back = called := by
  cases upcall with
  | event run => exact (congrArg Prod.snd (Option.some.inj run)).symm
  | stamp run => exact (congrArg Prod.snd (Option.some.inj run)).symm

theorem Setting.RunWhile.scanned [Bus ε] {s : Setting g ε} {held : Board g ε → Prop} {start before : Board g ε}
    (run : s.RunWhile held start before) (limit : Nat)
    (returns : (Board.processCompletions (s.record .accepting) limit before).isSome = true) :
    s.RunWhile held start ((Board.processCompletions (s.record .accepting) limit before).get returns).2 := by
  refine run.completions (fun called back _ upcall => ?_) (Option.some_get returns).symm
  rw [Application.accepting_reacts upcall]
  exact .still called

/-- A driver that was never used. -/
def Board.untried (placement : Placement) (world : ε) : Board g ε where
  mac := .blank g placement
  world := world

/-- The board after an attempt to bring a driver up and to start it. -/
def Board.started [Bus ε] (config : Config) (board : Board g ε) : Board g ε :=
  (start (init config board).2).2

theorem Setting.RunWhile.started [Bus ε] (s : Setting g ε) (held : Board g ε → Prop) (config : Config)
    (board : Board g ε) : s.RunWhile held board (board.started config) :=
  ((RunWhile.still board).init rfl).start rfl

end EthernetMac

import EthernetMac.Board
import EthernetMac.Register

namespace EthernetMac.Board

variable {g : Geometry} {ε : Type}

/-- Offers a whole frame to the application; `none` when the frame is discarded without being offered. -/
def offer (app : Application g ε) (first last : Fin g.rx) (segments : Nat) (context : StampContext g.rx) :
    Call g ε (Option Disposition) := do
  let receiver := (← get).mac.receiver
  match receiver.ring.frameLength g.buffer last segments with
  | .error reason =>
    Call.quiet (note reason)
    return none
  | .ok length =>
    let (bytes, gathered) := receiver.frameBytes first segments length
    Call.quiet (modifyReceiver fun _ => gathered)
    return some (← app.onEvent (.frameAvailable ⟨bytes, receiver.ring.stampAt? context⟩))

/-- Deals with one run. `none` leaves its slots as they are and ends the walk; otherwise the answer tells whether the
run was a frame that the application has consumed. -/
def consume (app : Application g ε) (first : Fin g.rx) : Run g.rx → Call g ε (Option Bool)
  | .incomplete => return none
  | .stray following => do
    Call.quiet (note (.strayRearmed (following + 1) first.val))
    return some false
  | .overflow following => do
    Call.quiet (note (.overflowDropped first.val (following + 1)))
    return some false
  | .frame last following context => do
    if context = .missing then Call.quiet (note (.contextMissing last.val))
    match ← offer app first last (following + 1) context with
    | some .retry => return none
    | some _ => return some true
    | none => return some false

structure WalkTally where
  delivered : Nat := 0
  rearmed : Bool := false
deriving DecidableEq, Repr

/-- Walks the receive ring from `first` on over at most `budget` slots, run by run, and gives the slots of every run
back to the hardware. -/
def walk (app : Application g ε) (budget : Nat) (first : Fin g.rx) : Call g ε WalkTally := do
  match budget with
  | 0 => return {}
  | room + 1 =>
    let ring := (← get).mac.receiver.ring
    if ring.isOwned first then
      return {}
    else
      let run := ring.scan first room
      match ← consume app first run with
      | none => return {}
      | some delivered =>
        Call.quiet (modifyReceiver fun r => { r with ring := r.ring.rearm first (run.beyond + 1) })
        let rest ← walk app (room - run.beyond) (Ring.advance first (run.beyond + 1))
        return { delivered := rest.delivered + delivered.toNat, rearmed := true }
termination_by budget
decreasing_by omega

/-- The slot at which the hardware writes next, slot 0 when the position that it reports is none of the ring. -/
def hardwarePosition [Bus ε] : BoardM g ε (Fin g.rx) := do
  let address ← onBus Register.currentRxDescriptor.read
  match (← receiver).ring.indexOf? address with
  | some position => return position
  | none =>
    note (.positionOutsideRing address)
    return g.firstRx

/-- Offers every frame that the hardware has finished to the application, in ring order, and answers how many it has
consumed. A frame that is to be tried again stays in the ring and ends the walk. -/
def walkReceived [Bus ε] (app : Application g ε) : Call g ε Nat := do
  if (← get).mac.receiver.walking then
    Call.quiet (note .walkReentered)
    return 0
  else
    Call.quiet (modifyReceiver fun r => { r with walking := true })
    let position ← Call.quiet hardwarePosition
    let tally ← walk app g.rx ((← get).mac.receiver.ring.oldest position)
    if tally.rearmed then Call.quiet (onBus (Register.rxTailPointer.write 0))
    Call.quiet (modifyReceiver fun r => { r with walking := false })
    return tally.delivered

def processReceived [Bus ε] (app : Application g ε) : Call g ε Nat := do
  if (← get).mac.lifecycle = .uninitialized then
    return 0
  else
    walkReceived app

end EthernetMac.Board

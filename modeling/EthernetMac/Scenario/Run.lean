import EthernetMac.Interrupt
import EthernetMac.Lifecycle
import EthernetMac.Reception
import EthernetMac.RingPicture
import EthernetMac.Submission
import EthernetMac.Scenario.Hardware
import EthernetMac.Scenario.Naming

namespace EthernetMac.Scenario

variable {g : Geometry}

/-- More deliveries than any scenario brings. -/
def deliveryLimit : Nat := 4294967296

/-- How deep steps may be nested in the answers to events. -/
def nestingLimit : Nat := 7

/-- Answers an event by the next item of a plan, and records the event once the steps of the item have run. -/
def answer (nested : Step → Call g Bench Report) (nextItem : BoardM g Bench PlanItem) (event : Event) :
    Call g Bench Disposition := do
  let .mk disposition steps ← Call.quiet nextItem
  let reports ← match steps with
    | none => pure none
    | some steps => some <$> steps.mapM nested
  Call.quiet (Bench.record (.event event reports))
  return disposition

def isSharedHeld : Call g Bench Bool :=
  return (← get).world.shared.held

def holdShared (held : Bool) : Call g Bench Unit :=
  Call.quiet (Bench.modify fun bench => { bench with shared := { bench.shared with held := held } })

def application (nested : Step → Call g Bench Report) (shared : Bool) : Application g Bench where
  onEvent :=
    if shared then sharedHandler isSharedHeld holdShared (answer nested Bench.nextSharedItem)
    else answer nested Bench.nextItem
  onStamp number stamp := Call.quiet (Bench.record (.callback number stamp))

/-- Runs a call with the handler of a step. A shared handler that is at work keeps the plan it has. -/
def withHandler {α : Type} (nested : Step → Call g Bench Report) (plan : List PlanItem) (shared : Bool)
    (call : Application g Bench → Call g Bench α) : Call g Bench α := do
  let bench := (← get).world
  if shared then
    if !bench.shared.held then
      Call.quiet (Bench.modify fun bench => { bench with shared := { bench.shared with content := plan } })
    call (application nested true)
  else
    let outer := bench.plan
    Call.quiet (Bench.modify fun bench => { bench with plan := plan })
    let result ← call (application nested false)
    Call.quiet (Bench.modify fun bench => { bench with plan := outer })
    return result

def timed (act : BoardM g Bench Reply) : BoardM g Bench Reply := do
  let before := (← Bench.get).delayed
  let reply ← act
  return .timed reply ((← Bench.get).delayed - before)

def doneReply (result : Except Failure Unit) : Reply :=
  .ofResult (fun _ => .done) result

def sequenceReply (result : Except Failure UInt16) : Reply :=
  .ofResult (.number ·.toNat) result

/-- Submits a frame with waiting; a call that would wait for ever is not made. -/
def transmit (bytes : Array UInt8) (options : TxOptions) (release : Option (Option Timestamp)) :
    Call g Bench Reply := do
  let board ← get
  let i := board.mac.transmitter.nextSlot
  let idle : BoardM g Bench Unit := match release with
    | none => pure ()
    | some stamp => Board.modifyTransmitter fun t => ((t.complete? i stamp 0).map (·.2)).getD t
  match Board.transmit bytes options idle 1 board with
  | none => return .text "would block"
  | some (result, after) =>
    set after
    return sequenceReply result

/-- Submits a frame and has the hardware finish it, `count` times or until a submission fails; answers the last
outcome. -/
def cycle (bytes : Array UInt8) (options : TxOptions) (last : Reply) : (count : Nat) → BoardM g Bench Reply
  | 0 => return last
  | count + 1 => do
    let i := (← Board.transmitter).nextSlot
    match ← Board.tryTransmit bytes options with
    | .error failure => return sequenceReply (.error failure)
    | .ok sequence =>
      Board.modifyTransmitter fun t => { t with ring := t.ring.setDescriptor i (.sent none 0) }
      cycle bytes options (sequenceReply (.ok sequence)) count

def reset (timeoutMs : UInt32) : BoardM g Bench Reply := do
  let before := (← Bench.get).delayed
  let result ← Board.attempt ((softReset timeoutMs).relabel Failure.config)
  let complete ← Board.onBus Peripheral.isResetComplete
  return .reset (result.map fun _ => .done) (!complete) timeoutMs.toNat ((← Bench.get).delayed - before)

def symbol (side : RingSide) (i : Nat) : BoardM g Bench Reply := do
  let picture ← match side with
    | .rx => do
      let address ← Board.onBus Register.currentRxDescriptor.read
      pure ((← Board.receiver).picture address)
    | .tx => pure (← Board.transmitter).picture
  return ((picture.symbol? i).map fun symbol => .text symbol.toString).getD .nothing

def sourceReading : LinkSource → Except Failure (Attempt Bench Failure LinkStatus)
  | .phy address => (Phy.at? address Mdio.standardTimeoutMicros).map Phy.linkStatus
  | .failing fault => .ok (throw (.bus fault))
  | .reading link => .ok (pure link)

/-- Polls the link with the scenario's one monitor. A monitor at work answers so before the source is looked at. -/
def poll (nested : Step → Call g Bench Report) (plan : List PlanItem) (shared : Bool) (source : LinkSource) :
    Call g Bench Reply := do
  match (← get).world.monitor, sourceReading source with
  | none, _ => return .text "monitor busy"
  | some _, .error failure => return .outcome (.error failure)
  | some monitor, .ok reading =>
    Call.quiet (Bench.modify fun bench => { bench with monitor := none })
    let (after, result) ← withHandler nested plan shared (monitor.poll reading)
    Call.quiet (Bench.modify fun bench => { bench with monitor := some after })
    return .poll (result.map .flag) after.last

def perform (nested : Step → Call g Bench Report) (plan : List PlanItem) (shared : Bool) :
    Action → Call g Bench Reply
  | .init config => Call.quiet (timed (doneReply <$> Board.init config))
  | .start => Call.quiet (doneReply <$> Board.start)
  | .stop => Call.quiet (doneReply <$> Board.stop)
  | .tryTransmit bytes options => Call.quiet (sequenceReply <$> Board.tryTransmit bytes options)
  | .transmit bytes options release => transmit bytes options release
  | .cycle count bytes options => Call.quiet (cycle bytes options .nothing count)
  | .processReceived => .number <$> withHandler nested plan shared Board.processReceived
  | .processCompletions =>
    .number <$> withHandler nested plan shared fun app => Board.processCompletions app deliveryLimit
  | .interrupt => .interrupt <$> withHandler nested plan shared fun app => Board.interrupt app deliveryLimit
  | .symbol side i => Call.quiet (symbol side i)
  | .bus request => Call.quiet (Board.onBus request.run)
  | .timedBus request => Call.quiet (timed (Board.onBus request.run))
  | .reset timeoutMs => Call.quiet (reset timeoutMs)
  | .poll source => poll nested plan shared source
  | .current => do
    match (← get).world.monitor with
    | none => return .text "monitor busy"
    | some monitor => return .link monitor.last
  | .hardware stimulus => Call.quiet (stimulate stimulus)

def snapshot (board : Board g Bench) : String :=
  let mac := board.mac
  let rx := mac.receiver.picture (board.world.registers.peek Register.currentRxDescriptor.offset)
  let position := (rx.position.map toString).getD "-"
  mac.lifecycle.label ++ " rx=" ++ rx.text ++ " pos=" ++ position ++ " tx=" ++ mac.transmitter.picture.text
    ++ " free=" ++ toString mac.receiver.freeCount ++ " avail=" ++ toString mac.transmitter.available
    ++ " can=" ++ toString mac.canTransmit

/-- Runs a step with records of its own, so that what it does is not told of the step around it. -/
def runStep : (depth : Nat) → Step → Call g Bench Report
  | 0, _ => return .tooDeep
  | depth + 1, .mk action traced plan shared => do
    let outer ← get
    let outerJournal := outer.journal
    let outerAccesses := outer.world.accesses
    let outerEvents := outer.world.events
    set { outer with journal := #[], world := { outer.world with accesses := { whole := traced }, events := #[] } }
    let reply ← perform (runStep depth) plan shared action
    let after ← get
    set { after with
      journal := outerJournal
      world := { after.world with accesses := outerAccesses, events := outerEvents } }
    return .mk reply (snapshot after) after.world.events.toList after.world.accesses after.journal.toList

def run (g : Geometry) (steps : List Step) : Option (List Report) :=
  ((steps.mapM (runStep (nestingLimit + 1))).run' { mac := .blank g .simulated, world := ({} : Bench) })

end EthernetMac.Scenario

import EthernetMac.Lifecycle
import EthernetMac.Reception
import EthernetMac.Scenario.Request
import EthernetMac.Simulation.PlainMemory

namespace EthernetMac

inductive WindowStep where
  | bus (request : Request)
  /-- A request, and what the register at the offset holds afterwards. -/
  | busThenPeek (request : Request) (offset : UInt32)
  | timedBus (request : Request)
  | init (config : Config)
  | processReceived

/-- What a step on the window answers; bring-up tells the state that it leaves the driver in as well. -/
inductive WindowReply where
  | plain (reply : Reply)
  | init (result : Except Failure Unit) (delay : Nat) (lifecycle : Lifecycle)

namespace Window

variable {g : Geometry}

def accepting : Application g PlainMemory where
  onEvent _ := return .accepted
  onStamp _ _ := return ()

def runStep : WindowStep → Call g PlainMemory WindowReply
  | .bus request => return .plain (← Call.quiet (Board.onBus request.run))
  | .busThenPeek request offset => do
    let _ ← Call.quiet (Board.onBus (request.run : StateM PlainMemory Reply))
    return .plain (.register offset ((← get).world.word offset))
  | .timedBus request => do
    let before := (← get).world.delayed
    let reply ← Call.quiet (Board.onBus request.run)
    return .plain (.timed reply ((← get).world.delayed - before))
  | .init config => do
    let before := (← get).world.delayed
    let result ← Call.quiet (Board.init config)
    let after ← get
    return .init result (after.world.delayed - before) after.mac.lifecycle
  | .processReceived => return .plain (.number (← Board.processReceived accepting))

def run (g : Geometry) (placement : Placement) (steps : List WindowStep) : Option (List WindowReply) :=
  (steps.mapM runStep).run' ({ mac := .blank g placement, world := {} } : Board g PlainMemory)

end Window

end EthernetMac

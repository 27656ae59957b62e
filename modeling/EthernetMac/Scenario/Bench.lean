import EthernetMac.LinkMonitor
import EthernetMac.SharedHandler
import EthernetMac.Simulation.RegisterFile
import EthernetMac.Scenario.Step

namespace EthernetMac

/-- The surroundings of the driver in a scenario: the registers, what is recorded of the running step, and the state
of the application. -/
structure Bench where
  registers : RegisterFile := {}
  delayed : Nat := 0
  accesses : AccessLog := {}
  events : Array Entry := #[]
  /-- How the handler of the running step answers the events to come. -/
  plan : List PlanItem := []
  /-- The handler that steps share, with its own plan. -/
  shared : SharedCell (List PlanItem) := { content := [] }
  /-- The monitor of the link, absent while it polls. -/
  monitor : Option LinkMonitor := some {}

instance : Bus Bench where
  read offset bench :=
    let (value, registers) := bench.registers.read offset
    let seen := { bench with registers := registers }
    (value, if seen.accesses.whole then { seen with accesses := seen.accesses.add (.read offset value) } else seen)
  write offset value bench :=
    { bench with
      registers := bench.registers.write offset value
      accesses := bench.accesses.add (.write offset value) }
  delay nanoseconds bench := { bench with delayed := bench.delayed + nanoseconds }

namespace Bench

variable {g : Geometry}

def get : BoardM g Bench Bench :=
  return (← MonadState.get).world

def modify (change : Bench → Bench) : BoardM g Bench Unit :=
  Board.modifyWorld change

def record (entry : Entry) : BoardM g Bench Unit :=
  modify fun bench => { bench with events := bench.events.push entry }

def nextItem : BoardM g Bench PlanItem := do
  match (← get).plan with
  | [] => return .mk .accepted none
  | item :: rest =>
    modify fun bench => { bench with plan := rest }
    return item

def nextSharedItem : BoardM g Bench PlanItem := do
  match (← get).shared.content with
  | [] => return .mk .accepted none
  | item :: rest =>
    modify fun bench => { bench with shared := { bench.shared with content := rest } }
    return item

end Bench

end EthernetMac

import EthernetMac.Board
import EthernetMac.Peripheral

namespace EthernetMac

/-- Watches a link; `last` is what was told last. -/
structure LinkMonitor where
  last : Option LinkStatus := none
deriving DecidableEq, Repr, Inhabited

namespace LinkMonitor

/-- What there is to tell when the link reads `link`: nothing while it stays up or stays down. A link that goes down
keeps the mode it had. -/
def change? (monitor : LinkMonitor) (link : LinkStatus) : Option LinkStatus :=
  match monitor.last with
  | none => some link
  | some last =>
    if last.up = link.up then none
    else if link.up then some link
    else some { link with speed := last.speed, duplex := last.duplex }

/-- Reads the link, brings the MAC to the mode of a link that came up, and leaves the monitor with what is to be
told. -/
def observe {g : Geometry} {ε : Type} [Bus ε] (monitor : LinkMonitor) (source : Attempt ε Failure LinkStatus) :
    BoardM g ε (Except Failure (Option LinkStatus)) := do
  match ← Board.attempt source with
  | .error failure => return .error failure
  | .ok link =>
    match monitor.change? link with
    | none => return .ok none
    | some news =>
      if news.up then Board.onBus (Peripheral.setMode news.speed news.duplex)
      return .ok (some news)

def poll {g : Geometry} {ε : Type} [Bus ε] (monitor : LinkMonitor) (source : Attempt ε Failure LinkStatus)
    (app : Application g ε) : Call g ε (LinkMonitor × Except Failure Bool) := do
  match ← Call.quiet (monitor.observe source) with
  | .error failure => return (monitor, .error failure)
  | .ok none => return (monitor, .ok false)
  | .ok (some news) =>
    let _ ← app.onEvent (.linkChanged news)
    return ({ last := some news }, .ok true)

end LinkMonitor

end EthernetMac

import EthernetMac.Board

namespace EthernetMac.Board

variable {g : Geometry} {ε : Type}

/-- Delivers a timestamp to the routine that was registered for it or, without one, as an event. -/
def deliverStamp (app : Application g ε) : Option Callback × TxTimestamp → Call g ε Unit
  | (some callback, stamp) => app.onStamp callback stamp
  | (none, stamp) => do
    let _ ← app.onEvent (.transmitTimestamp stamp)

/-- Delivers timestamps until none is left, one at a time since each delivery may change the ring. It does not return
once it has made `limit` deliveries and another is due. -/
def drain (app : Application g ε) (limit : Nat) : Call g ε Nat := do
  let transmitter := (← get).mac.transmitter
  match transmitter.nextStamped? with
  | none => return 0
  | some i =>
    match limit with
    | 0 => failure
    | limit + 1 =>
      let (delivery, taken) := transmitter.takeStamp i
      Call.quiet (modifyTransmitter fun _ => taken)
      deliverStamp app delivery
      return (← drain app limit) + 1

/-- Delivers captured timestamps in the order of submission. A scan that is asked for while another one runs delivers
nothing; the running one scans once more for it. At most `limit` scans are made, each of at most `limit` deliveries. -/
def scanCompletions (app : Application g ε) (limit : Nat) : (scans : Nat) → Call g ε Nat
  | 0 => failure
  | scans + 1 => do
    if (← get).mac.transmitter.completing then
      Call.quiet (modifyTransmitter fun t => { t with rescan := true })
      Call.quiet (note .scanDeferred)
      return 0
    else
      Call.quiet (modifyTransmitter fun t => { t with completing := true, rescan := false })
      let delivered ← drain app limit
      Call.quiet (modifyTransmitter fun t => { t with completing := false })
      if (← get).mac.transmitter.rescan then
        return delivered + (← scanCompletions app limit scans)
      else
        return delivered

def processCompletions (app : Application g ε) (limit : Nat) : Call g ε Nat := do
  if (← get).mac.lifecycle = .uninitialized then
    return 0
  else
    scanCompletions app limit (limit + 1)

end EthernetMac.Board

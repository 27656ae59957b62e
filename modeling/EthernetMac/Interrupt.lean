import EthernetMac.Completion
import EthernetMac.Peripheral

namespace EthernetMac.Board

variable {g : Geometry} {ε : Type} [Bus ε]

/-- What a dispatch acknowledges before it tells the application of received frames. -/
def receiveCauses : DmaStatus := ⟨DmaCause.receiveComplete.bit ||| DmaCause.normalSummary.bit⟩

def transmitCauses : DmaStatus := ⟨DmaCause.transmitComplete.bit⟩

/-- The causes that a dispatch acknowledges before it acts on them, by the status that it read. -/
def handledCauses (status : DmaStatus) : DmaStatus :=
  (if status.has .receiveComplete then receiveCauses else .empty).union
    (if status.has .transmitComplete then transmitCauses else .empty)

/-- Tells the application that frames wait, after the cause has been acknowledged: one that is raised meanwhile is
seen by the next dispatch. -/
def dispatchReceive (app : Application g ε) (status : DmaStatus) : Call g ε Unit := do
  if status.has .receiveComplete then
    Call.quiet (onBus (Peripheral.acknowledge receiveCauses))
    let _ ← app.onEvent .receiveReady

def dispatchTransmit (app : Application g ε) (limit : Nat) (status : DmaStatus) : Call g ε Nat := do
  if status.has .transmitComplete then
    Call.quiet (onBus (Peripheral.acknowledge transmitCauses))
    processCompletions app limit
  else
    return 0

def dispatchRest (status : DmaStatus) : BoardM g ε Unit := do
  let rest := status.diff (handledCauses status)
  if !rest.isEmpty then
    onBus (Peripheral.acknowledge rest)
    if rest.intersects .errors then note (.errorInterrupt status.bits)

/-- Dispatches the interrupt. A dispatch that is asked for while another one runs does nothing. -/
def interrupt (app : Application g ε) (limit : Nat) : Call g ε InterruptStatus := do
  if (← get).mac.dispatching then
    Call.quiet (note .dispatchReentered)
    return .idle
  else
    Call.quiet (modifyMac fun mac => { mac with dispatching := true })
    let status ← Call.quiet (onBus Peripheral.status)
    dispatchReceive app status
    let stamps ← dispatchTransmit app limit status
    Call.quiet (dispatchRest status)
    Call.quiet (modifyMac fun mac => { mac with dispatching := false })
    return { status := status, stamps := stamps }

end EthernetMac.Board

import EthernetMac.Ring

namespace EthernetMac

inductive SlotStep where
  | write (descriptor : Descriptor)
  | clear
  | arm (buffer : UInt32)
  | submit (buffer : UInt32) (length : Nat) (control : UInt32)
  | setBuffer (buffer : UInt32)
  | setSequence (sequence : UInt16)
  | setRequest (request : StampRequest)
  | takeRequest
deriving DecidableEq, Repr

/-- The slot after a change, and the request that the change took out of it. -/
def SlotStep.apply (slot : Slot) : SlotStep → Option StampRequest × Slot
  | .write descriptor => (none, { slot with descriptor := descriptor })
  | .clear => (none, { slot with descriptor := .blank })
  | .arm buffer => (none, { slot with descriptor := .armed buffer })
  | .submit buffer length control => (none, { slot with descriptor := .submission buffer length control })
  | .setBuffer buffer => (none, { slot with ext := { slot.ext with buffer := buffer } })
  | .setSequence sequence => (none, { slot with ext := { slot.ext with sequence := sequence } })
  | .setRequest request => (none, { slot with ext := { slot.ext with request := request } })
  | .takeRequest =>
    let (request, spent) := slot.takeRequest
    (some request, spent)

def SlotStep.applyAll (slot : Slot) : List SlotStep → List (Option StampRequest × Slot)
  | [] => []
  | step :: rest => step.apply slot :: SlotStep.applyAll (step.apply slot).2 rest

end EthernetMac

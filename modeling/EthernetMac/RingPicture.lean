import EthernetMac.Receiver
import EthernetMac.Transmitter

namespace EthernetMac

/-- A ring at a glance: one character for each slot, and the slot where the next thing happens. -/
structure RingPicture where
  symbols : List Char
  position : Option Nat
deriving DecidableEq, Repr

namespace RingPicture

def text (picture : RingPicture) : String := String.ofList picture.symbols

def symbol? (picture : RingPicture) (i : Nat) : Option Char := picture.symbols[i]?

end RingPicture

/-- A receive slot: waiting, the time of a frame, the start of one, its end, nothing, or a part in between. -/
def Descriptor.rxSymbol (d : Descriptor) : Char :=
  if d.isOwned then '='
  else if d.isContext then 'C'
  else if d.isFirst then 'F'
  else if d.isLast then 'L'
  else if d.word3 = 0 then '-'
  else 'x'

/-- A transmit slot: on its way with or without a timestamp to come, a timestamp to be delivered, or nothing. -/
def Descriptor.txSymbol (d : Descriptor) : Char :=
  if d.isOwned then
    if d.wantsCapture then 't' else '='
  else if d.stampCaptured then 'T'
  else '-'

def Receiver.picture {g : Geometry} (r : Receiver g) (address : UInt32) : RingPicture :=
  let position := r.ring.indexOf? address
  { symbols := r.ring.places.map fun i => if position = some i then '>' else (r.ring.descriptor i).rxSymbol
    position := position.map Fin.val }

def Transmitter.picture {g : Geometry} (t : Transmitter g) : RingPicture :=
  { symbols := t.ring.places.map fun i => if i = t.nextSlot then '>' else (t.ring.descriptor i).txSymbol
    position := some t.nextSlot.val }

end EthernetMac

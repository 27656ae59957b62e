import EthernetMac.Bus
import EthernetMac.Receiver
import EthernetMac.Transmitter

namespace EthernetMac

structure Mac (g : Geometry) where
  lifecycle : Lifecycle
  receiver : Receiver g
  transmitter : Transmitter g
  /-- Held while an interrupt is dispatched. -/
  dispatching : Bool

def Mac.blank (g : Geometry) (placement : Placement) : Mac g where
  lifecycle := .uninitialized
  receiver := .blank g placement
  transmitter := .blank g placement
  dispatching := false

/-- Whether a frame of valid length would be taken at once. -/
def Mac.canTransmit {g : Geometry} (mac : Mac g) : Bool :=
  mac.lifecycle == .running && mac.transmitter.isReady

/-- A driver together with everything around it, and the notes it has taken. The rings and blocks are shared: what
stands in the surroundings may change them while the driver waits for an answer. -/
structure Board (g : Geometry) (ε : Type) where
  mac : Mac g
  world : ε
  journal : Array Diagnostic := #[]

abbrev BoardM (g : Geometry) (ε : Type) := StateM (Board g ε)

/-- A computation of the driver that calls into the application, and so may never return: `none`. -/
abbrev Call (g : Geometry) (ε : Type) := StateT (Board g ε) Option

/-- What the driver calls in the application. Whatever is called may call the driver again. -/
structure Application (g : Geometry) (ε : Type) where
  onEvent : Event → Call g ε Disposition
  onStamp : Callback → TxTimestamp → Call g ε Unit

/-- A computation that calls nobody. -/
def Call.quiet {g : Geometry} {ε α : Type} (act : BoardM g ε α) : Call g ε α :=
  fun board => some (act board)

namespace Board

variable {g : Geometry} {ε : Type}

def receiver : BoardM g ε (Receiver g) :=
  return (← get).mac.receiver

def transmitter : BoardM g ε (Transmitter g) :=
  return (← get).mac.transmitter

def lifecycle : BoardM g ε Lifecycle :=
  return (← get).mac.lifecycle

def modifyMac (change : Mac g → Mac g) : BoardM g ε Unit :=
  modify fun board => { board with mac := change board.mac }

def modifyReceiver (change : Receiver g → Receiver g) : BoardM g ε Unit :=
  modifyMac fun mac => { mac with receiver := change mac.receiver }

def modifyTransmitter (change : Transmitter g → Transmitter g) : BoardM g ε Unit :=
  modifyMac fun mac => { mac with transmitter := change mac.transmitter }

def setLifecycle (lifecycle : Lifecycle) : BoardM g ε Unit :=
  modifyMac fun mac => { mac with lifecycle := lifecycle }

def note (entry : Diagnostic) : BoardM g ε Unit :=
  modify fun board => { board with journal := board.journal.push entry }

def modifyWorld (change : ε → ε) : BoardM g ε Unit :=
  modify fun board => { board with world := change board.world }

def onBus {α : Type} (act : StateM ε α) : BoardM g ε α := fun ⟨mac, world, journal⟩ =>
  let (result, world) := act world
  (result, ⟨mac, world, journal⟩)

def attempt {φ α : Type} (act : Attempt ε φ α) : BoardM g ε (Except φ α) :=
  onBus act.run

end Board

end EthernetMac

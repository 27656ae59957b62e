import Std.Data.HashMap
import EthernetMac.Register
import EthernetMac.Register.Fields

namespace EthernetMac

/-- Registers that behave as those of the peripheral do: some bits clear themselves, status bits are taken back by
writing them, and a management command is carried out as soon as it is written. -/
structure RegisterFile where
  words : Std.HashMap UInt32 UInt32 := {}
  /-- Bits that do not clear themselves for the time being. -/
  held : Std.HashMap UInt32 UInt32 := {}
  /-- What the next reads of a register answer, whatever it holds. -/
  queued : Std.HashMap UInt32 (List UInt32) := {}
  reads : Std.HashMap UInt32 Nat := {}
  /-- The registers of the devices on the management bus, by device and register. -/
  devices : Std.HashMap (UInt32 × UInt32) UInt32 := {}

namespace RegisterFile

def peek (file : RegisterFile) (offset : UInt32) : UInt32 :=
  file.words.getD offset 0

def poke (file : RegisterFile) (offset value : UInt32) : RegisterFile :=
  { file with words := file.words.insert offset value }

def raise (file : RegisterFile) (offset bits : UInt32) : RegisterFile :=
  file.poke offset (file.peek offset ||| bits)

def hold (file : RegisterFile) (offset bits : UInt32) : RegisterFile :=
  { file with held := file.held.insert offset (file.held.getD offset 0 ||| bits) }

def release (file : RegisterFile) (offset : UInt32) : RegisterFile :=
  { file with held := file.held.erase offset }

def enqueue (file : RegisterFile) (offset : UInt32) (values : List UInt32) : RegisterFile :=
  { file with queued := file.queued.insert offset (file.queued.getD offset [] ++ values) }

def setDevice (file : RegisterFile) (device register value : UInt32) : RegisterFile :=
  { file with devices := file.devices.insert (device, register) value }

def readCount (file : RegisterFile) (offset : UInt32) : Nat :=
  file.reads.getD offset 0

/-- One read: the oldest queued value or, without one, what the register holds. -/
def read (file : RegisterFile) (offset : UInt32) : UInt32 × RegisterFile :=
  let counted := { file with reads := file.reads.insert offset (file.readCount offset + 1) }
  match counted.queued.getD offset [] with
  | [] => (counted.peek offset, counted)
  | value :: rest => (value, { counted with queued := counted.queued.insert offset rest })

/-- The bits of a written value that the hardware clears as soon as it has acted on them. -/
def selfClearing (offset value : UInt32) : UInt32 :=
  if offset = Register.dmaMode.offset then Fields.softwareReset
  else if offset = Register.mdioAddress.offset then Fields.mdioBusy
  else if offset = Register.clockControl.offset then Fields.clockInitialize ||| Fields.clockStep ||| Fields.addendUpdate
  else if offset = Register.pulseControl.offset ∧ value &&& Fields.pulseTrainMode ≠ 0 then Fields.pulseCommand
  else 0

def settle (file : RegisterFile) (offset value : UInt32) : RegisterFile :=
  if offset = Register.channelStatus.offset then file.poke offset (file.peek offset &&& ~~~value)
  else file.poke offset (value &&& ~~~(selfClearing offset value &&& ~~~file.held.getD offset 0))

/-- Carries out a command of the management bus. A device that does not exist leaves the data as they are. -/
def exchange (file : RegisterFile) (word : UInt32) : RegisterFile :=
  let key := ((word &&& Fields.mdioPhy) >>> Fields.mdioPhyShift, (word &&& Fields.mdioRegister) >>> Fields.mdioRegisterShift)
  let command := word >>> Fields.mdioCommandShift &&& 3
  if word &&& Fields.mdioBusy = 0 then file
  else if command = Fields.mdioReadCommand then
    match file.devices[key]? with
    | some value => file.poke Register.mdioData.offset value
    | none => file
  else if command = Fields.mdioWriteCommand then
    file.setDevice key.1 key.2 (file.peek Register.mdioData.offset &&& Fields.mdioDataWord)
  else file

def write (file : RegisterFile) (offset value : UInt32) : RegisterFile :=
  let settled := file.settle offset value
  if offset = Register.mdioAddress.offset then settled.exchange value else settled

end RegisterFile

end EthernetMac

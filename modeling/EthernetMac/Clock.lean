import EthernetMac.Peripheral
import EthernetMac.Timestamp

namespace EthernetMac.Clock

variable {ε : Type} [Bus ε]

/-- The looks at a command of the clock after which it is given up. -/
def pollLimit : Nat := 1000000

def addendAttempts : Nat := 8

def auxiliaryChannels : Nat := 4

/-- Looks at a register until none of the given bits is set. -/
def awaitClear (register : Register) (bits : UInt32) : (polls : Nat) → Attempt ε BusFault Unit
  | 0 => throw .timeout
  | polls + 1 => do
    if ← Attempt.sure (register.anySet bits) then
      awaitClear register bits polls
    else
      return

def awaitCommand (bits : UInt32) : Attempt ε BusFault Unit :=
  awaitClear .clockControl bits pollLimit

/-- Gives a command of the control register and leaves its other bits as they read. -/
def command (bit : UInt32) : StateM ε Unit :=
  Register.clockControl.setBits bit

def enable : StateM ε Unit :=
  Register.clockControl.write Fields.clockOperation

def disable : StateM ε Unit :=
  Register.clockControl.clearBits Fields.clockEnable

def isEnabled : StateM ε Bool :=
  Register.clockControl.anySet Fields.clockEnable

/-- Lets the addend set the pace of the clock, or the system clock alone. -/
def setFineCorrection (fine : Bool) : StateM ε Unit :=
  if fine then Register.clockControl.setBits Fields.fineCorrection
  else Register.clockControl.clearBits Fields.fineCorrection

def setUpdate (seconds nanoseconds : UInt32) : StateM ε Unit := do
  Register.secondsUpdate.write seconds
  Register.nanosecondsUpdate.write nanoseconds

def setTime (seconds nanoseconds : UInt32) : Attempt ε Failure Unit := do
  if nanosPerSecond ≤ nanoseconds.toNat then throw (.config .invalidConfig)
  Attempt.sure (setUpdate seconds nanoseconds)
  (awaitCommand Fields.clockInitialize).relabel Failure.bus
  Attempt.sure (command Fields.clockInitialize)

inductive Direction where
  | forward
  | backward
deriving DecidableEq, Repr

/-- The nanoseconds word of a step. A step back gives the distance to the next full second, which the hardware takes
back together with the seconds. -/
def stepWord (nanoseconds : UInt32) : Direction → UInt32
  | .forward => nanoseconds
  | .backward =>
    if nanoseconds = 0 then Fields.stepBack else Fields.stepBack ||| (UInt32.ofNat nanosPerSecond - nanoseconds)

def step (seconds nanoseconds : UInt32) (direction : Direction) : Attempt ε Failure Unit := do
  if nanosPerSecond ≤ nanoseconds.toNat then throw (.config .invalidConfig)
  Attempt.sure (setUpdate seconds (stepWord nanoseconds direction))
  (awaitCommand (Fields.clockStep ||| Fields.clockInitialize)).relabel Failure.bus
  Attempt.sure (command Fields.clockStep)

/-- Reads nanoseconds, without the bit that is not part of the time. -/
def readNanoseconds (register : Register) : StateM ε UInt32 := do
  return (← register.read) &&& Fields.nanoseconds

/-- Reads the clock. When the second changes under the reading, the nanoseconds are read anew. -/
def now : StateM ε Timestamp := do
  let seconds ← Register.systemSeconds.read
  let nanoseconds ← readNanoseconds .systemNanoseconds
  let again ← Register.systemSeconds.read
  if again = seconds then
    return ⟨seconds, nanoseconds⟩
  else
    return ⟨again, ← readNanoseconds .systemNanoseconds⟩

/-- Writes the addend and has it loaded, the given number of times. -/
def loadAddend (value : UInt32) : (attempts : Nat) → Attempt ε BusFault Unit
  | 0 => return
  | attempts + 1 => do
    Attempt.sure (Register.addend.write value)
    awaitCommand Fields.addendUpdate
    Attempt.sure (command Fields.addendUpdate)
    loadAddend value attempts

def setAddend (value : UInt32) : Attempt ε BusFault Unit :=
  loadAddend value addendAttempts

def addend : StateM ε UInt32 :=
  Register.addend.read

def setIncrement (increment : UInt8) : StateM ε Unit :=
  Register.subsecondIncrement.write
    (increment.toUInt32 <<< Fields.subsecondIncrementShift &&& Fields.subsecondIncrement)

def increment : StateM ε UInt8 := do
  let value ← Register.subsecondIncrement.read
  return ((value &&& Fields.subsecondIncrement) >>> Fields.subsecondIncrementShift).toUInt8

/-- Turns a snapshot channel on or off. The command that clears the snapshots is not given again with it. -/
def setAuxiliaryChannel (channel : Nat) (enabled : Bool) : Attempt ε Failure Unit := do
  if auxiliaryChannels ≤ channel then throw (.config .invalidConfig)
  let bit : UInt32 := 1 <<< (Fields.auxiliaryEnableShift + UInt32.ofNat channel)
  let current ← Attempt.sure Register.auxiliaryControl.read
  let control := current &&& ~~~Fields.auxiliaryClear
  Attempt.sure (Register.auxiliaryControl.write (if enabled then control ||| bit else control &&& ~~~bit))

def clearAuxiliary : StateM ε Unit :=
  Register.auxiliaryControl.setBits Fields.auxiliaryClear

def auxiliaryCount : StateM ε Nat := do
  return (← Register.clockStatus.read) >>> Fields.auxiliaryCountShift &&& Fields.auxiliaryCount |>.toNat

/-- Reads the oldest snapshot. Reading its seconds moves on to the next one, so they are read last. -/
def auxiliarySnapshot : StateM ε Timestamp := do
  let nanoseconds ← readNanoseconds .auxiliaryNanoseconds
  return ⟨← Register.auxiliarySeconds.read, nanoseconds⟩

end EthernetMac.Clock

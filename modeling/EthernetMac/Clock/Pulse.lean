import EthernetMac.Clock

namespace EthernetMac.Clock

/-- A frequency that the pulse output has of its own: off, or a power of two up to 16384 in a second. -/
abbrev PulseRate := Fin 16

def PulseRate.hertz (rate : PulseRate) : Nat :=
  if rate.val = 0 then 0 else 1 <<< (rate.val - 1)

def pulseStartDelay : UInt32 := 2

variable {ε : Type} [Bus ε]

def awaitPulseIdle : Attempt ε BusFault Unit :=
  awaitClear .pulseControl Fields.pulseCommand pollLimit

def isPulseCommandPending : StateM ε Bool :=
  Register.pulseControl.anySet Fields.pulseCommand

def setPulseRate (rate : PulseRate) : StateM ε Unit :=
  Register.pulseControl.write (Fields.pulseTargetSilent ||| UInt32.ofNat rate.val)

/-- Brings the output from a fixed frequency to the mode in which it takes commands. -/
def enterPulseTrainMode : Attempt ε BusFault Unit := do
  if !(← Attempt.sure (Register.pulseControl.anySet Fields.pulseTrainMode)) then
    Attempt.sure (Register.pulseControl.write Fields.pulseTrainMode)
    awaitPulseIdle

def stopPulses : Attempt ε BusFault Unit := do
  enterPulseTrainMode
  awaitPulseIdle
  Attempt.sure do
    let control ← Register.pulseControl.read
    Register.pulseControl.write (control &&& ~~~Fields.pulseCommand ||| Fields.pulseStop)

/-- The two lengths of a pulse train, in ticks of the clock less one. -/
structure PulseTrain where
  width : UInt32
  interval : UInt32
deriving DecidableEq, Repr

/-- The train with pulses of `high` nanoseconds every `period`, on a clock that ticks every `increment`. A pulse lasts
at least a tick and less than the period. -/
def PulseTrain.ofNanos? (increment high period : UInt32) : Option PulseTrain :=
  if increment = 0 ∨ high < increment ∨ period ≤ high then none
  else some ⟨high / increment - 1, period / increment - 1⟩

/-- Programs the train for an output that has stopped, and starts it last. -/
def PulseTrain.schedule (train : PulseTrain) : StateM ε Unit := do
  let time ← now
  Register.pulseTargetSeconds.write (time.seconds + pulseStartDelay)
  Register.pulseTargetNanoseconds.write 0
  Register.pulseWidth.write train.width
  Register.pulseInterval.write train.interval
  Register.pulseControl.write (Fields.pulseTrainMode ||| Fields.pulseTargetSilent ||| Fields.pulseStart)

def startPulses (high period : UInt32) : Attempt ε Failure Unit := do
  match PulseTrain.ofNanos? (← Attempt.sure increment).toUInt32 high period with
  | none => throw (.config .invalidConfig)
  | some train =>
    stopPulses.relabel Failure.bus
    awaitPulseIdle.relabel Failure.bus
    Attempt.sure train.schedule

end EthernetMac.Clock

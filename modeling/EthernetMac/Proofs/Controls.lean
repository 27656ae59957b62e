import EthernetMac.Clock.Pulse
import EthernetMac.Phy
import EthernetMac.Proofs.BringUp

namespace EthernetMac

/-- The registers in which the driver lets traffic through. -/
def Register.isControl : Register → Bool
  | .macConfiguration | .txControl | .rxControl | .interruptEnable => true
  | _ => false

namespace Bus

variable {ε κ α : Type}

/-- What `view` shows of the surroundings is changed by no read, by no delay, and by no write of any register but the
controls. -/
structure Aloof [Bus ε] (view : ε → κ) : Prop where
  read : ∀ offset env, view (Bus.read offset env).2 = view env
  write : ∀ register value env, Register.isControl register = false →
    view (Bus.write register.offset value env) = view env
  delay : ∀ nanoseconds env, view (Bus.delay nanoseconds env) = view env

namespace Aloof

variable [Bus ε] {view : ε → κ}

theorem load (far : Aloof view) (register : Register) : Keeps view register.read :=
  fun env => far.read register.offset env

theorem store (far : Aloof view) (register : Register) (other : register.isControl = false) (value : UInt32) :
    Keeps view (register.write value) :=
  fun env => far.write register value env other

theorem update (far : Aloof view) (register : Register) (other : register.isControl = false)
    (change : UInt32 → UInt32) : Keeps view (register.update change) :=
  fun env => (far.write register _ _ other).trans (far.read register.offset env)

theorem anySet (far : Aloof view) (register : Register) (bits : UInt32) : Keeps view (register.anySet bits) :=
  (far.load register).bind fun _ => .pure _

theorem pause (far : Aloof view) (microseconds : Nat) : Keeps view (Bus.pauseMicros microseconds) :=
  fun env => far.delay _ env

theorem isResetComplete (far : Aloof view) : Keeps view Peripheral.isResetComplete :=
  (far.anySet _ _).bind fun _ => .pure _

theorem softReset (far : Aloof view) (timeoutMs : UInt32) : Keeps view (EthernetMac.softReset timeoutMs).run :=
  softReset_across (.keeps view) (far.update .dmaMode rfl _) far.isResetComplete (far.pause _) timeoutMs

end Aloof

end Bus

open Bus

namespace Clock

variable {ε κ : Type} [Bus ε] {view : ε → κ} (far : Aloof view)

include far

theorem awaitClear_keeps (register : Register) (bits : UInt32) (polls : Nat) :
    Keeps view (awaitClear register bits polls).run :=
  awaitClear_across (.keeps view) (far.load register) bits polls

theorem setUpdate_keeps (seconds nanoseconds : UInt32) : Keeps view (setUpdate seconds nanoseconds) :=
  (far.store _ rfl _).bind fun _ => far.store _ rfl _

theorem awaitCommand_keeps (bits : UInt32) : Keeps view (awaitCommand bits).run :=
  awaitClear_keeps far _ _ _

theorem setTime_keeps (seconds nanoseconds : UInt32) : Keeps view (setTime seconds nanoseconds).run := by
  unfold setTime
  split
  · exact .pure _
  · exact (setUpdate_keeps far _ _).sure.andThen fun _ => (awaitCommand_keeps far _).relabel.andThen fun _ =>
      (far.update _ rfl _).sure

theorem step_keeps (seconds nanoseconds : UInt32) (direction : Direction) :
    Keeps view (step seconds nanoseconds direction).run := by
  unfold step
  split
  · exact .pure _
  · exact (setUpdate_keeps far _ _).sure.andThen fun _ => (awaitCommand_keeps far _).relabel.andThen fun _ =>
      (far.update _ rfl _).sure

theorem readNanoseconds_keeps (register : Register) : Keeps view (readNanoseconds register) :=
  (far.load register).bind fun _ => .pure _

theorem now_keeps : Keeps view now := now_across (.keeps view) far.load

theorem loadAddend_keeps (value : UInt32) (attempts : Nat) : Keeps view (loadAddend value attempts).run :=
  loadAddend_across (.keeps view) (far.load _) (far.store _ rfl _) (far.update _ rfl _) attempts

theorem setFineCorrection_keeps (fine : Bool) : Keeps view (setFineCorrection fine) := by
  cases fine with
  | true => exact far.update _ rfl _
  | false => exact far.update _ rfl _

theorem setAuxiliaryChannel_keeps (channel : Nat) (enabled : Bool) :
    Keeps view (setAuxiliaryChannel channel enabled).run := by
  unfold setAuxiliaryChannel
  dsimp only
  by_cases absent : auxiliaryChannels ≤ channel
  · rw [if_pos absent]
    exact .pure _
  · rw [if_neg absent]
    refine (far.load _).sure.andThen fun _ => ?_
    exact (far.store .auxiliaryControl rfl _).sure

theorem auxiliarySnapshot_keeps : Keeps view auxiliarySnapshot :=
  (readNanoseconds_keeps far _).bind fun _ => (far.load _).bind fun _ => .pure _

theorem enterPulseTrainMode_keeps : Keeps view enterPulseTrainMode.run := by
  refine (far.anySet _ _).sure.andThen fun entered => ?_
  cases entered with
  | true => exact .pure _
  | false => exact (far.store _ rfl _).sure.andThen fun _ => awaitClear_keeps far _ _ _

theorem stopPulses_keeps : Keeps view stopPulses.run :=
  (enterPulseTrainMode_keeps far).andThen fun _ => (awaitClear_keeps far _ _ _).andThen fun _ =>
    ((far.load _).bind fun _ => far.store _ rfl _).sure

theorem schedule_keeps (train : PulseTrain) : Keeps view train.schedule :=
  (now_keeps far).bind fun _ => (far.store _ rfl _).bind fun _ => (far.store _ rfl _).bind fun _ =>
    (far.store _ rfl _).bind fun _ => (far.store _ rfl _).bind fun _ => far.store _ rfl _

theorem startPulses_keeps (high period : UInt32) : Keeps view (startPulses high period).run := by
  refine ((far.load _).bind fun _ => .pure _).sure.andThen fun increment => ?_
  split
  · exact .pure _
  · exact (stopPulses_keeps far).relabel.andThen fun _ => (awaitClear_keeps far _ _ _).relabel.andThen fun _ =>
      (schedule_keeps far _).sure

end Clock

namespace Mdio

variable {ε κ : Type} [Bus ε] {view : ε → κ} (far : Aloof view)

include far

theorem awaitIdle_keeps (pauses : Nat) : Keeps view (awaitIdle pauses).run :=
  awaitIdle_across (.keeps view) (far.load _) (far.pause _) pauses

theorem begin_keeps (phy register : Nat) (command : UInt32) : Keeps view (begin phy register command) :=
  (far.load _).bind fun _ => far.store _ rfl _

theorem checkReady_keeps (phy register : Nat) : Keeps view (checkReady phy register).run := by
  unfold checkReady
  split
  · exact .pure _
  · refine (far.anySet _ _).sure.andThen fun busy => ?_
    cases busy with
    | true => exact .pure _
    | false => exact .pure _

theorem read_keeps (timeoutMicros phy register : Nat) : Keeps view (read timeoutMicros phy register).run :=
  (checkReady_keeps far _ _).andThen fun _ => (begin_keeps far _ _ _).sure.andThen fun _ =>
    (awaitIdle_keeps far _).andThen fun _ => (far.load _).sure.andThen fun _ => .pure _

theorem write_keeps (timeoutMicros phy register : Nat) (value : UInt16) :
    Keeps view (write timeoutMicros phy register value).run :=
  (checkReady_keeps far _ _).andThen fun _ => (far.store _ rfl _).sure.andThen fun _ =>
    (begin_keeps far _ _ _).sure.andThen fun _ => awaitIdle_keeps far _

end Mdio

theorem Phy.linkStatus_keeps {ε κ : Type} [Bus ε] {view : ε → κ} (far : Aloof view) (phy : Phy) :
    Keeps view phy.linkStatus.run := by
  have read (register : Nat) : Keeps view (phy.read register).run := Mdio.read_keeps far _ _ _
  refine ((read _).andThen fun _ => (read _).andThen fun _ => .pure _).andThen fun up => ?_
  cases up with
  | true => exact (read _).andThen fun _ => .pure _
  | false => exact .pure _

/-- The calls of the driver, of its clock and of its management bus that call nobody and have no business with the
controls. -/
inductive Errand {ε : Type} [Bus ε] : {α : Type} → StateM ε α → Prop
  | station : Errand Peripheral.station
  | enableClock : Errand Clock.enable
  | disableClock : Errand Clock.disable
  | isClockEnabled : Errand Clock.isEnabled
  | setFineCorrection (fine) : Errand (Clock.setFineCorrection fine)
  | setTime (seconds nanoseconds) : Errand (Clock.setTime seconds nanoseconds).run
  | step (seconds nanoseconds direction) : Errand (Clock.step seconds nanoseconds direction).run
  | now : Errand Clock.now
  | setAddend (value) : Errand (Clock.setAddend value).run
  | addend : Errand Clock.addend
  | setIncrement (increment) : Errand (Clock.setIncrement increment)
  | increment : Errand Clock.increment
  | setAuxiliaryChannel (channel enabled) : Errand (Clock.setAuxiliaryChannel channel enabled).run
  | clearAuxiliary : Errand Clock.clearAuxiliary
  | auxiliaryCount : Errand Clock.auxiliaryCount
  | auxiliarySnapshot : Errand Clock.auxiliarySnapshot
  | setPulseRate (rate) : Errand (Clock.setPulseRate rate)
  | isPulseCommandPending : Errand Clock.isPulseCommandPending
  | stopPulses : Errand Clock.stopPulses.run
  | startPulses (high period) : Errand (Clock.startPulses high period).run
  | mdioRead (timeoutMicros phy register) : Errand (Mdio.read timeoutMicros phy register).run
  | mdioWrite (timeoutMicros phy register value) : Errand (Mdio.write timeoutMicros phy register value).run
  | linkStatus (phy : Phy) : Errand phy.linkStatus.run

theorem Errand.keeps {ε κ α : Type} [Bus ε] {view : ε → κ} {act : StateM ε α} (errand : Errand act) (far : Aloof view) :
    Keeps view act := by
  cases errand with
  | station => exact (far.load _).bind fun _ => (far.load _).bind fun _ => .pure _
  | enableClock => exact far.store _ rfl _
  | disableClock => exact far.update _ rfl _
  | isClockEnabled => exact far.anySet _ _
  | setFineCorrection fine => exact Clock.setFineCorrection_keeps far fine
  | setTime seconds nanoseconds => exact Clock.setTime_keeps far seconds nanoseconds
  | step seconds nanoseconds direction => exact Clock.step_keeps far seconds nanoseconds direction
  | now => exact Clock.now_keeps far
  | setAddend value => exact Clock.loadAddend_keeps far value _
  | addend => exact far.load _
  | setIncrement increment => exact far.store _ rfl _
  | increment => exact (far.load _).bind fun _ => .pure _
  | setAuxiliaryChannel channel enabled => exact Clock.setAuxiliaryChannel_keeps far channel enabled
  | clearAuxiliary => exact far.update _ rfl _
  | auxiliaryCount => exact (far.load _).bind fun _ => .pure _
  | auxiliarySnapshot => exact Clock.auxiliarySnapshot_keeps far
  | setPulseRate rate => exact far.store _ rfl _
  | isPulseCommandPending => exact far.anySet _ _
  | stopPulses => exact Clock.stopPulses_keeps far
  | startPulses high period => exact Clock.startPulses_keeps far high period
  | mdioRead timeoutMicros phy register => exact Mdio.read_keeps far timeoutMicros phy register
  | mdioWrite timeoutMicros phy register value => exact Mdio.write_keeps far timeoutMicros phy register value
  | linkStatus phy => exact phy.linkStatus_keeps far

/-- The contents of the controls. -/
structure Controls where
  mac : UInt32
  tx : UInt32
  rx : UInt32
  interrupts : UInt32
deriving DecidableEq, Repr

namespace Controls

def read? (controls : Controls) (offset : UInt32) : Option UInt32 :=
  if offset = Register.macConfiguration.offset then some controls.mac
  else if offset = Register.txControl.offset then some controls.tx
  else if offset = Register.rxControl.offset then some controls.rx
  else if offset = Register.interruptEnable.offset then some controls.interrupts
  else none

def write? (controls : Controls) (offset value : UInt32) : Option Controls :=
  if offset = Register.macConfiguration.offset then some { controls with mac := value }
  else if offset = Register.txControl.offset then some { controls with tx := value }
  else if offset = Register.rxControl.offset then some { controls with rx := value }
  else if offset = Register.interruptEnable.offset then some { controls with interrupts := value }
  else none

theorem write?_other (controls : Controls) {register : Register} (other : register.isControl = false) (value : UInt32) :
    controls.write? register.offset value = none := by
  have apart : register.offset ≠ Register.macConfiguration.offset ∧ register.offset ≠ Register.txControl.offset ∧
      register.offset ≠ Register.rxControl.offset ∧ register.offset ≠ Register.interruptEnable.offset := by
    revert other
    cases register <;> decide
  simp only [write?, apart, if_false]

end Controls

/-- Surroundings in which the controls hold what is written to them; what the hardware does with the other registers is
not looked at. -/
structure ControlBench (σ : Type) where
  controls : Controls
  rest : σ

namespace ControlBench

variable {σ : Type} [Bus σ]

instance : Bus (ControlBench σ) where
  read offset bench :=
    match bench.controls.read? offset with
    | some value => (value, bench)
    | none => ((Bus.read offset bench.rest).1, { bench with rest := (Bus.read offset bench.rest).2 })
  write offset value bench :=
    match bench.controls.write? offset value with
    | some controls => { bench with controls := controls }
    | none => { bench with rest := Bus.write offset value bench.rest }
  delay nanoseconds bench := { bench with rest := Bus.delay nanoseconds bench.rest }

theorem aloof : Aloof (controls : ControlBench σ → Controls) where
  read offset bench := by
    simp only [Bus.read]
    cases bench.controls.read? offset with
    | some value => rfl
    | none => rfl
  write register value bench other := by
    simp only [Bus.write, Controls.write?_other _ other]
  delay nanoseconds bench := rfl

end ControlBench

end EthernetMac

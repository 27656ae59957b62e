import EthernetMac.Proofs.Blocks
import EthernetMac.Proofs.Controls

namespace EthernetMac

/-- The ways from one state of a driver's life to the next. -/
inductive Lifecycle.Goes : Lifecycle → Lifecycle → Prop
  | stays (life) : Goes life life
  | init : Goes .uninitialized .initialized
  | start : Goes .initialized .running
  | stop : Goes .running .stopped
  | restart : Goes .stopped .running

/-- What was last applied to the MAC and to the channel, and the states that the driver has gone through. -/
structure ControlLog where
  mode : Option (Speed × Duplex) := none
  burst : Option Burst := none
  states : List Lifecycle := [.uninitialized]
deriving DecidableEq

namespace ControlLog

def enter (log : ControlLog) (life : Lifecycle) : ControlLog := { log with states := log.states ++ [life] }

def apply (log : ControlLog) (speed : Speed) (duplex : Duplex) : ControlLog := { log with mode := some (speed, duplex) }

def modeWord (log : ControlLog) : UInt32 := log.mode.elim 0 fun mode => Peripheral.modeBits mode.1 mode.2

def burstWord (log : ControlLog) : UInt32 := log.burst.elim 0 fun burst => burst.beats <<< Fields.burstShift

/-- What the controls hold, by what was applied and by the state of the driver's life. -/
def controls (log : ControlLog) (g : Geometry) (life : Lifecycle) : Controls where
  mac := (if life = .uninitialized then 0 else Fields.checksumOffload) ||| log.modeWord |||
    if life = .running then Fields.receiverEnable ||| Fields.transmitterEnable else 0
  tx := log.burstWord ||| if life = .running then Fields.startTransmission else 0
  rx := (if life = .uninitialized then 0
      else log.burstWord ||| UInt32.ofNat g.buffer <<< Fields.bufferSizeShift) |||
    if life = .running then Fields.startReception else 0
  interrupts := if life = .running then DmaStatus.enabled.bits else 0

end ControlLog

namespace Controls

/-- All four enables are set and the causes that are handled raise interrupts. -/
def AllOn (controls : Controls) : Prop :=
  controls.tx &&& Fields.startTransmission ≠ 0 ∧ controls.rx &&& Fields.startReception ≠ 0 ∧
    controls.mac &&& Fields.receiverEnable ≠ 0 ∧ controls.mac &&& Fields.transmitterEnable ≠ 0 ∧
    controls.interrupts = 0x8041

/-- None of the four enables is set and no cause raises an interrupt. -/
def AllOff (controls : Controls) : Prop :=
  controls.tx &&& Fields.startTransmission = 0 ∧ controls.rx &&& Fields.startReception = 0 ∧
    controls.mac &&& Fields.receiverEnable = 0 ∧ controls.mac &&& Fields.transmitterEnable = 0 ∧
    controls.interrupts = 0

/-- Apart from the enables, the controls hold a mode, the checksum offload, a burst length and a buffer size. -/
def Configured (controls : Controls) (mode : Speed × Duplex) (burst : Burst) (buffer : Nat) : Prop :=
  controls.mac &&& ~~~(Fields.receiverEnable ||| Fields.transmitterEnable) =
      Fields.checksumOffload ||| Peripheral.modeBits mode.1 mode.2 ∧
    controls.tx &&& ~~~Fields.startTransmission = burst.beats <<< 16 ∧
    controls.rx &&& ~~~Fields.startReception = burst.beats <<< 16 ||| UInt32.ofNat buffer <<< 1

end Controls

/-- A bit that is switched on or off apart from a word can be cleared without a trace. -/
theorem switch_and_complement {word bit : UInt32} (apart : word &&& bit = 0) (on : Prop) [Decidable on] :
    (word ||| if on then bit else 0) &&& ~~~bit = word := by
  rw [← UInt32.toBitVec_inj] at apart ⊢
  refine BitVec.eq_of_getLsbD_eq fun k inside => ?_
  have at_k : (word.toBitVec.getLsbD k && bit.toBitVec.getLsbD k) = false := by
    rw [← BitVec.getLsbD_and, ← UInt32.toBitVec_and, apart, UInt32.toBitVec_zero, BitVec.getLsbD_zero]
  split
  all_goals
    simp only [UInt32.toBitVec_and, UInt32.toBitVec_or, UInt32.toBitVec_not, UInt32.toBitVec_zero, BitVec.getLsbD_and,
      BitVec.getLsbD_or, BitVec.getLsbD_not, BitVec.getLsbD_zero, inside, decide_true, Bool.true_and]
    revert at_k
    cases word.toBitVec.getLsbD k <;> cases bit.toBitVec.getLsbD k <;> simp

theorem shifted_and_one (a b : UInt32) : (a <<< 16 ||| b <<< 1) &&& 1 = 0 := by
  rw [← UInt32.toBitVec_inj]
  refine BitVec.eq_of_getLsbD_eq fun k inside => ?_
  by_cases first : k = 0
  · subst first
    simp
  · simp [first]

theorem or_one_and_one (word : UInt32) : (word ||| 1) &&& 1 ≠ 0 := by
  intro clear
  rw [← UInt32.toBitVec_inj] at clear
  simpa using congrArg (·.getLsbD 0) clear

namespace ControlLog

/-- A MAC to which no mode was applied yet is in the slowest one. -/
theorem modeWord_eq (log : ControlLog) : ∃ speed duplex, log.modeWord = Peripheral.modeBits speed duplex := by
  unfold modeWord
  cases log.mode with
  | none => exact ⟨.ten, .half, by decide⟩
  | some mode => exact ⟨mode.1, mode.2, rfl⟩

theorem burstWord_and (log : ControlLog) : log.burstWord &&& Fields.startTransmission = 0 := by
  unfold burstWord
  cases log.burst with
  | none => decide
  | some burst => cases burst <;> decide

theorem rxWord_and (log : ControlLog) (size : UInt32) :
    (log.burstWord ||| size <<< Fields.bufferSizeShift) &&& Fields.startReception = 0 := by
  have placed : ∃ word : UInt32, log.burstWord = word <<< 16 := by
    unfold burstWord
    cases log.burst with
    | none => exact ⟨0, by decide⟩
    | some burst => exact ⟨burst.beats, rfl⟩
  obtain ⟨word, placed⟩ := placed
  rw [placed]
  exact shifted_and_one word size

theorem controls_start (log : ControlLog) (g : Geometry) {life : Lifecycle} (up : life ≠ .uninitialized)
    (idle : life ≠ .running) :
    ({ mac := (log.controls g life).mac ||| Fields.receiverEnable ||| Fields.transmitterEnable
       tx := (log.controls g life).tx ||| Fields.startTransmission
       rx := (log.controls g life).rx ||| Fields.startReception
       interrupts := DmaStatus.enabled.bits } : Controls) = log.controls g .running := by
  simp [controls, up, idle, UInt32.or_assoc]

theorem controls_stop (log : ControlLog) (g : Geometry) :
    ({ mac := (log.controls g .running).mac &&& ~~~Fields.transmitterEnable &&& ~~~Fields.receiverEnable
       tx := (log.controls g .running).tx &&& ~~~Fields.startTransmission
       rx := (log.controls g .running).rx &&& ~~~Fields.startReception
       interrupts := 0 } : Controls) = log.controls g .stopped := by
  obtain ⟨speed, duplex, mode⟩ := log.modeWord_eq
  have mac : (Fields.checksumOffload ||| Peripheral.modeBits speed duplex |||
      (Fields.receiverEnable ||| Fields.transmitterEnable)) &&& ~~~Fields.transmitterEnable &&&
        ~~~Fields.receiverEnable = Fields.checksumOffload ||| Peripheral.modeBits speed duplex := by
    cases speed <;> cases duplex <;> decide
  have tx := switch_and_complement log.burstWord_and True
  have rx := switch_and_complement (log.rxWord_and (UInt32.ofNat g.buffer)) True
  rw [if_pos trivial] at tx rx
  simp [controls, mode, mac, tx, rx]

theorem controls_mode (log : ControlLog) (g : Geometry) (life : Lifecycle) (speed : Speed) (duplex : Duplex) :
    ({ log.controls g life with
      mac := (log.controls g life).mac &&& ~~~(Fields.fastEthernet ||| Fields.fullDuplex) |||
        Peripheral.modeBits speed duplex } : Controls) = (log.apply speed duplex).controls g life := by
  obtain ⟨oldSpeed, oldDuplex, mode⟩ := log.modeWord_eq
  have mac : (log.controls g life).mac &&& ~~~(Fields.fastEthernet ||| Fields.fullDuplex) |||
      Peripheral.modeBits speed duplex = ((log.apply speed duplex).controls g life).mac := by
    have applied : (log.apply speed duplex).modeWord = Peripheral.modeBits speed duplex := rfl
    simp only [controls, mode, applied]
    cases life <;> cases oldSpeed <;> cases oldDuplex <;> cases speed <;> cases duplex <;> decide
  rw [mac]
  rfl

theorem controls_init (log : ControlLog) (g : Geometry) (speed : Speed) (duplex : Duplex) (burst : Burst) :
    ({ mac := Peripheral.modeBits speed duplex ||| Fields.checksumOffload
       tx := burst.beats <<< Fields.burstShift &&& Fields.burst
       rx := burst.beats <<< Fields.burstShift &&& Fields.burst |||
        (UInt32.ofNat g.buffer <<< Fields.bufferSizeShift &&& Fields.bufferSize)
       interrupts := 0 } : Controls) =
      { log.apply speed duplex with burst := some burst }.controls g .initialized := by
  have size : UInt32.ofNat g.buffer <<< Fields.bufferSizeShift &&& Fields.bufferSize =
      UInt32.ofNat g.buffer <<< Fields.bufferSizeShift := by
    have field : Fields.bufferSize = Descriptor.lengthField <<< Fields.bufferSizeShift := by decide
    rw [field, ← UInt32.shiftLeft_and, Descriptor.ofNat_and_lengthField g.buffer_le]
  have beats : burst.beats <<< Fields.burstShift &&& Fields.burst = burst.beats <<< Fields.burstShift := by
    cases burst <;> decide
  rw [size, beats]
  simp [controls, modeWord, burstWord, apply, UInt32.or_comm]

theorem controls_running (log : ControlLog) (g : Geometry) : (log.controls g .running).AllOn := by
  obtain ⟨speed, duplex, mode⟩ := log.modeWord_eq
  refine ⟨or_one_and_one _, or_one_and_one _, ?_, ?_, rfl⟩
  · simp only [controls, mode]
    cases speed <;> cases duplex <;> decide
  · simp only [controls, mode]
    cases speed <;> cases duplex <;> decide

theorem controls_idle (log : ControlLog) (g : Geometry) {life : Lifecycle} (idle : life ≠ .running) :
    (log.controls g life).AllOff := by
  obtain ⟨speed, duplex, mode⟩ := log.modeWord_eq
  refine ⟨?_, ?_, ?_, ?_, if_neg idle⟩
  · simp only [controls, idle, if_false, UInt32.or_zero, log.burstWord_and]
  · simp only [controls, idle, if_false, UInt32.or_zero]
    split
    · rfl
    · exact log.rxWord_and _
  · simp only [controls, mode, idle]
    cases life <;> cases speed <;> cases duplex <;> decide
  · simp only [controls, mode, idle]
    cases life <;> cases speed <;> cases duplex <;> decide

theorem controls_configured {log : ControlLog} {mode : Speed × Duplex} {burst : Burst} (g : Geometry) {life : Lifecycle}
    (up : life ≠ .uninitialized) (applied : log.mode = some mode) (loaded : log.burst = some burst) :
    (log.controls g life).Configured mode burst g.buffer := by
  have modeWord : log.modeWord = Peripheral.modeBits mode.1 mode.2 := by rw [ControlLog.modeWord, applied]; rfl
  have burstWord : log.burstWord = burst.beats <<< 16 := by rw [ControlLog.burstWord, loaded]; rfl
  refine ⟨?_, ?_, ?_⟩
  · simp only [controls, modeWord, up, if_false]
    obtain ⟨speed, duplex⟩ := mode
    cases life <;> cases speed <;> cases duplex <;> decide
  · rw [← burstWord]
    exact switch_and_complement log.burstWord_and _
  · simp only [controls, up, if_false]
    rw [switch_and_complement (log.rxWord_and _) _, burstWord]
    rfl

end ControlLog

end EthernetMac

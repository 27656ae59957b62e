import EthernetMac.Proofs.Clock.PulseOrder

namespace EthernetMac

open Bus Clock

/-- A clock that ticks every so many nanoseconds, with nothing else to be read. -/
structure TickingPeripheral where
  increment : UInt8

namespace TickingPeripheral

instance : Bus TickingPeripheral where
  read offset peripheral :=
    (if offset = Register.subsecondIncrement.offset then
        peripheral.increment.toUInt32 <<< Fields.subsecondIncrementShift
      else 0, peripheral)
  write _ _ peripheral := peripheral
  delay _ peripheral := peripheral

/-- A clock that ticks every 20 nanoseconds, with an output that is off. -/
def everyTwenty : Traced (PulseBench TickingPeripheral) where
  rest := ⟨0, ⟨20⟩⟩

end TickingPeripheral

namespace Clock

namespace PulseTrain

/-- A train takes as many ticks as fit into the times that were asked for. The registers are given one tick less. -/
structure Fits (train : PulseTrain) (tick high period : Nat) : Prop where
  tick_pos : 0 < tick
  width : train.width.toNat + 1 = high / tick
  interval : train.interval.toNat + 1 = period / tick

theorem lessOne {tick time : UInt32} (pos : 0 < tick.toNat) (fits : tick.toNat ≤ time.toNat) :
    (time / tick - 1).toNat + 1 = time.toNat / tick.toNat := by
  have one : 1 ≤ time.toNat / tick.toNat := (Nat.one_le_div_iff pos).mpr fits
  have whole : (1 : UInt32) ≤ time / tick := by
    rw [UInt32.le_iff_toNat_le, UInt32.toNat_div]
    exact one
  rw [UInt32.toNat_sub_of_le _ _ whole, UInt32.toNat_div]
  exact Nat.sub_add_cancel one

theorem ofNanos?_fits {tick high period : UInt32} {train : PulseTrain}
    (lengths : ofNanos? tick high period = some train) :
    train.Fits tick.toNat high.toNat period.toNat ∧ high.toNat < period.toNat := by
  unfold ofNanos? at lengths
  split at lengths
  · cases lengths
  · rename_i accepted
    simp only [not_or, UInt32.not_lt, UInt32.not_le] at accepted
    obtain ⟨ticks, high_fits, shorter⟩ := accepted
    have pos : 0 < tick.toNat := Nat.pos_of_ne_zero fun zero => ticks (UInt32.toNat_inj.mp zero)
    cases lengths
    exact ⟨⟨pos, lessOne pos high_fits, lessOne pos (Nat.le_trans high_fits (Nat.le_of_lt shorter))⟩, shorter⟩

namespace Fits

variable {train : PulseTrain} {tick high period : Nat}

theorem falls_iff (fits : train.Fits tick high period) :
    train.width < train.interval ↔ ∃ ticks, high < ticks * tick ∧ ticks * tick ≤ period := by
  have lengths : train.width < train.interval ↔ high / tick < period / tick := by
    rw [← fits.width, ← fits.interval, UInt32.lt_iff_toNat_lt]
    exact Nat.add_lt_add_iff_right.symm
  rw [lengths]
  constructor
  · intro less
    exact ⟨period / tick, (Nat.div_lt_iff_lt_mul fits.tick_pos).mp less, Nat.div_mul_le_self period tick⟩
  · rintro ⟨ticks, above, below⟩
    calc high / tick < ticks := (Nat.div_lt_iff_lt_mul fits.tick_pos).mpr above
      _ ≤ period / tick := (Nat.le_div_iff_mul_le fits.tick_pos).mpr below

theorem falls_of_tick (fits : train.Fits tick high period) (low : high + tick ≤ period) :
    train.width < train.interval := by
  have above : high < (high / tick + 1) * tick := by
    rw [Nat.mul_comm]
    exact Nat.lt_mul_div_succ high fits.tick_pos
  refine fits.falls_iff.mpr ⟨high / tick + 1, above, ?_⟩
  calc (high / tick + 1) * tick = high / tick * tick + tick := Nat.succ_mul ..
    _ ≤ high + tick := Nat.add_le_add_right (Nat.div_mul_le_self high tick) tick
    _ ≤ period := low

theorem width_le (fits : train.Fits tick high period) (shorter : high < period) : train.width ≤ train.interval := by
  have ticks : train.width.toNat + 1 ≤ train.interval.toNat + 1 := by
    rw [fits.width, fits.interval]
    exact Nat.div_le_div_right (Nat.le_of_lt shorter)
  exact UInt32.le_iff_toNat_le.mpr (Nat.le_of_add_le_add_right ticks)

end Fits

end PulseTrain

theorem startPulses_ok {ε : Type} [Bus ε] {high period : UInt32} {env : ε}
    (started : ((startPulses high period).run env).1 = .ok ()) :
    ∃ train ready, PulseTrain.ofNanos? (increment env).1.toUInt32 high period = some train ∧
      ((startPulses high period).run env).2 = (train.schedule ready).2 := by
  have run := startPulses_apply high period env
  rw [run] at started ⊢
  cases lengths : PulseTrain.ofNanos? (increment env).1.toUInt32 high period with
  | none => rw [lengths] at started; cases started
  | some train =>
    rw [lengths] at started
    dsimp only at started ⊢
    generalize stopPulses.run (increment env).2 = stop at started ⊢
    obtain ⟨outcome, stopped⟩ := stop
    cases outcome with
    | error fault => cases started
    | ok _ =>
      dsimp only at started ⊢
      generalize awaitPulseIdle.run stopped = wait at started ⊢
      obtain ⟨outcome, ready⟩ := wait
      cases outcome with
      | error fault => cases started
      | ok _ => exact ⟨train, ready, rfl, rfl⟩

/-- The lengths that are programmed for a train fit into the times that were asked for. The output is low for at least a
tick of every period if and only if some tick ends after the time of a pulse and not after the period. -/
theorem pulses_fall_iff {σ : Type} [Bus σ] {high period : UInt32} {env : Traced σ}
    (started : ((startPulses high period).run env).1 = .ok ()) :
    let tick := (increment env).1.toNat
    ∃ train : PulseTrain,
      [.write Register.pulseWidth.offset train.width, .write Register.pulseInterval.offset train.interval,
        PulseTrain.start] <:+ ((startPulses high period).run env).2.deeds ∧
      train.Fits tick high.toNat period.toNat ∧ train.width ≤ train.interval ∧
      (train.width < train.interval ↔ ∃ ticks, high.toNat < ticks * tick ∧ ticks * tick ≤ period.toNat) ∧
      (high.toNat + tick ≤ period.toNat → train.width < train.interval) := by
  obtain ⟨train, ready, lengths, done⟩ := startPulses_ok started
  obtain ⟨fits, shorter⟩ := PulseTrain.ofNanos?_fits lengths
  rw [UInt8.toNat_toUInt32] at fits
  refine ⟨train, ?_, fits, fits.width_le shorter, fits.falls_iff, fits.falls_of_tick⟩
  rw [done, schedule_deeds]
  exact ⟨_ ++ [_, _], List.append_assoc _ [_, _] _⟩

/-- A tenth of a microsecond out of every one. -/
theorem pulses_fall_iff_tenth :
    let call := (startPulses 100 1000).run TickingPeripheral.everyTwenty
    call.1 = .ok () ∧ ∃ train : PulseTrain,
      [.write Register.pulseWidth.offset train.width, .write Register.pulseInterval.offset train.interval,
        PulseTrain.start] <:+ call.2.deeds ∧ train.width < train.interval := by
  have started : ((startPulses 100 1000).run TickingPeripheral.everyTwenty).1 = .ok () := by decide +kernel
  obtain ⟨train, ends, -, -, -, falls⟩ := pulses_fall_iff started
  exact ⟨started, train, ends, falls (by decide +kernel)⟩

/-- A period that is longer than its pulse, but not by a tick: the output stays high. -/
theorem pulse_never_falls :
    let call := (startPulses 100 101).run TickingPeripheral.everyTwenty
    call.1 = .ok () ∧ ∃ train : PulseTrain,
      [.write Register.pulseWidth.offset train.width, .write Register.pulseInterval.offset train.interval,
        PulseTrain.start] <:+ call.2.deeds ∧ ¬ train.width < train.interval :=
  ⟨by decide +kernel, ⟨4, 4⟩, by decide +kernel, by decide⟩

end Clock

end EthernetMac

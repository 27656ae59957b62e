import EthernetMac.Proofs.Blocks
import EthernetMac.Proofs.BringUp
import EthernetMac.Proofs.Reset.Looks

namespace EthernetMac

open Peripheral

variable {σ : Type}

/-- A peripheral that takes `span` nanoseconds for a reset. Time passes only while the driver waits. -/
structure ResetTimer (span : Nat) (σ : Type) where
  elapsed : Nat
  /-- When a reset was last asked for. -/
  asked : Option Nat
  rest : σ

namespace ResetTimer

variable {span : Nat}

def isResetting (timer : ResetTimer span σ) : Bool := timer.asked.any fun start => timer.elapsed < start + span

instance [Bus σ] : Bus (ResetTimer span σ) where
  read offset timer :=
    let (value, rest) := Bus.read offset timer.rest
    (if offset = Register.dmaMode.offset then
        value &&& ~~~Fields.softwareReset ||| (if timer.isResetting then Fields.softwareReset else 0)
      else value,
      { timer with rest := rest })
  write offset value timer :=
    { timer with
      asked := if offset = Register.dmaMode.offset ∧ value &&& Fields.softwareReset ≠ 0 then some timer.elapsed
        else timer.asked
      rest := Bus.write offset value timer.rest }
  delay nanoseconds timer :=
    { timer with elapsed := timer.elapsed + nanoseconds, rest := Bus.delay nanoseconds timer.rest }

variable [Bus σ] (timer : ResetTimer span σ)

theorem showsReset_iff : ShowsReset timer ↔ timer.isResetting = false := by
  have shows : (isResetComplete timer).1 =
      !(((Bus.read Register.dmaMode.offset timer.rest).1 &&& ~~~Fields.softwareReset |||
        (if timer.isResetting then Fields.softwareReset else 0)) &&& Fields.softwareReset != 0) := rfl
  rw [ShowsReset, shows, Descriptor.or_and, UInt32.and_assoc,
    show ~~~Fields.softwareReset &&& Fields.softwareReset = 0 by decide, UInt32.and_zero, UInt32.zero_or]
  cases timer.isResetting with
  | true => decide
  | false => decide

theorem elapsed_looked : (isResetComplete timer).2.elapsed = timer.elapsed := rfl

theorem elapsed_watched (looks : Nat) : (watched looks timer).elapsed = timer.elapsed + looks * 100000 := by
  induction looks generalizing timer with
  | zero => rfl
  | succ looks ih =>
    rw [watched, ih, Nat.succ_mul]
    change timer.elapsed + 100000 + _ = _
    omega

theorem asked_watched (looks : Nat) : (watched looks timer).asked = timer.asked := by
  induction looks generalizing timer with
  | zero => rfl
  | succ looks ih => exact ih _

theorem elapsed_requested : (requestReset timer).2.elapsed = timer.elapsed := rfl

theorem asked_requested : (requestReset timer).2.asked = some timer.elapsed := by
  refine if_pos ⟨rfl, fun none => ?_⟩
  have bits := congrArg UInt32.toBitVec none
  rw [UInt32.toBitVec_and, UInt32.toBitVec_or, BitVec.and_or_distrib_right] at bits
  exact absurd (BitVec.or_eq_zero_iff.mp bits).2 (by decide)

/-- A look at the reset finds it done as soon as the pauses before it have taken up its span. -/
theorem shows_watched (looks : Nat) : ShowsReset (watched looks (requestReset timer).2) ↔ span ≤ looks * 100000 := by
  rw [showsReset_iff, isResetting, asked_watched, asked_requested, elapsed_watched, elapsed_requested,
    Option.any_some, decide_eq_false_iff_not]
  omega

theorem resetsWithin_iff (polls : Nat) : ResetsWithin polls timer ↔ span + 100000 ≤ polls * 100000 := by
  constructor
  · rintro ⟨looks, inTime, shown⟩
    have spent := (timer.shows_watched looks).mp shown
    omega
  · intro early
    exact ⟨(span + 99999) / 100000, by omega, (timer.shows_watched _).mpr (by omega)⟩

/-- What a software reset comes to within a timeout, and how long the driver waits for it. The last look is taken one
pause before the end of the timeout, and counts. -/
structure Meets (timeoutMs : UInt32) : Prop where
  done : ((softReset timeoutMs).run timer).1 = .ok () ↔ span + 100000 ≤ timeoutMs.toNat * 1000000
  failed : ((softReset timeoutMs).run timer).1 = .error .resetFailed ↔ timeoutMs.toNat * 1000000 < span + 100000
  waited : ((softReset timeoutMs).run timer).2.elapsed =
    timer.elapsed + min ((span + 99999) / 100000 * 100000) (timeoutMs.toNat * 1000000)
  bounded : ((softReset timeoutMs).run timer).2.elapsed ≤ timer.elapsed + timeoutMs.toNat * 1000000

theorem softReset_early {timeoutMs : UInt32} (early : span + 100000 ≤ resetPolls timeoutMs * 100000) :
    (softReset timeoutMs).run timer =
      (.ok (), (isResetComplete (watched ((span + 99999) / 100000) (requestReset timer).2)).2) := by
  rw [softReset_apply]
  refine awaitReset_shown (by omega) (fun k before => ?_) ((timer.shows_watched _).mpr (by omega))
  rw [shows_watched]
  omega

theorem softReset_late {timeoutMs : UInt32} (late : resetPolls timeoutMs * 100000 < span + 100000) :
    (softReset timeoutMs).run timer =
      (.error .resetFailed, watched (resetPolls timeoutMs) (requestReset timer).2) := by
  rw [softReset_apply]
  refine awaitReset_unshown fun k before => ?_
  rw [shows_watched]
  omega

/-- A timeout beyond the bound is too long to be told in microseconds. -/
theorem softReset_meets (timeoutMs : UInt32) (told : timeoutMs.toNat ≤ 4294967) : timer.Meets timeoutMs := by
  have whole : resetPolls timeoutMs * 100000 = timeoutMs.toNat * 1000000 := by
    rw [(resetPolls_eq_iff timeoutMs).mpr told, Nat.mul_assoc]
  rcases Nat.lt_or_ge (timeoutMs.toNat * 1000000) (span + 100000) with late | early
  · have overdue : resetPolls timeoutMs * 100000 < span + 100000 := by rwa [whole]
    have run := timer.softReset_late overdue
    have waited : ((softReset timeoutMs).run timer).2.elapsed = timer.elapsed + timeoutMs.toNat * 1000000 := by
      rw [run, elapsed_watched, elapsed_requested, whole]
    refine ⟨iff_of_false (by rw [run]; exact nofun) (by omega), iff_of_true (by rw [run]) late, ?_,
      Nat.le_of_eq waited⟩
    rw [waited, Nat.min_eq_right (by omega)]
  · have inTime : span + 100000 ≤ resetPolls timeoutMs * 100000 := by rwa [whole]
    have run := timer.softReset_early inTime
    have waited : ((softReset timeoutMs).run timer).2.elapsed =
        timer.elapsed + (span + 99999) / 100000 * 100000 := by
      rw [run, elapsed_looked, elapsed_watched, elapsed_requested]
    refine ⟨iff_of_true (by rw [run]) early, iff_of_false (by rw [run]; exact nofun) (by omega), ?_, ?_⟩
    · rw [waited, Nat.min_eq_left (by omega)]
    · rw [waited]
      omega

/-- With the longest timeout that can be told in microseconds, a reset that takes an hour is waited for. -/
theorem softReset_meets_hour : (4294967 : UInt32).toNat ≤ 4294967 ∧
    ((softReset 4294967).run (⟨0, none, {}⟩ : ResetTimer 3600000000000 RestingPeripheral)).1 = .ok () ∧
      ((softReset 4294967).run (⟨0, none, {}⟩ : ResetTimer 3600000000000 RestingPeripheral)).2.elapsed =
        3600000000000 := by
  have told : (4294967 : UInt32).toNat ≤ 4294967 := by decide
  have meets := softReset_meets (⟨0, none, {}⟩ : ResetTimer 3600000000000 RestingPeripheral) 4294967 told
  exact ⟨told, meets.done.mpr (by decide), meets.waited⟩

/-- A reset that is done during the last pause is reported to have failed, although it was done in time and the driver
took all of that time. -/
theorem reset_done_in_last_pause : ∃ after : ResetTimer 950000 RestingPeripheral,
    (softReset 1).run ⟨0, none, {}⟩ = (.error .resetFailed, after) ∧ 950000 ≤ 1 * 1000000 ∧
      after.elapsed = 1 * 1000000 ∧ ShowsReset after := by
  refine ⟨_, softReset_late _ (by decide), by decide, ?_, (shows_watched _ _).mpr (by decide)⟩
  rw [elapsed_watched, elapsed_requested]
  rfl

end ResetTimer

end EthernetMac

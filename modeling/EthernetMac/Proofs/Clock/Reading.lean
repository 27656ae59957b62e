import EthernetMac.Clock
import EthernetMac.Proofs.Blocks
import EthernetMac.Proofs.BringUp

namespace EthernetMac

open Bus Clock

namespace Timestamp

/-- The nanoseconds are those of a part of a second. -/
def IsProper (t : Timestamp) : Prop := t.nanoseconds.toNat < nanosPerSecond

instance (t : Timestamp) : Decidable t.IsProper := inferInstanceAs (Decidable (_ < _))

theorem seconds_le {a b : Timestamp} (proper : b.IsProper) (before : a.nanos ≤ b.nanos) : a.seconds ≤ b.seconds := by
  rw [IsProper, nanosPerSecond] at proper
  rw [nanos, nanos, nanosPerSecond] at before
  rw [UInt32.le_iff_toNat_le]
  omega

/-- The bit beside the nanoseconds of a proper time does not show in a reading. -/
theorem nanoseconds_masked {t : Timestamp} (proper : t.IsProper) (beside : UInt32) :
    (t.nanoseconds ||| beside &&& ~~~Fields.nanoseconds) &&& Fields.nanoseconds = t.nanoseconds := by
  have small : t.nanoseconds.toNat < 2 ^ 31 := Nat.lt_trans proper (by decide)
  have kept : t.nanoseconds &&& Fields.nanoseconds = t.nanoseconds := by
    apply UInt32.toNat.inj
    rw [UInt32.toNat_and]
    exact (Nat.and_two_pow_sub_one_eq_mod _ 31).trans (Nat.mod_eq_of_lt small)
  rw [Descriptor.or_and, UInt32.and_assoc, UInt32.not_and_self, UInt32.and_zero, UInt32.or_zero, kept]

end Timestamp

/-- What a clock shows from one moment to another is a time, does not go back, and changes its seconds once at most. -/
structure RunsOn (time : Nat → Timestamp) (first last : Nat) : Prop where
  proper : ∀ k, first ≤ k → k ≤ last → (time k).IsProper
  forward : ∀ k, first ≤ k → k < last → (time k).nanos ≤ (time (k + 1)).nanos
  once : ∀ i j, first ≤ i → i < last → first ≤ j → j < last → (time i).seconds ≠ (time (i + 1)).seconds →
    (time j).seconds ≠ (time (j + 1)).seconds → i = j

namespace RunsOn

variable {time : Nat → Timestamp} {first last : Nat}

theorem nanos_le (runs : RunsOn time first last) {i j : Nat} (from_first : first ≤ i) (later : i ≤ j)
    (to_last : j ≤ last) : (time i).nanos ≤ (time j).nanos := by
  induction later with
  | refl => exact Nat.le_refl _
  | step later ih =>
    exact Nat.le_trans (ih (Nat.le_of_succ_le to_last))
      (runs.forward _ (Nat.le_trans from_first later) to_last)

theorem seconds_le (runs : RunsOn time first last) {i j : Nat} (from_first : first ≤ i) (later : i ≤ j)
    (to_last : j ≤ last) : (time i).seconds ≤ (time j).seconds :=
  Timestamp.seconds_le (runs.proper j (Nat.le_trans from_first later) to_last) (runs.nanos_le from_first later to_last)

end RunsOn

/-- Surroundings with a clock that goes on by itself: each read of a register finds it at the next of its times. The bit
beside the nanoseconds reads as anything. -/
structure SampledClock (time : Nat → Timestamp) (σ : Type) where
  reads : Nat := 0
  rest : σ

namespace SampledClock

variable {time : Nat → Timestamp} {σ : Type} [Bus σ]

instance : Bus (SampledClock time σ) where
  read offset clock :=
    let (value, rest) := Bus.read offset clock.rest
    (if offset = Register.systemSeconds.offset then (time clock.reads).seconds
      else if offset = Register.systemNanoseconds.offset then
        (time clock.reads).nanoseconds ||| value &&& ~~~Fields.nanoseconds
      else value,
      ⟨clock.reads + 1, rest⟩)
  write offset value clock := { clock with rest := Bus.write offset value clock.rest }
  delay nanoseconds clock := { clock with rest := Bus.delay nanoseconds clock.rest }

theorem readNanoseconds_apply {clock : SampledClock time σ} (proper : (time clock.reads).IsProper) :
    (readNanoseconds .systemNanoseconds clock).1 = (time clock.reads).nanoseconds :=
  Timestamp.nanoseconds_masked proper _

/-- If the second has not changed under the reading, three reads are enough. -/
theorem now_same {clock : SampledClock time σ}
    (same : (time (clock.reads + 2)).seconds = (time clock.reads).seconds) :
    (now clock).2.reads = clock.reads + 3 ∧ ((time (clock.reads + 1)).IsProper →
      (now clock).1 = ⟨(time clock.reads).seconds, (time (clock.reads + 1)).nanoseconds⟩) := by
  let once := (Register.systemSeconds.read clock).2
  let twice := (readNanoseconds .systemNanoseconds once).2
  have found : now clock = (⟨(time clock.reads).seconds, (readNanoseconds .systemNanoseconds once).1⟩,
      (Register.systemSeconds.read twice).2) :=
    congrFun (if_pos same) (Register.systemSeconds.read twice).2
  rw [found]
  exact ⟨rfl, fun proper => congrArg _ (readNanoseconds_apply proper)⟩

/-- If it has, the nanoseconds come from a fourth. -/
theorem now_changed {clock : SampledClock time σ}
    (changed : (time (clock.reads + 2)).seconds ≠ (time clock.reads).seconds) :
    (now clock).2.reads = clock.reads + 4 ∧ ((time (clock.reads + 3)).IsProper →
      (now clock).1 = ⟨(time (clock.reads + 2)).seconds, (time (clock.reads + 3)).nanoseconds⟩) := by
  let twice := (readNanoseconds .systemNanoseconds (Register.systemSeconds.read clock).2).2
  let thrice := (Register.systemSeconds.read twice).2
  have found : now clock = (⟨(time (clock.reads + 2)).seconds, (readNanoseconds .systemNanoseconds thrice).1⟩,
      (readNanoseconds .systemNanoseconds thrice).2) :=
    congrFun (if_neg changed) thrice
  rw [found]
  exact ⟨rfl, fun proper => congrArg _ (readNanoseconds_apply proper)⟩

/-- A reading of a clock that goes on meanwhile is one of the times that it showed during the call, and so it lies
between the first and the last of them. -/
theorem reading_untorn {clock : SampledClock time σ} {last : Nat} (reads : (now clock).2.reads = last + 1)
    (runs : RunsOn time clock.reads last) :
    (∃ k, clock.reads ≤ k ∧ k ≤ last ∧ (now clock).1 = time k) ∧
      (time clock.reads).nanos ≤ (now clock).1.nanos ∧ (now clock).1.nanos ≤ (time last).nanos := by
  have sampled : ∃ k, clock.reads ≤ k ∧ k ≤ last ∧ (now clock).1 = time k := by
    by_cases same : (time (clock.reads + 2)).seconds = (time clock.reads).seconds
    · obtain ⟨three, found⟩ := now_same same
      have first : (time clock.reads).seconds ≤ (time (clock.reads + 1)).seconds :=
        runs.seconds_le (Nat.le_refl _) (by omega) (by omega)
      have second : (time (clock.reads + 1)).seconds ≤ (time (clock.reads + 2)).seconds :=
        runs.seconds_le (by omega) (by omega) (by omega)
      refine ⟨clock.reads + 1, by omega, by omega, ?_⟩
      rw [found (runs.proper _ (by omega) (by omega)), UInt32.le_antisymm first (same ▸ second)]
    · obtain ⟨four, found⟩ := now_changed same
      -- the one change of the second lies before the third read, so the third and the fourth find the same second
      have still : (time (clock.reads + 2)).seconds = (time (clock.reads + 3)).seconds := by
        by_contra later
        by_cases early : (time clock.reads).seconds = (time (clock.reads + 1)).seconds
        · have between : (time (clock.reads + 1)).seconds ≠ (time (clock.reads + 2)).seconds :=
            fun unchanged => same (early.trans unchanged).symm
          have both := runs.once _ _ (by omega) (by omega) (by omega) (by omega) between later
          omega
        · have both := runs.once _ _ (by omega) (by omega) (by omega) (by omega) early later
          omega
      refine ⟨clock.reads + 3, by omega, by omega, ?_⟩
      rw [found (runs.proper _ (by omega) (by omega)), still]
  obtain ⟨k, from_first, to_last, reading⟩ := sampled
  refine ⟨⟨k, from_first, to_last, reading⟩, ?_, ?_⟩
  · rw [reading]
    exact runs.nanos_le (Nat.le_refl _) from_first to_last
  · rw [reading]
    exact runs.nanos_le from_first to_last (Nat.le_refl _)

/-- The second changes between the first read and the second. -/
theorem reading_untorn_rollover :
    let time (k : Nat) : Timestamp := if k = 0 then ⟨7, 999999999⟩ else ⟨8, UInt32.ofNat k⟩
    let clock : SampledClock time RestingPeripheral := { rest := {} }
    (now clock).2.reads = 3 + 1 ∧ RunsOn time 0 3 ∧ (now clock).1 = ⟨8, 3⟩ ∧
      (time 0).nanos ≤ (now clock).1.nanos ∧ (now clock).1.nanos ≤ (time 3).nanos := by
  intro time clock
  have runs : RunsOn time clock.reads 3 := by
    have proper : ∀ k ≤ 3, (time k).IsProper := by decide
    have forward : ∀ k < 3, (time k).nanos ≤ (time (k + 1)).nanos := by decide
    have changes : ∀ k < 3, (time k).seconds ≠ (time (k + 1)).seconds → k = 0 := by decide
    exact ⟨fun k _ => proper k, fun k _ => forward k, fun i j _ before_i _ before_j one two =>
      (changes i before_i one).trans (changes j before_j two).symm⟩
  exact ⟨rfl, runs, by decide +kernel, (reading_untorn rfl runs).2⟩

end SampledClock

end EthernetMac

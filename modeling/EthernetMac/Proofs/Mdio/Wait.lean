import Mathlib.Data.ENat.Lattice
import Mathlib.Data.Nat.Find
import Mathlib.Algebra.Order.Floor.Div
import Mathlib.GroupTheory.GroupAction.Ring
import EthernetMac.Proofs.Mdio.Discipline

namespace EthernetMac

open Bus

variable {ε : Type} [Bus ε]

namespace Mdio

/-- A look at the management unit finds an exchange under way. -/
def ShowsBusy (env : ε) : Prop := (Peripheral.isMdioBusy env).1 = true

instance (env : ε) : Decidable (ShowsBusy env) := inferInstanceAs (Decidable (_ = true))

/-- The surroundings after a look at the management unit. -/
def looked (env : ε) : ε := (Peripheral.isMdioBusy env).2

/-- The surroundings after a number of looks and of the pauses behind them. -/
def watched : (looks : Nat) → ε → ε
  | 0, env => env
  | looks + 1, env => watched looks (pauseMicros pollMicros (looked env)).2

/-- Of the looks at an exchange that is under way the first `span` find it so. If they are not all of them, the next one
finds it over. -/
structure EndsAfter (span : ℕ∞) (env : ε) : Prop where
  busy : ∀ looks : ℕ, (looks : ℕ∞) < span → ShowsBusy (watched looks env)
  ended : ∀ looks : ℕ, span = looks → ¬ ShowsBusy (watched looks env)

/-- There is such a number, whatever the hardware does. -/
theorem exists_endsAfter (env : ε) : ∃ span, EndsAfter span env := by
  by_cases ends : ∃ looks, ¬ ShowsBusy (watched looks env)
  · refine ⟨Nat.find ends, ⟨fun looks early => ?_, fun looks here => ?_⟩⟩
    · exact not_not.mp (Nat.find_min ends (Nat.cast_lt.mp early))
    · rw [← Nat.cast_inj.mp here]
      exact Nat.find_spec ends
  · exact ⟨⊤, ⟨fun looks _ => not_not.mp (not_exists.mp ends looks),
      fun looks here => absurd here (ENat.top_ne_natCast looks)⟩⟩

/-- The wait for the end of an exchange as a loop without a bound. It counts the microseconds that it has waited in a
word, and compares the word with the timeout whenever a look finds the exchange under way. -/
inductive Counts (timeout : UInt32) : (elapsed : UInt32) → ε → Except Failure Unit × ε → Prop
  | ended {elapsed : UInt32} {env : ε} : ¬ ShowsBusy env → Counts timeout elapsed env (.ok (), looked env)
  | late {elapsed : UInt32} {env : ε} : ShowsBusy env → timeout ≤ elapsed →
      Counts timeout elapsed env (.error (.bus .timeout), looked env)
  | longer {elapsed : UInt32} {env : ε} {answer : Except Failure Unit × ε} : ShowsBusy env → elapsed < timeout →
      Counts timeout (elapsed + 10) (watched 1 env) answer → Counts timeout elapsed env answer

theorem awaitIdle_apply (pauses : Nat) (env : ε) :
    (awaitIdle pauses).run env =
      if ShowsBusy env then
        match pauses with
        | 0 => (.error (.bus .timeout), looked env)
        | pauses + 1 => (awaitIdle pauses).run (watched 1 env)
      else (.ok (), looked env) := by
  have found : (Attempt.sure (φ := Failure) Peripheral.isMdioBusy).run env =
      (.ok (Peripheral.isMdioBusy env).1, looked env) := rfl
  rw [awaitIdle.eq_def, Attempt.bind_apply, found]
  dsimp only
  by_cases busy : ShowsBusy env
  · rw [if_pos busy, if_pos (show (Peripheral.isMdioBusy env).1 = true from busy)]
    cases pauses with
    | zero => rfl
    | succ pauses => rfl
  · rw [if_neg busy, if_neg (show ¬ (Peripheral.isMdioBusy env).1 = true from busy)]
    rfl

theorem pausesWithin_eq (timeoutMicros : Nat) : pausesWithin timeoutMicros = timeoutMicros ⌈/⌉ 10 :=
  (Nat.ceilDiv_eq_add_pred_div timeoutMicros 10).symm

section Counting

variable {timeout elapsed : UInt32} {spent : Nat} {env : ε}

/-- Another pause still fits into the word that counts the time, because the timeout leaves room for it. -/
theorem count_pause (bounded : timeout.toNat ≤ 4294967290) (count : elapsed.toNat = 10 * spent)
    (early : elapsed < timeout) : (elapsed + 10).toNat = 10 * (spent + 1) := by
  have below := UInt32.lt_iff_toNat_lt.mp early
  rw [UInt32.toNat_add, show UInt32.toNat 10 = 10 from rfl]
  omega

theorem early_iff (count : elapsed.toNat = 10 * spent) : elapsed < timeout ↔ spent < pausesWithin timeout.toNat := by
  rw [UInt32.lt_iff_toNat_lt, pausesWithin, pollMicros]
  omega

theorem Counts.ended_after (bounded : timeout.toNat ≤ 4294967290) {looks : Nat} (count : elapsed.toNat = 10 * spent)
    (early : spent + looks ≤ pausesWithin timeout.toNat) (busy : ∀ k < looks, ShowsBusy (watched k env))
    (ended : ¬ ShowsBusy (watched looks env)) :
    Counts timeout elapsed env (.ok (), looked (watched looks env)) := by
  induction looks generalizing elapsed spent env with
  | zero => exact .ended ended
  | succ looks ih =>
    have under : elapsed < timeout := (early_iff count).mpr (by omega)
    exact .longer (busy 0 (Nat.succ_pos looks)) under (ih (count_pause bounded count under) (by omega)
      (fun k before => busy (k + 1) (Nat.succ_lt_succ before)) ended)

theorem Counts.late_after (bounded : timeout.toNat ≤ 4294967290) {pauses : Nat} (count : elapsed.toNat = 10 * spent)
    (whole : spent + pauses = pausesWithin timeout.toNat) (busy : ∀ k ≤ pauses, ShowsBusy (watched k env)) :
    Counts timeout elapsed env (.error (.bus .timeout), looked (watched pauses env)) := by
  induction pauses generalizing elapsed spent env with
  | zero =>
    have expired : ¬ elapsed < timeout := by
      rw [early_iff count]
      omega
    exact .late (busy 0 (Nat.le_refl 0)) (UInt32.not_lt.mp expired)
  | succ pauses ih =>
    have under : elapsed < timeout := (early_iff count).mpr (by omega)
    exact .longer (busy 0 (Nat.zero_le _)) under (ih (count_pause bounded count under) (by omega)
      fun k before => busy (k + 1) (Nat.succ_le_succ before))

/-- The pauses that are left over of those that fit into the timeout are as many as the loop still makes. -/
theorem Counts.awaitIdle_eq (bounded : timeout.toNat ≤ 4294967290) {answer : Except Failure Unit × ε}
    (wait : Counts timeout elapsed env answer) (count : elapsed.toNat = 10 * spent) :
    (awaitIdle (pausesWithin timeout.toNat - spent)).run env = answer := by
  induction wait generalizing spent with
  | ended ended => rw [awaitIdle_apply, if_neg ended]
  | late busy expired =>
    have none : pausesWithin timeout.toNat - spent = 0 := by
      have passed := mt (early_iff count).mpr (UInt32.not_lt.mpr expired)
      omega
    rw [none, awaitIdle_apply, if_pos busy]
  | longer busy early _ ih =>
    have one : pausesWithin timeout.toNat - spent = pausesWithin timeout.toNat - (spent + 1) + 1 := by
      have left := (early_iff count).mp early
      omega
    rw [one, awaitIdle_apply, if_pos busy]
    exact ih (count_pause bounded count early)

/-- Where the exchange ends after so many looks, the loop ends as well, with these pauses. -/
theorem EndsAfter.counts (bounded : timeout.toNat ≤ 4294967290) {span : ℕ∞} (lasts : EndsAfter span env) :
    ∃ pauses : ℕ, (pauses : ℕ∞) = min span (timeout.toNat ⌈/⌉ 10 : ℕ) ∧
      Counts timeout 0 env
        (if span ≤ (timeout.toNat ⌈/⌉ 10 : ℕ) then .ok () else .error (.bus .timeout),
          looked (watched pauses env)) := by
  have none_spent : UInt32.toNat 0 = 10 * 0 := rfl
  rw [← pausesWithin_eq]
  by_cases early : span ≤ (pausesWithin timeout.toNat : ℕ)
  · obtain ⟨looks, rfl⟩ := ENat.ne_top_iff_exists.mp (ne_top_of_le_ne_top (ENat.natCast_ne_top _) early)
    rw [if_pos early]
    refine ⟨looks, (min_eq_left early).symm, .ended_after bounded none_spent ?_ ?_ (lasts.ended looks rfl)⟩
    · rw [Nat.zero_add]
      exact Nat.cast_le.mp early
    · exact fun k before => lasts.busy k (Nat.cast_lt.mpr before)
  · have late : (pausesWithin timeout.toNat : ℕ) < span := not_le.mp early
    rw [if_neg early]
    refine ⟨_, (min_eq_right late.le).symm, .late_after bounded none_spent (Nat.zero_add _) ?_⟩
    exact fun k within => lasts.busy k (lt_of_le_of_lt (Nat.cast_le.mpr within) late)

/-- For these timeouts the loop without a bound comes to an end on any hardware, and the wait of the driver is that
loop. -/
theorem counts_iff (bounded : timeout.toNat ≤ 4294967290) {answer : Except Failure Unit × ε} :
    Counts timeout 0 env answer ↔ (awaitIdle (pausesWithin timeout.toNat)).run env = answer := by
  have none_spent : UInt32.toNat 0 = 10 * 0 := rfl
  constructor
  · exact fun wait => wait.awaitIdle_eq bounded none_spent
  · intro run
    obtain ⟨span, lasts⟩ := exists_endsAfter env
    obtain ⟨pauses, _, wait⟩ := lasts.counts bounded
    have same := (wait.awaitIdle_eq bounded none_spent).symm.trans run
    rwa [same] at wait

end Counting

end Mdio

end EthernetMac

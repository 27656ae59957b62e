import Mathlib.Data.Nat.Find
import EthernetMac.Reset
import EthernetMac.Proofs.Calls

namespace EthernetMac

theorem resetPolls_eq (timeoutMs : UInt32) : resetPolls timeoutMs = timeoutMs.toNat * 1000 % 4294967296 / 100 := by
  rw [resetPolls, UInt32.toNat_div, UInt32.toNat_mul]
  rfl

/-- The looks take up the whole timeout as long as it is not too long to be told in microseconds. -/
theorem resetPolls_eq_iff (timeoutMs : UInt32) :
    resetPolls timeoutMs = timeoutMs.toNat * 10 ↔ timeoutMs.toNat ≤ 4294967 := by
  rw [resetPolls_eq]
  omega

theorem resetPolls_le (timeoutMs : UInt32) : resetPolls timeoutMs ≤ timeoutMs.toNat * 10 := by
  rw [resetPolls_eq]
  omega

variable {ε : Type}

namespace Peripheral

variable [Bus ε]

/-- A look at the reset finds it done. -/
def ShowsReset (env : ε) : Prop := (isResetComplete env).1 = true

instance (env : ε) : Decidable (ShowsReset env) := inferInstanceAs (Decidable (_ = true))

/-- The surroundings after a number of looks at the reset and of the pauses behind them. -/
def watched : (looks : Nat) → ε → ε
  | 0, env => env
  | looks + 1, env => watched looks (Bus.pauseMicros resetPollMicros (isResetComplete env).2).2

/-- A reset that is asked for now is found done by one of so many looks. -/
def ResetsWithin (polls : Nat) (env : ε) : Prop :=
  ∃ looks < polls, ShowsReset (watched looks (requestReset env).2)

instance (polls : Nat) (env : ε) : Decidable (ResetsWithin polls env) :=
  inferInstanceAs (Decidable (∃ looks, looks < polls ∧ _))

end Peripheral

open Peripheral

variable [Bus ε]

theorem awaitReset_succ (polls : Nat) (env : ε) :
    (awaitReset (polls + 1)).run env =
      if ShowsReset env then (.ok (), (isResetComplete env).2) else (awaitReset polls).run (watched 1 env) := by
  have looked : (Attempt.sure (φ := ConfigFault) isResetComplete).run env =
      (.ok (isResetComplete env).1, (isResetComplete env).2) := rfl
  rw [awaitReset, Attempt.bind_apply, looked]
  dsimp only
  by_cases shown : (isResetComplete env).1 = true
  · rw [if_pos shown, if_pos (show ShowsReset env from shown)]
    rfl
  · rw [if_neg shown, if_neg (show ¬ ShowsReset env from shown)]
    rfl

/-- The first look that finds the reset done ends the wait. -/
theorem awaitReset_shown {looks polls : Nat} (inTime : looks < polls) {env : ε}
    (before : ∀ k < looks, ¬ ShowsReset (watched k env)) (shown : ShowsReset (watched looks env)) :
    (awaitReset polls).run env = (.ok (), (isResetComplete (watched looks env)).2) := by
  induction looks generalizing polls env with
  | zero =>
    obtain ⟨polls, rfl⟩ := Nat.exists_eq_succ_of_ne_zero (Nat.ne_zero_of_lt inTime)
    exact (awaitReset_succ polls env).trans (if_pos shown)
  | succ looks ih =>
    obtain ⟨polls, rfl⟩ := Nat.exists_eq_succ_of_ne_zero (Nat.ne_zero_of_lt inTime)
    have unfinished : ¬ ShowsReset env := before 0 (Nat.succ_pos looks)
    rw [awaitReset_succ, if_neg unfinished]
    exact ih (Nat.lt_of_succ_lt_succ inTime) (fun k early => before (k + 1) (Nat.succ_lt_succ early)) shown

theorem awaitReset_unshown {polls : Nat} {env : ε} (never : ∀ k < polls, ¬ ShowsReset (watched k env)) :
    (awaitReset polls).run env = (.error .resetFailed, watched polls env) := by
  induction polls generalizing env with
  | zero => rfl
  | succ polls ih =>
    have unfinished : ¬ ShowsReset env := never 0 (Nat.succ_pos polls)
    rw [awaitReset_succ, if_neg unfinished]
    exact ih fun k early => never (k + 1) (Nat.succ_lt_succ early)

theorem softReset_apply (timeoutMs : UInt32) (env : ε) :
    (softReset timeoutMs).run env = (awaitReset (resetPolls timeoutMs)).run (requestReset env).2 := by
  rw [softReset, Attempt.bind_apply]
  rfl

theorem softReset_done {timeoutMs : UInt32} {env : ε} (within : ResetsWithin (resetPolls timeoutMs) env) :
    ∃ after, (softReset timeoutMs).run env = (.ok (), after) := by
  obtain ⟨inTime, shown⟩ := Nat.find_spec within
  have before : ∀ k < Nat.find within, ¬ ShowsReset (watched k (requestReset env).2) :=
    fun k early shown => Nat.find_min within early ⟨Nat.lt_trans early inTime, shown⟩
  exact ⟨_, (softReset_apply timeoutMs env).trans (awaitReset_shown inTime before shown)⟩

theorem softReset_undone {timeoutMs : UInt32} {env : ε} (late : ¬ ResetsWithin (resetPolls timeoutMs) env) :
    (softReset timeoutMs).run env = (.error .resetFailed, watched (resetPolls timeoutMs) (requestReset env).2) :=
  (softReset_apply timeoutMs env).trans (awaitReset_unshown fun k inTime shown => late ⟨k, inTime, shown⟩)

end EthernetMac

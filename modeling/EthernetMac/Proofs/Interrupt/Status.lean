import EthernetMac.Bus
import EthernetMac.Register
import EthernetMac.Register.DmaStatus

namespace EthernetMac

namespace DmaStatus

/-- Every cause has one bit of its own in the register. -/
theorem exists_bit (cause : DmaCause) : ∃ k, k < 32 ∧ cause.bit.toBitVec = BitVec.twoPow 32 k := by
  cases cause with
  | transmitComplete => exact ⟨0, by decide⟩
  | transmitStopped => exact ⟨1, by decide⟩
  | transmitBufferUnavailable => exact ⟨2, by decide⟩
  | receiveComplete => exact ⟨6, by decide⟩
  | receiveBufferUnavailable => exact ⟨7, by decide⟩
  | receiveStopped => exact ⟨8, by decide⟩
  | receiveWatchdog => exact ⟨9, by decide⟩
  | earlyTransmit => exact ⟨10, by decide⟩
  | earlyReceive => exact ⟨11, by decide⟩
  | fatalBusError => exact ⟨12, by decide⟩
  | contextDescriptorError => exact ⟨13, by decide⟩
  | abnormalSummary => exact ⟨14, by decide⟩
  | normalSummary => exact ⟨15, by decide⟩

theorem has_iff (cause : DmaCause) :
    ∃ k, k < 32 ∧ ∀ status : DmaStatus, status.has cause = status.bits.toBitVec.getLsbD k := by
  obtain ⟨k, inside, bit⟩ := exists_bit cause
  refine ⟨k, inside, fun status => ?_⟩
  have masked : (status.bits &&& cause.bit).toBitVec =
      if status.bits.toBitVec.getLsbD k then cause.bit.toBitVec else 0#32 := by
    rw [UInt32.toBitVec_and, bit, BitVec.and_twoPow]
  have positive : cause.bit.toBitVec ≠ 0#32 := by cases cause <;> decide
  rw [has, Bool.eq_iff_iff, bne_iff_ne, ne_eq, ← UInt32.toBitVec_inj, masked]
  cases status.bits.toBitVec.getLsbD k with
  | true => exact iff_of_true positive rfl
  | false => exact iff_of_false (fun other => other rfl) Bool.false_ne_true

@[simp]
theorem has_union (a b : DmaStatus) (cause : DmaCause) : (a.union b).has cause = (a.has cause || b.has cause) := by
  obtain ⟨k, inside, has⟩ := has_iff cause
  rw [has, has, has, union, UInt32.toBitVec_or, BitVec.getLsbD_or]

@[simp]
theorem has_diff (a b : DmaStatus) (cause : DmaCause) : (a.diff b).has cause = (a.has cause && !b.has cause) := by
  obtain ⟨k, inside, has⟩ := has_iff cause
  rw [has, has, has, diff, UInt32.toBitVec_and, UInt32.toBitVec_not, BitVec.getLsbD_and, BitVec.getLsbD_not]
  simp [inside]

theorem has_of_isEmpty {status : DmaStatus} (empty : status.isEmpty = true) (cause : DmaCause) :
    status.has cause = false := by
  have zero : status.bits = 0 := beq_iff_eq.mp empty
  rw [has, zero, UInt32.zero_and]
  rfl

end DmaStatus

/-- What happens to the status register: the driver acknowledges causes, or the hardware raises one together with the
summary. -/
inductive StatusChange where
  | acknowledged (causes : DmaStatus)
  | raised (cause : DmaCause)
deriving DecidableEq, Repr

namespace StatusChange

/-- A bit of the register is cleared by writing it. -/
def apply (status : DmaStatus) : StatusChange → DmaStatus
  | .acknowledged causes => status.diff causes
  | .raised cause => status.union ⟨cause.bit ||| DmaCause.normalSummary.bit⟩

/-- Whether a change takes a cause away. -/
def clears (cause : DmaCause) : StatusChange → Bool
  | .acknowledged causes => causes.has cause
  | .raised _ => false

theorem has_apply_raised (status : DmaStatus) (cause : DmaCause) :
    (apply status (.raised cause)).has cause = true ∧ (apply status (.raised cause)).has .normalSummary = true := by
  refine ⟨?_, ?_⟩
  · rw [apply, DmaStatus.has_union, Bool.or_eq_true]
    exact Or.inr (by cases cause <;> decide)
  · rw [apply, DmaStatus.has_union, Bool.or_eq_true]
    exact Or.inr (by cases cause <;> decide)

/-- A cause that is set stays set until a change takes it away. -/
theorem has_foldl {cause : DmaCause} {status : DmaStatus} {changes : List StatusChange} (set : status.has cause = true)
    (kept : ∀ change ∈ changes, change.clears cause = false) : (changes.foldl apply status).has cause = true := by
  induction changes generalizing status with
  | nil => exact set
  | cons change rest ih =>
    refine ih ?_ fun later among => kept later (List.mem_cons_of_mem _ among)
    cases change with
    | acknowledged causes =>
      have kept : causes.has cause = false := kept _ (List.mem_cons_self ..)
      rw [apply, DmaStatus.has_diff, set, kept]
      rfl
    | raised other => rw [apply, DmaStatus.has_union, set, Bool.true_or]

/-- After a change that is the only one to take a cause away, or without any such change, the cause stays. -/
theorem not_clears_of_countP {cause : DmaCause} {past later : List StatusChange} {change : StatusChange}
    {limit : Nat} (few : (past ++ change :: later).countP (clears cause) ≤ limit)
    (used : limit ≤ past.countP (clears cause)) : ∀ change ∈ later, change.clears cause = false := by
  rw [List.countP_append, List.countP_cons] at few
  have none : later.countP (clears cause) = 0 := by omega
  intro one among
  exact Bool.eq_false_iff.mpr (List.countP_eq_zero.mp none one among)

/-- What the hardware has raised, a cause or the summary with it, stays set if all changes that take it away came
before. -/
theorem has_of_raised {changes past later : List StatusChange} {cause bit : DmaCause} {limit : Nat}
    (start : DmaStatus) (whole : changes = past ++ .raised cause :: later) (raised : bit = cause ∨ bit = .normalSummary)
    (few : changes.countP (clears bit) ≤ limit) (used : limit ≤ past.countP (clears bit)) :
    (changes.foldl apply start).has bit = true := by
  subst whole
  rw [List.foldl_append, List.foldl_cons]
  obtain ⟨set, summary⟩ := has_apply_raised (past.foldl apply start) cause
  refine has_foldl ?_ (not_clears_of_countP few used)
  rcases raised with rfl | rfl
  · exact set
  · exact summary

end StatusChange

/-- Surroundings in which the status register clears what is written to it, with a record of all that happens to it. -/
structure StatusBench (σ : Type) where
  status : DmaStatus
  changes : List StatusChange := []
  rest : σ

namespace StatusBench

variable {σ : Type}

def change (bench : StatusBench σ) (change : StatusChange) : StatusBench σ where
  status := change.apply bench.status
  changes := bench.changes ++ [change]
  rest := bench.rest

instance [Bus σ] : Bus (StatusBench σ) where
  read offset bench :=
    if offset = Register.channelStatus.offset then (bench.status.bits, bench)
    else ((Bus.read offset bench.rest).1, { bench with rest := (Bus.read offset bench.rest).2 })
  write offset value bench :=
    if offset = Register.channelStatus.offset then bench.change (.acknowledged ⟨value⟩)
    else { bench with rest := Bus.write offset value bench.rest }
  delay nanoseconds bench := { bench with rest := Bus.delay nanoseconds bench.rest }

theorem read_status [Bus σ] (bench : StatusBench σ) :
    Bus.read Register.channelStatus.offset bench = (bench.status.bits, bench) := if_pos rfl

theorem write_status [Bus σ] (value : UInt32) (bench : StatusBench σ) :
    Bus.write Register.channelStatus.offset value bench = bench.change (.acknowledged ⟨value⟩) := if_pos rfl

end StatusBench

end EthernetMac

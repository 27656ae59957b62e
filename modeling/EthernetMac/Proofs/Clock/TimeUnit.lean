import EthernetMac.Proofs.Clock.Commands

namespace EthernetMac

open Bus Clock

/-- The commands on which the hardware takes over what stands in the update registers. -/
inductive TimeCommand where
  | load
  | step
deriving DecidableEq

def TimeCommand.bit : TimeCommand → UInt32
  | .load => Fields.clockInitialize
  | .step => Fields.clockStep

/-- A command that the hardware has carried out: what the call that gave the command had asked for, and what the
hardware found in the update registers. -/
structure Execution where
  command : TimeCommand
  asked : TimeWords
  found : TimeWords
deriving DecidableEq

/-- The part of the clock that takes commands. -/
structure TimeUnit where
  /-- What was written to the control register last; of the commands in it those that are under way count. -/
  control : UInt32
  update : TimeWords
  /-- What the call in progress asks for. -/
  asked : TimeWords
  /-- What the call that gave a command has asked for, while the command is under way. -/
  pending : TimeCommand → Option TimeWords
  executed : List Execution
  moment : Nat

namespace TimeUnit

/-- The commands of some that are under way, as they are carried out now. -/
def finishing (unit : TimeUnit) (done : TimeCommand → Bool) : List Execution :=
  [TimeCommand.load, .step].filterMap fun command =>
    if done command then (unit.pending command).map (⟨command, ·, unit.update⟩) else none

/-- The hardware carries some commands out, and time goes by. -/
def carryOut (unit : TimeUnit) (done : TimeCommand → Bool) : TimeUnit :=
  { unit with
    pending := fun command => if done command then none else unit.pending command
    executed := unit.executed ++ unit.finishing done
    moment := unit.moment + 1 }

/-- What the control register reads: the bit of a command is set while the command is under way. -/
def controlWord (unit : TimeUnit) : UInt32 :=
  unit.control &&& ~~~(Fields.clockInitialize ||| Fields.clockStep) |||
    (if (unit.pending .load).isSome then Fields.clockInitialize else 0) |||
    (if (unit.pending .step).isSome then Fields.clockStep else 0)

/-- A write of the control register. A command that is in the word and not under way is given by the call in progress;
one that is not in the word is taken back. -/
def order (unit : TimeUnit) (value : UInt32) : TimeUnit :=
  { unit with
    control := value
    pending := fun command =>
      if value &&& command.bit = 0 then none else some ((unit.pending command).getD unit.asked) }

def word (unit : TimeUnit) (offset : UInt32) : UInt32 :=
  if offset = Register.clockControl.offset then unit.controlWord
  else if offset = Register.secondsUpdate.offset then unit.update.seconds
  else if offset = Register.nanosecondsUpdate.offset then unit.update.nanoseconds
  else 0

def store (unit : TimeUnit) (offset value : UInt32) : TimeUnit :=
  if offset = Register.clockControl.offset then unit.order value
  else if offset = Register.secondsUpdate.offset then { unit with update := { unit.update with seconds := value } }
  else if offset = Register.nanosecondsUpdate.offset then
    { unit with update := { unit.update with nanoseconds := value } }
  else unit

def IsIdle (unit : TimeUnit) : Prop := ∀ command, unit.pending command = none

theorem mem_finishing {unit : TimeUnit} {done : TimeCommand → Bool} {execution : Execution} :
    execution ∈ unit.finishing done ↔
      done execution.command = true ∧ unit.pending execution.command = some execution.asked ∧
        execution.found = unit.update := by
  obtain ⟨command, asked, found⟩ := execution
  simp only [finishing, List.mem_filterMap, List.mem_cons, List.not_mem_nil, or_false]
  constructor
  · rintro ⟨given, _, one⟩
    split at one
    · rename_i now
      obtain ⟨words, under, same⟩ := Option.map_eq_some_iff.mp one
      obtain ⟨rfl, rfl, rfl⟩ := Execution.mk.inj same
      exact ⟨now, under, rfl⟩
    · cases one
  · rintro ⟨now, under, rfl⟩
    refine ⟨command, by cases command <;> simp, ?_⟩
    rw [if_pos now, under]
    rfl

theorem IsIdle.carryOut {unit : TimeUnit} (idle : unit.IsIdle) (done : TimeCommand → Bool) :
    (unit.carryOut done).IsIdle := by
  intro command
  change (if done command then none else unit.pending command) = none
  rw [idle command, ite_self]

/-- While nothing is under way, the control register reads no command. -/
theorem IsIdle.controlWord {unit : TimeUnit} (idle : unit.IsIdle) {bits : UInt32}
    (commands : ~~~(Fields.clockInitialize ||| Fields.clockStep) &&& bits = 0) : unit.controlWord &&& bits = 0 := by
  simp only [TimeUnit.controlWord, idle .load, idle .step, Option.isSome_none, Bool.false_eq_true, if_false,
    UInt32.or_zero, UInt32.and_assoc, commands, UInt32.and_zero]

theorem or_and_ne_zero {a bit : UInt32} (b : UInt32) (set : a &&& bit ≠ 0) : (a ||| b) &&& bit ≠ 0 := by
  rw [Descriptor.or_and]
  exact fun clear => set (UInt32.or_eq_zero_iff.mp clear).1

/-- A command that is under way is written back with the word that was read. -/
theorem controlWord_or {unit : TimeUnit} {command : TimeCommand} (under : (unit.pending command).isSome = true)
    (other : UInt32) : (unit.controlWord ||| other) &&& command.bit ≠ 0 := by
  refine or_and_ne_zero other ?_
  cases command with
  | load =>
    refine or_and_ne_zero _ ?_
    rw [if_pos under, UInt32.or_comm]
    exact or_and_ne_zero _ (by decide)
  | step =>
    rw [TimeUnit.controlWord, if_pos under, UInt32.or_comm]
    exact or_and_ne_zero _ (by decide)

end TimeUnit

/-- Surroundings that consist of the clock alone. `latency` tells which of the commands under way the hardware carries
out at each moment; between two accesses of the driver there is one. -/
structure TimeBench (latency : TimeUnit → TimeCommand → Bool) where
  unit : TimeUnit

namespace TimeBench

variable {latency : TimeUnit → TimeCommand → Bool}

/-- The clock a moment later. -/
def passed (bench : TimeBench latency) : TimeUnit := bench.unit.carryOut (latency bench.unit)

instance : Bus (TimeBench latency) where
  read offset bench := (bench.passed.word offset, ⟨bench.passed⟩)
  write offset value bench := ⟨bench.passed.store offset value⟩
  delay _ bench := ⟨bench.passed⟩

/-- The hardware gets the time that it needs for all that is under way. -/
def settled (bench : TimeBench latency) : TimeBench latency := ⟨bench.unit.carryOut fun _ => true⟩

end TimeBench

/-- A request to set the clock to a time, or to step it. -/
inductive TimeRequest where
  | setTime (seconds nanoseconds : UInt32)
  | step (seconds nanoseconds : UInt32) (direction : Direction)
deriving DecidableEq

namespace TimeRequest

def perform {ε : Type} [Bus ε] : TimeRequest → Attempt ε Failure Unit
  | .setTime seconds nanoseconds => Clock.setTime seconds nanoseconds
  | .step seconds nanoseconds direction => Clock.step seconds nanoseconds direction

def nanoseconds : TimeRequest → UInt32
  | .setTime _ nanoseconds => nanoseconds
  | .step _ nanoseconds _ => nanoseconds

/-- The nanoseconds are those of a part of a second. -/
def IsAccepted (request : TimeRequest) : Prop := request.nanoseconds.toNat < nanosPerSecond

instance (request : TimeRequest) : Decidable request.IsAccepted :=
  inferInstanceAs (Decidable (request.nanoseconds.toNat < nanosPerSecond))

/-- What the request is to bring to the hardware. -/
def words : TimeRequest → TimeWords
  | .setTime seconds nanoseconds => ⟨seconds, nanoseconds⟩
  | .step seconds nanoseconds direction => ⟨seconds, stepWord nanoseconds direction⟩

def command : TimeRequest → TimeCommand
  | .setTime _ _ => .load
  | .step _ _ _ => .step

/-- The commands whose end a request waits for before it gives its own. -/
def awaited : TimeRequest → UInt32
  | .setTime _ _ => Fields.clockInitialize
  | .step _ _ _ => Fields.clockStep ||| Fields.clockInitialize

theorem perform_accepted {ε : Type} [Bus ε] {request : TimeRequest} (accepted : request.IsAccepted) :
    (request.perform : Attempt ε Failure Unit) = submit request.words request.awaited request.command.bit := by
  have valid : ¬ nanosPerSecond ≤ request.nanoseconds.toNat := Nat.not_le_of_lt accepted
  cases request with
  | setTime seconds nanoseconds => exact (setTime_eq seconds nanoseconds).trans (if_neg valid)
  | step seconds nanoseconds direction => exact (step_eq seconds nanoseconds direction).trans (if_neg valid)

theorem perform_rejected {ε : Type} [Bus ε] {request : TimeRequest} (rejected : ¬ request.IsAccepted) :
    (request.perform : Attempt ε Failure Unit) = throw (.config .invalidConfig) := by
  have invalid : nanosPerSecond ≤ request.nanoseconds.toNat := Nat.le_of_not_lt rejected
  cases request with
  | setTime seconds nanoseconds => exact (setTime_eq seconds nanoseconds).trans (if_pos invalid)
  | step seconds nanoseconds direction => exact (step_eq seconds nanoseconds direction).trans (if_pos invalid)

theorem awaited_commands (request : TimeRequest) :
    ~~~(Fields.clockInitialize ||| Fields.clockStep) &&& request.awaited = 0 := by
  cases request with
  | setTime seconds nanoseconds =>
    change ~~~(Fields.clockInitialize ||| Fields.clockStep) &&& Fields.clockInitialize = 0
    decide
  | step seconds nanoseconds direction =>
    change ~~~(Fields.clockInitialize ||| Fields.clockStep) &&& (Fields.clockStep ||| Fields.clockInitialize) = 0
    decide

end TimeRequest

end EthernetMac

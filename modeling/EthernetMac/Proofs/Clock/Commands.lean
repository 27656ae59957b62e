import EthernetMac.Clock
import EthernetMac.Proofs.Blocks
import EthernetMac.Proofs.Trace
import EthernetMac.Simulation.PlainMemory

namespace EthernetMac

open Bus

namespace Clock

/-- Two words for the update registers, from which a command loads the clock or steps it. -/
structure TimeWords where
  seconds : UInt32
  nanoseconds : UInt32
deriving DecidableEq

section Submission

variable {ε : Type} [Bus ε]

/-- Writes the update registers, waits for commands that are under way and gives a command. -/
def submit (words : TimeWords) (awaited order : UInt32) : Attempt ε Failure Unit := do
  Attempt.sure (setUpdate words.seconds words.nanoseconds)
  (awaitCommand awaited).relabel Failure.bus
  Attempt.sure (command order)

theorem setTime_eq (seconds nanoseconds : UInt32) :
    (setTime seconds nanoseconds : Attempt ε Failure Unit) =
      if nanosPerSecond ≤ nanoseconds.toNat then throw (.config .invalidConfig)
      else submit ⟨seconds, nanoseconds⟩ Fields.clockInitialize Fields.clockInitialize := by
  unfold setTime
  split
  · rfl
  · rfl

theorem step_eq (seconds nanoseconds : UInt32) (direction : Direction) :
    (step seconds nanoseconds direction : Attempt ε Failure Unit) =
      if nanosPerSecond ≤ nanoseconds.toNat then throw (.config .invalidConfig)
      else submit ⟨seconds, stepWord nanoseconds direction⟩ (Fields.clockStep ||| Fields.clockInitialize)
        Fields.clockStep := by
  unfold step
  split
  · rfl
  · rfl

variable {R : ε → ε → Prop} (composes : Composes R) (look : Across R (Register.clockControl.read : StateM ε UInt32))

include composes look

theorem submit_across {words : TimeWords} (awaited : UInt32) {order : UInt32}
    (update : Across R (setUpdate words.seconds words.nanoseconds : StateM ε Unit))
    (commanded : Across R (command order : StateM ε Unit)) :
    Across R (submit words awaited order : Attempt ε Failure Unit).run :=
  composes.andThen (composes.sure update) fun _ =>
    composes.andThen (awaitCommand_across composes look awaited).relabel fun _ => composes.sure commanded

end Submission

end Clock

/-- What can be asked of the clock and of its snapshots. -/
inductive ClockRequest where
  | enable
  | disable
  | setFineCorrection (fine : Bool)
  | setTime (seconds nanoseconds : UInt32)
  | step (seconds nanoseconds : UInt32) (direction : Clock.Direction)
  | setAddend (value : UInt32)
  | setAuxiliaryChannel (channel : Nat) (enabled : Bool)
  | clearAuxiliary
deriving DecidableEq

namespace ClockRequest

/-- Does what is asked for, and does not look at whether it succeeded. -/
def perform {ε : Type} [Bus ε] : ClockRequest → StateM ε Unit
  | .enable => Clock.enable
  | .disable => Clock.disable
  | .setFineCorrection fine => Clock.setFineCorrection fine
  | .setTime seconds nanoseconds => do let _ ← (Clock.setTime seconds nanoseconds).run
  | .step seconds nanoseconds direction => do let _ ← (Clock.step seconds nanoseconds direction).run
  | .setAddend value => do let _ ← (Clock.setAddend value).run
  | .setAuxiliaryChannel channel enabled => do let _ ← (Clock.setAuxiliaryChannel channel enabled).run
  | .clearAuxiliary => Clock.clearAuxiliary

/-- The commands of the control register: each is under way until the hardware clears its bit. -/
def commands : UInt32 := Fields.clockInitialize ||| Fields.clockStep ||| Fields.addendUpdate

/-- The command that a request is there to give, if it gives one. -/
def own : ClockRequest → UInt32
  | .setTime _ _ => Fields.clockInitialize
  | .step _ _ _ => Fields.clockStep
  | .setAddend _ => Fields.addendUpdate
  | _ => 0

def others (request : ClockRequest) : UInt32 := commands &&& ~~~request.own

/-- What is done for a request, and the surroundings after it. -/
def trace {σ : Type} [Bus σ] (request : ClockRequest) (env : σ) : List Deed × σ :=
  let after : Traced σ := (request.perform ⟨[], env⟩).2
  (after.deeds, after.rest)

/-- What is done for each of several requests, one after the other. -/
def traces {σ : Type} [Bus σ] : List ClockRequest → σ → List (ClockRequest × List Deed)
  | [], _ => []
  | request :: rest, env => (request, (request.trace env).1) :: traces rest (request.trace env).2

/-- No command is written to the control register but the request's own. -/
def KeepsToItself (request : ClockRequest) (deeds : List Deed) : Prop :=
  ∀ value, .write Register.clockControl.offset value ∈ deeds → value &&& request.others = 0

/-- No word of the control register that is read to be changed and written back shows another command under way. -/
def FindsNoOther (request : ClockRequest) (deeds : List Deed) : Prop :=
  ∀ found value, [.read Register.clockControl.offset found, .write Register.clockControl.offset value] <:+: deeds →
    found &&& request.others = 0

/-- The snapshots are cleared only if that is what is asked for. -/
def SparesSnapshots (request : ClockRequest) (deeds : List Deed) : Prop :=
  ∀ value, .write Register.auxiliaryControl.offset value ∈ deeds → value &&& Fields.auxiliaryClear ≠ 0 →
    request = .clearAuxiliary

/-- Every word written to the control register comes from the word that was read there just before, with the same of
the other commands in it. -/
def EchoesOthers (request : ClockRequest) (deeds : List Deed) : Prop :=
  ∀ before value after, deeds = before ++ .write Register.clockControl.offset value :: after →
    ∃ earlier found, before = earlier ++ [.read Register.clockControl.offset found] ∧
      value &&& request.others = found &&& request.others

theorem EchoesOthers.keepsToItself_iff {request : ClockRequest} {deeds : List Deed}
    (echoes : request.EchoesOthers deeds) : request.KeepsToItself deeds ↔ request.FindsNoOther deeds := by
  constructor
  · rintro keeps found value ⟨earlier, later, split⟩
    have written : deeds = (earlier ++ [.read Register.clockControl.offset found]) ++
        .write Register.clockControl.offset value :: later := by
      rw [← split]
      simp
    obtain ⟨earlier', found', place, same⟩ := echoes _ _ _ written
    have here : found = found' := by
      obtain ⟨_, last⟩ := List.append_inj' place rfl
      simpa using last
    rw [here, ← same]
    exact keeps value (by simp [written])
  · intro finds value among
    obtain ⟨before, after, split⟩ := List.append_of_mem among
    obtain ⟨earlier, found, place, same⟩ := echoes before value after split
    rw [same]
    exact finds found value ⟨earlier, after, by simp [split, place]⟩

/-- What holds of anything that is done for a request. -/
structure Minds (request : ClockRequest) (deeds : List Deed) : Prop where
  control : request.EchoesOthers deeds
  auxiliary : request.SparesSnapshots deeds

namespace Minds

variable {request : ClockRequest}

/-- Nothing is to be minded where neither register is written. -/
theorem aside {deeds : List Deed} (control : ∀ value, .write Register.clockControl.offset value ∉ deeds)
    (auxiliary : ∀ value, .write Register.auxiliaryControl.offset value ∉ deeds) : request.Minds deeds where
  control before value after split := absurd (by simp [split]) (control value)
  auxiliary value among := absurd among (auxiliary value)

theorem append {first second : List Deed} (one : request.Minds first) (two : request.Minds second) :
    request.Minds (first ++ second) where
  control before value after split := by
    rcases List.append_eq_append_iff.mp split with ⟨middle, place, rest⟩ | ⟨middle, place, rest⟩
    · obtain ⟨earlier, found, here, same⟩ := two.control middle value after rest
      exact ⟨first ++ earlier, found, by rw [place, here, List.append_assoc], same⟩
    · cases middle with
      | nil =>
        -- the write would be the first thing in the second part, with nothing read before it
        obtain ⟨earlier, found, here, _⟩ := two.control [] value after rest.symm
        exact absurd here (by simp)
      | cons deed middle =>
        obtain ⟨rfl, _⟩ := List.cons.inj rest
        exact one.control before value middle place
  auxiliary value among := (List.mem_append.mp among).elim (one.auxiliary value) (two.auxiliary value)

theorem read (offset value : UInt32) : request.Minds [.read offset value] :=
  aside (by simp) (by simp)

theorem write {register : Register} (control : register ≠ .clockControl) (auxiliary : register ≠ .auxiliaryControl)
    (value : UInt32) : request.Minds [.write register.offset value] := by
  have apart : Register.clockControl.offset ≠ register.offset ∧ Register.auxiliaryControl.offset ≠ register.offset := by
    revert control auxiliary
    cases register <;> decide
  exact aside (by simp [apart]) (by simp [apart])

theorem exchange {found value : UInt32} (same : value &&& request.others = found &&& request.others) :
    request.Minds [.read Register.clockControl.offset found, .write Register.clockControl.offset value] where
  control before written after split := by
    rcases List.cons_eq_append_iff.mp split with ⟨rfl, other⟩ | ⟨rest, rfl, one⟩
    · exact absurd other (by simp)
    · rcases List.cons_eq_append_iff.mp one with ⟨rfl, here⟩ | ⟨_, rfl, none⟩
      · obtain ⟨here, _⟩ := List.cons.inj here
        obtain ⟨_, rfl⟩ := Deed.write.inj here
        exact ⟨[], found, rfl, same⟩
      · exact absurd none (by simp)
  auxiliary written among := absurd among (by simp [Register.offset])

/-- The register of the snapshots is not one of the clock's commands. -/
theorem snapshots {found value : UInt32} (spares : value &&& Fields.auxiliaryClear ≠ 0 → request = .clearAuxiliary) :
    request.Minds [.read Register.auxiliaryControl.offset found, .write Register.auxiliaryControl.offset value] where
  control before written after split := by
    have among : .write Register.clockControl.offset written ∈
        [Deed.read Register.auxiliaryControl.offset found, .write Register.auxiliaryControl.offset value] := by
      rw [split]
      simp
    exact absurd among (by simp [Register.offset])
  auxiliary written among set := by
    simp only [List.mem_cons, reduceCtorEq, Deed.write.injEq, true_and, List.not_mem_nil, or_false, false_or] at among
    subst among
    exact spares set

end Minds

section Performing

variable {σ : Type} [Bus σ]

abbrev Adds (request : ClockRequest) : Traced σ → Traced σ → Prop := Traced.Adds request.Minds

omit [Bus σ] in
theorem composes (request : ClockRequest) : Composes (request.Adds : Traced σ → Traced σ → Prop) :=
  Traced.Adds.composes (.aside (by simp) (by simp)) .append

theorem look (request : ClockRequest) (register : Register) :
    Across request.Adds (register.read : StateM (Traced σ) UInt32) :=
  Traced.Adds.load fun value => .read _ value

theorem setUpdate_minds (request : ClockRequest) (seconds nanoseconds : UInt32) :
    Across request.Adds (Clock.setUpdate seconds nanoseconds : StateM (Traced σ) Unit) :=
  request.composes.bind (Traced.Adds.store (.write (by decide) (by decide) _)) fun _ =>
    Traced.Adds.store (.write (by decide) (by decide) _)

theorem clearBits_minds (request : ClockRequest) {bits : UInt32} (apart : ~~~bits &&& request.others = request.others) :
    Across request.Adds (Register.clockControl.clearBits bits : StateM (Traced σ) Unit) :=
  Traced.Adds.update fun value => .exchange (by
    rw [UInt32.and_assoc, apart])

theorem setBits_minds (request : ClockRequest) {bits : UInt32} (apart : bits &&& request.others = 0) :
    Across request.Adds (Register.clockControl.setBits bits : StateM (Traced σ) Unit) :=
  Traced.Adds.update fun value => .exchange (by
    rw [Descriptor.or_and, apart, UInt32.or_zero])

/-- A request that gives its own command leaves the others in the word as they were read. -/
theorem command_minds (request : ClockRequest) :
    Across request.Adds (Clock.command request.own : StateM (Traced σ) Unit) :=
  setBits_minds request (by
    rw [others, UInt32.and_comm commands, ← UInt32.and_assoc, UInt32.and_not_self, UInt32.zero_and])

omit [Bus σ] in
/-- A channel is switched beside the bit that clears the snapshots, which is taken out of the word. -/
theorem switched_and_clear {channel : Nat} (present : ¬ Clock.auxiliaryChannels ≤ channel) (current : UInt32)
    (enabled : Bool) :
    (if enabled then
        current &&& ~~~Fields.auxiliaryClear ||| 1 <<< (Fields.auxiliaryEnableShift + UInt32.ofNat channel)
      else
        current &&& ~~~Fields.auxiliaryClear &&& ~~~(1 <<< (Fields.auxiliaryEnableShift + UInt32.ofNat channel)))
      &&& Fields.auxiliaryClear = 0 := by
  have beside : (1 : UInt32) <<< (Fields.auxiliaryEnableShift + UInt32.ofNat channel) &&&
      Fields.auxiliaryClear = 0 := by
    have known : ∀ channel < Clock.auxiliaryChannels,
        (1 : UInt32) <<< (Fields.auxiliaryEnableShift + UInt32.ofNat channel) &&& Fields.auxiliaryClear = 0 := by decide
    exact known channel (Nat.lt_of_not_le present)
  have cleared : current &&& ~~~Fields.auxiliaryClear &&& Fields.auxiliaryClear = 0 := by
    rw [UInt32.and_assoc, UInt32.not_and_self, UInt32.and_zero]
  cases enabled with
  | true => rw [if_pos rfl, Descriptor.or_and, cleared, beside, UInt32.or_zero]
  | false =>
    rw [if_neg Bool.false_ne_true, UInt32.and_assoc, UInt32.and_comm (~~~_), ← UInt32.and_assoc, cleared,
      UInt32.zero_and]

/-- Of all requests only the one that turns the clock on does not write back what it has read. -/
theorem perform_minds {request : ClockRequest} (changes : request ≠ .enable) :
    Across request.Adds (request.perform : StateM (Traced σ) Unit) := by
  cases request with
  | enable => exact absurd rfl changes
  | disable => exact clearBits_minds _ (by decide)
  | setFineCorrection fine =>
    cases fine with
    | true => exact setBits_minds _ (by decide)
    | false => exact clearBits_minds _ (by decide)
  | setTime seconds nanoseconds =>
    refine (composes _).bind ?_ fun _ => (composes _).pure _
    rw [Clock.setTime_eq]
    split
    · exact (composes _).pure _
    · exact Clock.submit_across (composes _) (look _ _) _ (setUpdate_minds _ _ _) (command_minds _)
  | step seconds nanoseconds direction =>
    refine (composes _).bind ?_ fun _ => (composes _).pure _
    rw [Clock.step_eq]
    split
    · exact (composes _).pure _
    · exact Clock.submit_across (composes _) (look _ _) _ (setUpdate_minds _ _ _) (command_minds _)
  | setAddend value =>
    refine (composes _).bind ?_ fun _ => (composes _).pure _
    unfold Clock.setAddend
    have stored : Across (setAddend value).Adds (Register.addend.write value : StateM (Traced σ) Unit) :=
      Traced.Adds.store (.write (by decide) (by decide) _)
    exact Clock.loadAddend_across (composes _) (look _ _) stored (command_minds _) _
  | setAuxiliaryChannel channel enabled =>
    refine (composes _).bind ?_ fun _ => (composes _).pure _
    unfold Clock.setAuxiliaryChannel
    dsimp only
    by_cases absent : Clock.auxiliaryChannels ≤ channel
    · rw [if_pos absent]
      exact (composes _).pure _
    · rw [if_neg absent]
      intro env
      exact ⟨_, List.append_assoc .., .snapshots fun set => absurd (switched_and_clear absent _ enabled) set⟩
  | clearAuxiliary => exact Traced.Adds.update fun value => .snapshots fun _ => rfl

end Performing

theorem trace_minds {σ : Type} [Bus σ] {request : ClockRequest} (changes : request ≠ .enable) (env : σ) :
    request.Minds (request.trace env).1 := by
  obtain ⟨deeds, done, minds⟩ := perform_minds changes (⟨[], env⟩ : Traced σ)
  have all : (request.trace env).1 = deeds := done
  rw [all]
  exact minds

/-- To turn the clock on writes a word of its own, without a command and without a look at the register. -/
theorem trace_enable {σ : Type} [Bus σ] (env : σ) :
    (trace .enable env).1 = [.write Register.clockControl.offset Fields.clockOperation] := rfl

theorem mem_traces {σ : Type} [Bus σ] {requests : List ClockRequest} {env : σ} {entry : ClockRequest × List Deed}
    (among : entry ∈ traces requests env) :
    ∃ (request : ClockRequest) (called : σ), entry = (request, (request.trace called).1) := by
  induction requests generalizing env with
  | nil => exact absurd among List.not_mem_nil
  | cons request rest ih =>
    rcases List.mem_cons.mp among with rfl | later
    · exact ⟨request, env, rfl⟩
    · exact ih later

/-- Whatever the hardware answers, and however long its commands take: snapshots are cleared only by request, and a
request writes no command but its own exactly if it reads none that is under way where it writes back what it has
read. -/
theorem commands_kept_apart_iff {σ : Type} [Bus σ] (requests : List ClockRequest) (env : σ) :
    ∀ entry ∈ traces requests env, entry.1.SparesSnapshots entry.2 ∧
      (entry.1.KeepsToItself entry.2 ↔ entry.1.FindsNoOther entry.2) := by
  intro entry among
  obtain ⟨request, called, rfl⟩ := mem_traces among
  dsimp only
  by_cases changes : request = .enable
  · subst changes
    rw [trace_enable]
    refine ⟨fun value written => absurd written (by simp [Register.offset]), iff_of_true ?_ ?_⟩
    · intro value written
      obtain rfl : value = Fields.clockOperation := by simpa using written
      decide
    · rintro found value ⟨earlier, later, split⟩
      exact absurd (congrArg List.length split) (by simp; omega)
  · have minds := trace_minds changes called
    exact ⟨minds.auxiliary, minds.control.keepsToItself_iff⟩

/-- A step of the clock, and snapshots that are cleared before a channel is turned on; the hardware carries out neither
meanwhile. -/
theorem commands_kept_apart_snapshots : ∃ step channel,
    traces [.step 1 0 .forward, .clearAuxiliary, .setAuxiliaryChannel 2 true] ({} : PlainMemory) =
      [(.step 1 0 .forward, step),
        (.clearAuxiliary, [.read 0xB40 0, .write 0xB40 Fields.auxiliaryClear]),
        (.setAuxiliaryChannel 2 true, channel)] ∧
      (ClockRequest.step 1 0 .forward).KeepsToItself step ∧ .read 0xB40 Fields.auxiliaryClear ∈ channel ∧
      (setAuxiliaryChannel 2 true).SparesSnapshots channel := by
  let step : List Deed := [.write 0xB10 1, .write 0xB14 0, .read 0xB00 0, .read 0xB00 0, .write 0xB00 Fields.clockStep]
  let channel : List Deed := [.read 0xB40 Fields.auxiliaryClear, .write 0xB40 0x40]
  have done : traces [.step 1 0 .forward, .clearAuxiliary, .setAuxiliaryChannel 2 true] ({} : PlainMemory) =
      [(.step 1 0 .forward, step), (.clearAuxiliary, [.read 0xB40 0, .write 0xB40 Fields.auxiliaryClear]),
        (.setAuxiliaryChannel 2 true, channel)] := by decide +kernel
  have kept := commands_kept_apart_iff [.step 1 0 .forward, .clearAuxiliary, .setAuxiliaryChannel 2 true]
    ({} : PlainMemory)
  rw [done] at kept
  refine ⟨step, channel, done, (kept (.step 1 0 .forward, step) (by simp)).2.mpr ?_, List.mem_cons_self ..,
    (kept (.setAuxiliaryChannel 2 true, channel) (by simp)).1⟩
  intro found value looked
  have read : .read Register.clockControl.offset found ∈ step := looked.subset (List.mem_cons_self ..)
  obtain rfl : found = 0 := by simpa [step, Register.offset] using read
  exact UInt32.zero_and

/-- A step is asked for, and then the fine correction, of a clock that has not carried out the step yet: the step is
commanded a second time. -/
theorem step_commanded_again :
    traces [.step 1 0 .forward, .setFineCorrection true] ({} : PlainMemory) =
      [(.step 1 0 .forward, [.write 0xB10 1, .write 0xB14 0, .read 0xB00 0, .read 0xB00 0,
          .write 0xB00 Fields.clockStep]),
        (.setFineCorrection true, [.read 0xB00 Fields.clockStep,
          .write 0xB00 (Fields.clockStep ||| Fields.fineCorrection)])] ∧
      ¬ (setFineCorrection true).KeepsToItself [.read 0xB00 Fields.clockStep,
        .write 0xB00 (Fields.clockStep ||| Fields.fineCorrection)] := by
  refine ⟨by decide +kernel, fun keeps => ?_⟩
  exact absurd (keeps _ (List.mem_cons_of_mem _ (List.mem_cons_self ..))) (by decide)

end ClockRequest

end EthernetMac

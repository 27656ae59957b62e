import EthernetMac.Clock.Pulse
import EthernetMac.Proofs.Trace

namespace EthernetMac

open Bus Clock

namespace Deed

def IsRead : Deed → Prop
  | .read _ _ => True
  | _ => False

/-- There is a command in what is written to the control register of the pulse output. -/
def IsPulseCommand : Deed → Prop
  | .write offset word => offset = Register.pulseControl.offset ∧ word &&& Fields.pulseCommand ≠ 0
  | _ => False

/-- The output is stopped, in the mode in which it takes commands. -/
def StopsPulses : Deed → Prop
  | .write offset word =>
    offset = Register.pulseControl.offset ∧ word &&& Fields.pulseTrainMode ≠ 0 ∧
      word &&& Fields.pulseCommand = Fields.pulseStop
  | _ => False

/-- The output is found in the mode in which it takes commands, and it has none to carry out. -/
def FindsPulseIdle : Deed → Prop
  | .read offset word =>
    offset = Register.pulseControl.offset ∧ word &&& Fields.pulseTrainMode ≠ 0 ∧ word &&& Fields.pulseCommand = 0
  | _ => False

/-- The output is found with a command that it is not done with. -/
def FindsPulseBusy : Deed → Prop
  | .read offset word => offset = Register.pulseControl.offset ∧ word &&& Fields.pulseCommand ≠ 0
  | _ => False

def trainRegisters : List UInt32 :=
  [Register.pulseTargetSeconds.offset, Register.pulseTargetNanoseconds.offset, Register.pulseWidth.offset,
    Register.pulseInterval.offset]

/-- Something of a pulse train is written, or a train is started. -/
def ProgramsTrain : Deed → Prop
  | .write offset word =>
    offset ∈ trainRegisters ∨ offset = Register.pulseControl.offset ∧ word &&& Fields.pulseCommand = Fields.pulseStart
  | _ => False

/-- The pulse output is given no command, and no train is programmed. -/
def SparesPulses (deed : Deed) : Prop := ¬ deed.IsPulseCommand ∧ ¬ deed.ProgramsTrain

theorem IsRead.sparesPulses {deed : Deed} (read : deed.IsRead) : deed.SparesPulses := by
  cases deed with
  | read offset value => exact ⟨id, id⟩
  | write offset value => cases read
  | pause nanoseconds => cases read
  | tell event => cases read

theorem IsRead.not_write {deed : Deed} (read : deed.IsRead) (offset value : UInt32) : deed ≠ .write offset value := by
  rintro rfl
  cases read

theorem FindsPulseBusy.isRead {deed : Deed} (busy : deed.FindsPulseBusy) : deed.IsRead := by
  cases deed with
  | read offset value => trivial
  | write offset value => cases busy
  | pause nanoseconds => cases busy
  | tell event => cases busy

theorem StopsPulses.not_programsTrain {deed : Deed} (stops : deed.StopsPulses) : ¬ deed.ProgramsTrain := by
  cases deed with
  | write offset word =>
    obtain ⟨rfl, -, stop⟩ := stops
    rintro (among | ⟨-, start⟩)
    · exact absurd among (by decide)
    · exact absurd (stop.symm.trans start) (by decide)
  | read offset value => cases stops
  | pause nanoseconds => cases stops
  | tell event => cases stops

/-- Wherever a deed of some kind stands, what is due before it has been done. -/
def Follows (kind : Deed → Prop) (due : List Deed → Prop) (deeds : List Deed) : Prop :=
  ∀ before deed after, deeds = before ++ deed :: after → kind deed → due before

namespace Follows

variable {kind : Deed → Prop} {due : List Deed → Prop}

theorem of_none {deeds : List Deed} (none : ∀ deed ∈ deeds, ¬ kind deed) : Follows kind due deeds := by
  intro before deed after split one
  exact absurd one (none deed (by rw [split]; simp))

theorem single {deed : Deed} (done : due []) : Follows kind due [deed] := by
  intro before other after split _
  rcases List.cons_eq_append_iff.mp split with ⟨rfl, _⟩ | ⟨_, rfl, later⟩
  · exact done
  · exact absurd later (by simp)

theorem append {first second : List Deed} (one : Follows kind due first)
    (two : Follows kind (fun before => due (first ++ before)) second) : Follows kind due (first ++ second) := by
  intro before deed after split this
  rcases List.append_eq_append_iff.mp split with ⟨middle, rfl, rest⟩ | ⟨middle, place, rest⟩
  · exact two middle deed after rest this
  · cases middle with
    | nil =>
      have here := two [] deed after rest.symm this
      rwa [place, List.append_nil, List.append_nil] at here
    | cons head middle =>
      obtain ⟨rfl, _⟩ := List.cons.inj rest
      exact one before deed middle place this

/-- What is due may be done once and for all before a list of deeds. -/
theorem after {deeds : List Deed} (done : ∀ before, due before) : Follows kind due deeds :=
  fun before _ _ _ _ => done before

end Follows

/-- Since the control register of the output was written last, the output has been found idle. -/
def SincePulseIdle (before : List Deed) : Prop :=
  ∃ earlier later, before = earlier ++ later ∧ (∃ look ∈ later, look.FindsPulseIdle) ∧
    ∀ word, .write Register.pulseControl.offset word ∉ later

/-- The output has been stopped, and it has been found idle after that. -/
def StoppedAndIdle (before : List Deed) : Prop :=
  ∃ earlier later, before = earlier ++ later ∧ (∃ stop ∈ earlier, stop.StopsPulses) ∧
    ∃ look ∈ later, look.FindsPulseIdle

theorem SincePulseIdle.prepend {before : List Deed} (since : SincePulseIdle before) (first : List Deed) :
    SincePulseIdle (first ++ before) := by
  obtain ⟨earlier, later, rfl, idle, unwritten⟩ := since
  exact ⟨first ++ earlier, later, (List.append_assoc ..).symm, idle, unwritten⟩

theorem SincePulseIdle.append {before more : List Deed} (since : SincePulseIdle before)
    (none : ∀ word, .write Register.pulseControl.offset word ∉ more) : SincePulseIdle (before ++ more) := by
  obtain ⟨earlier, later, rfl, ⟨look, among, idle⟩, unwritten⟩ := since
  refine ⟨earlier, later ++ more, List.append_assoc .., ⟨look, List.mem_append_left _ among, idle⟩, fun word => ?_⟩
  exact fun written => (List.mem_append.mp written).elim (unwritten word) (none word)

theorem StoppedAndIdle.append {before : List Deed} (done : StoppedAndIdle before) (more : List Deed) :
    StoppedAndIdle (before ++ more) := by
  obtain ⟨earlier, later, rfl, stopped, ⟨look, among, idle⟩⟩ := done
  exact ⟨earlier, later ++ more, List.append_assoc .., stopped, look, List.mem_append_left _ among, idle⟩

/-- In the end the output has been busy for as many looks as there are in a wait. -/
def StaysBusy (deeds : List Deed) : Prop :=
  ∃ looks, looks <:+ deeds ∧ looks.length = pollLimit ∧ ∀ look ∈ looks, look.FindsPulseBusy

theorem StaysBusy.prepend {deeds : List Deed} (busy : StaysBusy deeds) (first : List Deed) :
    StaysBusy (first ++ deeds) := by
  obtain ⟨looks, ends, many, finds⟩ := busy
  exact ⟨looks, List.suffix_append_of_suffix ends, many, finds⟩

/-- So far nothing has been programmed, and commands were given to an idle output only. -/
structure Harmless (deeds : List Deed) : Prop where
  spared : ∀ deed ∈ deeds, ¬ deed.ProgramsTrain
  spaced : Follows IsPulseCommand SincePulseIdle deeds

theorem Harmless.reads {deeds : List Deed} (reads : ∀ deed ∈ deeds, deed.IsRead) : Harmless deeds where
  spared deed among := (reads deed among).sparesPulses.2
  spaced := .of_none fun deed among => (reads deed among).sparesPulses.1

theorem Harmless.append {deeds more : List Deed} (harmless : Harmless deeds) (reads : ∀ deed ∈ more, deed.IsRead) :
    Harmless (deeds ++ more) where
  spared := List.forall_mem_append.mpr ⟨harmless.spared, (Harmless.reads reads).spared⟩
  spaced := harmless.spaced.append (.of_none fun deed among => (reads deed among).sparesPulses.1)

end Deed

namespace Clock

namespace PulseTrain

/-- The values that make up a train. The second is the one that the clock shows when they are written. -/
def values (train : PulseTrain) (second : UInt32) : List Deed :=
  [.write Register.pulseTargetSeconds.offset (second + pulseStartDelay),
    .write Register.pulseTargetNanoseconds.offset 0,
    .write Register.pulseWidth.offset train.width,
    .write Register.pulseInterval.offset train.interval]

def start : Deed :=
  .write Register.pulseControl.offset (Fields.pulseTrainMode ||| Fields.pulseTargetSilent ||| Fields.pulseStart)

theorem values_elsewhere (train : PulseTrain) (second word : UInt32) :
    .write Register.pulseControl.offset word ∉ train.values second := by
  simp [values, Register.offset]

theorem values_not_command (train : PulseTrain) (second : UInt32) :
    ∀ deed ∈ train.values second, ¬ deed.IsPulseCommand := by
  simp [values, Deed.IsPulseCommand, Register.offset]

end PulseTrain

theorem startPulses_apply {ε : Type} [Bus ε] (high period : UInt32) (env : ε) :
    (startPulses high period).run env =
      match PulseTrain.ofNanos? (increment env).1.toUInt32 high period with
      | none => (.error (.config .invalidConfig), (increment env).2)
      | some train =>
        match stopPulses.run (increment env).2 with
        | (.error fault, late) => (.error (.bus fault), late)
        | (.ok _, stopped) =>
          match awaitPulseIdle.run stopped with
          | (.error fault, late) => (.error (.bus fault), late)
          | (.ok _, ready) => (.ok (), (train.schedule ready).2) := by
  have looked : (Attempt.sure (φ := Failure) increment).run env = (.ok (increment env).1, (increment env).2) := rfl
  rw [startPulses, Attempt.bind_apply, looked]
  dsimp only
  cases PulseTrain.ofNanos? (increment env).1.toUInt32 high period with
  | none => rfl
  | some train =>
    dsimp only
    rw [Attempt.bind_apply, Attempt.relabel_apply]
    generalize stopPulses.run (increment env).2 = stop
    obtain ⟨outcome, stopped⟩ := stop
    cases outcome with
    | error fault => rfl
    | ok _ =>
      dsimp only
      rw [Attempt.bind_apply, Attempt.relabel_apply]
      generalize awaitPulseIdle.run stopped = wait
      obtain ⟨outcome, ready⟩ := wait
      cases outcome with
      | error fault => rfl
      | ok _ => rfl

section Traces

variable {σ : Type} [Bus σ]

/-- To read the clock is to read registers. -/
theorem now_reads (env : Traced σ) :
    ∃ reads, (now env).2.deeds = env.deeds ++ reads ∧ ∀ deed ∈ reads, deed.IsRead := by
  have composes : Composes (Traced.Adds fun deeds => ∀ deed ∈ deeds, deed.IsRead : Traced σ → Traced σ → Prop) :=
    Traced.Adds.composes (fun _ none => absurd none List.not_mem_nil)
      fun one two => List.forall_mem_append.mpr ⟨one, two⟩
  exact now_across composes (fun _ => Traced.Adds.load fun _ => List.forall_mem_singleton.mpr trivial) env

theorem schedule_deeds (train : PulseTrain) (env : Traced σ) :
    (train.schedule env).2.deeds = (now env).2.deeds ++ (train.values (now env).1.seconds ++ [PulseTrain.start]) := by
  rw [PulseTrain.schedule]
  generalize (now : StateM (Traced σ) Timestamp) = clock
  change (clock env).2.deeds ++ [_] ++ [_] ++ [_] ++ [_] ++ [_] = _
  simp only [List.append_assoc]
  rfl

end Traces

end Clock

end EthernetMac

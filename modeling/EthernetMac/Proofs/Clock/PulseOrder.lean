import EthernetMac.Proofs.Blocks
import EthernetMac.Proofs.Clock.PulseDeeds

namespace EthernetMac

open Bus Clock

/-- Surroundings in which the mode of the pulse output is the one that was written last. What the command field reads is
left open: the hardware may be done with a command at once, late or never. -/
structure PulseBench (σ : Type) where
  /-- What was written to the control register last. -/
  control : UInt32
  rest : σ

namespace PulseBench

variable {σ : Type}

/-- The output is in the mode in which it takes commands. -/
def InTrainMode (bench : PulseBench σ) : Prop := bench.control &&& Fields.pulseTrainMode ≠ 0

/-- What a wait for the output to be idle comes to: either the last look finds no command, or there are too many of
them. The mode that they find is that of `control`. -/
inductive Waits (control : UInt32) (polls : Nat) : Except BusFault Unit → List Deed → Prop
  | idle {earlier : List Deed} (word : UInt32) : (∀ deed ∈ earlier, deed.FindsPulseBusy) →
      word &&& Fields.pulseTrainMode = control &&& Fields.pulseTrainMode → word &&& Fields.pulseCommand = 0 →
      Waits control polls (.ok ()) (earlier ++ [.read Register.pulseControl.offset word])
  | late {looks : List Deed} : looks.length = polls → (∀ deed ∈ looks, deed.FindsPulseBusy) →
      Waits control polls (.error .timeout) looks

namespace Waits

variable {control : UInt32} {polls : Nat} {outcome : Except BusFault Unit} {looks : List Deed}

theorem cons (found : Waits control polls outcome looks) {look : Deed} (busy : look.FindsPulseBusy) :
    Waits control (polls + 1) outcome (look :: looks) := by
  cases found with
  | idle word before mode empty =>
    rw [← List.cons_append]
    exact .idle word (List.forall_mem_cons.mpr ⟨busy, before⟩) mode empty
  | late many all => exact .late (congrArg Nat.succ many) (List.forall_mem_cons.mpr ⟨busy, all⟩)

theorem reads (found : Waits control polls outcome looks) : ∀ deed ∈ looks, deed.IsRead := by
  cases found with
  | idle word before _ _ =>
    exact List.forall_mem_append.mpr ⟨fun deed among => (before deed among).isRead, List.forall_mem_singleton.mpr
      trivial⟩
  | late _ all => exact fun deed among => (all deed among).isRead

theorem sincePulseIdle {bench : PulseBench σ} (mode : bench.InTrainMode)
    (found : Waits bench.control polls (.ok ()) looks) : Deed.SincePulseIdle looks := by
  cases found with
  | idle word _ shown empty =>
    have idle : (Deed.read Register.pulseControl.offset word).FindsPulseIdle := ⟨rfl, shown ▸ mode, empty⟩
    refine ⟨_, [.read _ word], rfl, ⟨_, List.mem_singleton_self _, idle⟩, fun other among => ?_⟩
    cases List.mem_singleton.mp among

theorem staysBusy {fault : BusFault} (found : Waits control pollLimit (.error fault) looks) :
    fault = .timeout ∧ Deed.StaysBusy looks := by
  cases found with
  | late many all => exact ⟨rfl, looks, List.suffix_refl looks, many, all⟩

end Waits

/-- What the switch to the mode in which the output takes commands comes to. -/
inductive Enters (after : PulseBench σ) : Except BusFault Unit → List Deed → Prop
  | entered {deeds : List Deed} : (∀ deed ∈ deeds, deed.SparesPulses) → after.InTrainMode → Enters after (.ok ()) deeds
  | late {deeds : List Deed} : (∀ deed ∈ deeds, deed.SparesPulses) → Deed.StaysBusy deeds →
      Enters after (.error .timeout) deeds

/-- What it comes to that the output is stopped. The command is given last, to an output that is idle. -/
inductive Stops (after : PulseBench σ) : Except BusFault Unit → List Deed → Prop
  | stopped {earlier : List Deed} {stop : Deed} : (∀ deed ∈ earlier, deed.SparesPulses) → Deed.SincePulseIdle earlier →
      stop.StopsPulses → after.InTrainMode → Stops after (.ok ()) (earlier ++ [stop])
  | late {deeds : List Deed} : (∀ deed ∈ deeds, deed.SparesPulses) → Deed.StaysBusy deeds →
      Stops after (.error .timeout) deeds

namespace Stops

variable {after : PulseBench σ} {outcome : Except BusFault Unit} {deeds : List Deed}

theorem not_programsTrain (stops : Stops after outcome deeds) : ∀ deed ∈ deeds, ¬ deed.ProgramsTrain := by
  cases stops with
  | late spares _ => exact fun deed among => (spares deed among).2
  | stopped spares _ stop _ =>
    exact List.forall_mem_append.mpr ⟨fun deed among => (spares deed among).2, List.forall_mem_singleton.mpr
      stop.not_programsTrain⟩

theorem spaced (stops : Stops after outcome deeds) (first : List Deed) :
    Deed.Follows Deed.IsPulseCommand (fun before => Deed.SincePulseIdle (first ++ before)) deeds := by
  cases stops with
  | late spares _ => exact .of_none fun deed among => (spares deed among).1
  | stopped spares since _ _ =>
    refine .append (.of_none fun deed among => (spares deed among).1) (.single ?_)
    rw [List.append_nil]
    exact since.prepend first

theorem stops (stops : Stops after (.ok ()) deeds) : after.InTrainMode ∧ ∃ stop ∈ deeds, stop.StopsPulses := by
  cases stops with
  | stopped _ _ stop mode => exact ⟨mode, _, by simp, stop⟩

end Stops

variable [Bus σ]

instance : Bus (PulseBench σ) where
  read offset bench :=
    let (value, rest) := Bus.read offset bench.rest
    (if offset = Register.pulseControl.offset then
        bench.control &&& ~~~Fields.pulseCommand ||| value &&& Fields.pulseCommand
      else value,
      { bench with rest := rest })
  write offset value bench :=
    { control := if offset = Register.pulseControl.offset then value else bench.control
      rest := Bus.write offset value bench.rest }
  delay nanoseconds bench := { bench with rest := Bus.delay nanoseconds bench.rest }

theorem read_inTrainMode {env : Traced (PulseBench σ)} :
    (Register.pulseControl.read env).1 &&& Fields.pulseTrainMode = env.rest.control &&& Fields.pulseTrainMode := by
  change (env.rest.control &&& ~~~Fields.pulseCommand ||| _ &&& Fields.pulseCommand) &&& Fields.pulseTrainMode = _
  have beside : Fields.pulseCommand &&& Fields.pulseTrainMode = 0 := by decide
  have kept : ~~~Fields.pulseCommand &&& Fields.pulseTrainMode = Fields.pulseTrainMode := by decide
  rw [Descriptor.or_and, UInt32.and_assoc, UInt32.and_assoc, beside, kept, UInt32.and_zero, UInt32.or_zero]

theorem awaitClear_waits (polls : Nat) (env : Traced (PulseBench σ)) :
    ∃ outcome looks after, (awaitClear .pulseControl Fields.pulseCommand polls).run env = (outcome, after) ∧
      after.deeds = env.deeds ++ looks ∧ after.rest.control = env.rest.control ∧
      Waits env.rest.control polls outcome looks := by
  induction polls generalizing env with
  | zero =>
    exact ⟨_, [], _, rfl, (List.append_nil _).symm, rfl, .late rfl fun _ none => absurd none List.not_mem_nil⟩
  | succ polls ih =>
    let look := Register.pulseControl.read env
    have looked : (Attempt.sure (φ := BusFault) (Register.pulseControl.anySet Fields.pulseCommand)).run env =
        (.ok (look.1 &&& Fields.pulseCommand != 0), look.2) := rfl
    rw [awaitClear, Attempt.bind_apply, looked]
    dsimp only
    by_cases clear : look.1 &&& Fields.pulseCommand = 0
    · rw [if_neg (by rw [clear]; decide)]
      exact ⟨_, [] ++ [_], _, rfl, rfl, rfl, .idle look.1 (fun _ none => absurd none List.not_mem_nil)
        read_inTrainMode clear⟩
    · rw [if_pos (bne_iff_ne.mpr clear)]
      obtain ⟨outcome, looks, after, run, more, kept, found⟩ := ih look.2
      have busy : (Deed.read Register.pulseControl.offset look.1).FindsPulseBusy := ⟨rfl, clear⟩
      exact ⟨outcome, _ :: looks, after, run, more.trans (List.append_cons ..).symm, kept, found.cons busy⟩

theorem awaitPulseIdle_waits (env : Traced (PulseBench σ)) :
    ∃ outcome looks after, awaitPulseIdle.run env = (outcome, after) ∧ after.deeds = env.deeds ++ looks ∧
      after.rest.control = env.rest.control ∧ Waits env.rest.control pollLimit outcome looks :=
  awaitClear_waits pollLimit env

theorem enterPulseTrainMode_enters (env : Traced (PulseBench σ)) :
    ∃ outcome deeds after, enterPulseTrainMode.run env = (outcome, after) ∧ after.deeds = env.deeds ++ deeds ∧
      Enters after.rest outcome deeds := by
  let look := Register.pulseControl.read env
  have looked : (Attempt.sure (φ := BusFault) (Register.pulseControl.anySet Fields.pulseTrainMode)).run env =
      (.ok (look.1 &&& Fields.pulseTrainMode != 0), look.2) := rfl
  have read : (Deed.read Register.pulseControl.offset look.1).SparesPulses := Deed.IsRead.sparesPulses trivial
  rw [enterPulseTrainMode, Attempt.bind_apply, looked, read_inTrainMode]
  dsimp only
  by_cases fixed : env.rest.control &&& Fields.pulseTrainMode = 0
  · let switched := (Register.pulseControl.write Fields.pulseTrainMode look.2).2
    have switch : (Attempt.sure (φ := BusFault) (Register.pulseControl.write Fields.pulseTrainMode)).run look.2 =
        (.ok (), switched) := rfl
    have written : (Deed.write Register.pulseControl.offset Fields.pulseTrainMode).SparesPulses :=
      ⟨fun command => command.2 (by decide), fun programs => programs.elim (by decide) fun start =>
        absurd start.2 (by decide)⟩
    obtain ⟨outcome, looks, after, run, more, mode, found⟩ := awaitPulseIdle_waits switched
    have spared := List.forall_mem_cons.mpr ⟨read, List.forall_mem_cons.mpr ⟨written,
      fun deed among => (found.reads deed among).sparesPulses⟩⟩
    rw [if_pos (by rw [fixed]; decide), Attempt.bind_apply, switch]
    have done : switched.deeds = env.deeds ++ [_, _] := List.append_assoc ..
    refine ⟨outcome, _, after, run, more.trans (by rw [done, List.append_assoc]), ?_⟩
    cases outcome with
    | ok _ =>
      refine .entered spared ?_
      rw [InTrainMode, mode]
      change Fields.pulseTrainMode &&& Fields.pulseTrainMode ≠ 0
      decide
    | error fault =>
      obtain ⟨rfl, busy⟩ := found.staysBusy
      exact .late spared (busy.prepend [_, _])
  · rw [if_neg (by simpa using fixed)]
    exact ⟨_, [_], _, rfl, rfl, .entered (List.forall_mem_singleton.mpr read) fixed⟩

theorem stopWord_and (control : UInt32) :
    (control &&& ~~~Fields.pulseCommand ||| Fields.pulseStop) &&& Fields.pulseTrainMode =
        control &&& Fields.pulseTrainMode ∧
      (control &&& ~~~Fields.pulseCommand ||| Fields.pulseStop) &&& Fields.pulseCommand = Fields.pulseStop := by
  have apart : Fields.pulseStop &&& Fields.pulseTrainMode = 0 := by decide
  have kept : ~~~Fields.pulseCommand &&& Fields.pulseTrainMode = Fields.pulseTrainMode := by decide
  have whole : Fields.pulseStop &&& Fields.pulseCommand = Fields.pulseStop := by decide
  constructor
  · rw [Descriptor.or_and, UInt32.and_assoc, kept, apart, UInt32.or_zero]
  · rw [Descriptor.or_and, UInt32.and_assoc, UInt32.not_and_self, whole, UInt32.and_zero, UInt32.zero_or]

theorem stopPulses_stops (env : Traced (PulseBench σ)) :
    ∃ outcome deeds after, stopPulses.run env = (outcome, after) ∧ after.deeds = env.deeds ++ deeds ∧
      Stops after.rest outcome deeds := by
  obtain ⟨outcome, deeds, entered, run, done, enters⟩ := enterPulseTrainMode_enters env
  rw [stopPulses, Attempt.bind_apply, run]
  cases enters with
  | late spared busy => exact ⟨_, deeds, entered, rfl, done, .late spared busy⟩
  | entered spared mode =>
    obtain ⟨outcome, looks, idle, run, more, kept, waits⟩ := awaitPulseIdle_waits entered
    have spares : ∀ deed ∈ deeds ++ looks, deed.SparesPulses :=
      List.forall_mem_append.mpr ⟨spared, fun deed among => (waits.reads deed among).sparesPulses⟩
    have course : idle.deeds = env.deeds ++ (deeds ++ looks) := by rw [more, done, List.append_assoc]
    dsimp only
    rw [Attempt.bind_apply, run]
    cases outcome with
    | error fault =>
      obtain ⟨rfl, busy⟩ := waits.staysBusy
      exact ⟨_, _, idle, rfl, course, .late spares (busy.prepend _)⟩
    | ok _ =>
      let control := (Register.pulseControl.read idle).1
      let stop := control &&& ~~~Fields.pulseCommand ||| Fields.pulseStop
      have read : (Deed.read Register.pulseControl.offset control).IsRead := trivial
      have still : stop &&& Fields.pulseTrainMode ≠ 0 := by
        rw [(stopWord_and control).1, read_inTrainMode, kept]
        exact mode
      have stops : (Deed.write Register.pulseControl.offset stop).StopsPulses := ⟨rfl, still, (stopWord_and control).2⟩
      have since : Deed.SincePulseIdle (deeds ++ looks ++ [.read Register.pulseControl.offset control]) :=
        ((waits.sincePulseIdle mode).prepend deeds).append (by simp)
      refine ⟨.ok (), _, _, rfl, ?_, .stopped (List.forall_mem_append.mpr ⟨spares, List.forall_mem_singleton.mpr
        read.sparesPulses⟩) since stops still⟩
      change idle.deeds ++ [_] ++ [_] = _
      rw [course]
      simp only [List.append_assoc]
      rfl

/-- What comes of a request for a pulse train, and what is done on the way. -/
structure PulseCall (high period : UInt32) (bench : PulseBench σ) (answer : Except Failure Unit) (deeds : List Deed) :
    Prop where
  /-- Nothing is programmed before the output has been stopped. -/
  stopped : Deed.Follows Deed.ProgramsTrain Deed.StoppedAndIdle deeds
  /-- No command is given before the output is done with the one before it. -/
  spaced : Deed.Follows Deed.IsPulseCommand Deed.SincePulseIdle deeds
  /-- The train that was asked for starts two seconds after the clock has been read. -/
  scheduled : answer = .ok () → ∃ (train : PulseTrain) (ready : Traced (PulseBench σ)),
    PulseTrain.ofNanos? (increment bench).1.toUInt32 high period = some train ∧
      deeds = (now ready).2.deeds ++ (train.values (now ready).1.seconds ++ [PulseTrain.start])
  /-- It is refused for its times, or given up because the output has stayed busy. -/
  failed : ∀ failure, answer = .error failure → (∀ deed ∈ deeds, ¬ deed.ProgramsTrain) ∧
    (failure = .config .invalidConfig ∧ PulseTrain.ofNanos? (increment bench).1.toUInt32 high period = none ∨
      failure = .bus .timeout ∧ Deed.StaysBusy deeds)
  refused : answer = .error (.config .invalidConfig) → ∀ deed ∈ deeds, deed.IsRead

namespace PulseCall

variable {high period : UInt32} {bench : PulseBench σ} {deeds : List Deed}

theorem refusal (times : PulseTrain.ofNanos? (increment bench).1.toUInt32 high period = none)
    (reads : ∀ deed ∈ deeds, deed.IsRead) :
    PulseCall high period bench (.error (.config .invalidConfig)) deeds where
  stopped := .of_none (Deed.Harmless.reads reads).spared
  spaced := (Deed.Harmless.reads reads).spaced
  scheduled := nofun
  failed := by
    rintro _ ⟨rfl⟩
    exact ⟨(Deed.Harmless.reads reads).spared, Or.inl ⟨rfl, times⟩⟩
  refused _ := reads

theorem timeout (harmless : Deed.Harmless deeds) (busy : Deed.StaysBusy deeds) :
    PulseCall high period bench (.error (.bus .timeout)) deeds where
  stopped := .of_none harmless.spared
  spaced := harmless.spaced
  scheduled := nofun
  failed := by
    rintro _ ⟨rfl⟩
    exact ⟨harmless.spared, Or.inr ⟨rfl, busy⟩⟩
  refused := nofun

/-- What is programmed for an output that was stopped and is idle. -/
theorem success {train : PulseTrain} {ready : Traced (PulseBench σ)}
    (lengths : PulseTrain.ofNanos? (increment bench).1.toUInt32 high period = some train)
    (harmless : Deed.Harmless ready.deeds) (stopped : Deed.StoppedAndIdle ready.deeds)
    (since : Deed.SincePulseIdle ready.deeds) :
    PulseCall high period bench (.ok ()) (train.schedule ready).2.deeds := by
  obtain ⟨reads, clock, reading⟩ := now_reads ready
  have before : Deed.Harmless (now ready).2.deeds := clock ▸ harmless.append reading
  have unwritten : Deed.SincePulseIdle (now ready).2.deeds :=
    clock ▸ since.append fun word among => (reading _ among).not_write _ word rfl
  rw [schedule_deeds]
  constructor
  case stopped =>
    refine .append (.of_none before.spared) (.after fun written => ?_)
    rw [clock, List.append_assoc]
    exact stopped.append _
  case spaced =>
    refine .append before.spaced (.append (.of_none (train.values_not_command _)) (.single ?_))
    -- the values go to other registers, so the start finds the output as the clock's reading left it
    rw [List.append_nil]
    exact unwritten.append (train.values_elsewhere _)
  case scheduled => exact fun _ => ⟨train, ready, lengths, rfl⟩
  case failed => exact nofun
  case refused => exact nofun

end PulseCall

/-- Whatever mode and whatever command a request for a pulse train finds, and whenever the hardware is done with a
command, if ever. -/
theorem pulses_started_in_order (high period : UInt32) (bench : PulseBench σ) :
    let call := (startPulses high period).run ({ rest := bench } : Traced (PulseBench σ))
    PulseCall high period bench call.1 call.2.deeds := by
  let env : Traced (PulseBench σ) := { rest := bench }
  have first : ∀ deed ∈ (increment env).2.deeds, deed.IsRead := List.forall_mem_singleton.mpr trivial
  have asked : (increment env).1 = (increment bench).1 := rfl
  intro call
  have run : call = _ := startPulses_apply high period env
  rw [asked] at run
  cases lengths : PulseTrain.ofNanos? (increment bench).1.toUInt32 high period with
  | none =>
    rw [run, lengths]
    exact .refusal lengths first
  | some train =>
    obtain ⟨outcome, stopping, stopped, stopRun, stopDeeds, stops⟩ := stopPulses_stops (increment env).2
    rw [lengths] at run
    dsimp only at run
    rw [stopRun] at run
    have harmless : Deed.Harmless stopped.deeds := by
      rw [stopDeeds]
      exact ⟨List.forall_mem_append.mpr ⟨(Deed.Harmless.reads first).spared, stops.not_programsTrain⟩,
        (Deed.Harmless.reads first).spaced.append (stops.spaced _)⟩
    cases outcome with
    | error fault =>
      cases stops with
      | late _ busy =>
        rw [run]
        exact .timeout harmless (stopDeeds ▸ busy.prepend _)
    | ok _ =>
      obtain ⟨mode, stop, among, stops⟩ := stops.stops
      obtain ⟨outcome, looks, ready, waitRun, waitDeeds, -, waits⟩ := awaitPulseIdle_waits stopped
      dsimp only at run
      rw [waitRun] at run
      have still : Deed.Harmless ready.deeds := waitDeeds ▸ harmless.append waits.reads
      cases outcome with
      | error fault =>
        obtain ⟨rfl, busy⟩ := waits.staysBusy
        rw [run]
        exact .timeout still (waitDeeds ▸ busy.prepend _)
      | ok _ =>
        have idle := waits.sincePulseIdle mode
        rw [run]
        refine .success lengths still ?_ (waitDeeds ▸ idle.prepend _)
        obtain ⟨_, _, rfl, ⟨look, found, finds⟩, -⟩ := idle
        refine ⟨stopped.deeds, _, waitDeeds, ⟨stop, ?_, stops⟩, look, List.mem_append_right _ found, finds⟩
        exact stopDeeds ▸ List.mem_append_right _ among

end PulseBench

end EthernetMac

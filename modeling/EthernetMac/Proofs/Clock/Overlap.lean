import EthernetMac.Proofs.Clock.Loading

namespace EthernetMac

open Bus Clock

namespace TimeUnit

variable {unit : TimeUnit} {command : TimeCommand} {words : TimeWords}

theorem Kept.of_carryOut {done : TimeCommand → Bool} (kept : (unit.carryOut done).Kept) : unit.Kept :=
  fun execution among => kept execution (List.mem_append_left _ among)

/-- What is carried out now without being spoilt finds what was asked for. -/
theorem Kept.finished {done : TimeCommand → Bool} (kept : (unit.carryOut done).Kept) (now : done command = true)
    (under : unit.pending command = some words) : unit.update = words :=
  kept ⟨command, words, unit.update⟩ (List.mem_append_right _ (mem_finishing.mpr ⟨now, under, rfl⟩))

/-- Hardware at its worst: a command is carried out as soon as it finds something else than was asked for. -/
def atWorst (unit : TimeUnit) (command : TimeCommand) : Bool :=
  (unit.pending command).any fun words => words ≠ unit.update

theorem Kept.atWorst (kept : (unit.carryOut unit.atWorst).Kept) (under : unit.pending command = some words) :
    unit.update = words := by
  by_cases same : unit.update = words
  · exact same
  · have now : unit.atWorst command = true := by
      rw [TimeUnit.atWorst, under]
      simpa using Ne.symm same
    exact kept.finished now under

/-- If nothing is spoilt at the later of two moments, nothing was at the earlier one, and no command has ended in
between. -/
def Retains (before after : TimeUnit) : Prop :=
  after.Kept → before.Kept ∧ ∀ command words, before.pending command = some words → after.pending command = some words

theorem Retains.trans {before middle after : TimeUnit} (one : before.Retains middle) (two : middle.Retains after) :
    before.Retains after := fun kept =>
  have middle := one (two kept).1
  ⟨middle.1, fun command words under => (two kept).2 command words (middle.2 command words under)⟩

theorem Retains.atWorst (unit : TimeUnit) : unit.Retains (unit.carryOut unit.atWorst) := by
  refine fun kept => ⟨kept.of_carryOut, fun command words under => ?_⟩
  have same : unit.update = words := kept.atWorst under
  have later : unit.atWorst command = false := by
    rw [TimeUnit.atWorst, under]
    simpa using same.symm
  change (if unit.atWorst command then none else unit.pending command) = some words
  rw [later, under]
  rfl

/-- A word that was read from the control register and is written back takes back no command. -/
theorem Retains.order {found unit : TimeUnit} (retains : found.Retains unit) (bit : UInt32) :
    found.Retains (unit.order (found.controlWord ||| bit)) := by
  refine fun kept => ⟨(retains kept).1, fun command words under => ?_⟩
  have shown : (found.controlWord ||| bit) &&& command.bit ≠ 0 := controlWord_or (by rw [under]; rfl) bit
  change (if (found.controlWord ||| bit) &&& command.bit = 0 then none
    else some ((unit.pending command).getD unit.asked)) = some words
  rw [if_neg shown, (retains kept).2 command words under]
  rfl

/-- Given while nothing is under way, a command is under way for what the call in progress asks for. -/
theorem IsIdle.order (idle : unit.IsIdle) (found : UInt32) (command : TimeCommand) :
    (unit.order (found ||| command.bit)).pending command = some unit.asked := by
  have given : (found ||| command.bit) &&& command.bit ≠ 0 := by
    rw [UInt32.or_comm]
    refine or_and_ne_zero found ?_
    cases command with
    | load => decide
    | step => decide
  change (if (found ||| command.bit) &&& command.bit = 0 then none
    else some ((unit.pending command).getD unit.asked)) = some unit.asked
  rw [if_neg given, idle command]
  rfl

end TimeUnit

namespace TimeBench

/-- The bench with hardware at its worst. -/
abbrev AtWorst : Type := TimeBench TimeUnit.atWorst

def Retains (before after : AtWorst) : Prop := before.unit.Retains after.unit

theorem Retains.composes : Composes Retains where
  refl _ kept := ⟨kept, fun _ _ under => under⟩
  trans := TimeUnit.Retains.trans

theorem retains_called (bench : AtWorst) (words : TimeWords) : Retains bench (bench.called words) :=
  TimeUnit.Retains.atWorst bench.unit

theorem retains_submit (words : TimeWords) (awaited : UInt32) (command : TimeCommand) :
    Across Retains (submit words awaited command.bit : Attempt AtWorst Failure Unit).run := by
  refine submit_across Retains.composes (fun bench => TimeUnit.Retains.atWorst _) awaited (fun bench => ?_)
    fun bench => ?_
  · have half : Retains bench (bench.halfway words) := TimeUnit.Retains.atWorst _
    have whole : Retains (bench.halfway words) (setUpdate words.seconds words.nanoseconds bench).2 :=
      TimeUnit.Retains.atWorst _
    exact half.trans whole
  · have read : Retains bench ⟨bench.passed⟩ := TimeUnit.Retains.atWorst _
    have written : TimeUnit.Retains bench.passed (Clock.command command.bit bench).2.unit :=
      (TimeUnit.Retains.atWorst bench.passed).order command.bit
    exact read.trans written

theorem retains_served (bench : AtWorst) (request : TimeRequest) :
    Retains (bench.called request.words) (bench.serve request).2 := by
  by_cases accepted : request.IsAccepted
  · rw [serve_accepted accepted]
    exact retains_submit _ _ _ _
  · rw [serve_rejected accepted]
    exact Retains.composes.refl _

theorem retains_serveAll (bench : AtWorst) (burst : List TimeRequest) : Retains bench (bench.serveAll burst).2 := by
  induction burst generalizing bench with
  | nil => exact Retains.composes.refl _
  | cons request rest ih => exact ((retains_called bench _).trans (retains_served bench request)).trans (ih _)

theorem serve_update {latency : TimeUnit → TimeCommand → Bool} {request : TimeRequest} (accepted : request.IsAccepted)
    (bench : TimeBench latency) : (bench.serve request).2.unit.update = request.words := by
  rw [serve_accepted accepted]
  exact submit_update _ _ _ _

/-- Once something is under way, everything that is accepted has to ask for the same. -/
theorem agrees_of_pending {bench : AtWorst} {command : TimeCommand} {words : TimeWords} {burst : List TimeRequest}
    (under : bench.unit.pending command = some words) (kept : (bench.serveAll burst).2.settled.unit.Kept) :
    bench.unit.update = words ∧ Agrees words burst := by
  induction burst generalizing bench with
  | nil => exact ⟨kept.finished rfl under, fun request among => absurd among List.not_mem_nil⟩
  | cons request rest ih =>
    have served := retains_served bench request (retains_serveAll _ rest kept.of_carryOut).1
    have called := retains_called bench request.words served.1
    obtain ⟨there, agrees⟩ := ih (served.2 _ _ (called.2 _ _ under)) kept
    -- what a request has written is tried by the next access or by the end of the burst, so `there` is about the rest
    refine ⟨TimeUnit.Kept.atWorst served.1 under, List.forall_mem_cons.mpr ⟨fun accepted => ?_, agrees⟩⟩
    exact (serve_update accepted bench).symm.trans there

/-- What is asked for while nothing is under way is under way afterwards. -/
theorem pending_of_idle {latency : TimeUnit → TimeCommand → Bool} {bench : TimeBench latency} {request : TimeRequest}
    (idle : bench.unit.IsIdle) (accepted : request.IsAccepted) :
    (bench.serve request).2.unit.pending request.command = some request.words := by
  have called : (bench.called request.words).unit.IsIdle := idle.carryOut _
  rw [serve_accepted accepted, submit_idle called]
  let ready : TimeBench latency :=
    ⟨(setUpdate request.words.seconds request.words.nanoseconds (bench.called request.words)).2.passed⟩
  have free : (⟨ready.passed⟩ : TimeBench latency).passed.IsIdle :=
    (((setUpdate_idle called _).carryOut _).carryOut _).carryOut _
  exact free.order ready.passed.controlWord request.command

theorem agrees_of_kept {bench : AtWorst} {burst : List TimeRequest} (idle : bench.unit.IsIdle)
    (kept : (bench.serveAll burst).2.settled.unit.Kept) : ∃ words, Agrees words burst := by
  induction burst generalizing bench with
  | nil => exact ⟨bench.unit.update, fun request among => absurd among List.not_mem_nil⟩
  | cons request rest ih =>
    by_cases accepted : request.IsAccepted
    · obtain ⟨-, agrees⟩ := agrees_of_pending (pending_of_idle idle accepted) kept
      exact ⟨request.words, List.forall_mem_cons.mpr ⟨fun _ => rfl, agrees⟩⟩
    · have still : (bench.serve request).2.unit.IsIdle := by
        rw [serve_rejected accepted]
        exact idle.carryOut _
      obtain ⟨words, agrees⟩ := ih still kept
      exact ⟨words, List.forall_mem_cons.mpr ⟨fun now => absurd now accepted, agrees⟩⟩

theorem kept_serveBursts {bench : AtWorst} {bursts : List (List TimeRequest)}
    (kept : (bench.serveBursts bursts).2.unit.Kept) : bench.unit.Kept := by
  induction bursts generalizing bench with
  | nil => exact kept
  | cons burst rest ih => exact (retains_serveAll bench burst (ih kept).of_carryOut).1

theorem bursts_agree_of_kept {bench : AtWorst} {bursts : List (List TimeRequest)} (idle : bench.unit.IsIdle)
    (kept : (bench.serveBursts bursts).2.unit.Kept) : ∀ burst ∈ bursts, ∃ words, Agrees words burst := by
  induction bursts generalizing bench with
  | nil => exact fun burst among => absurd among List.not_mem_nil
  | cons burst rest ih =>
    exact List.forall_mem_cons.mpr ⟨agrees_of_kept idle (kept_serveBursts kept), ih (settled_idle _) kept⟩

/-- Whatever hardware it is, and whenever it carries commands out: all that is asked for reaches it unchanged, and all
that fails leaves the clock as it was, if and only if those requests that are made without waiting for the hardware in
between ask for the same. -/
theorem requested_time_kept_iff (bursts : List (List TimeRequest)) :
    (∀ (latency : TimeUnit → TimeCommand → Bool) (bench : TimeBench latency), bench.unit.IsIdle → bench.unit.Kept →
      (bench.serveBursts bursts).2.unit.Kept ∧ ∀ answer ∈ (bench.serveBursts bursts).1, answer.IsHarmless) ↔
    ∀ burst ∈ bursts, ∃ words, Agrees words burst := by
  constructor
  · intro always
    let untouched : AtWorst := ⟨⟨0, ⟨0, 0⟩, ⟨0, 0⟩, fun _ => none, [], 0⟩⟩
    have idle : untouched.unit.IsIdle := fun _ => rfl
    have kept : untouched.unit.Kept := fun execution among => absurd among List.not_mem_nil
    exact bursts_agree_of_kept idle (always _ untouched idle kept).1
  · intro agree latency bench idle kept
    have faithful : bench.unit.IsFaithful := ⟨fun command words under => absurd ((idle command).symm.trans under)
      (by simp), kept⟩
    obtain ⟨all_kept, harmless⟩ := serveBursts_faithful agree faithful idle
    exact ⟨all_kept.executed, harmless⟩

/-- A clock that is set twice to the same time, and stepped after a wait; every third moment all commands end. -/
theorem requested_time_kept_waiting :
    let untouched : TimeBench fun unit _ => unit.moment % 3 = 0 := ⟨⟨0, ⟨0, 0⟩, ⟨0, 0⟩, fun _ => none, [], 0⟩⟩
    let served := untouched.serveBursts [[.setTime 1 0, .setTime 1 0], [.step 2 0 .forward]]
    served.2.unit.Kept ∧ ∀ answer ∈ served.1, answer.IsHarmless :=
  (requested_time_kept_iff _).mpr
    (List.forall_mem_cons.mpr ⟨⟨⟨1, 0⟩, by decide⟩, List.forall_mem_singleton.mpr ⟨⟨2, 0⟩, by decide⟩⟩) _ _
    (fun _ => rfl) fun _ among => absurd among List.not_mem_nil

/-- Hardware that carries nothing out for as long as the driver is at work. -/
abbrev Halted : Type := TimeBench fun _ _ => false

theorem awaitCommand_halted {bench : Halted} {awaited : UInt32} (under : bench.unit.controlWord &&& awaited ≠ 0) :
    ((awaitCommand awaited : Attempt _ BusFault Unit).run bench).1 = .error .timeout := by
  unfold awaitCommand
  generalize pollLimit = polls
  induction polls generalizing bench with
  | zero => rfl
  | succ polls ih =>
    rw [awaitClear, Attempt.bind_apply]
    have looked : (Attempt.sure (Register.clockControl.anySet awaited) : Attempt _ BusFault Bool).run bench =
        (.ok (bench.unit.controlWord &&& awaited != 0), ⟨bench.passed⟩) := rfl
    have pending : (bench.unit.controlWord &&& awaited != 0) = true := by simpa using under
    rw [looked, pending]
    have still : (⟨bench.passed⟩ : Halted).unit.controlWord &&& awaited ≠ 0 := under
    exact ih still

theorem serve_halted {bench : Halted} {request : TimeRequest} (accepted : request.IsAccepted)
    (shown : bench.unit.controlWord &&& request.awaited ≠ 0) :
    (bench.serve request).1.result = .error (.bus .timeout) ∧
      (bench.serve request).2.unit.pending = bench.unit.pending := by
  let written := (setUpdate request.words.seconds request.words.nanoseconds (bench.called request.words)).2
  have still : written.unit.controlWord &&& request.awaited ≠ 0 := shown
  have late := awaitCommand_halted still
  have waited : ((awaitCommand request.awaited : Attempt _ BusFault Unit).run written).2.unit.pending =
      bench.unit.pending :=
    awaitCommand_across (R := fun before after : Halted => after.unit.pending = before.unit.pending)
      ⟨fun _ => rfl, fun one two => two.trans one⟩ (fun _ => rfl) request.awaited written
  rw [serve_accepted accepted, submit_run]
  generalize (awaitCommand request.awaited).run written = answer at late waited ⊢
  obtain ⟨outcome, after⟩ := answer
  cases late
  exact ⟨rfl, waited⟩

/-- A request that waits in vain for a command which asks for something else changes the clock although it fails, and
the command brings to the hardware what the request asks for. -/
theorem overtaken {bench : Halted} {request : TimeRequest} (accepted : request.IsAccepted) {command : TimeCommand}
    {words : TimeWords} (under : bench.unit.pending command = some words) (there : bench.unit.update = words)
    (awaits : request.awaited &&& command.bit = command.bit) (other : request.words ≠ words) :
    ¬ (bench.serve request).1.IsHarmless ∧ ¬ (bench.serve request).2.settled.unit.Kept := by
  have shown : bench.unit.controlWord &&& request.awaited ≠ 0 := by
    intro hidden
    have set : bench.unit.controlWord &&& command.bit ≠ 0 := by
      simpa using TimeUnit.controlWord_or (by rw [under]; rfl : (bench.unit.pending command).isSome = true) 0
    rw [← awaits, ← UInt32.and_assoc, hidden, UInt32.zero_and] at set
    exact set rfl
  obtain ⟨late, still⟩ := serve_halted accepted shown
  have update := serve_update accepted bench
  constructor
  · intro harmless
    have same : (bench.serve request).2.unit.update = bench.unit.update := (harmless _ late).1
    exact other (update.symm.trans (same.trans there))
  · intro kept
    have same : (bench.serve request).2.unit.update = words := kept.finished rfl (still ▸ under)
    exact other (update.symm.trans same)

theorem pair_overtaken {bench : Halted} (idle : bench.unit.IsIdle) {first second : TimeRequest} (one : first.IsAccepted)
    (two : second.IsAccepted) (awaits : second.awaited &&& first.command.bit = first.command.bit)
    (other : second.words ≠ first.words) :
    ¬ (bench.serveBursts [[first, second]]).2.unit.Kept ∧
      ∃ answer ∈ (bench.serveBursts [[first, second]]).1, ¬ answer.IsHarmless := by
  have served : bench.serveBursts [[first, second]] =
      ([(bench.serve first).1, ((bench.serve first).2.serve second).1],
        ((bench.serve first).2.serve second).2.settled) := rfl
  obtain ⟨harmful, spoilt⟩ := overtaken two (pending_of_idle idle one) (serve_update one bench) awaits other
  rw [served]
  exact ⟨spoilt, _, List.mem_cons_of_mem _ (List.mem_cons_self ..), harmful⟩

/-- A clock that is set twice: the second call fails, and the first brings to the hardware what the second asked for. -/
theorem load_overtaken :
    let untouched : Halted := ⟨⟨0, ⟨0, 0⟩, ⟨0, 0⟩, fun _ => none, [], 0⟩⟩
    let served := untouched.serveBursts [[.setTime 1 0, .setTime 2 0]]
    ¬ served.2.unit.Kept ∧ ∃ answer ∈ served.1, ¬ answer.IsHarmless :=
  pair_overtaken (fun _ => rfl) (by decide) (by decide) (by decide) (by decide)

end TimeBench

end EthernetMac

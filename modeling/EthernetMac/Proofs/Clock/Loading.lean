import EthernetMac.Proofs.Clock.TimeUnit

namespace EthernetMac

open Bus Clock

variable {latency : TimeUnit → TimeCommand → Bool}

namespace TimeUnit

/-- All that has been carried out found what was asked for. -/
def Kept (unit : TimeUnit) : Prop := ∀ execution ∈ unit.executed, execution.found = execution.asked

/-- What is under way finds what was asked for as long as nothing changes, and so did all that has been carried out. -/
structure IsFaithful (unit : TimeUnit) : Prop where
  pending : ∀ command words, unit.pending command = some words → words = unit.update
  executed : unit.Kept

theorem IsFaithful.carryOut {unit : TimeUnit} (faithful : unit.IsFaithful) (done : TimeCommand → Bool) :
    (unit.carryOut done).IsFaithful where
  pending command words under := by
    refine faithful.pending command words ?_
    change (if done command then none else unit.pending command) = some words at under
    split at under
    · cases under
    · exact under
  executed execution among := by
    rcases List.mem_append.mp among with old | new
    · exact faithful.executed execution old
    · obtain ⟨_, under, found⟩ := mem_finishing.mp new
      rw [found, faithful.pending _ _ under]

/-- The call in progress asks for `words`, and may write them to the update registers: nothing is under way, or it is
what stands there already. -/
structure Admits (words : TimeWords) (unit : TimeUnit) : Prop where
  faithful : unit.IsFaithful
  asked : unit.asked = words
  free : unit.IsIdle ∨ unit.update = words

namespace Admits

variable {words : TimeWords} {unit : TimeUnit}

theorem carryOut (admits : unit.Admits words) (done : TimeCommand → Bool) : (unit.carryOut done).Admits words where
  faithful := admits.faithful.carryOut done
  asked := admits.asked
  free := admits.free.imp_left fun idle => idle.carryOut done

/-- A change of the update registers that is none if something is under way. -/
theorem rewrite (admits : unit.Admits words) {update : TimeWords} (same : unit.update = words → update = words) :
    ({ unit with update := update } : TimeUnit).Admits words where
  faithful := by
    refine ⟨fun command other under => ?_, admits.faithful.executed⟩
    rcases admits.free with idle | there
    · exact absurd ((idle command).symm.trans under) (by simp)
    · exact (admits.faithful.pending command other under).trans (there.trans (same there).symm)
  asked := admits.asked
  free := admits.free.imp_right same

end Admits

/-- After the update registers were written, a word may be written to the control register: what it starts finds what
the call in progress asks for. -/
theorem Admits.order {words : TimeWords} {unit : TimeUnit} (admits : unit.Admits words) (written : unit.update = words)
    (value : UInt32) : (unit.order value).Admits words where
  faithful := by
    refine ⟨fun command other under => ?_, admits.faithful.executed⟩
    change (if value &&& command.bit = 0 then none else some ((unit.pending command).getD unit.asked)) = some other
      at under
    split at under
    · cases under
    · rw [← Option.some.inj under]
      cases before : unit.pending command with
      | none => exact admits.asked.trans written.symm
      | some given => exact admits.faithful.pending command given before
  asked := admits.asked
  free := Or.inr written

/-- Between two moments of a clock nothing was written to its control register; of the commands under way some may have
been carried out. -/
structure Undirected (before after : TimeUnit) : Prop where
  control : after.control = before.control
  pending : ∀ command, after.pending command = before.pending command ∨ after.pending command = none

namespace Undirected

theorem refl (unit : TimeUnit) : unit.Undirected unit := ⟨rfl, fun _ => Or.inl rfl⟩

theorem trans {before middle after : TimeUnit} (one : before.Undirected middle) (two : middle.Undirected after) :
    before.Undirected after where
  control := two.control.trans one.control
  pending command := by
    rcases two.pending command with same | gone
    · exact (one.pending command).imp same.trans same.trans
    · exact Or.inr gone

theorem carryOut (unit : TimeUnit) (done : TimeCommand → Bool) : unit.Undirected (unit.carryOut done) where
  control := rfl
  pending command := by
    change (if done command then none else unit.pending command) = _ ∨
      (if done command then none else unit.pending command) = _
    split
    · exact Or.inr rfl
    · exact Or.inl rfl

end Undirected

end TimeUnit

/-- What came of a request, with the clock as the call found it and as it left it. -/
structure TimeAnswer where
  request : TimeRequest
  result : Except Failure Unit
  before : TimeUnit
  after : TimeUnit

/-- A request that fails leaves the three registers as they were; meanwhile commands may end. -/
def TimeAnswer.IsHarmless (answer : TimeAnswer) : Prop :=
  ∀ failure, answer.result = .error failure →
    answer.after.update = answer.before.update ∧ answer.before.Undirected answer.after

namespace TimeBench

/-- The clock as it is found by a call that asks for something. -/
def called (bench : TimeBench latency) (words : TimeWords) : TimeBench latency :=
  ⟨{ bench.passed with asked := words }⟩

def serve (request : TimeRequest) (bench : TimeBench latency) : TimeAnswer × TimeBench latency :=
  let called := bench.called request.words
  let served := request.perform.run called
  (⟨request, served.1, called.unit, served.2.unit⟩, served.2)

/-- Requests one right after the other. -/
def serveAll : List TimeRequest → TimeBench latency → List TimeAnswer × TimeBench latency
  | [], bench => ([], bench)
  | request :: rest, bench =>
    let served := bench.serve request
    let later := serveAll rest served.2
    (served.1 :: later.1, later.2)

/-- Bursts of requests. After each the caller waits until the hardware is done with all that is under way. -/
def serveBursts : List (List TimeRequest) → TimeBench latency → List TimeAnswer × TimeBench latency
  | [], bench => ([], bench)
  | burst :: rest, bench =>
    let served := serveAll burst bench
    let later := serveBursts rest served.2.settled
    (served.1 ++ later.1, later.2)

/-- The clock with one of the two update registers written. -/
def halfway (bench : TimeBench latency) (words : TimeWords) : TimeBench latency :=
  ⟨{ bench.passed with update := ⟨words.seconds, bench.passed.update.nanoseconds⟩ }⟩

theorem submit_run (words : TimeWords) (awaited bit : UInt32) (bench : TimeBench latency) :
    (submit words awaited bit).run bench =
      match (awaitCommand awaited).run (setUpdate words.seconds words.nanoseconds bench).2 with
      | (.ok _, ready) => (.ok (), (command bit ready).2)
      | (.error fault, late) => (.error (.bus fault), late) := by
  unfold submit
  rw [Attempt.bind_apply]
  change ((awaitCommand awaited).relabel Failure.bus >>= fun _ => Attempt.sure (command bit)).run
    (setUpdate words.seconds words.nanoseconds bench).2 = _
  rw [Attempt.bind_apply, Attempt.relabel_apply]
  generalize (awaitCommand awaited).run (setUpdate words.seconds words.nanoseconds bench).2 = waited
  obtain ⟨outcome, after⟩ := waited
  cases outcome with
  | ok _ => rfl
  | error fault => rfl

/-- What the update registers bring about, and neither a look nor the command undoes, is the case in the end. -/
theorem submit_ends {P : TimeBench latency → Prop} {words : TimeWords} {awaited bit : UInt32}
    {bench : TimeBench latency} (written : P (setUpdate words.seconds words.nanoseconds bench).2)
    (looked : ∀ bench, P bench → P ⟨bench.passed⟩) (commanded : ∀ bench, P bench → P (command bit bench).2) :
    P ((submit words awaited bit).run bench).2 := by
  have waited := awaitCommand_across (R := fun before after => P before → P after)
    ⟨fun _ => id, fun one two => two ∘ one⟩ looked awaited _ written
  rw [submit_run]
  generalize (awaitCommand awaited).run (setUpdate words.seconds words.nanoseconds bench).2 = answer at waited ⊢
  obtain ⟨outcome, after⟩ := answer
  cases outcome with
  | ok _ => exact commanded after waited
  | error fault => exact waited

theorem submit_update (words : TimeWords) (awaited bit : UInt32) (bench : TimeBench latency) :
    ((submit words awaited bit).run bench).2.unit.update = words :=
  submit_ends (P := fun after => after.unit.update = words) rfl (fun _ => id) fun _ => id

/-- A wait for commands ends at once if nothing is under way. -/
theorem awaitCommand_idle {bench : TimeBench latency} (idle : bench.unit.IsIdle) (request : TimeRequest) :
    (awaitCommand request.awaited : Attempt _ BusFault Unit).run bench = (.ok (), ⟨bench.passed⟩) := by
  have clear : bench.passed.controlWord &&& request.awaited = 0 :=
    (idle.carryOut _).controlWord request.awaited_commands
  unfold awaitCommand
  rw [show pollLimit = 999999 + 1 from rfl, awaitClear, Attempt.bind_apply]
  have looked : (Attempt.sure (Register.clockControl.anySet request.awaited) : Attempt _ BusFault Bool).run bench =
      (.ok (bench.passed.controlWord &&& request.awaited != 0), ⟨bench.passed⟩) := rfl
  rw [looked, clear]
  rfl

/-- The call in progress may write the update registers, and has done so. -/
def HasWritten (words : TimeWords) (bench : TimeBench latency) : Prop :=
  bench.unit.Admits words ∧ bench.unit.update = words

theorem HasWritten.of_admits {words : TimeWords} {bench : TimeBench latency} (admits : bench.unit.Admits words) :
    HasWritten words (setUpdate words.seconds words.nanoseconds bench).2 := by
  have half : (bench.halfway words).unit.Admits words :=
    (admits.carryOut _).rewrite fun there => by rw [show bench.passed.update = words from there]
  have whole : (setUpdate words.seconds words.nanoseconds bench).2.unit.update = words := rfl
  exact ⟨(half.carryOut _).rewrite fun _ => rfl, whole⟩

theorem HasWritten.command {words : TimeWords} {bench : TimeBench latency} (written : bench.HasWritten words)
    (bit : UInt32) : (Clock.command bit bench).2.HasWritten words :=
  ⟨((written.1.carryOut _).carryOut _).order written.2 _, written.2⟩

theorem undirected_submit {words : TimeWords} {bench : TimeBench latency} {awaited bit : UInt32} {failure : Failure}
    (failed : ((submit words awaited bit).run bench).1 = .error failure) :
    bench.unit.Undirected ((submit words awaited bit).run bench).2.unit := by
  have half : bench.unit.Undirected (bench.halfway words).unit := ⟨rfl, (TimeUnit.Undirected.carryOut _ _).pending⟩
  have whole : (bench.halfway words).unit.Undirected (setUpdate words.seconds words.nanoseconds bench).2.unit :=
    ⟨rfl, (TimeUnit.Undirected.carryOut _ _).pending⟩
  have waited := awaitCommand_across
    (R := fun before after : TimeBench latency => before.unit.Undirected after.unit)
    ⟨fun _ => .refl _, .trans⟩ (fun _ => .carryOut _ _) awaited (setUpdate words.seconds words.nanoseconds bench).2
  rw [submit_run] at failed ⊢
  generalize (awaitCommand awaited).run (setUpdate words.seconds words.nanoseconds bench).2 = answer at *
  obtain ⟨outcome, after⟩ := answer
  cases outcome with
  | ok _ => cases failed
  | error fault => exact (half.trans whole).trans waited

theorem setUpdate_idle {bench : TimeBench latency} (idle : bench.unit.IsIdle) (words : TimeWords) :
    (setUpdate words.seconds words.nanoseconds bench).2.unit.IsIdle :=
  (idle.carryOut _).carryOut (latency (bench.halfway words).unit)

/-- With nothing under way, a request that passes the check of its nanoseconds succeeds. -/
theorem submit_idle {bench : TimeBench latency} (idle : bench.unit.IsIdle) (request : TimeRequest) (bit : UInt32) :
    (submit request.words request.awaited bit).run bench =
      (.ok (), (command bit
        ⟨(setUpdate request.words.seconds request.words.nanoseconds bench).2.passed⟩).2) := by
  rw [submit_run, awaitCommand_idle (setUpdate_idle idle _)]

theorem serve_rejected {request : TimeRequest} (rejected : ¬ request.IsAccepted) (bench : TimeBench latency) :
    bench.serve request =
      (⟨request, .error (.config .invalidConfig), (bench.called request.words).unit,
        (bench.called request.words).unit⟩, bench.called request.words) := by
  unfold serve
  rw [request.perform_rejected rejected]
  rfl

theorem serve_accepted {request : TimeRequest} (accepted : request.IsAccepted) (bench : TimeBench latency) :
    bench.serve request =
      let served := (submit request.words request.awaited request.command.bit).run (bench.called request.words)
      (⟨request, served.1, (bench.called request.words).unit, served.2.unit⟩, served.2) := by
  unfold serve
  rw [request.perform_accepted accepted]

/-- A request that finds nothing under way, or that asks for what stands in the update registers, brings what it asks
for to the hardware and spoils nothing. -/
theorem serve_faithful {bench : TimeBench latency} {request : TimeRequest} (accepted : request.IsAccepted)
    (faithful : bench.unit.IsFaithful) (free : bench.unit.IsIdle ∨ bench.unit.update = request.words) :
    (bench.serve request).2.HasWritten request.words ∧ (bench.serve request).1.IsHarmless := by
  have admits : (bench.called request.words).unit.Admits request.words :=
    { faithful := ⟨(faithful.carryOut _).pending, (faithful.carryOut _).executed⟩
      asked := rfl
      free := free.imp_left fun idle => idle.carryOut _ }
  have served : ((submit request.words request.awaited request.command.bit).run
      (bench.called request.words)).2.HasWritten request.words :=
    submit_ends (HasWritten.of_admits admits) (fun _ held => ⟨held.1.carryOut _, held.2⟩) fun _ held => held.command _
  have unchanged : ∀ failure, ((submit request.words request.awaited request.command.bit).run
      (bench.called request.words)).1 = .error failure → bench.unit.update = request.words := by
    intro failure failed
    rcases free with idle | there
    · have stillIdle : (bench.called request.words).unit.IsIdle := idle.carryOut _
      rw [submit_idle stillIdle] at failed
      cases failed
    · exact there
  rw [serve_accepted accepted]
  exact ⟨served, fun failure failed =>
    ⟨served.2.trans (unchanged failure failed).symm, undirected_submit failed⟩⟩

/-- What the requests of a burst that are accepted ask for. -/
def Agrees (words : TimeWords) (burst : List TimeRequest) : Prop :=
  ∀ request ∈ burst, request.IsAccepted → request.words = words

instance (words : TimeWords) (burst : List TimeRequest) : Decidable (Agrees words burst) :=
  inferInstanceAs (Decidable (∀ request ∈ burst, request.IsAccepted → request.words = words))

/-- Requests that all ask for the same, which stands in the update registers if something is under way, are all brought
to the hardware. -/
theorem serveAll_faithful {bench : TimeBench latency} {words : TimeWords} {burst : List TimeRequest}
    (agrees : Agrees words burst) (faithful : bench.unit.IsFaithful)
    (free : bench.unit.IsIdle ∨ bench.unit.update = words) :
    (serveAll burst bench).2.unit.IsFaithful ∧ ∀ answer ∈ (serveAll burst bench).1, answer.IsHarmless := by
  induction burst generalizing bench with
  | nil => exact ⟨faithful, fun answer among => absurd among List.not_mem_nil⟩
  | cons request rest ih =>
    have later : Agrees words rest := fun other among => agrees other (List.mem_cons_of_mem _ among)
    by_cases accepted : request.IsAccepted
    · have same : request.words = words := agrees request (List.mem_cons_self ..) accepted
      obtain ⟨written, harmless⟩ := serve_faithful accepted faithful (same ▸ free)
      obtain ⟨kept, rest_harmless⟩ := ih later written.1.faithful (Or.inr (written.2.trans same))
      exact ⟨kept, List.forall_mem_cons.mpr ⟨harmless, rest_harmless⟩⟩
    · have served := serve_rejected accepted bench
      have passed : (bench.serve request).2.unit.IsFaithful := by
        rw [served]
        exact ⟨(faithful.carryOut _).pending, (faithful.carryOut _).executed⟩
      have still : (bench.serve request).2.unit.IsIdle ∨ (bench.serve request).2.unit.update = words := by
        rw [served]
        exact free.imp_left fun idle => idle.carryOut _
      have harmless : (bench.serve request).1.IsHarmless := by
        rw [served]
        exact fun _ _ => ⟨rfl, .refl _⟩
      obtain ⟨kept, rest_harmless⟩ := ih later passed still
      exact ⟨kept, List.forall_mem_cons.mpr ⟨harmless, rest_harmless⟩⟩

theorem settled_idle (bench : TimeBench latency) : bench.settled.unit.IsIdle := fun _ => rfl

/-- Bursts each of which asks for one thing only. -/
theorem serveBursts_faithful {bench : TimeBench latency} {bursts : List (List TimeRequest)}
    (agrees : ∀ burst ∈ bursts, ∃ words, Agrees words burst) (faithful : bench.unit.IsFaithful)
    (idle : bench.unit.IsIdle) :
    (serveBursts bursts bench).2.unit.IsFaithful ∧ ∀ answer ∈ (serveBursts bursts bench).1, answer.IsHarmless := by
  induction bursts generalizing bench with
  | nil => exact ⟨faithful, fun answer among => absurd among List.not_mem_nil⟩
  | cons burst rest ih =>
    obtain ⟨words, one⟩ := agrees burst (List.mem_cons_self ..)
    obtain ⟨kept, harmless⟩ := serveAll_faithful one faithful (Or.inl idle)
    obtain ⟨all_kept, rest_harmless⟩ := ih (fun other among => agrees other (List.mem_cons_of_mem _ among))
      (kept.carryOut _) (settled_idle _)
    exact ⟨all_kept, List.forall_mem_append.mpr ⟨harmless, rest_harmless⟩⟩

end TimeBench

end EthernetMac

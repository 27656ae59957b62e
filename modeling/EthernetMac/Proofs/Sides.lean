import Mathlib.Logic.Function.Basic
import EthernetMac.Proofs.Lockstep
import EthernetMac.Proofs.OwnSteps
import EthernetMac.Proofs.Trace

namespace EthernetMac

variable {g : Geometry} {σ : Type}

/-- What the two handlers of an application have been told: one of received frames, the other of timestamps. -/
structure Heard where
  frames : List Frame := []
  stamps : List (Option Callback × TxTimestamp) := []
deriving DecidableEq

/-- Two handlers that only keep a record each. The one for received frames answers by what it has been offered. -/
def Application.recording (answer : List Frame → Disposition) : Application g (Recorded Heard σ) where
  onEvent
    | .frameAvailable frame => fun board =>
      some (answer (board.world.record.frames ++ [frame]),
        board.recorded fun heard => { heard with frames := heard.frames ++ [frame] })
    | .transmitTimestamp stamp => fun board =>
      some (.accepted, board.recorded fun heard => { heard with stamps := heard.stamps ++ [(none, stamp)] })
    | _ => return .accepted
  onStamp callback stamp := fun board =>
    some ((), board.recorded fun heard => { heard with stamps := heard.stamps ++ [(some callback, stamp)] })

theorem Application.deliverStamp_recording (answer : List Frame → Disposition)
    (delivery : Option Callback × TxTimestamp) (board : Board g (Recorded Heard σ)) :
    Board.deliverStamp (.recording answer) delivery board =
      some ((), board.recorded fun heard => { heard with stamps := heard.stamps ++ [delivery] }) := by
  obtain ⟨callback, stamp⟩ := delivery
  cases callback with
  | none => rfl
  | some callback => rfl

theorem Application.recording_answers (answer : List Frame → Disposition) :
    (recording answer : Application g (Recorded Heard σ)).Answers := by
  intro event board
  cases event with
  | frameAvailable frame => exact ⟨_, rfl⟩
  | transmitTimestamp stamp => exact ⟨_, rfl⟩
  | receiveReady => exact ⟨_, rfl⟩
  | linkChanged link => exact ⟨_, rfl⟩

/-- What has changed from one board to the other is the receive side only; what was done on the bus has the given
property. -/
structure OnlyReceived (bus : σ → σ → Prop) (before after : Board g (Recorded Heard σ)) : Prop where
  mac : after.mac = { before.mac with receiver := after.mac.receiver }
  record : after.world.record = { before.world.record with frames := after.world.record.frames }
  bus : bus before.world.rest after.world.rest

/-- What has changed from one board to the other is the transmit side only, and nothing was done on the bus. -/
structure OnlyCompleted (before after : Board g (Recorded Heard σ)) : Prop where
  mac : after.mac = { before.mac with transmitter := after.mac.transmitter }
  record : after.world.record = { before.world.record with stamps := after.world.record.stamps }
  bus : after.world.rest = before.world.rest

namespace OnlyReceived

variable {bus : σ → σ → Prop} (composes : Bus.Composes bus)

include composes

theorem refl (board : Board g (Recorded Heard σ)) : OnlyReceived bus board board :=
  ⟨rfl, rfl, composes.refl _⟩

theorem trans {before middle after : Board g (Recorded Heard σ)} (first : OnlyReceived bus before middle)
    (second : OnlyReceived bus middle after) : OnlyReceived bus before after where
  mac := by
    rw [second.mac, first.mac]
  record := by
    rw [second.record, first.record]
  bus := composes.trans first.bus second.bus

theorem processReceived [Bus σ] (position : Bus.Across bus Register.currentRxDescriptor.read)
    (wake : Bus.Across bus (Register.rxTailPointer.write 0)) (answer : List Frame → Disposition) :
    Call.Ensures (OnlyReceived bus : Board g (Recorded Heard σ) → _ → Prop)
      (Board.processReceived (.recording answer)) := by
  have spans : Board.Spans Board.ReceiveStep (OnlyReceived bus : Board g (Recorded Heard σ) → _ → Prop) := by
    refine ⟨refl composes, trans composes, fun {before after} step => ?_⟩
    cases step with
    | note entry => exact ⟨rfl, rfl, composes.refl _⟩
    | mark flag => exact ⟨rfl, rfl, composes.refl _⟩
    | locate => exact ⟨rfl, rfl, position _⟩
    | gather scratch => exact ⟨rfl, rfl, composes.refl _⟩
    | rearm first count => exact ⟨rfl, rfl, composes.refl _⟩
    | wake => exact ⟨rfl, rfl, wake _⟩
  refine spans.processReceived fun frame before disposition after told => ?_
  obtain ⟨_, rfl⟩ := Prod.mk.inj (Option.some.inj told)
  exact ⟨rfl, rfl, composes.refl _⟩

omit composes in
theorem of_run [Bus σ] {answer : List Frame → Disposition} {count : Nat} {before after : Board g (Recorded Heard σ)}
    (run : Board.processReceived (.recording answer) before = some (count, after)) :
    OnlyReceived (fun _ _ => True) before after :=
  processReceived ⟨fun _ => trivial, fun _ _ => trivial⟩ (fun _ => trivial) (fun _ => trivial) answer _ _ _ run

end OnlyReceived

namespace OnlyCompleted

theorem refl (board : Board g (Recorded Heard σ)) : OnlyCompleted board board :=
  ⟨rfl, rfl, rfl⟩

theorem trans {before middle after : Board g (Recorded Heard σ)} (first : OnlyCompleted before middle)
    (second : OnlyCompleted middle after) : OnlyCompleted before after where
  mac := by
    rw [second.mac, first.mac]
  record := by
    rw [second.record, first.record]
  bus := second.bus.trans first.bus

theorem processCompletions (answer : List Frame → Disposition) (limit : Nat) :
    Call.Ensures (OnlyCompleted : Board g (Recorded Heard σ) → _ → Prop)
      (Board.processCompletions (.recording answer) limit) := by
  have spans : Board.Spans Board.ScanStep (OnlyCompleted : Board g (Recorded Heard σ) → _ → Prop) := by
    refine ⟨refl, trans, fun {before after} step => ?_⟩
    cases step with
    | scanning => exact ⟨rfl, rfl, rfl⟩
    | scanned => exact ⟨rfl, rfl, rfl⟩
    | deferred => exact ⟨rfl, rfl, rfl⟩
  refine spans.processCompletions (fun {before after i} _ delivery => ?_) limit
  rw [Application.deliverStamp_recording] at delivery
  obtain ⟨_, rfl⟩ := Prod.mk.inj (Option.some.inj delivery)
  exact ⟨rfl, rfl, rfl⟩

end OnlyCompleted

/-- The second board is the first one with another transmit side, and the channel of that side woken perhaps. Both have
taken the same notes since they had others. -/
structure OtherTransmit (transmitter : Transmitter g) (stamps : List (Option Callback × TxTimestamp)) (wake : σ → σ)
    (left right : Array Diagnostic) (one two : Board g (Recorded Heard σ)) : Prop where
  mac : two.mac = { one.mac with transmitter := transmitter }
  record : two.world.record = { one.world.record with stamps := stamps }
  rest : two.world.rest = wake one.world.rest
  notes : ∃ notes, one.journal = left ++ notes ∧ two.journal = right ++ notes

/-- The second board is the first one with another receive side, and other surroundings. -/
structure OtherReceive (receiver : Receiver g) (frames : List Frame) (rest : σ) (left right : Array Diagnostic)
    (one two : Board g (Recorded Heard σ)) : Prop where
  mac : two.mac = { one.mac with receiver := receiver }
  record : two.world.record = { one.world.record with frames := frames }
  rest : two.world.rest = rest
  notes : ∃ notes, one.journal = left ++ notes ∧ two.journal = right ++ notes

/-- What is done on the bus makes no difference to the receive side. -/
structure Bus.SparesReceive [Bus σ] (wake : σ → σ) : Prop where
  position : ∀ env, Register.currentRxDescriptor.read (wake env) =
    ((Register.currentRxDescriptor.read env).1, wake (Register.currentRxDescriptor.read env).2)
  tail : ∀ env, (Register.rxTailPointer.write 0 (wake env)).2 = wake (Register.rxTailPointer.write 0 env).2

theorem Bus.SparesReceive.id [Bus σ] : SparesReceive (fun env => env : σ → σ) := ⟨fun _ => rfl, fun _ => rfl⟩

theorem notes_push {left right one two : Array Diagnostic} (entry : Diagnostic)
    (same : ∃ notes, one = left ++ notes ∧ two = right ++ notes) :
    ∃ notes, one.push entry = left ++ notes ∧ two.push entry = right ++ notes := by
  obtain ⟨notes, rfl, rfl⟩ := same
  exact ⟨notes.push entry, Array.push_append, Array.push_append⟩

theorem OnlyCompleted.otherTransmit {before after : Board g (Recorded Heard σ)}
    (completed : OnlyCompleted before after) :
    OtherTransmit after.mac.transmitter after.world.record.stamps (fun env => env) before.journal after.journal before
      after where
  mac := completed.mac
  record := completed.record
  rest := completed.bus
  notes := ⟨#[], Array.append_empty.symm, Array.append_empty.symm⟩

theorem OnlyReceived.otherReceive {bus : σ → σ → Prop} {before after : Board g (Recorded Heard σ)}
    (received : OnlyReceived bus before after) :
    OtherReceive after.mac.receiver after.world.record.frames after.world.rest before.journal after.journal before
      after where
  mac := received.mac
  record := received.record
  rest := rfl
  notes := ⟨#[], Array.append_empty.symm, Array.append_empty.symm⟩

namespace OtherTransmit

variable {transmitter : Transmitter g} {stamps : List (Option Callback × TxTimestamp)} {wake : σ → σ}
  {left right : Array Diagnostic}

theorem sharesReceiver [Bus σ] (spares : Bus.SparesReceive wake) :
    Board.SharesReceiver (OtherTransmit (g := g) transmitter stamps wake left right) where
  lifecycle same := by rw [same.mac]
  receiver same := by rw [same.mac]
  modify change same := ⟨by simp [same.mac], same.record, same.rest, same.notes⟩
  note entry same := ⟨same.mac, same.record, same.rest, notes_push entry same.notes⟩
  position {one two} same := by
    have read := spares.position one.world.rest
    rw [← same.rest] at read
    obtain ⟨address, moved⟩ := Prod.ext_iff.mp read
    exact ⟨address, same.mac, same.record, moved, same.notes⟩
  wake {one two} same := by
    have written := spares.tail one.world.rest
    rw [← same.rest] at written
    exact ⟨same.mac, same.record, written, same.notes⟩

theorem processReceived [Bus σ] (spares : Bus.SparesReceive wake) (answer : List Frame → Disposition) :
    Call.Lockstep (OtherTransmit (g := g) transmitter stamps wake left right)
      (Board.processReceived (.recording answer)) (Board.processReceived (.recording answer)) := by
  refine .processReceived (sharesReceiver spares) fun frame one two same => ?_
  have frames : two.world.record.frames = one.world.record.frames := by rw [same.record]
  refine .some ⟨by rw [frames], same.mac, ?_, same.rest, same.notes⟩
  change { two.world.record with frames := two.world.record.frames ++ [frame] } = _
  rw [frames, same.record]
  rfl

end OtherTransmit

namespace OtherReceive

variable {receiver : Receiver g} {frames : List Frame} {rest : σ} {left right : Array Diagnostic}

theorem sharesTransmitter : Board.SharesTransmitter (OtherReceive (g := g) receiver frames rest left right) where
  lifecycle same := by rw [same.mac]
  transmitter same := by rw [same.mac]
  modify change same := ⟨by simp [same.mac], same.record, same.rest, same.notes⟩
  note entry same := ⟨same.mac, same.record, same.rest, notes_push entry same.notes⟩

theorem told {one two : Board g (Recorded Heard σ)} (delivery : Option Callback × TxTimestamp)
    (same : OtherReceive receiver frames rest left right one two) :
    OtherReceive receiver frames rest left right
      (one.recorded fun heard => { heard with stamps := heard.stamps ++ [delivery] })
      (two.recorded fun heard => { heard with stamps := heard.stamps ++ [delivery] }) := by
  refine ⟨same.mac, ?_, same.rest, same.notes⟩
  change { two.world.record with stamps := two.world.record.stamps ++ [delivery] } = _
  rw [same.record]
  rfl

theorem processCompletions (answer : List Frame → Disposition) (limit : Nat) :
    Call.Lockstep (OtherReceive (g := g) (σ := σ) receiver frames rest left right)
      (Board.processCompletions (.recording answer) limit) (Board.processCompletions (.recording answer) limit) :=
  .processCompletions sharesTransmitter (fun _ _ _ same => .some ⟨rfl, same.told _⟩)
    (fun _ _ _ _ same => .some ⟨rfl, same.told _⟩) limit

end OtherReceive

/-- Two calls come to the same in either order. They give the same answers, the driver and its surroundings end up the
same, and the notes of each call are the same. -/
def Call.CommuteFrom {ε α β : Type} (board : Board g ε) (one : Call g ε α) (two : Call g ε β) : Prop :=
  ∃ a b begun other first second, one board = some (a, begun) ∧ two begun = some (b, first) ∧
    two board = some (b, other) ∧ one other = some (a, second) ∧ first.mac = second.mac ∧ first.world = second.world ∧
    ∃ early late, first.journal = board.journal ++ early ++ late ∧ second.journal = board.journal ++ late ++ early

namespace Board

variable (answer : List Frame → Disposition)

theorem drain_recording {limit : Nat} {board : Board g (Recorded Heard σ)}
    (enough : board.mac.transmitter.load ≤ limit) :
    ∃ count after, drain (.recording answer) limit board = some (count, after) ∧
      after.mac.transmitter.rescan = board.mac.transmitter.rescan := by
  induction limit generalizing board with
  | zero =>
    cases selected : board.mac.transmitter.nextStamped? with
    | none => exact ⟨_, _, drain_none _ _ selected, rfl⟩
    | some i =>
      have lighter := Transmitter.load_takeStamp (Transmitter.nextStamped?_eq_some selected).1
      omega
  | succ limit ih =>
    cases selected : board.mac.transmitter.nextStamped? with
    | none => exact ⟨_, _, drain_none _ _ selected, rfl⟩
    | some i =>
      have lighter := Transmitter.load_takeStamp (Transmitter.nextStamped?_eq_some selected).1
      have fewer : ((board.taken i).recorded fun heard =>
          { heard with stamps := heard.stamps ++ [(board.mac.transmitter.takeStamp i).1] }).mac.transmitter.load ≤
            limit := by
        change (board.mac.transmitter.takeStamp i).2.load ≤ limit
        omega
      obtain ⟨count, after, drained, still⟩ := ih fewer
      rw [drain_succ _ _ selected, Application.deliverStamp_recording, Option.bind_some]
      exact ⟨_, _, congrArg (Option.map _) drained, still⟩

/-- Handlers that only keep a record ask for no further scan, so that the first one is the last. -/
theorem processCompletions_recording {limit : Nat} (enough : g.tx ≤ limit) (board : Board g (Recorded Heard σ)) :
    ∃ count after, processCompletions (.recording answer) limit board = some (count, after) := by
  by_cases up : board.mac.lifecycle = .uninitialized
  · refine ⟨0, board, ?_⟩
    unfold processCompletions
    rw [Call.get_bind_apply, if_pos up]
    rfl
  · rw [processCompletions_apply _ _ up, scanCompletions_succ]
    split
    · exact ⟨_, _, rfl⟩
    · have load := board.scanning.mac.transmitter.load_le
      obtain ⟨count, after, drained, quiet⟩ := drain_recording answer (Nat.le_trans load enough)
      rw [drained, Option.bind_some, if_neg (by rw [quiet]; exact Bool.false_ne_true)]
      exact ⟨_, _, rfl⟩

/-- The board with another transmit side, and with its channel woken perhaps. -/
def withTransmit (board : Board g (Recorded Heard σ)) (transmitter : Transmitter g) (wake : σ → σ) :
    Board g (Recorded Heard σ) :=
  { board with
    mac := { board.mac with transmitter := transmitter }
    world := { board.world with rest := wake board.world.rest } }

section Commute

variable [Bus σ]

theorem received_completed_commute {limit : Nat} (enough : g.tx ≤ limit) (board : Board g (Recorded Heard σ)) :
    Call.CommuteFrom board (processReceived (.recording answer)) (processCompletions (.recording answer) limit) := by
  obtain ⟨received, begun, receiving⟩ := processReceived_returns (Application.recording_answers answer) board
  obtain ⟨completed, other, completing⟩ := processCompletions_recording answer enough board
  have receipt := OnlyReceived.of_run receiving
  have completion := OnlyCompleted.processCompletions answer limit _ _ _ completing
  obtain ⟨second, later, apart⟩ := (OtherTransmit.processReceived .id answer).returns
    completion.otherTransmit receiving
  obtain ⟨first, sooner, beside⟩ := (OtherReceive.processCompletions answer limit).returns
    receipt.otherReceive completing
  have record : first.world.record = second.world.record := by rw [beside.record, apart.record]
  have rest : first.world.rest = second.world.rest := by rw [beside.rest, apart.rest]
  obtain ⟨early, noted, last⟩ := apart.notes
  obtain ⟨late, noted', last'⟩ := beside.notes
  refine ⟨_, _, _, _, _, _, receiving, sooner, completing, later, ?_, ?_, early, late, ?_, ?_⟩
  · rw [beside.mac, apart.mac, completion.mac, receipt.mac]
  · change (⟨first.world.record, first.world.rest⟩ : Recorded Heard σ) = ⟨second.world.record, second.world.rest⟩
    rw [record, rest]
  · rw [last', noted]
  · rw [last, noted']

/-- What a submission that does not wait comes to is told by the transmit side. -/
theorem tryTransmit_uniform (spares : Bus.SparesReceive fun env : σ => (Register.txTailPointer.write 0 env).2)
    (bytes : Array UInt8) (options : TxOptions) (board : Board g (Recorded Heard σ)) :
    ∃ result transmitter wake, Bus.SparesReceive wake ∧ ∀ other : Board g (Recorded Heard σ),
      other.mac.lifecycle = board.mac.lifecycle → other.mac.transmitter = board.mac.transmitter →
      tryTransmit bytes options other = (result, other.withTransmit transmitter wake) := by
  by_cases running : board.mac.lifecycle = .running
  · cases fault : g.lengthFault? bytes.size with
    | some reason =>
      refine ⟨.error (.dma reason), board.mac.transmitter, fun env => env, .id, fun other life side => ?_⟩
      rw [tryTransmit_apply, if_pos (life.trans running), fault, ← side]
      rfl
    | none =>
      by_cases ready : board.mac.transmitter.isReady = true
      · refine ⟨.ok (board.mac.transmitter.fill board.mac.transmitter.nextSlot bytes options).submitted,
          board.mac.transmitter.fill board.mac.transmitter.nextSlot bytes options, _, spares, fun other life side => ?_⟩
        rw [tryTransmit_apply, if_pos (life.trans running), fault]
        dsimp only
        rw [side, if_pos ready, ← side]
        rfl
      · refine ⟨.error (.dma .descriptorBusy), board.mac.transmitter, fun env => env, .id,
          fun other life side => ?_⟩
        rw [tryTransmit_apply, if_pos (life.trans running), fault]
        dsimp only
        rw [side, if_neg ready, ← side]
        rfl
  · refine ⟨.error (.bus .invalidState), board.mac.transmitter, fun env => env, .id,
      fun other life side => ?_⟩
    rw [tryTransmit_apply, if_neg (fun other => running (life ▸ other)), ← side]
    rfl

theorem received_submitted_commute (spares : Bus.SparesReceive fun env : σ => (Register.txTailPointer.write 0 env).2)
    (bytes : Array UInt8) (options : TxOptions) (board : Board g (Recorded Heard σ)) :
    Call.CommuteFrom board (processReceived (.recording answer)) (Call.quiet (tryTransmit bytes options)) := by
  obtain ⟨received, begun, receiving⟩ := processReceived_returns (Application.recording_answers answer) board
  have receipt := OnlyReceived.of_run receiving
  obtain ⟨result, transmitter, wake, spared, submitted⟩ := tryTransmit_uniform spares bytes options board
  have here := submitted board rfl rfl
  have there := submitted begun (by rw [receipt.mac]) (by rw [receipt.mac])
  have beside : OtherTransmit transmitter board.world.record.stamps wake board.journal board.journal board
      (board.withTransmit transmitter wake) :=
    ⟨rfl, rfl, rfl, #[], Array.append_empty.symm, Array.append_empty.symm⟩
  obtain ⟨second, later, apart⟩ := (OtherTransmit.processReceived spared answer).returns beside receiving
  obtain ⟨early, noted, last⟩ := apart.notes
  refine ⟨_, result, _, _, _, _, receiving, congrArg some there, congrArg some here, later, ?_, ?_, early, #[], ?_, ?_⟩
  · rw [apart.mac]
    rfl
  · have record : second.world.record = begun.world.record := by rw [apart.record, receipt.record]
    change (⟨begun.world.record, wake begun.world.rest⟩ : Recorded Heard σ) = ⟨second.world.record, second.world.rest⟩
    rw [record, apart.rest]
  · rw [Array.append_empty]
    exact noted
  · rw [Array.append_empty]
    exact last

end Commute

section Submission

variable [Bus σ]

theorem fillSlot_spares (i : Fin g.tx) (bytes : Array UInt8) (options : TxOptions)
    (board : Board g (Recorded Heard (Traced σ))) :
    (fillSlot i bytes options board).2.mac.receiver = board.mac.receiver ∧
      Traced.Adds (Deed.WritesOnly .txTailPointer) board.world.rest (fillSlot i bytes options board).2.world.rest :=
  ⟨rfl, _, rfl, Deed.writesOnly_write _ _⟩

theorem tryTransmit_spares (bytes : Array UInt8) (options : TxOptions) (board : Board g (Recorded Heard (Traced σ))) :
    (tryTransmit bytes options board).2.mac.receiver = board.mac.receiver ∧
      Traced.Adds (Deed.WritesOnly .txTailPointer) board.world.rest (tryTransmit bytes options board).2.world.rest := by
  have nothing := (Deed.writesOnly_composes .txTailPointer).refl board.world.rest
  rw [tryTransmit_apply]
  split
  · split
    · exact ⟨rfl, nothing⟩
    · split
      · exact fillSlot_spares _ bytes options board
      · exact ⟨rfl, nothing⟩
  · exact ⟨rfl, nothing⟩

/-- What a submission that waits leaves alone is as the surroundings have left it when the wait was over. -/
theorem transmit_spares {bytes : Array UInt8} {options : TxOptions}
    {idle : BoardM g (Recorded Heard (Traced σ)) Unit} {spins : Nat} {result : Except Failure UInt16}
    {before after : Board g (Recorded Heard (Traced σ))}
    (run : transmit bytes options idle spins before = some (result, after)) :
    ∃ waited, Relation.ReflTransGen (fun one two => two = (idle one).2) before waited ∧
      after.mac.receiver = waited.mac.receiver ∧
      Traced.Adds (Deed.WritesOnly .txTailPointer) waited.world.rest after.world.rest := by
  rcases transmit_cases (R := fun one two => two = (idle one).2) (fun _ => .single rfl) run with
    ⟨_, _, rfl⟩ | ⟨_, waited, _, _, _, turns, _, rfl⟩
  · exact ⟨after, .refl, rfl, (Deed.writesOnly_composes .txTailPointer).refl _⟩
  · exact ⟨waited, turns, fillSlot_spares _ bytes options waited⟩

end Submission

end Board

/-- The two sides of the driver have nothing to do with each other. Whatever state a driver is in, a walk over received
frames leaves the transmit side alone and writes no register but its own tail pointer. Delivering timestamps leaves the
receive side alone and has nothing to do with the bus. Submitting a frame leaves the receive side alone and writes no
register but the other tail pointer. So it is all the same whether a walk comes before or after a delivery. It is all
the same whether it comes before or after a submission if a write to the one tail pointer makes no difference to the
registers of the other side. -/
theorem sides_independent [Bus σ] (answer : List Frame → Disposition) :
    (∀ (before after : Board g (Recorded Heard (Traced σ))) (count : Nat),
      Board.processReceived (.recording answer) before = some (count, after) →
        after.mac.transmitter = before.mac.transmitter ∧
          Traced.Adds (Deed.WritesOnly .rxTailPointer) before.world.rest after.world.rest) ∧
    (∀ (before after : Board g (Recorded Heard σ)) (limit count : Nat),
      Board.processCompletions (.recording answer) limit before = some (count, after) →
        after.mac.receiver = before.mac.receiver ∧ after.world.rest = before.world.rest) ∧
    (∀ (before : Board g (Recorded Heard (Traced σ))) (bytes : Array UInt8) (options : TxOptions),
      (Board.tryTransmit bytes options before).2.mac.receiver = before.mac.receiver ∧
        Traced.Adds (Deed.WritesOnly .txTailPointer) before.world.rest
          (Board.tryTransmit bytes options before).2.world.rest) ∧
    (∀ (before after : Board g (Recorded Heard (Traced σ))) (bytes : Array UInt8) (options : TxOptions)
      (idle : BoardM g (Recorded Heard (Traced σ)) Unit) (spins : Nat) (result : Except Failure UInt16),
      Board.transmit bytes options idle spins before = some (result, after) →
        ∃ waited, Relation.ReflTransGen (fun one two => two = (idle one).2) before waited ∧
          after.mac.receiver = waited.mac.receiver ∧
          Traced.Adds (Deed.WritesOnly .txTailPointer) waited.world.rest after.world.rest) ∧
    (∀ (board : Board g (Recorded Heard σ)) (limit : Nat), g.tx ≤ limit →
      Call.CommuteFrom board (Board.processReceived (.recording answer))
        (Board.processCompletions (.recording answer) limit)) ∧
    (Bus.SparesReceive (fun env : σ => (Register.txTailPointer.write 0 env).2) →
      ∀ (board : Board g (Recorded Heard σ)) (bytes : Array UInt8) (options : TxOptions),
        Call.CommuteFrom board (Board.processReceived (.recording answer))
          (Call.quiet (Board.tryTransmit bytes options))) := by
  refine ⟨fun before after count run => ?_, fun before after limit count run => ?_,
    fun before bytes options => Board.tryTransmit_spares bytes options before,
    fun _ _ _ _ _ _ _ run => Board.transmit_spares run,
    fun board limit enough => Board.received_completed_commute answer enough board,
    fun spares board bytes options => Board.received_submitted_commute answer spares bytes options board⟩
  · have receipt := OnlyReceived.processReceived (Deed.writesOnly_composes .rxTailPointer)
      (Traced.Adds.load (Deed.writesOnly_read _ _)) (Traced.Adds.store (Deed.writesOnly_write _ _)) answer _ _ _ run
    exact ⟨by rw [receipt.mac], receipt.bus⟩
  · have completion := OnlyCompleted.processCompletions answer limit _ _ _ run
    exact ⟨by rw [completion.mac], completion.bus⟩

/-- Registers that hold what is written to them, and do nothing else. -/
structure PlainRegisters where
  word : UInt32 → UInt32

instance : Bus PlainRegisters where
  read offset registers := (registers.word offset, registers)
  write offset value registers := ⟨Function.update registers.word offset value⟩
  delay _ registers := registers

theorem PlainRegisters.sparesReceive :
    Bus.SparesReceive fun registers : PlainRegisters => (Register.txTailPointer.write 0 registers).2 where
  position registers := by
    have apart : Register.currentRxDescriptor.offset ≠ Register.txTailPointer.offset := by decide
    have word : Function.update registers.word Register.txTailPointer.offset 0 Register.currentRxDescriptor.offset =
        registers.word Register.currentRxDescriptor.offset := Function.update_of_ne apart _ _
    exact Prod.ext word rfl
  tail registers := by
    have apart : Register.rxTailPointer.offset ≠ Register.txTailPointer.offset := by decide
    exact congrArg PlainRegisters.mk (Function.update_comm apart.symm 0 0 registers.word)

/-- A driver for which a frame has come in, and which has sent another one that was to be stamped. -/
def Board.bothFinished : Board .smallest (Recorded Heard PlainRegisters) :=
  let mac := Mac.blank .smallest ⟨0, 0x10000, 0x20000⟩
  let frame : Descriptor := { word3 := Descriptor.firstBit ||| Descriptor.lastBit ||| 4 }
  let sent : Slot := ⟨{ word0 := 7, word1 := 8, word3 := Descriptor.stampCapturedBit }, ⟨0x20004, 1, { tag := 9 }⟩⟩
  { mac := { mac with
      lifecycle := .running
      receiver := { mac.receiver with ring := mac.receiver.ring.setDescriptor Geometry.smallest.firstRx frame }
      transmitter := { mac.transmitter with ring := mac.transmitter.ring.setSlot Geometry.smallest.firstTx sent } }
    world := ⟨{}, ⟨fun _ => 0⟩⟩ }

theorem sides_independent_bothFinished :
    Call.CommuteFrom .bothFinished (Board.processReceived (.recording fun _ => .accepted))
      (Board.processCompletions (.recording fun _ => .accepted) 1) ∧
    Call.CommuteFrom .bothFinished (Board.processReceived (.recording fun _ => .accepted))
      (Call.quiet (Board.tryTransmit #[1, 2, 3, 4] .none)) ∧
    (Board.processReceived (.recording fun _ => .accepted) .bothFinished).map
      (fun result => (result.1, result.2.world.record)) = some (1, ⟨[⟨#[0, 0, 0, 0], none⟩], []⟩) ∧
    (Board.processCompletions (.recording fun _ => .accepted) 1 .bothFinished).map
      (fun result => (result.1, result.2.world.record)) = some (1, ⟨[], [(none, ⟨⟨8, 7⟩, 9⟩)]⟩) := by
  obtain ⟨-, -, -, -, completions, submissions⟩ :=
    sides_independent (g := .smallest) (σ := PlainRegisters) (fun _ => .accepted)
  exact ⟨completions .bothFinished 1 (by decide), submissions PlainRegisters.sparesReceive .bothFinished _ _,
    by decide +kernel, by decide +kernel⟩

end EthernetMac

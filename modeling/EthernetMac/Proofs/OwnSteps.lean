import EthernetMac.LinkMonitor
import EthernetMac.Proofs.Upkeep

namespace EthernetMac.Board

variable {g : Geometry} {ε α β : Type}

/-- What a receive walk does of its own accord, apart from offering frames. -/
inductive ReceiveStep [Bus ε] : Board g ε → Board g ε → Prop
  | note (board entry) : ReceiveStep board (note entry board).2
  | mark (board flag) : ReceiveStep board (modifyReceiver (fun r => { r with walking := flag }) board).2
  | locate (board) : ReceiveStep board (onBus Register.currentRxDescriptor.read board).2
  | gather (board scratch) : ReceiveStep board (modifyReceiver (fun r => { r with scratch := scratch }) board).2
  | rearm (board first count) : ReceiveStep board (board.rearmed first count)
  | wake (board) : ReceiveStep board (onBus (Register.rxTailPointer.write 0) board).2

/-- What a completion scan does of its own accord, apart from taking timestamps out and delivering them. -/
inductive ScanStep : Board g ε → Board g ε → Prop
  | scanning (board) : ScanStep board board.scanning
  | scanned (board) : ScanStep board board.scanned
  | deferred (board) : ScanStep board board.deferred

/-- What a dispatch does of its own accord, apart from telling of received frames and from its completion scan. -/
inductive DispatchStep [Bus ε] : Board g ε → Board g ε → Prop
  | note (board entry) : DispatchStep board (note entry board).2
  | mark (board flag) : DispatchStep board (modifyMac (fun mac => { mac with dispatching := flag }) board).2
  | look (board) : DispatchStep board (onBus Peripheral.status board).2
  | acknowledge (board causes) : DispatchStep board (onBus (Peripheral.acknowledge causes) board).2

/-- A relation between boards that composes and holds across each step of the given kind. -/
structure Spans (step R : Board g ε → Board g ε → Prop) : Prop where
  refl : ∀ board, R board board
  trans : ∀ {before middle after}, R before middle → R middle after → R before after
  step : ∀ {before after}, step before after → R before after

namespace Spans

variable {app : Application g ε} {step R : Board g ε → Board g ε → Prop}

theorem pure (spans : Spans step R) (value : α) : Call.Ensures R (Pure.pure value : Call g ε α) :=
  .pure spans.refl value

theorem bind (spans : Spans step R) {call : Call g ε α} {rest : α → Call g ε β} (first : Call.Ensures R call)
    (second : ∀ value, Call.Ensures R (rest value)) : Call.Ensures R (call >>= rest) :=
  Call.Ensures.bind (R := R) (fun one two => spans.trans one two) first second

theorem quiet (spans : Spans step R) {act : BoardM g ε α} (own : ∀ board, step board (act board).2) :
    Call.Ensures R (Call.quiet act) :=
  .quiet fun board => spans.step (own board)

section Receive

variable [Bus ε] (spans : Spans ReceiveStep R)
  (offered : ∀ frame, Call.Ensures R (app.onEvent (.frameAvailable frame)))

include spans

theorem hardwarePosition : Call.Ensures R (Call.quiet (Board.hardwarePosition : BoardM g ε (Fin g.rx))) := by
  refine .quiet fun board => ?_
  have located := spans.step (.locate board)
  rw [hardwarePosition_apply]
  cases board.mac.receiver.ring.indexOf? (Register.currentRxDescriptor.read board.world).1 with
  | some position => exact located
  | none => exact spans.trans located (spans.step (.note _ _))

include offered

theorem offer (first last : Fin g.rx) (segments : Nat) (context : StampContext g.rx) :
    Call.Ensures R (Board.offer app first last segments context) := by
  intro before answer after run
  rw [offer_apply] at run
  split at run
  · obtain ⟨_, rfl⟩ := Prod.mk.inj (Option.some.inj run)
    exact spans.step (.note _ _)
  · rename_i length valid
    obtain ⟨scratch, gathered⟩ := before.mac.receiver.frameBytes_receiver first segments length
    obtain ⟨⟨disposition, back⟩, upcall, same⟩ := Option.map_eq_some_iff.mp run
    obtain ⟨_, rfl⟩ := Prod.mk.inj same
    rw [gathered] at upcall
    exact spans.trans (spans.step (.gather before scratch)) (offered _ _ _ _ upcall)

theorem consume (first : Fin g.rx) (run : EthernetMac.Run g.rx) : Call.Ensures R (Board.consume app first run) := by
  have noted : ∀ entry, Call.Ensures R (Call.quiet (Board.note entry : BoardM g ε Unit)) :=
    fun entry => spans.quiet fun board => .note board entry
  cases run with
  | incomplete => exact .pure spans.refl _
  | stray following => exact spans.bind (noted _) fun _ => spans.pure _
  | overflow following => exact spans.bind (noted _) fun _ => spans.pure _
  | frame last following context =>
    intro before verdict after consumed
    by_cases present : context = .missing
    · subst present
      rw [consume_missing] at consumed
      obtain ⟨⟨answer, back⟩, told, same⟩ := Option.map_eq_some_iff.mp consumed
      obtain ⟨_, rfl⟩ := Prod.mk.inj same
      exact spans.trans (spans.step (.note _ _)) (spans.offer offered _ _ _ _ _ _ _ told)
    · rw [consume_frame _ _ _ _ _ present] at consumed
      obtain ⟨⟨answer, back⟩, told, same⟩ := Option.map_eq_some_iff.mp consumed
      obtain ⟨_, rfl⟩ := Prod.mk.inj same
      exact spans.offer offered _ _ _ _ _ _ _ told

theorem walk (budget : Nat) (first : Fin g.rx) : Call.Ensures R (Board.walk app budget first) := by
  intro before tally after run
  induction budget using Nat.strongRecOn generalizing first before tally with
  | ind budget ih =>
    cases budget with
    | zero =>
      rw [walk_zero] at run
      obtain ⟨_, rfl⟩ := Prod.mk.inj (Option.some.inj run)
      exact spans.refl _
    | succ room =>
      rw [walk_succ] at run
      split at run
      · obtain ⟨_, rfl⟩ := Prod.mk.inj (Option.some.inj run)
        exact spans.refl _
      · obtain ⟨⟨verdict, middle⟩, consumed, rest⟩ := Option.bind_eq_some_iff.mp run
        have told := spans.consume offered _ _ _ _ _ consumed
        cases verdict with
        | none =>
          obtain ⟨_, rfl⟩ := Prod.mk.inj (Option.some.inj rest)
          exact told
        | some delivered =>
          obtain ⟨⟨others, last⟩, walked, same⟩ := Option.map_eq_some_iff.mp rest
          obtain ⟨_, rfl⟩ := Prod.mk.inj same
          have given := spans.step (.rearm middle first ((before.mac.receiver.ring.scan first room).beyond + 1))
          exact spans.trans (spans.trans told given) (ih _ (by omega) _ _ _ walked)

theorem walkReceived : Call.Ensures R (Board.walkReceived app) := by
  have marked : ∀ flag, Call.Ensures R
      (Call.quiet (modifyReceiver fun r => { r with walking := flag } : BoardM g ε Unit)) :=
    fun flag => spans.quiet fun board => .mark board flag
  intro before count after run
  unfold Board.walkReceived at run
  rw [Call.get_bind_apply] at run
  split at run
  · obtain ⟨_, rfl⟩ := Prod.mk.inj (Option.some.inj run)
    exact spans.step (.note before .walkReentered)
  · obtain ⟨_, begun, marking, run⟩ := Call.bind_eq_some.mp run
    obtain ⟨position, told, asking, run⟩ := Call.bind_eq_some.mp run
    have opened := spans.trans (marked true _ _ _ marking) (spans.hardwarePosition _ _ _ asking)
    rw [Call.get_bind_apply] at run
    obtain ⟨tally, walked, walking, run⟩ := Call.bind_eq_some.mp run
    refine spans.trans (spans.trans opened (spans.walk offered _ _ _ _ _ walking)) ?_
    have ending : Call.Ensures R (do
        Call.quiet (modifyReceiver fun r => { r with walking := false })
        return tally.delivered : Call g ε Nat) := spans.bind (marked false) fun _ => spans.pure _
    dsimp only at run
    split at run
    · exact spans.bind (spans.quiet .wake) (fun _ => ending) _ _ _ run
    · exact ending _ _ _ run

theorem processReceived : Call.Ensures R (Board.processReceived app) := by
  intro before count after run
  unfold Board.processReceived at run
  rw [Call.get_bind_apply] at run
  split at run
  · obtain ⟨_, rfl⟩ := Prod.mk.inj (Option.some.inj run)
    exact spans.refl _
  · exact spans.walkReceived offered _ _ _ run

end Receive

section Scan

variable (spans : Spans ScanStep R)
  (turn : ∀ {before after : Board g ε} {i}, before.mac.transmitter.nextStamped? = some i →
    deliverStamp app (before.mac.transmitter.takeStamp i).1 (before.taken i) = some ((), after) → R before after)

include spans turn

theorem drain (limit : Nat) : Call.Ensures R (Board.drain app limit) := by
  intro before count after run
  induction limit generalizing before count with
  | zero =>
    cases selected : before.mac.transmitter.nextStamped? with
    | none =>
      rw [drain_none _ _ selected] at run
      obtain ⟨_, rfl⟩ := Prod.mk.inj (Option.some.inj run)
      exact spans.refl _
    | some i =>
      rw [drain_zero _ selected] at run
      cases run
  | succ limit ih =>
    cases selected : before.mac.transmitter.nextStamped? with
    | none =>
      rw [drain_none _ _ selected] at run
      obtain ⟨_, rfl⟩ := Prod.mk.inj (Option.some.inj run)
      exact spans.refl _
    | some i =>
      rw [drain_succ _ _ selected] at run
      obtain ⟨⟨_, middle⟩, delivery, rest⟩ := Option.bind_eq_some_iff.mp run
      obtain ⟨⟨more, last⟩, drained, same⟩ := Option.map_eq_some_iff.mp rest
      obtain ⟨_, rfl⟩ := Prod.mk.inj same
      exact spans.trans (turn selected delivery) (ih _ _ drained)

theorem scanCompletions (limit scans : Nat) : Call.Ensures R (Board.scanCompletions app limit scans) := by
  intro before count after run
  induction scans generalizing before count with
  | zero => cases run
  | succ scans ih =>
    rw [scanCompletions_succ] at run
    split at run
    · obtain ⟨_, rfl⟩ := Prod.mk.inj (Option.some.inj run)
      exact spans.step (.deferred before)
    · obtain ⟨⟨some, drained⟩, done, rest⟩ := Option.bind_eq_some_iff.mp run
      have first : R before drained.scanned := spans.trans
        (spans.trans (spans.step (.scanning before)) (spans.drain turn limit _ _ _ done))
        (spans.step (.scanned drained))
      split at rest
      · obtain ⟨⟨more, last⟩, again, same⟩ := Option.map_eq_some_iff.mp rest
        obtain ⟨_, rfl⟩ := Prod.mk.inj same
        exact spans.trans first (ih _ _ again)
      · obtain ⟨_, rfl⟩ := Prod.mk.inj (Option.some.inj rest)
        exact first

theorem processCompletions (limit : Nat) : Call.Ensures R (Board.processCompletions app limit) := by
  intro before count after run
  by_cases up : before.IsUp
  · rw [processCompletions_apply _ _ up] at run
    exact spans.scanCompletions turn _ _ _ _ _ run
  · unfold Board.processCompletions at run
    rw [Call.get_bind_apply, if_pos (Decidable.not_not.mp up)] at run
    obtain ⟨_, rfl⟩ := Prod.mk.inj (Option.some.inj run)
    exact spans.refl _

end Scan

section Dispatch

variable [Bus ε] (spans : Spans DispatchStep R)

include spans

theorem dispatchReceive (told : Call.Ensures R (app.onEvent .receiveReady)) (status : DmaStatus) :
    Call.Ensures R (Board.dispatchReceive app status) := by
  unfold Board.dispatchReceive
  split
  · exact spans.bind (spans.quiet fun board => .acknowledge board _) fun _ =>
      spans.bind told fun _ => spans.pure _
  · exact spans.pure _

theorem dispatchTransmit {limit : Nat} (completions : Call.Ensures R (Board.processCompletions app limit))
    (status : DmaStatus) : Call.Ensures R (Board.dispatchTransmit app limit status) := by
  unfold Board.dispatchTransmit
  split
  · exact spans.bind (spans.quiet fun board => .acknowledge board _) fun _ => completions
  · exact spans.pure _

theorem dispatchRest (status : DmaStatus) :
    Call.Ensures R (Call.quiet (Board.dispatchRest status : BoardM g ε Unit)) := by
  refine .quiet fun board => ?_
  have acknowledged := spans.step (.acknowledge board (status.diff (handledCauses status)))
  unfold Board.dispatchRest
  split
  · split
    · exact spans.trans acknowledged (spans.step (.note _ _))
    · exact acknowledged
  · exact spans.refl _

theorem interrupt {limit : Nat} (told : Call.Ensures R (app.onEvent .receiveReady))
    (completions : Call.Ensures R (Board.processCompletions app limit)) :
    Call.Ensures R (Board.interrupt app limit) := by
  have marked : ∀ flag, Call.Ensures R
      (Call.quiet (modifyMac fun mac => { mac with dispatching := flag } : BoardM g ε Unit)) :=
    fun flag => spans.quiet fun board => .mark board flag
  intro before value after run
  unfold Board.interrupt at run
  rw [Call.get_bind_apply] at run
  split at run
  · obtain ⟨_, rfl⟩ := Prod.mk.inj (Option.some.inj run)
    exact spans.step (.note before .dispatchReentered)
  · refine spans.bind (marked true) (fun _ => ?_) _ _ _ run
    refine spans.bind (spans.quiet .look) fun status => ?_
    refine spans.bind (spans.dispatchReceive told status) fun _ =>
      spans.bind (spans.dispatchTransmit completions status) fun _ => ?_
    exact spans.bind (spans.dispatchRest status) fun _ => spans.bind (marked false) fun _ => spans.pure _

end Dispatch

end Spans

theorem AcrossTurns.processCompletions {app : Application g ε} {R : Board g ε → Board g ε → Prop}
    (across : AcrossTurns app R) (limit : Nat) : Call.Ensures R (Board.processCompletions app limit) := by
  have spans : Spans ScanStep R := by
    refine ⟨across.refl, across.trans, fun step => across.aside ?_⟩
    cases step with
    | scanning => exact ⟨rfl, rfl, rfl, rfl, rfl, rfl, rfl, .rfl, rfl⟩
    | scanned => exact ⟨rfl, rfl, rfl, rfl, rfl, rfl, rfl, .rfl, rfl⟩
    | deferred => exact ⟨rfl, rfl, rfl, rfl, rfl, rfl, rfl, .rfl, rfl⟩
  exact spans.processCompletions across.turn limit

end EthernetMac.Board

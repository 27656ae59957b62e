import EthernetMac.Proofs.OwnSteps

namespace EthernetMac

variable {g : Geometry} {ε κ α β : Type}

theorem Board.deliverStamp_record (s : Setting g ε) (app : Application g ε) (delivery : Option Callback × TxTimestamp)
    (board : Board g ε) :
    deliverStamp (s.record app) delivery board = deliverStamp app delivery (s.noted delivery board) := by
  obtain ⟨callback, stamp⟩ := delivery
  cases callback with
  | none => rfl
  | some callback => rfl

theorem Board.deliverStamp_reacts {app : Application g ε} {delivery : Option Callback × TxTimestamp}
    {before after : Board g ε} (run : deliverStamp app delivery before = some ((), after)) :
    app.Reacts before after := by
  obtain ⟨callback, stamp⟩ := delivery
  cases callback with
  | none =>
    obtain ⟨answer, middle, upcall, same⟩ := Call.bind_eq_some.mp run
    obtain ⟨_, rfl⟩ := Prod.mk.inj (Option.some.inj same)
    exact .event upcall
  | some callback => exact .stamp run

namespace Setting.Keeps

open Board

variable {s : Setting g ε} {view : ε → κ} {I : Board g ε → Prop} {before after : Board g ε}

theorem onward (keeps : s.Keeps view I) (same : SameRings view before after) : Onward I before after :=
  ⟨keeps.aside same, fun _ => same.up.mpr⟩

section Calls

variable {app : Application g ε} (keeps : s.Keeps view I)
  (upcalls : ∀ called back, app.Reacts called back → Onward I called back)

include keeps upcalls

theorem acrossTurns : AcrossTurns (s.record app) (Onward I) where
  refl := .refl
  trans := .trans
  aside same := keeps.onward ⟨same.rxRing, same.rxPool, same.txRing, same.txPool, same.nextSlot, same.submitted,
    same.acknowledged, same.up, congrArg view same.world⟩
  turn selected delivery := by
    rw [deliverStamp_record] at delivery
    exact .trans ⟨keeps.take selected, fun _ => id⟩ (upcalls _ _ (deliverStamp_reacts delivery))

end Calls

section BusCalls

variable [Bus ε] (far : Bus.Untouched view) (keeps : s.Keeps view I)

include far keeps

/-- A walk gives slots back between its upcalls, which it may do since the driver is up. -/
theorem receiveSpans :
    Spans ReceiveStep fun before after : Board g ε => before.IsUp ∧ I before → after.IsUp ∧ I after := by
  refine ⟨fun _ => id, fun one two => two ∘ one, ?_⟩
  rintro before after step ⟨up, held⟩
  have aside (same : SameRings view before after) : after.IsUp ∧ I after := ⟨same.up.mpr up, keeps.aside same held⟩
  cases step with
  | note entry => exact aside (.of_mac rfl rfl)
  | mark flag => exact aside ⟨rfl, rfl, rfl, rfl, rfl, rfl, rfl, .rfl, rfl⟩
  | locate => exact aside (.of_mac rfl (far.load .currentRxDescriptor before.world))
  | gather scratch => exact aside ⟨rfl, rfl, rfl, rfl, rfl, rfl, rfl, .rfl, rfl⟩
  | rearm first count => exact ⟨up, keeps.rearm first count up held⟩
  | wake => exact aside (.of_mac rfl (far.store .rxTailPointer 0 before.world))

theorem received {app : Application g ε} (upcalls : ∀ called back, app.Reacts called back → Onward I called back) :
    Call.Ensures (Onward I) (Board.processReceived (s.record app)) := by
  have crossed : Call.Ensures (fun before after : Board g ε => before.IsUp ∧ I before → after.IsUp ∧ I after)
      (Board.processReceived (s.record app)) :=
    (keeps.receiveSpans far).processReceived fun _ _ _ _ told ⟨up, held⟩ =>
      ⟨(upcalls _ _ (.event told)).up held up, (upcalls _ _ (.event told)).keeps held⟩
  intro before count after run
  by_cases up : before.IsUp
  · have onward := crossed _ _ _ run
    exact ⟨fun held => (onward ⟨up, held⟩).2, fun held _ => (onward ⟨up, held⟩).1⟩
  · unfold Board.processReceived at run
    rw [Call.get_bind_apply, if_pos (Decidable.not_not.mp up)] at run
    obtain ⟨_, rfl⟩ := Prod.mk.inj (Option.some.inj run)
    exact .refl _

theorem dispatchSpans : Spans DispatchStep (Onward I : Board g ε → Board g ε → Prop) := by
  refine ⟨.refl, .trans, ?_⟩
  intro before after step
  cases step with
  | note entry => exact keeps.onward (.of_mac rfl rfl)
  | mark flag => exact keeps.onward ⟨rfl, rfl, rfl, rfl, rfl, rfl, rfl, .rfl, rfl⟩
  | look => exact keeps.onward (.of_mac rfl (far.load .channelStatus before.world))
  | acknowledge causes => exact keeps.onward (.of_mac rfl (far.store .channelStatus causes.bits before.world))

theorem interrupt {app : Application g ε} (upcalls : ∀ called back, app.Reacts called back → Onward I called back)
    (limit : Nat) : Call.Ensures (Onward I) (Board.interrupt (s.record app) limit) :=
  (keeps.dispatchSpans far).interrupt (fun _ _ _ told => upcalls _ _ (.event told))
    ((keeps.acrossTurns upcalls).processCompletions limit)

theorem init {config : Config} {result : Except Failure Unit} (run : Board.init config before = (result, after)) :
    Onward I before after := by
  have kept : view after.world = view before.world := by
    have untouched := init_world far config before
    rwa [run] at untouched
  cases result with
  | error failure => exact keeps.onward (.of_mac (init_refused run) kept)
  | ok _ =>
    have fresh : ¬ before.IsUp := Decidable.not_not.mpr (init_fresh run)
    have same : SameRings view before.laidOut after := .of_mac (init_mac run) kept
    exact ⟨fun held => keeps.aside same (keeps.layOut fresh held), fun _ up => absurd up fresh⟩

theorem start {result : Except Failure Unit} (run : Board.start before = (result, after)) :
    Onward I before after := by
  obtain rfl : (Board.start before).2 = after := congrArg Prod.snd run
  have kept := start_world far before
  rcases start_lifecycle before with same | ⟨up, running⟩
  · exact keeps.onward (.of_mac same kept)
  · exact keeps.onward (.of_life up (by decide) running kept)

theorem stop {result : Except Failure Unit} (run : Board.stop before = (result, after)) :
    Onward I before after := by
  obtain rfl : (Board.stop before).2 = after := congrArg Prod.snd run
  have kept := stop_world far before
  rcases stop_lifecycle before with same | ⟨up, stopped⟩
  · exact keeps.onward (.of_mac same kept)
  · exact keeps.onward (.of_life up (by decide) stopped kept)

/-- The slot that is filled is the one that was the next one when the call began. -/
theorem filled {middle : Board g ε} {bytes : Array UInt8} {options : TxOptions} {sequence : UInt16}
    (waited : Relation.ReflTransGen s.waits before middle) (onward : Onward I before middle) (up : before.IsUp)
    (valid : g.lengthFault? bytes.size = none)
    (free : middle.mac.transmitter.ring.isOwned before.mac.transmitter.nextSlot = false) :
    Onward I before (s.enter before.mac.transmitter.nextSlot bytes options (.ok sequence)
      (fillSlot before.mac.transmitter.nextSlot bytes options middle).2) := by
  have woken : SameRings view middle
      { middle with world := (Register.txTailPointer.write 0 middle.world).2 } :=
    .of_mac rfl (far.store .txTailPointer 0 middle.world)
  exact ⟨fun held => keeps.fill (waited.tail (keeps.still woken)) held (keeps.aside woken (onward.keeps held))
    (onward.up held up) valid free, onward.up⟩

theorem tryTransmit {bytes : Array UInt8} {options : TxOptions} {result : Except Failure UInt16}
    (run : Board.tryTransmit bytes options before = (result, after)) :
    Onward I before (s.enter before.mac.transmitter.nextSlot bytes options result after) := by
  rw [tryTransmit_apply] at run
  split at run
  · rename_i running
    have up : before.IsUp := by rw [IsUp, running]; decide
    split at run
    · obtain ⟨rfl, rfl⟩ := Prod.mk.inj run
      exact .refl _
    · rename_i valid
      split at run
      · rename_i ready
        obtain ⟨rfl, rfl⟩ := Prod.mk.inj run
        exact keeps.filled far .refl (.refl _) up valid (Bool.not_eq_true' _ ▸ ready)
      · obtain ⟨rfl, rfl⟩ := Prod.mk.inj run
        exact .refl _
  · obtain ⟨rfl, rfl⟩ := Prod.mk.inj run
    exact .refl _

theorem transmit {bytes : Array UInt8} {options : TxOptions} {idle : BoardM g ε Unit} {spins : Nat}
    {result : Except Failure UInt16} (turn : ∀ board, Onward I board (idle board).2)
    (waits : ∀ board, s.waits board (idle board).2)
    (run : Board.transmit bytes options idle spins before = some (result, after)) :
    Onward I before (s.enter before.mac.transmitter.nextSlot bytes options result after) := by
  have one : ∀ board, Relation.ReflTransGen (fun a b => Onward I a b ∧ s.waits a b) board (idle board).2 :=
    fun board => .single ⟨turn board, waits board⟩
  rcases transmit_cases one run with ⟨failure, rfl, rfl⟩ | ⟨sequence, middle, rfl, running, valid, turns, free, rfl⟩
  · exact .refl _
  · have up : before.IsUp := by rw [IsUp, running]; decide
    have waited : Relation.ReflTransGen s.waits before middle := turns.lift id fun _ _ => And.right
    exact keeps.filled far waited (.of_turns turns And.left) up valid free

end BusCalls

end Setting.Keeps

/-- A property that each step keeps is kept by every run that may rely on it. -/
theorem Setting.RunWhile.onward [Bus ε] {s : Setting g ε} {held : Board g ε → Prop} {view : ε → κ}
    {I : Board g ε → Prop} {before after : Board g ε} (run : s.RunWhile held before after) (far : Bus.Untouched view)
    (keeps : s.Keeps view I) (sound : ∀ board, I board → held board) : Onward I before after := by
  have reacts {app : Application g ε}
      (upcalls : ∀ called back, held called → app.Reacts called back → Onward I called back) :
      ∀ called back, app.Reacts called back → Onward I called back :=
    fun called back upcall => .of_held fun here => upcalls called back (sound called here) upcall
  induction run with
  | still board => exact .refl board
  | move _ moved ih => exact ih.trans ⟨keeps.move moved, fun _ => s.stays_up moved⟩
  | init _ call ih => exact ih.trans (keeps.init far call)
  | start _ call ih => exact ih.trans (keeps.start far call)
  | stop _ call ih => exact ih.trans (keeps.stop far call)
  | tryTransmit _ call ih => exact ih.trans (keeps.tryTransmit far call)
  | transmit _ _ waits call ih turns =>
    have one : ∀ board, Onward I board _ := fun board => .of_held fun here => turns board (sound board here)
    exact ih.trans (keeps.transmit far one waits call)
  | received _ _ call ih upcalls => exact ih.trans (keeps.received far (reacts upcalls) _ _ _ call)
  | completions _ _ call ih upcalls =>
    exact ih.trans ((keeps.acrossTurns (reacts upcalls)).processCompletions _ _ _ _ call)
  | interrupt _ _ call ih upcalls => exact ih.trans (keeps.interrupt far (reacts upcalls) _ _ _ _ call)

theorem Setting.Run.onward [Bus ε] {s : Setting g ε} {view : ε → κ} {I : Board g ε → Prop} {before after : Board g ε}
    (run : s.Run before after) (far : Bus.Untouched view) (keeps : s.Keeps view I) : Onward I before after :=
  RunWhile.onward run far keeps fun _ _ => trivial

end EthernetMac

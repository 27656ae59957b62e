import EthernetMac.Proofs.Nesting

namespace EthernetMac

open Board

/-- Timestamps in the order in which they were delivered. -/
abbrev StampLog := List (Option Callback × TxTimestamp)

variable {g : Geometry} {ε σ : Type}

/-- The driver is up, and a completion scan is running. -/
structure Board.IsScanning (board : Board g ε) : Prop where
  up : board.IsUp
  completing : board.mac.transmitter.completing = true

/-- Every timestamp that is delivered is put on record. Anything may happen besides that leaves the record and the mark
of a running scan alone and does not take the driver down. -/
def Setting.stampLog : Setting g (Recorded StampLog σ) where
  moves before after := after.mac.transmitter.completing = before.mac.transmitter.completing ∧
    after.world.record = before.world.record ∧ (before.IsUp → after.IsUp)
  waits _ _ := True
  submitted _ _ _ := id
  delivered callback stamp := Recorded.modify (· ++ [(callback, stamp)])
  stays_up moved := moved.2.2

/-- A submission is such a move: it calls nobody. -/
theorem Board.tryTransmit_moves [Bus σ] (bytes : Array UInt8) (options : TxOptions)
    (board : Board g (Recorded StampLog σ)) :
    Setting.stampLog.moves board (Board.tryTransmit bytes options board).2 := by
  have filled : Setting.stampLog.moves board
      (Board.fillSlot board.mac.transmitter.nextSlot bytes options board).2 :=
    ⟨rfl, Recorded.untouched.store .txTailPointer 0 board.world, id⟩
  rw [tryTransmit_apply]
  split
  · split
    · exact ⟨rfl, rfl, id⟩
    · split
      · exact filled
      · exact ⟨rfl, rfl, id⟩
  · exact ⟨rfl, rfl, id⟩

def Stage.scan : Stage g (Recorded StampLog σ) := ⟨Setting.stampLog.moves, Setting.stampLog.record⟩

/-- While a scan is running it stays so, and the board changes in no other way than `Q` allows. -/
structure Board.Folds (Q : Board g ε → Board g ε → Prop) (before after : Board g ε) : Prop where
  scanning : after.IsScanning
  change : Q before after

namespace Board

theorem processCompletions_nested (app : Application g ε) (limit : Nat) {board : Board g ε}
    (scanning : board.IsScanning) : processCompletions app limit board = some (0, board.deferred) := by
  rw [processCompletions_apply _ _ scanning.up, scanCompletions_succ, if_pos scanning.completing]

theorem IsScanning.deferred {board : Board g ε} (scanning : board.IsScanning) : board.deferred.IsScanning :=
  ⟨scanning.up, scanning.completing⟩

end Board

/-- `Q` allows for everything that an activity does to the board while a scan is running. It need not allow for the
delivery of a timestamp. -/
structure Stage.Folding [Bus ε] (s : Stage g ε) (Q : Board g ε → Board g ε → Prop) : Prop where
  refl : ∀ board, Q board board
  trans : ∀ {before middle after}, Q before middle → Q middle after → Q before after
  move : ∀ {before after}, s.moves before after → before.IsScanning → Folds Q before after
  receive : ∀ {before after}, ReceiveStep before after → Q before after
  dispatch : ∀ {before after}, DispatchStep before after → Q before after
  deferred : ∀ board, Q board board.deferred
  mode : ∀ board link, Q board (board.inMode link)
  told : ∀ {app event}, (∀ stamp, event ≠ .transmitTimestamp stamp) →
    (∀ called back, app.Reacts called back → called.IsScanning → Folds Q called back) →
    Call.Ensures (fun before after => before.IsScanning → Folds Q before after) ((s.tells app).onEvent event)

namespace Stage.Folding

variable [Bus ε] {s : Stage g ε} {Q : Board g ε → Board g ε → Prop} (folding : s.Folding Q)

include folding

theorem spans {step : Board g ε → Board g ε → Prop}
    (own : ∀ {before after}, step before after → before.IsScanning → Folds Q before after) :
    Spans step fun before after => before.IsScanning → Folds Q before after where
  refl board here := ⟨here, folding.refl board⟩
  trans one two here :=
    have again := two (one here).scanning
    ⟨again.scanning, folding.trans (one here).change again.change⟩
  step := own

theorem receives : Spans ReceiveStep fun before after : Board g ε => before.IsScanning → Folds Q before after := by
  refine folding.spans fun step here => ⟨?_, folding.receive step⟩
  cases step <;> exact ⟨here.up, here.completing⟩

theorem dispatches : Spans DispatchStep fun before after : Board g ε => before.IsScanning → Folds Q before after := by
  refine folding.spans fun step here => ⟨?_, folding.dispatch step⟩
  cases step <;> exact ⟨here.up, here.completing⟩

theorem completions (app : Application g ε) (limit : Nat) :
    Call.Ensures (fun before after => before.IsScanning → Folds Q before after) (processCompletions app limit) := by
  intro before count after run here
  rw [processCompletions_nested _ _ here] at run
  obtain ⟨_, rfl⟩ := Prod.mk.inj (Option.some.inj run)
  exact ⟨here.deferred, folding.deferred before⟩

/-- A scan that is asked for while one is running leaves everything to it, so nothing is delivered in an activity. -/
theorem sustains : s.Sustains IsScanning fun before after => before.IsScanning → Folds Q before after where
  refl := folding.receives.refl
  trans := folding.receives.trans
  free idle here := absurd here idle
  move moved here := folding.move moved here
  received upcalls := folding.receives.processReceived fun _ => folding.told (by nofun) upcalls
  completions _ := folding.completions _ _
  interrupt upcalls := folding.dispatches.interrupt (folding.told (by nofun) upcalls) (folding.completions _ _)
  poll {app source} monitor reading upcalls := by
    refine LinkMonitor.poll_ensures (R := fun before after => before.IsScanning → Folds Q before after)
      folding.receives.trans (fun board => folding.move (reading board)) ?_ monitor
    intro link before answer after told here
    have moded : Folds Q before (before.inMode link) := by
      refine ⟨?_, folding.mode before link⟩
      unfold Board.inMode
      split
      · exact ⟨here.up, here.completing⟩
      · exact here
    exact folding.receives.trans (fun _ => moded) (folding.told (by nofun) upcalls _ _ _ told) here

end Stage.Folding

/-- Nothing is put on record but by deliveries. -/
theorem Stage.scan_folding [Bus σ] : (Stage.scan : Stage g (Recorded StampLog σ)).Folding
    fun before after => after.world.record = before.world.record where
  refl _ := rfl
  trans one two := two.trans one
  move moved here := ⟨⟨moved.2.2 here.up, moved.1.trans here.completing⟩, moved.2.1⟩
  receive step := by cases step <;> rfl
  dispatch step := by cases step <;> rfl
  deferred _ := rfl
  mode board link := by
    unfold Board.inMode
    split <;> rfl
  told {app event} other upcalls before answer after told := by
    refine upcalls _ _ (.event (?_ : app.onEvent event before = some (answer, after)))
    cases event with
    | transmitTimestamp stamp => exact absurd rfl (other stamp)
    | receiveReady => exact told
    | frameAvailable frame => exact told
    | linkChanged link => exact told

/-- A way to tell how many timestamps were delivered between two boards. -/
structure Board.Tallies (L : Board g ε → Board g ε → Nat → Prop) : Prop where
  none : ∀ board, L board board 0
  trans : ∀ {before middle after first second}, L before middle first → L middle after second →
    L before after (first + second)
  step : ∀ {before after}, ScanStep before after → L before after 0

namespace Board.Tallies

variable {L : Board g ε → Board g ε → Nat → Prop} (tallies : Tallies L) {app : Application g ε}
  {before after : Board g ε} {count limit : Nat}
  (turn : ∀ {before after : Board g ε} {i}, before.IsScanning →
    deliverStamp app (before.mac.transmitter.takeStamp i).1 (before.taken i) = some ((), after) →
    after.IsScanning ∧ L before after 1)

include tallies turn

theorem drain (here : before.IsScanning) (run : Board.drain app limit before = some (count, after)) :
    after.IsScanning ∧ L before after count := by
  induction limit generalizing before count with
  | zero =>
    cases selected : before.mac.transmitter.nextStamped? with
    | none =>
      rw [drain_none _ _ selected] at run
      obtain ⟨rfl, rfl⟩ := Prod.mk.inj (Option.some.inj run)
      exact ⟨here, tallies.none before⟩
    | some i =>
      rw [drain_zero _ selected] at run
      cases run
  | succ limit ih =>
    cases selected : before.mac.transmitter.nextStamped? with
    | none =>
      rw [drain_none _ _ selected] at run
      obtain ⟨rfl, rfl⟩ := Prod.mk.inj (Option.some.inj run)
      exact ⟨here, tallies.none before⟩
    | some i =>
      rw [drain_succ _ _ selected] at run
      obtain ⟨⟨_, middle⟩, delivery, rest⟩ := Option.bind_eq_some_iff.mp run
      obtain ⟨⟨more, last⟩, drained, same⟩ := Option.map_eq_some_iff.mp rest
      obtain ⟨rfl, rfl⟩ := Prod.mk.inj same
      obtain ⟨still, first⟩ := turn here delivery
      obtain ⟨ended, others⟩ := ih still drained
      exact ⟨ended, by rw [Nat.add_comm]; exact tallies.trans first others⟩

/-- An outermost scan leaves both marks clear, and counts what was delivered in all its rounds. -/
theorem scanCompletions {scans : Nat} (up : before.IsUp) (outermost : before.mac.transmitter.completing = false)
    (run : Board.scanCompletions app limit scans before = some (count, after)) :
    (after.IsUp ∧ after.mac.transmitter.completing = false ∧ after.mac.transmitter.rescan = false) ∧
      L before after count := by
  induction scans generalizing before count with
  | zero => cases run
  | succ scans ih =>
    rw [scanCompletions_succ, outermost, if_neg Bool.false_ne_true] at run
    obtain ⟨⟨first, drained⟩, done, rest⟩ := Option.bind_eq_some_iff.mp run
    have begun : before.scanning.IsScanning := ⟨up, rfl⟩
    obtain ⟨ended, delivered⟩ := tallies.drain turn begun done
    have opened := tallies.trans (tallies.step (.scanning before)) delivered
    have round := tallies.trans opened (tallies.step (.scanned drained))
    rw [Nat.zero_add, Nat.add_zero] at round
    split at rest
    · obtain ⟨⟨more, last⟩, again, same⟩ := Option.map_eq_some_iff.mp rest
      obtain ⟨rfl, rfl⟩ := Prod.mk.inj same
      have stillUp : drained.scanned.IsUp := ended.up
      obtain ⟨clear, others⟩ := ih stillUp rfl again
      exact ⟨clear, tallies.trans round others⟩
    · rename_i none
      obtain ⟨rfl, rfl⟩ := Prod.mk.inj (Option.some.inj rest)
      exact ⟨⟨ended.up, rfl, Bool.eq_false_iff.mpr none⟩, round⟩

end Board.Tallies

/-- On the way from one board to another so many timestamps were put on record. -/
def Board.Logs (before after : Board g (Recorded StampLog σ)) (count : Nat) : Prop :=
  ∃ fresh, after.world.record = before.world.record ++ fresh ∧ count = fresh.length

namespace Board

theorem Logs.tallies : Tallies (Logs : Board g (Recorded StampLog σ) → _ → Nat → Prop) where
  none board := ⟨[], (List.append_nil _).symm, rfl⟩
  trans := by
    rintro before middle after _ _ ⟨earlier, begun, rfl⟩ ⟨later, done, rfl⟩
    exact ⟨earlier ++ later, by rw [done, begun, List.append_assoc], List.length_append.symm⟩
  step taken := ⟨[], by cases taken <;> exact (List.append_nil _).symm, rfl⟩

/-- A turn of a scan delivers the timestamp that it has taken out; its upcall delivers nothing. -/
theorem turn_logs {app : Application g (Recorded StampLog σ)} {before after : Board g (Recorded StampLog σ)}
    (upcalls : ∀ called back, called.IsScanning → app.Reacts called back →
      Folds (fun here there => there.world.record = here.world.record) called back)
    {i : Fin g.tx} (here : before.IsScanning)
    (turn : deliverStamp (Setting.stampLog.record app) (before.mac.transmitter.takeStamp i).1 (before.taken i) =
      some ((), after)) : after.IsScanning ∧ Logs before after 1 := by
  rw [deliverStamp_record] at turn
  have noted : IsScanning (Setting.stampLog.noted (before.mac.transmitter.takeStamp i).1 (before.taken i)) :=
    ⟨here.up, here.completing⟩
  have folds := upcalls _ _ noted (deliverStamp_reacts turn)
  exact ⟨folds.scanning, [(before.mac.transmitter.takeStamp i).1], folds.change, rfl⟩

/-- A scan finds nothing to do where no timestamp waits and no scan runs or is asked for. -/
theorem processCompletions_settled (app : Application g ε) (limit : Nat) {board : Board g ε} (up : board.IsUp)
    (empty : board.mac.transmitter.nextStamped? = none) (idle : board.mac.transmitter.completing = false)
    (done : board.mac.transmitter.rescan = false) : processCompletions app limit board = some (0, board) := by
  have same : board.scanning.scanned = board := by
    obtain ⟨⟨lifecycle, receiver, ⟨ring, pool, nextSlot, submitted, acknowledged, completing, rescan⟩, dispatching⟩,
      world, journal⟩ := board
    obtain rfl : completing = false := idle
    obtain rfl : rescan = false := done
    rfl
  rw [processCompletions_apply _ _ up, scanCompletions_empty _ _ _ idle empty, same]

end Board

/-- However often a scan is asked for while one is running, none is lost and none is counted twice. When an outermost
scan of a driver that is up returns, no slot has a timestamp left, no mark is set, the answer is the number of
timestamps that were delivered since it began, and another scan changes nothing at all. A scan that is asked for in
whatever the application does in its upcalls delivers nothing and leaves the rest to the running one. -/
theorem nested_scans_folded [Bus σ] (app : Application g (Recorded StampLog σ)) (limit : Nat)
    {before after : Board g (Recorded StampLog σ)} {count : Nat} (up : before.IsUp)
    (outermost : before.mac.transmitter.completing = false)
    (upcalls : ∀ called back, called.IsScanning → app.Reacts called back → Stage.scan.Activity IsScanning called back)
    (run : processCompletions (Stage.scan.tells app) limit before = some (count, after)) :
    (∀ i, after.mac.transmitter.isStamped i = false) ∧
      (after.mac.transmitter.completing = false ∧ after.mac.transmitter.rescan = false) ∧
      (∃ fresh, after.world.record = before.world.record ++ fresh ∧ count = fresh.length) ∧
      (∀ other bound, processCompletions other bound after = some (0, after)) ∧
      ∀ called inner : Board g (Recorded StampLog σ), called.IsScanning → Stage.scan.Activity IsScanning called inner →
        ∀ nested bound, processCompletions nested bound inner = some (0, inner.deferred) := by
  rw [processCompletions_apply _ _ up] at run
  have folds := fun called back here upcall =>
    (upcalls called back here upcall).sustained Stage.scan_folding.sustains here
  have empty := scanCompletions_empties outermost run
  obtain ⟨⟨stillUp, idle, done⟩, delivered⟩ := Logs.tallies.scanCompletions (turn_logs folds) up outermost run
  refine ⟨Transmitter.nextStamped?_eq_none.mp empty, ⟨idle, done⟩, delivered, ?_, ?_⟩
  · intro other bound
    exact processCompletions_settled other bound stillUp empty idle done
  · intro called inner here activity nested bound
    exact processCompletions_nested nested bound (activity.sustained Stage.scan_folding.sustains here).scanning

/-- Sends another frame and has the hardware finish it at once. -/
def Board.resend [Bus σ] : BoardM .smallest (Recorded StampLog σ) Unit := do
  let _ ← tryTransmit #[2] (.captureTimestamp { tag := 8 })
  modify (·.sentBack Geometry.smallest.firstTx ⟨7, 8, 0, Descriptor.stampCapturedBit⟩)

/-- An application that asks for a scan on every timestamp and, on the first one, sends another frame. -/
def Application.resending [Bus σ] : Application .smallest (Recorded StampLog σ) where
  onEvent
    | .transmitTimestamp stamp => do
      Call.quiet (if stamp.tag = 7 then resend else return)
      let _ ← processCompletions (Stage.scan.tells .accepting) 1
      return .accepted
    | _ => return .accepted
  onStamp _ _ := return

theorem Application.resending_reacts [Bus σ] {called back : Board .smallest (Recorded StampLog σ)}
    (upcall : resending.Reacts called back) : Stage.scan.Activity IsScanning called back := by
  have resent (board : Board .smallest (Recorded StampLog σ)) :
      Stage.scan.Activity IsScanning board (resend board).2 :=
    .move (.move (.still board) (board.tryTransmit_moves _ _)) ⟨rfl, rfl, id⟩
  cases upcall with
  | @event event _ answer _ run =>
    cases event with
    | transmitTimestamp stamp =>
      obtain ⟨_, sent, sending, run⟩ := Call.bind_eq_some.mp run
      obtain ⟨count, middle, scanned, same⟩ := Call.bind_eq_some.mp run
      obtain ⟨_, rfl⟩ := Prod.mk.inj (Option.some.inj same)
      obtain rfl : ((if stamp.tag = 7 then resend else return : BoardM _ _ Unit) called).2 = sent :=
        congrArg Prod.snd (Option.some.inj sending)
      refine .completions ?_ Stage.Activity.accepted scanned
      split
      · exact resent called
      · exact .still called
    | receiveReady | frameAvailable _ | linkChanged _ =>
      obtain ⟨_, rfl⟩ := Prod.mk.inj (Option.some.inj run)
      exact .still _
  | stamp run =>
    obtain ⟨_, rfl⟩ := Prod.mk.inj (Option.some.inj run)
    exact .still _

/-- A driver whose only transmit slot has a timestamp to deliver. -/
def Board.firstSent : Board .smallest (Recorded StampLog RestingPeripheral) :=
  let untried : Board .smallest (Recorded StampLog RestingPeripheral) := .untried ⟨0, 0x10000, 0x20000⟩ ⟨[], {}⟩
  (tryTransmit #[1] (.captureTimestamp { tag := 7 }) (untried.started {})).2.sentBack Geometry.smallest.firstTx
    ⟨5, 6, 0, Descriptor.stampCapturedBit⟩

theorem nested_scans_folded_resending : ∃ after,
    processCompletions (Stage.scan.tells .resending) 3 firstSent = some (2, after) ∧
      after.world.record = [(none, ⟨⟨6, 5⟩, 7⟩), (none, ⟨⟨8, 7⟩, 8⟩)] ∧
      after.journal = #[.scanDeferred, .scanDeferred] ∧ ∀ i, after.mac.transmitter.isStamped i = false := by
  have outcome : (processCompletions (Stage.scan.tells .resending) 3 firstSent).map
      (fun result => (result.1, result.2.world.record, result.2.journal)) =
        some (2, [(none, ⟨⟨6, 5⟩, 7⟩), (none, ⟨⟨8, 7⟩, 8⟩)], #[.scanDeferred, .scanDeferred]) := by decide +kernel
  obtain ⟨⟨count, after⟩, run, told⟩ := Option.map_eq_some_iff.mp outcome
  obtain ⟨rfl, record, journal⟩ := Prod.mk.inj told |>.imp_right Prod.mk.inj
  have up : firstSent.mac.lifecycle ≠ .uninitialized := by decide +kernel
  have settled := nested_scans_folded .resending 3 up rfl (fun _ _ _ => Application.resending_reacts) run
  exact ⟨after, run, record, journal, settled.1⟩

end EthernetMac

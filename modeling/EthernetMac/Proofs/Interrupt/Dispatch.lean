import EthernetMac.Proofs.Interrupt.Status
import EthernetMac.Proofs.Invariance

namespace EthernetMac

variable {g : Geometry} {σ : Type}

namespace Board

/-- What has happened to the status register on the way from one board to another. -/
structure Changes (before after : Board g (StatusBench σ)) (changes : List StatusChange) : Prop where
  record : after.world.changes = before.world.changes ++ changes
  status : after.world.status = changes.foldl StatusChange.apply before.world.status

namespace Changes

variable {before middle after : Board g (StatusBench σ)} {first second : List StatusChange}

theorem none (same : after.world = before.world) : Changes before after [] :=
  ⟨by rw [same, List.append_nil], by rw [same, List.foldl_nil]⟩

theorem trans (one : Changes before middle first) (two : Changes middle after second) :
    Changes before after (first ++ second) := by
  refine ⟨?_, ?_⟩
  · rw [two.record, one.record, List.append_assoc]
  · rw [two.status, one.status, List.foldl_append]

end Changes

/-- On the way from one board to another the hardware may have raised causes, and the driver has acknowledged none. -/
def OnlyRaises (before after : Board g (StatusBench σ)) : Prop :=
  ∃ raises : List DmaCause, Changes before after (raises.map .raised)

theorem onlyRaises_across {app : Application g (StatusBench σ)}
    (upcalls : ∀ called back, app.Reacts called back → OnlyRaises called back) : AcrossTurns app OnlyRaises where
  refl _ := ⟨[], .none rfl⟩
  trans := by
    rintro before middle after ⟨first, one⟩ ⟨second, two⟩
    exact ⟨first ++ second, by rw [List.map_append]; exact one.trans two⟩
  aside same := ⟨[], .none same.world⟩
  turn _ delivery := by
    obtain ⟨raises, changes⟩ := upcalls _ _ (deliverStamp_reacts delivery)
    exact ⟨raises, changes.record, changes.status⟩

/-- What a step of a dispatch does to the status register, if it is called for: it acknowledges causes, and after that
the hardware may raise some. -/
def served (asked : Bool) (causes : DmaStatus) (raises : List DmaCause) : List StatusChange :=
  if asked then .acknowledged causes :: raises.map .raised else []

/-- The changes of a whole dispatch, by the status that it read and by what the hardware raises while the application is
told of received frames and of timestamps. -/
def dispatched (status : DmaStatus) (receiving transmitting : List DmaCause) : List StatusChange :=
  served (status.has .receiveComplete) receiveCauses receiving ++
    served (status.has .transmitComplete) transmitCauses transmitting ++
    served (!(status.diff (handledCauses status)).isEmpty) (status.diff (handledCauses status)) []

theorem countP_served (cause : DmaCause) (asked : Bool) (causes : DmaStatus) (raises : List DmaCause) :
    (served asked causes raises).countP (StatusChange.clears cause) = (asked && causes.has cause).toNat := by
  have none : (raises.map StatusChange.raised).countP (StatusChange.clears cause) = 0 := by
    refine List.countP_eq_zero.mpr fun change among => ?_
    obtain ⟨raised, _, rfl⟩ := List.mem_map.mp among
    exact Bool.false_ne_true
  cases asked with
  | false => rfl
  | true =>
    rw [served, if_pos rfl, List.countP_cons, none, StatusChange.clears, Bool.true_and]
    cases causes.has cause <;> rfl

/-- How often a dispatch takes a cause away: with what it acknowledges before it calls the application, or with what is
left to acknowledge in the end. -/
theorem countP_dispatched (cause : DmaCause) (status : DmaStatus) (receiving transmitting : List DmaCause) :
    (dispatched status receiving transmitting).countP (StatusChange.clears cause) =
      (status.has .receiveComplete && receiveCauses.has cause).toNat +
        (status.has .transmitComplete && transmitCauses.has cause).toNat +
        (status.has cause && !(handledCauses status).has cause).toNat := by
  have left : (!(status.diff (handledCauses status)).isEmpty && (status.diff (handledCauses status)).has cause) =
      (status.has cause && !(handledCauses status).has cause) := by
    rw [← DmaStatus.has_diff]
    cases empty : (status.diff (handledCauses status)).isEmpty with
    | true => rw [DmaStatus.has_of_isEmpty empty, Bool.and_false]
    | false => rw [Bool.not_false, Bool.true_and]
  rw [dispatched, List.countP_append, List.countP_append, countP_served, countP_served, countP_served, left]

theorem handledCauses_has (status : DmaStatus) (cause : DmaCause) :
    (handledCauses status).has cause = (status.has .receiveComplete && receiveCauses.has cause ||
      status.has .transmitComplete && transmitCauses.has cause) := by
  have empty : DmaStatus.empty.has cause = false := DmaStatus.has_of_isEmpty rfl cause
  rw [handledCauses, DmaStatus.has_union]
  cases status.has .receiveComplete <;> cases status.has .transmitComplete <;> simp [empty]

/-- A dispatch takes each of the two causes that it handles away once, and before it acts on it. -/
theorem countP_normal {cause : DmaCause} (normal : cause = .receiveComplete ∨ cause = .transmitComplete)
    (status : DmaStatus) (receiving transmitting : List DmaCause) :
    (dispatched status receiving transmitting).countP (StatusChange.clears cause) = (status.has cause).toNat := by
  rw [countP_dispatched, handledCauses_has]
  rcases normal with rfl | rfl
  · rw [show receiveCauses.has .receiveComplete = true by decide,
      show transmitCauses.has .receiveComplete = false by decide]
    cases status.has .receiveComplete <;> simp
  · rw [show receiveCauses.has .transmitComplete = false by decide,
      show transmitCauses.has .transmitComplete = true by decide]
    cases status.has .transmitComplete <;> simp

/-- The summary is taken away with the receive cause or, without it, in the end. -/
theorem countP_summary (status : DmaStatus) (receiving transmitting : List DmaCause) :
    (dispatched status receiving transmitting).countP (StatusChange.clears .normalSummary) =
      (status.has .receiveComplete || status.has .normalSummary).toNat := by
  rw [countP_dispatched, handledCauses_has, show receiveCauses.has .normalSummary = true by decide,
    show transmitCauses.has .normalSummary = false by decide]
  cases status.has .receiveComplete <;> simp

theorem dispatched_head {status : DmaStatus} (received : status.has .receiveComplete = true)
    (receiving transmitting : List DmaCause) : ∃ rest,
      dispatched status receiving transmitting = .acknowledged receiveCauses :: rest := by
  rw [dispatched, received, served, if_pos rfl, List.append_assoc]
  exact ⟨_, rfl⟩

/-- Without the receive cause the summary is taken away in the end, whatever was raised until then. -/
theorem summary_swept {status : DmaStatus} (quiet : status.has .receiveComplete = false)
    (summary : status.has .normalSummary = true) (receiving transmitting : List DmaCause) (start : DmaStatus) :
    ((dispatched status receiving transmitting).foldl StatusChange.apply start).has .normalSummary = false := by
  have left : (status.diff (handledCauses status)).has .normalSummary = true := by
    rw [DmaStatus.has_diff, handledCauses_has, summary, quiet, show transmitCauses.has .normalSummary = false by decide]
    simp
  have some : (status.diff (handledCauses status)).isEmpty = false := by
    refine Bool.eq_false_iff.mpr fun empty => ?_
    rw [DmaStatus.has_of_isEmpty empty] at left
    cases left
  rw [dispatched, List.foldl_append, some]
  change (DmaStatus.diff _ (status.diff (handledCauses status))).has .normalSummary = false
  rw [DmaStatus.has_diff, left, Bool.not_true, Bool.and_false]

section Dispatch

variable [Bus σ] {app : Application g (StatusBench σ)} {before after : Board g (StatusBench σ)} {status : DmaStatus}

theorem status_apply (board : Board g (StatusBench σ)) :
    onBus Peripheral.status board = (board.world.status, board) := by
  have read := StatusBench.read_status board.world
  change ((⟨(Bus.read Register.channelStatus.offset board.world).1⟩ : DmaStatus), { board with
    world := (Bus.read Register.channelStatus.offset board.world).2 }) = _
  rw [read]

theorem acknowledge_changes (causes : DmaStatus) (board : Board g (StatusBench σ)) :
    Changes board (onBus (Peripheral.acknowledge causes) board).2 [.acknowledged causes] := by
  have write : (onBus (Peripheral.acknowledge causes) board).2.world = board.world.change (.acknowledged causes) :=
    StatusBench.write_status causes.bits board.world
  exact ⟨by rw [write]; rfl, by rw [write]; rfl⟩

theorem dispatchReceive_changes (upcalls : ∀ called back, app.Reacts called back → OnlyRaises called back)
    (run : dispatchReceive app status before = some ((), after)) :
    ∃ raises, Changes before after (served (status.has .receiveComplete) receiveCauses raises) := by
  unfold dispatchReceive at run
  split at run
  · rename_i received
    rw [Call.quiet_bind_apply] at run
    obtain ⟨answer, middle, upcall, same⟩ := Call.bind_eq_some.mp run
    obtain ⟨_, rfl⟩ := Prod.mk.inj (Option.some.inj same)
    obtain ⟨raises, changes⟩ := upcalls _ _ (.event upcall)
    refine ⟨raises, ?_⟩
    rw [received]
    exact (acknowledge_changes _ _).trans changes
  · rename_i quiet
    obtain ⟨_, rfl⟩ := Prod.mk.inj (Option.some.inj run)
    refine ⟨[], ?_⟩
    rw [Bool.eq_false_iff.mpr quiet]
    exact .none rfl

theorem dispatchTransmit_changes (upcalls : ∀ called back, app.Reacts called back → OnlyRaises called back)
    {limit count : Nat} (run : dispatchTransmit app limit status before = some (count, after)) :
    ∃ raises, Changes before after (served (status.has .transmitComplete) transmitCauses raises) := by
  unfold dispatchTransmit at run
  split at run
  · rename_i sent
    rw [Call.quiet_bind_apply] at run
    obtain ⟨raises, changes⟩ := (onlyRaises_across upcalls).processCompletions limit _ _ _ run
    refine ⟨raises, ?_⟩
    rw [sent]
    exact (acknowledge_changes _ _).trans changes
  · rename_i quiet
    obtain ⟨_, rfl⟩ := Prod.mk.inj (Option.some.inj run)
    refine ⟨[], ?_⟩
    rw [Bool.eq_false_iff.mpr quiet]
    exact .none rfl

theorem dispatchRest_changes (status : DmaStatus) (board : Board g (StatusBench σ)) :
    Changes board (dispatchRest status board).2
      (served (!(status.diff (handledCauses status)).isEmpty) (status.diff (handledCauses status)) []) := by
  have changes := acknowledge_changes (status.diff (handledCauses status)) board
  unfold dispatchRest
  cases (status.diff (handledCauses status)).isEmpty with
  | true => exact .none rfl
  | false =>
    rw [Bool.not_false, if_pos rfl, BoardM.bind_apply]
    split
    · exact ⟨changes.record, changes.status⟩
    · exact changes

theorem interrupt_changes (upcalls : ∀ called back, app.Reacts called back → OnlyRaises called back) {limit : Nat}
    {answer : InterruptStatus} (run : interrupt app limit before = some (answer, after)) :
    Changes before after [] ∨ answer.status = before.world.status ∧ ∃ receiving transmitting,
      Changes before after (dispatched before.world.status receiving transmitting) := by
  unfold interrupt at run
  rw [Call.get_bind_apply] at run
  split at run
  · rw [Call.quiet_bind_apply] at run
    obtain ⟨_, rfl⟩ := Prod.mk.inj (Option.some.inj run)
    exact Or.inl (.none rfl)
  · rw [Call.quiet_bind_apply, Call.quiet_bind_apply, status_apply] at run
    obtain ⟨_, received, first, run⟩ := Call.bind_eq_some.mp run
    obtain ⟨stamps, transmitted, second, run⟩ := Call.bind_eq_some.mp run
    rw [Call.quiet_bind_apply, Call.quiet_bind_apply] at run
    obtain ⟨rfl, rfl⟩ := Prod.mk.inj (Option.some.inj run)
    obtain ⟨receiving, one⟩ := dispatchReceive_changes upcalls first
    obtain ⟨transmitting, two⟩ := dispatchTransmit_changes upcalls second
    have three := dispatchRest_changes before.world.status transmitted
    have all := (one.trans two).trans three
    exact Or.inr ⟨rfl, receiving, transmitting, all.record, all.status⟩

end Dispatch

end Board

open Board

/-- A cause that the hardware raises during a dispatch, after the driver has acknowledged it or without its having been
there before, is still set when the dispatch returns. The summary is still set with it if and only if the status that
the dispatch read had the receive cause or did not have the summary. -/
theorem raised_during_dispatch [Bus σ] {app : Application g (StatusBench σ)} {limit : Nat}
    {before after : Board g (StatusBench σ)} {answer : InterruptStatus} {past later : List StatusChange}
    {cause : DmaCause} (upcalls : ∀ called back, app.Reacts called back → OnlyRaises called back)
    (run : interrupt app limit before = some (answer, after))
    (normal : cause = .receiveComplete ∨ cause = .transmitComplete)
    (raised : after.world.changes = before.world.changes ++ (past ++ .raised cause :: later))
    (late : answer.status.has cause = true → ∃ causes, .acknowledged causes ∈ past ∧ causes.has cause = true) :
    after.world.status.has cause = true ∧ (after.world.status.has .normalSummary = true ↔
      answer.status.has .receiveComplete = true ∨ answer.status.has .normalSummary = false) := by
  obtain nested | ⟨read, receiving, transmitting, changes⟩ := interrupt_changes upcalls run
  · -- a call from within a dispatch touches nothing, so that nothing can have been raised in it
    have none := List.append_cancel_left (raised.symm.trans nested.record)
    simp at none
  · have whole := List.append_cancel_left (changes.record.symm.trans raised)
    rw [read] at late ⊢
    rw [changes.status]
    refine ⟨?_, ?_⟩
    · -- the cause is acknowledged once if it was read, which then lies before the raise
      have once := countP_normal normal before.world.status receiving transmitting
      refine StatusChange.has_of_raised _ whole (Or.inl rfl) (Nat.le_of_eq once) ?_
      cases found : before.world.status.has cause with
      | false => exact Nat.zero_le _
      | true =>
        obtain ⟨causes, among, acknowledged⟩ := late found
        exact List.countP_pos_iff.mpr ⟨_, among, acknowledged⟩
    · have once := countP_summary before.world.status receiving transmitting
      cases received : before.world.status.has .receiveComplete with
      | true =>
        obtain ⟨rest, head⟩ := dispatched_head received receiving transmitting
        rw [received, Bool.true_or] at once
        refine iff_of_true (StatusChange.has_of_raised _ whole (Or.inr rfl) (Nat.le_of_eq once) ?_) (Or.inl rfl)
        cases past with
        | nil => cases (List.cons.inj (head.symm.trans whole)).1
        | cons first others =>
          obtain ⟨rfl, _⟩ := List.cons.inj (head.symm.trans whole)
          exact List.countP_pos_iff.mpr ⟨_, List.mem_cons_self .., by decide⟩
      | false =>
        cases summed : before.world.status.has .normalSummary with
        | false =>
          rw [received, summed] at once
          exact iff_of_true (StatusChange.has_of_raised _ whole (Or.inr rfl) (Nat.le_of_eq once) (Nat.zero_le _))
            (Or.inr rfl)
        | true =>
          refine iff_of_false ?_ (by simp)
          rw [summary_swept received summed]
          exact Bool.false_ne_true

/-- An application during whose upcalls the hardware raises a cause. -/
def Application.raising (cause : DmaCause) : Application g (StatusBench σ) where
  onEvent _ := do
    Call.quiet (Board.modifyWorld (·.change (.raised cause)))
    return .accepted
  onStamp _ _ := Call.quiet (Board.modifyWorld (·.change (.raised cause)))

theorem Application.raising_reacts {cause : DmaCause} {called back : Board g (StatusBench σ)}
    (upcall : (raising cause).Reacts called back) : OnlyRaises called back := by
  refine ⟨[cause], ?_⟩
  cases upcall with
  | event run =>
    obtain ⟨_, rfl⟩ := Prod.mk.inj (Option.some.inj run)
    exact ⟨rfl, rfl⟩
  | stamp run =>
    obtain ⟨_, rfl⟩ := Prod.mk.inj (Option.some.inj run)
    exact ⟨rfl, rfl⟩

/-- A running driver whose only transmit slot has a timestamp to deliver, with a status to dispatch. -/
def Board.stampWaits (status : DmaStatus) : Board .smallest (StatusBench RestingPeripheral) :=
  let untried : Board .smallest (StatusBench RestingPeripheral) :=
    .untried ⟨0, 0x10000, 0x20000⟩ { status := .empty, rest := {} }
  let sent := (tryTransmit #[1] (.captureTimestamp { tag := 7 }) (untried.started {})).2
  let finished := sent.sentBack Geometry.smallest.firstTx ⟨5, 6, 0, Descriptor.stampCapturedBit⟩
  { finished with world := { status := status, rest := {} } }

/-- What a dispatch has read and what it leaves behind, for a fixed case to be computed. -/
theorem dispatch_outcome {run : Option (InterruptStatus × Board g (StatusBench σ))} {read left : DmaStatus}
    {changes : List StatusChange}
    (outcome : run.map (fun result => (result.1.status, result.2.world.status, result.2.world.changes)) =
      some (read, left, changes)) :
    ∃ answer after, run = some (answer, after) ∧ answer.status = read ∧ after.world.status = left ∧
      after.world.changes = changes := by
  obtain ⟨⟨answer, after⟩, returned, told⟩ := Option.map_eq_some_iff.mp outcome
  obtain ⟨first, second, third⟩ := Prod.mk.inj told |>.imp_right Prod.mk.inj
  exact ⟨answer, after, returned, first, second, third⟩

theorem raised_during_dispatch_received :
    ∃ answer after, interrupt (.raising .transmitComplete) 1 (stampWaits ⟨0x8040⟩) = some (answer, after) ∧
      after.world.changes = [.acknowledged receiveCauses, .raised .transmitComplete] ∧
      after.world.status.has .transmitComplete = true ∧ after.world.status.has .normalSummary = true := by
  obtain ⟨answer, after, run, read, _, changes⟩ := dispatch_outcome
    (by decide +kernel : (interrupt (.raising .transmitComplete) 1 (stampWaits ⟨0x8040⟩)).map
      (fun result => (result.1.status, result.2.world.status, result.2.world.changes)) =
        some (⟨0x8040⟩, ⟨0x8001⟩, [.acknowledged receiveCauses, .raised .transmitComplete]))
  have raised : after.world.changes = [] ++ ([.acknowledged receiveCauses] ++ .raised .transmitComplete :: []) :=
    changes
  have both := raised_during_dispatch (fun _ _ => Application.raising_reacts) run (Or.inr rfl) raised
    (by rw [read]; exact fun absent => absurd absent (by decide))
  exact ⟨answer, after, run, changes, both.1, both.2.mpr (Or.inl (by rw [read]; decide))⟩

/-- The receive cause is raised while a timestamp is delivered, after the driver has read and acknowledged the transmit
cause alone. It stays set, but the summary that was raised with it is taken away with the one that was read. -/
theorem summary_lost_during_dispatch : (stampWaits ⟨0x8001⟩).mac.lifecycle = .running ∧
    ∃ answer after, interrupt (.raising .receiveComplete) 1 (stampWaits ⟨0x8001⟩) = some (answer, after) ∧
      after.world.changes =
        [.acknowledged transmitCauses, .raised .receiveComplete, .acknowledged ⟨DmaCause.normalSummary.bit⟩] ∧
      answer.status.has .receiveComplete = false ∧ after.world.status.has .receiveComplete = true ∧
      after.world.status.has .normalSummary = false := by
  obtain ⟨answer, after, run, read, left, changes⟩ := dispatch_outcome
    (by decide +kernel : (interrupt (.raising .receiveComplete) 1 (stampWaits ⟨0x8001⟩)).map
      (fun result => (result.1.status, result.2.world.status, result.2.world.changes)) =
        some (⟨0x8001⟩, ⟨0x0040⟩,
          [.acknowledged transmitCauses, .raised .receiveComplete, .acknowledged ⟨DmaCause.normalSummary.bit⟩]))
  exact ⟨rfl, answer, after, run, changes, by rw [read]; decide, by rw [left]; decide, by rw [left]; decide⟩

end EthernetMac

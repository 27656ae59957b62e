import EthernetMac.Proofs.Interrupt.Dispatch
import EthernetMac.Proofs.Nesting

namespace EthernetMac

variable {g : Geometry} {ε α β : Type}

namespace DmaStatus

theorem eq_of_bits {a b : DmaStatus}
    (same : ∀ k, k < 32 → a.bits.toBitVec.getLsbD k = b.bits.toBitVec.getLsbD k) : a = b := by
  obtain ⟨a⟩ := a
  obtain ⟨b⟩ := b
  exact congrArg mk (UInt32.toBitVec_inj.mp (BitVec.eq_of_getLsbD_eq fun k inside => same k inside))

theorem union_assoc (a b c : DmaStatus) : (a.union b).union c = a.union (b.union c) :=
  congrArg mk (UInt32.or_assoc ..)

theorem union_right_comm (a b c : DmaStatus) : (a.union b).union c = (a.union c).union b := by
  rw [union_assoc, union_assoc, union, union, union, union, UInt32.or_comm b.bits]

@[simp]
theorem union_empty (a : DmaStatus) : a.union .empty = a := congrArg mk UInt32.or_zero

@[simp]
theorem empty_union (a : DmaStatus) : DmaStatus.empty.union a = a := congrArg mk UInt32.zero_or

theorem eq_empty {status : DmaStatus} (empty : status.isEmpty = true) : status = .empty :=
  congrArg mk (beq_iff_eq.mp empty)

/-- What is taken first and what is left over are together all that there was and what was taken first. -/
theorem union_diff (a b : DmaStatus) : a.union (b.diff a) = b.union a := by
  refine eq_of_bits fun k inside => ?_
  simp only [union, diff, UInt32.toBitVec_or, UInt32.toBitVec_and, UInt32.toBitVec_not, BitVec.getLsbD_or,
    BitVec.getLsbD_and, BitVec.getLsbD_not, inside, decide_true, Bool.true_and]
  cases a.bits.toBitVec.getLsbD k <;> cases b.bits.toBitVec.getLsbD k <;> rfl

theorem inter_diff {a b : DmaStatus} (covered : b.union a = b) (c : DmaStatus) :
    (a.inter (c.diff b)).isEmpty = true := by
  have none : a.inter (c.diff (b.union a)) = .empty := by
    refine eq_of_bits fun k inside => ?_
    simp only [inter, diff, union, empty, UInt32.toBitVec_or, UInt32.toBitVec_and, UInt32.toBitVec_not,
      BitVec.getLsbD_or, BitVec.getLsbD_and, BitVec.getLsbD_not, inside, decide_true, Bool.true_and]
    cases a.bits.toBitVec.getLsbD k <;> simp
  rw [covered] at none
  rw [none]
  rfl

theorem union_bit {status : DmaStatus} {cause : DmaCause} (set : status.has cause = true) :
    status.union ⟨cause.bit⟩ = status := by
  obtain ⟨k, _, bit⟩ := exists_bit cause
  have masked : (status.bits &&& cause.bit).toBitVec =
      if status.bits.toBitVec.getLsbD k then cause.bit.toBitVec else 0#32 := by
    rw [UInt32.toBitVec_and, bit, BitVec.and_twoPow]
  have covered : status.bits &&& cause.bit = cause.bit := by
    by_cases there : status.bits.toBitVec.getLsbD k = true
    · rw [if_pos there] at masked
      exact UInt32.toBitVec_inj.mp masked
    · rw [if_neg there] at masked
      exact absurd (UInt32.toBitVec_inj.mp masked) (bne_iff_ne.mp set)
  refine eq_of_bits fun j inside => ?_
  have at_j := congrArg (fun word => word.toBitVec.getLsbD j) covered
  simp only [UInt32.toBitVec_and, BitVec.getLsbD_and] at at_j
  simp only [union, UInt32.toBitVec_or, BitVec.getLsbD_or]
  rw [← at_j]
  cases status.bits.toBitVec.getLsbD j <;> simp

end DmaStatus

/-- What a dispatch does, one thing at a time. -/
inductive DispatchAction where
  | acknowledge (causes : DmaStatus)
  | tell
  | scan
  | warn (status : DmaStatus)
deriving DecidableEq

namespace DispatchAction

variable [Bus ε]

/-- An action is one write of the status register, one upcall, one completion scan or one note. The answer is the number
of timestamps that it has delivered. -/
def perform (app : Application g ε) (limit : Nat) : DispatchAction → Call g ε Nat
  | .acknowledge causes => do
    Call.quiet (Board.onBus (Register.channelStatus.write causes.bits))
    return 0
  | .tell => do
    let _ ← app.onEvent .receiveReady
    return 0
  | .scan => Board.processCompletions app limit
  | .warn status => do
    Call.quiet (Board.note (.errorInterrupt status.bits))
    return 0

def performAll (app : Application g ε) (limit : Nat) : List DispatchAction → Call g ε Nat
  | [] => return 0
  | action :: rest => do
    let first ← action.perform app limit
    return first + (← performAll app limit rest)

def acknowledged? : DispatchAction → Option DmaStatus
  | .acknowledge causes => some causes
  | _ => none

/-- The values that the actions write to the status register. -/
def acknowledged (actions : List DispatchAction) : List DmaStatus := actions.filterMap acknowledged?

/-- The actions of a dispatch that has read `status`. -/
def ofStatus (status : DmaStatus) : List DispatchAction :=
  (if status.has .receiveComplete then [.acknowledge Board.receiveCauses, .tell] else []) ++
    (if status.has .transmitComplete then [.acknowledge Board.transmitCauses, .scan] else []) ++
    if (status.diff (Board.handledCauses status)).isEmpty then []
    else .acknowledge (status.diff (Board.handledCauses status)) ::
      if (status.diff (Board.handledCauses status)).intersects .errors then [.warn status] else []

theorem performAll_append (app : Application g ε) (limit : Nat) (first second : List DispatchAction) :
    performAll app limit (first ++ second) = (do
      let one ← performAll app limit first
      return one + (← performAll app limit second)) := by
  induction first with
  | nil => simp only [List.nil_append, performAll, pure_bind, Nat.zero_add, bind_pure]
  | cons action rest ih => simp only [List.cons_append, performAll, ih, bind_assoc, pure_bind, Nat.add_assoc]

theorem performAll_receive (app : Application g ε) (limit : Nat) (status : DmaStatus) :
    performAll app limit
      (if status.has .receiveComplete then [.acknowledge Board.receiveCauses, .tell] else []) = (do
      Board.dispatchReceive app status
      return 0) := by
  unfold Board.dispatchReceive
  cases status.has .receiveComplete with
  | false => rfl
  | true =>
    simp only [if_true, performAll, perform, bind_assoc, pure_bind]
    rfl

theorem performAll_transmit (app : Application g ε) (limit : Nat) (status : DmaStatus) :
    performAll app limit
      (if status.has .transmitComplete then [.acknowledge Board.transmitCauses, .scan] else []) =
      Board.dispatchTransmit app limit status := by
  unfold Board.dispatchTransmit
  cases status.has .transmitComplete with
  | false => rfl
  | true =>
    simp only [if_true, performAll, perform, bind_assoc, pure_bind, Nat.zero_add, Nat.add_zero, bind_pure]
    rfl

theorem performAll_rest (app : Application g ε) (limit : Nat) (status : DmaStatus) :
    performAll app limit
      (if (status.diff (Board.handledCauses status)).isEmpty then []
        else .acknowledge (status.diff (Board.handledCauses status)) ::
          if (status.diff (Board.handledCauses status)).intersects .errors then [.warn status] else []) = (do
      Call.quiet (Board.dispatchRest status)
      return 0) := by
  unfold Board.dispatchRest
  dsimp only
  generalize status.diff (Board.handledCauses status) = rest
  cases rest.isEmpty with
  | true => rfl
  | false =>
    simp only [Bool.false_eq_true, Bool.not_false, if_false, if_true]
    cases rest.intersects .errors with
    | false => rfl
    | true => rfl

/-- The actions acknowledge every bit of the status that was read, known or not, once, and nothing else but the summary
that goes with the receive cause. They tell of received frames and scan for timestamps once if the cause was read, right
after the cause was acknowledged, and else not at all. -/
structure Handles (status : DmaStatus) (actions : List DispatchAction) : Prop where
  disjoint : (acknowledged actions).Pairwise fun a b => (a.inter b).isEmpty = true
  whole : (acknowledged actions).foldl DmaStatus.union .empty =
    status.union (if status.has .receiveComplete then ⟨DmaCause.normalSummary.bit⟩ else .empty)
  silent : status.isEmpty = true → acknowledged actions = []
  told : actions.count .tell = (status.has .receiveComplete).toNat
  tells_late : status.has .receiveComplete = true →
    ∃ causes, causes.has .receiveComplete = true ∧ [.acknowledge causes, .tell] <:+: actions
  scanned : actions.count .scan = (status.has .transmitComplete).toNat
  scans_late : status.has .transmitComplete = true →
    ∃ causes, causes.has .transmitComplete = true ∧ [.acknowledge causes, .scan] <:+: actions

theorem acknowledged_ofStatus (status : DmaStatus) :
    acknowledged (ofStatus status) =
      (if status.has .receiveComplete then [Board.receiveCauses] else []) ++
        (if status.has .transmitComplete then [Board.transmitCauses] else []) ++
        if (status.diff (Board.handledCauses status)).isEmpty then []
        else [status.diff (Board.handledCauses status)] := by
  unfold acknowledged ofStatus
  rw [List.filterMap_append, List.filterMap_append]
  generalize status.diff (Board.handledCauses status) = rest
  cases status.has .receiveComplete <;> cases status.has .transmitComplete <;> cases rest.isEmpty <;>
    cases rest.intersects .errors <;> rfl

/-- What is handled, with what was read, is what was read and the summary that goes with the receive cause. -/
theorem union_handledCauses (status : DmaStatus) :
    status.union (Board.handledCauses status) =
      status.union (if status.has .receiveComplete then ⟨DmaCause.normalSummary.bit⟩ else .empty) := by
  have receive : Board.receiveCauses =
      DmaStatus.union ⟨DmaCause.receiveComplete.bit⟩ ⟨DmaCause.normalSummary.bit⟩ := rfl
  unfold Board.handledCauses
  rw [receive, Board.transmitCauses]
  cases received : status.has .receiveComplete <;> cases transmitted : status.has .transmitComplete
  · rfl
  · simp [DmaStatus.union_bit transmitted]
  · simp [← DmaStatus.union_assoc, DmaStatus.union_bit received]
  · simp only [if_true]
    rw [← DmaStatus.union_assoc, ← DmaStatus.union_assoc, DmaStatus.union_bit received,
      DmaStatus.union_right_comm, DmaStatus.union_bit transmitted]

theorem foldl_union_acknowledged (status : DmaStatus) :
    (acknowledged (ofStatus status)).foldl DmaStatus.union .empty =
      status.union (if status.has .receiveComplete then ⟨DmaCause.normalSummary.bit⟩ else .empty) := by
  have single (start one : DmaStatus) (asked : Bool) :
      (if asked then [one] else []).foldl DmaStatus.union start = start.union (if asked then one else .empty) := by
    cases asked <;> simp
  have last (start rest : DmaStatus) :
      (if rest.isEmpty then [] else [rest]).foldl DmaStatus.union start = start.union rest := by
    cases empty : rest.isEmpty with
    | true => simp [DmaStatus.eq_empty empty]
    | false => simp
  rw [acknowledged_ofStatus, List.foldl_append, List.foldl_append, single, single, last, DmaStatus.empty_union,
    ← union_handledCauses]
  exact DmaStatus.union_diff (Board.handledCauses status) status

theorem disjoint_acknowledged (status : DmaStatus) :
    (acknowledged (ofStatus status)).Pairwise fun a b => (a.inter b).isEmpty = true := by
  have covered : ∀ causes ∈ (if status.has .receiveComplete then [Board.receiveCauses] else []) ++
      (if status.has .transmitComplete then [Board.transmitCauses] else []),
      (Board.handledCauses status).union causes = Board.handledCauses status := by
    unfold Board.handledCauses
    cases status.has .receiveComplete <;> cases status.has .transmitComplete <;> decide
  rw [acknowledged_ofStatus, List.pairwise_append]
  refine ⟨?_, ?_, ?_⟩
  · cases status.has .receiveComplete <;> cases status.has .transmitComplete <;> decide
  · split
    · exact .nil
    · exact List.pairwise_singleton ..
  · intro causes handled rest left
    split at left
    · cases left
    · rw [List.mem_singleton.mp left]
      exact DmaStatus.inter_diff (covered causes handled) status

theorem ofStatus_handles (status : DmaStatus) : Handles status (ofStatus status) where
  disjoint := disjoint_acknowledged status
  whole := foldl_union_acknowledged status
  silent empty := by
    rw [DmaStatus.eq_empty empty]
    decide
  told := by
    unfold ofStatus
    generalize status.diff (Board.handledCauses status) = rest
    cases status.has .receiveComplete <;> cases status.has .transmitComplete <;> cases rest.isEmpty <;>
      cases rest.intersects .errors <;> simp
  tells_late received := by
    refine ⟨Board.receiveCauses, by decide, ?_⟩
    unfold ofStatus
    rw [received, if_pos rfl, List.append_assoc]
    exact (List.prefix_append ..).isInfix
  scanned := by
    unfold ofStatus
    generalize status.diff (Board.handledCauses status) = rest
    cases status.has .receiveComplete <;> cases status.has .transmitComplete <;> cases rest.isEmpty <;>
      cases rest.intersects .errors <;> simp
  scans_late transmitted := by
    refine ⟨Board.transmitCauses, by decide, ?_⟩
    unfold ofStatus
    rw [transmitted, if_pos rfl]
    exact ⟨_, _, rfl⟩

end DispatchAction

namespace Board

variable [Bus ε]

/-- The board with the dispatch marked as running or as over. -/
def marked (board : Board g ε) (flag : Bool) : Board g ε :=
  { board with mac := { board.mac with dispatching := flag } }

/-- What a dispatch reads, and the board on which it sets to work. -/
def snapshot (board : Board g ε) : DmaStatus × Board g ε := onBus Peripheral.status (board.marked true)

/-- A whole dispatch: it reads the status, performs the actions while it is marked as running, and answers the status
with the number of timestamps that the actions have delivered. -/
def dispatch (app : Application g ε) (limit : Nat) (actions : List DispatchAction) (board : Board g ε) :
    Option (InterruptStatus × Board g ε) :=
  (DispatchAction.performAll app limit actions board.snapshot.2).map fun done =>
    ({ status := board.snapshot.1, stamps := done.1 }, done.2.marked false)

omit [Bus ε] in
theorem mark_apply (board : Board g ε) (flag : Bool) :
    modifyMac (fun mac => { mac with dispatching := flag }) board = ((), board.marked flag) := rfl

theorem interrupt_apply (app : Application g ε) (limit : Nat) {board : Board g ε}
    (outermost : board.mac.dispatching = false) :
    interrupt app limit board = dispatch app limit (DispatchAction.ofStatus board.snapshot.1) board := by
  unfold interrupt dispatch DispatchAction.ofStatus snapshot
  rw [Call.get_bind_apply, outermost, if_neg Bool.false_ne_true, Call.quiet_bind_apply, mark_apply,
    Call.quiet_bind_apply, DispatchAction.performAll_append, DispatchAction.performAll_append,
    DispatchAction.performAll_receive, DispatchAction.performAll_transmit, DispatchAction.performAll_rest]
  simp only [bind_assoc, pure_bind, Nat.zero_add, Nat.add_zero]
  rw [Call.bind_apply, Call.bind_apply]
  cases dispatchReceive app _ _ with
  | none => rfl
  | some received =>
    rw [Option.bind_some, Option.bind_some, Call.bind_apply, Call.bind_apply]
    cases dispatchTransmit app limit _ _ with
    | none => rfl
    | some transmitted => rfl

/-- The board with a note that a dispatch was asked for while another one ran. -/
def reentered (board : Board g ε) : Board g ε :=
  { board with journal := board.journal.push .dispatchReentered }

theorem interrupt_reentered (app : Application g ε) (limit : Nat) {board : Board g ε}
    (running : board.mac.dispatching = true) : interrupt app limit board = some (.idle, board.reentered) := by
  unfold interrupt
  rw [Call.get_bind_apply, if_pos running, Call.quiet_bind_apply]
  rfl

def IsDispatching (board : Board g ε) : Prop := board.mac.dispatching = true

end Board

open Board

/-- Anything may happen that leaves the mark of a running dispatch alone. -/
def Stage.dispatch : Stage g ε where
  moves before after := after.mac.dispatching = before.mac.dispatching
  tells := id

theorem Stage.dispatch_sustains [Bus ε] :
    (Stage.dispatch : Stage g ε).Sustains IsDispatching fun before after =>
      before.IsDispatching → after.IsDispatching where
  refl _ := id
  trans one two := two ∘ one
  free idle here := absurd here idle
  move same here := same.trans here
  received upcalls := by
    have spans : Spans ReceiveStep fun before after : Board g ε => before.IsDispatching → after.IsDispatching :=
      ⟨fun _ => id, fun one two => two ∘ one, fun step => by cases step <;> exact id⟩
    exact spans.processReceived fun _ _ _ _ told => upcalls _ _ (.event told)
  completions upcalls := by
    have spans : Spans ScanStep fun before after : Board g ε => before.IsDispatching → after.IsDispatching :=
      ⟨fun _ => id, fun one two => two ∘ one, fun step => by cases step <;> exact id⟩
    exact spans.processCompletions (fun _ delivery here => upcalls _ _ (deliverStamp_reacts delivery) here) _
  interrupt upcalls := by
    intro before status after run here
    rw [interrupt_reentered _ _ here] at run
    obtain ⟨_, rfl⟩ := Prod.mk.inj (Option.some.inj run)
    exact here
  poll monitor reading upcalls := by
    refine LinkMonitor.poll_ensures (R := fun before after : Board g ε => before.IsDispatching → after.IsDispatching)
      (fun one two => two ∘ one) (fun board here => (reading board).trans here) ?_ monitor
    intro link before answer after told here
    refine upcalls (before.inMode link) after (.event told) ?_
    unfold Board.inMode
    split
    · exact here
    · exact here

namespace DispatchAction

variable [Bus ε] {app other : Application g ε} (agrees : app.AgreesWhere IsDispatching other)
  (kept : ∀ called back : Board g ε, called.IsDispatching → app.Reacts called back → back.IsDispatching)

include agrees kept

theorem perform_matches (limit : Nat) (action : DispatchAction) :
    Call.Matches IsDispatching (perform app limit action) (perform other limit action) := by
  cases action with
  | acknowledge causes => exact .bind (.quiet fun _ => id) fun _ => .pure 0
  | tell => exact .bind (.event agrees kept _) fun _ => .pure 0
  | scan => exact .processCompletions agrees kept (fun _ _ => id) (fun _ _ => id) limit
  | warn status => exact .bind (.quiet fun _ => id) fun _ => .pure 0

theorem performAll_matches (limit : Nat) (actions : List DispatchAction) :
    Call.Matches IsDispatching (performAll app limit actions) (performAll other limit actions) := by
  induction actions with
  | nil => exact .pure 0
  | cons action rest ih =>
    exact .bind (perform_matches agrees kept limit action) fun first => .bind ih fun more => .pure (first + more)

end DispatchAction

/-- An outermost dispatch acknowledges just what it read. It is one read of the status and then a list of actions that
handles the status, whatever the status, the state of the driver's life and the application. The application is called
only on boards on which the dispatch is marked as running, so that another one that agrees with it there makes no
difference. In whatever the application does from such a board on, a dispatch that is asked for answers that there was
nothing, and leaves nothing behind but a note. -/
theorem dispatch_acknowledges_once [Bus ε] (app : Application g ε) (limit : Nat) {before : Board g ε}
    (outermost : before.mac.dispatching = false)
    (upcalls : ∀ called back, called.IsDispatching → app.Reacts called back →
      Stage.dispatch.Activity IsDispatching called back) :
    (∃ actions, DispatchAction.Handles before.snapshot.1 actions ∧
      interrupt app limit before = dispatch app limit actions before) ∧
    (∀ other, app.AgreesWhere IsDispatching other → interrupt other limit before = interrupt app limit before) ∧
    ∀ called inner : Board g ε, called.IsDispatching → Stage.dispatch.Activity IsDispatching called inner →
      ∀ nested bound, interrupt nested bound inner = some (.idle, inner.reentered) := by
  refine ⟨⟨_, DispatchAction.ofStatus_handles _, interrupt_apply app limit outermost⟩, ?_, ?_⟩
  · intro other agrees
    have kept : ∀ called back : Board g ε, called.IsDispatching → app.Reacts called back → back.IsDispatching :=
      fun called back here upcall => (upcalls called back here upcall).sustained Stage.dispatch_sustains here
    rw [interrupt_apply _ _ outermost, interrupt_apply _ _ outermost]
    exact congrArg (Option.map _)
      (DispatchAction.performAll_matches agrees kept limit _ before.snapshot.2 rfl).1
  · intro called inner here activity nested bound
    exact interrupt_reentered nested bound (activity.sustained Stage.dispatch_sustains here)

/-- An application that asks for a dispatch whenever it is called. -/
def Application.reentrant [Bus ε] : Application g ε where
  onEvent _ := do
    let _ ← interrupt .accepting 1
    return .accepted
  onStamp _ _ := do
    let _ ← interrupt .accepting 1

theorem Application.reentrant_reacts [Bus ε] {called back : Board g ε} (upcall : reentrant.Reacts called back) :
    Stage.dispatch.Activity IsDispatching called back := by
  cases upcall with
  | event run =>
    obtain ⟨status, middle, dispatched, same⟩ := Call.bind_eq_some.mp run
    obtain ⟨_, rfl⟩ := Prod.mk.inj (Option.some.inj same)
    exact .interrupt (.still called) Stage.Activity.accepted dispatched
  | stamp run =>
    obtain ⟨status, middle, dispatched, same⟩ := Call.bind_eq_some.mp run
    obtain ⟨_, rfl⟩ := Prod.mk.inj (Option.some.inj same)
    exact .interrupt (.still called) Stage.Activity.accepted dispatched

/-- Frames were received and a timestamp waits, and the application asks for a dispatch in both upcalls. -/
theorem dispatch_acknowledges_once_reentrant :
    (∃ actions, DispatchAction.Handles ⟨0x8041⟩ actions ∧
      interrupt .reentrant 1 (stampWaits ⟨0x8041⟩) = dispatch .reentrant 1 actions (stampWaits ⟨0x8041⟩)) ∧
    (interrupt .reentrant 1 (stampWaits ⟨0x8041⟩)).map (fun result =>
      (result.1, result.2.world.changes, result.2.journal)) =
        some ({ status := ⟨0x8041⟩, stamps := 1 }, [.acknowledged receiveCauses, .acknowledged transmitCauses],
          #[.dispatchReentered, .dispatchReentered]) := by
  have outermost : (stampWaits ⟨0x8041⟩).mac.dispatching = false := rfl
  have read : (stampWaits ⟨0x8041⟩).snapshot.1 = ⟨0x8041⟩ := congrArg Prod.fst (status_apply _)
  have settled := dispatch_acknowledges_once .reentrant 1 outermost fun _ _ _ => Application.reentrant_reacts
  rw [read] at settled
  exact ⟨settled.1, by decide +kernel⟩

end EthernetMac

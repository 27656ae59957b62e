import EthernetMac.Proofs.Transmit.Balance

namespace EthernetMac

variable {g : Geometry} {σ α β : Type}

/-- What comes from a balanced board by the driver, the application or the hardware goes on from it. -/
def Carries (before after : Board g (TransmitBench σ)) : Prop := Balanced before → Continues before after

namespace Carries

variable {before middle after : Board g (TransmitBench σ)}

theorem refl (board : Board g (TransmitBench σ)) : Carries board board := Continues.refl

theorem trans (first : Carries before middle) (second : Carries middle after) : Carries before after :=
  fun balanced => (first balanced).trans (second (first balanced).balanced)

theorem aside (same : SameTransmit before after) : Carries before after := fun balanced => .aside balanced same

end Carries

/-- Whenever the call comes back, the board has gone on. -/
def Call.Leads (call : Call g (TransmitBench σ) α) : Prop :=
  ∀ before value after, call before = some (value, after) → Carries before after

namespace Call.Leads

theorem pure (value : α) : Leads (Pure.pure value : Call g (TransmitBench σ) α) := by
  intro before result after run
  obtain ⟨_, rfl⟩ := Prod.mk.inj (Option.some.inj run)
  exact .refl _

theorem bind {call : Call g (TransmitBench σ) α} {rest : α → Call g (TransmitBench σ) β} (first : Leads call)
    (second : ∀ value, Leads (rest value)) : Leads (call >>= rest) := by
  intro before result after run
  obtain ⟨value, middle, called, continued⟩ := Call.bind_eq_some.mp run
  exact (first before value middle called).trans (second value middle result after continued)

theorem aside {act : BoardM g (TransmitBench σ) α} (same : ∀ board, SameTransmit board (act board).2) :
    Leads (Call.quiet act) := by
  intro before value after run
  obtain rfl : (act before).2 = after := congrArg Prod.snd (Option.some.inj run)
  exact .aside (same before)

end Call.Leads

namespace Board

variable {app : Application g (TransmitBench σ)} {before after : Board g (TransmitBench σ)}

/-- One turn of a drain: the timestamp that is selected is delivered, which is one upcall, and the rest follows. -/
theorem drain_turn (upcalls : ∀ called back, app.Upcall called back → Carries called back) {limit count : Nat}
    (balanced : Balanced before) {i : Fin g.tx} (selected : before.mac.transmitter.nextStamped? = some i)
    (run : drain app.logged limit before = some (count, after)) :
    ∃ entry logged middle limit' count', limit = limit' + 1 ∧ count = count' + 1 ∧ Delivers before logged entry ∧
      Continues logged middle ∧ drain app.logged limit' middle = some (count', after) := by
  cases limit with
  | zero =>
    rw [drain_zero _ selected] at run
    cases run
  | succ limit =>
    rw [drain_succ _ _ selected, deliverStamp_logged] at run
    obtain ⟨⟨_, middle⟩, upcall, rest⟩ := Option.bind_eq_some_iff.mp run
    obtain ⟨⟨more, last⟩, drained, same⟩ := Option.map_eq_some_iff.mp rest
    obtain ⟨rfl, rfl⟩ := Prod.mk.inj same
    obtain ⟨entry, delivers⟩ := balanced.ledger.delivers selected
    have called := upcalls _ _ (deliverStamp_upcall upcall) (Continues.delivers balanced delivers).balanced
    exact ⟨entry, _, middle, limit, more, rfl, rfl, delivers, called, drained⟩

theorem drain_continues (upcalls : ∀ called back, app.Upcall called back → Carries called back) {limit count : Nat}
    (balanced : Balanced before) (run : drain app.logged limit before = some (count, after)) :
    Continues before after ∧ before.world.deliveries.length + count ≤ after.world.deliveries.length := by
  induction count generalizing before limit with
  | zero =>
    cases selected : before.mac.transmitter.nextStamped? with
    | none =>
      rw [drain_none _ _ selected] at run
      obtain ⟨_, rfl⟩ := Prod.mk.inj (Option.some.inj run)
      exact ⟨.refl balanced, Nat.le_refl _⟩
    | some i =>
      obtain ⟨_, _, _, _, _, _, positive, _⟩ := drain_turn upcalls balanced selected run
      cases positive
  | succ count ih =>
    cases selected : before.mac.transmitter.nextStamped? with
    | none =>
      rw [drain_none _ _ selected] at run
      cases run
    | some i =>
      obtain ⟨entry, logged, middle, limit, _, _, same, delivers, called, rest⟩ :=
        drain_turn upcalls balanced selected run
      obtain rfl := Nat.succ.inj same
      obtain ⟨onward, counted⟩ := ih called.balanced rest
      have one := delivers.deliveries_length
      have grown := called.deliveries_le
      exact ⟨((Continues.delivers balanced delivers).trans called).trans onward, by omega⟩

theorem drain_first (upcalls : ∀ called back, app.Upcall called back → Carries called back) {limit count : Nat}
    (balanced : Balanced before) {j : Nat} (pending : Pending g before.world j)
    (selected : before.mac.transmitter.nextStamped? = some (g.txSlot j))
    (run : drain app.logged limit before = some (count, after)) :
    ∃ entry more, after.world.deliveries = before.world.deliveries ++ entry :: more ∧ entry.index = j := by
  obtain ⟨entry, logged, middle, limit, count, _, _, delivers, called, rest⟩ :=
    drain_turn upcalls balanced selected run
  obtain ⟨onward, _⟩ := drain_continues upcalls called.balanced rest
  obtain ⟨more, grown, _⟩ := (called.trans onward).deliveries
  have same := Option.some.inj (delivers.selected.symm.trans selected)
  have waited := delivers.waited.inRing
  refine ⟨entry, more, by rw [grown, delivers.deliveries, List.append_assoc, List.singleton_append], ?_⟩
  exact Geometry.txSlot_injective waited.made pending.inRing.made waited.recent pending.inRing.recent same

theorem scanning_balanced (balanced : Balanced before) : Balanced before.scanning :=
  ⟨balanced.ledger.congr rfl rfl rfl rfl rfl, balanced.chronicle, balanced.up⟩

theorem scanned_balanced (balanced : Balanced before) : Balanced before.scanned :=
  ⟨balanced.ledger.congr rfl rfl rfl rfl rfl, balanced.chronicle, balanced.up⟩

theorem scanned_continues (idle : before.mac.transmitter.completing = false)
    (continues : Continues before.scanning after) : Continues before after.scanned :=
  ⟨scanned_balanced continues.balanced, continues.submissions, continues.writeBacks, continues.deliveries, idle.symm,
    continues.load⟩

theorem scanCompletions_leads (upcalls : ∀ called back, app.Upcall called back → Carries called back)
    (limit scans : Nat) : Call.Leads (scanCompletions app.logged limit scans) := by
  intro before count after run balanced
  induction scans generalizing before count with
  | zero => cases run
  | succ scans ih =>
    rw [scanCompletions_succ] at run
    split at run
    · obtain ⟨_, rfl⟩ := Prod.mk.inj (Option.some.inj run)
      exact ⟨⟨balanced.ledger.congr rfl rfl rfl rfl rfl, balanced.chronicle, balanced.up⟩, List.prefix_rfl,
        List.prefix_rfl, Continues.none_delivered rfl, rfl, Nat.le_refl _⟩
    · rename_i idle
      obtain ⟨⟨some, drained⟩, done, rest⟩ := Option.bind_eq_some_iff.mp run
      obtain ⟨continues, _⟩ := drain_continues upcalls (scanning_balanced balanced) done
      have first := scanned_continues (Bool.eq_false_iff.mpr idle) continues
      split at rest
      · obtain ⟨⟨more, last⟩, again, same⟩ := Option.map_eq_some_iff.mp rest
        obtain ⟨_, rfl⟩ := Prod.mk.inj same
        exact first.trans (ih _ _ again first.balanced)
      · obtain ⟨_, rfl⟩ := Prod.mk.inj (Option.some.inj rest)
        exact first

theorem processCompletions_leads (upcalls : ∀ called back, app.Upcall called back → Carries called back)
    (limit : Nat) : Call.Leads (processCompletions app.logged limit) := by
  intro before count after run balanced
  rw [processCompletions_apply _ _ balanced.up] at run
  exact scanCompletions_leads upcalls _ _ _ _ _ run balanced

/-- The first timestamp that an outermost scan delivers is the one that is selected when it begins. -/
theorem processCompletions_first (upcalls : ∀ called back, app.Upcall called back → Carries called back)
    {limit count : Nat} (balanced : Balanced before) (outermost : before.mac.transmitter.completing = false) {j : Nat}
    (pending : Pending g before.world j) (selected : before.mac.transmitter.nextStamped? = some (g.txSlot j))
    (run : processCompletions app.logged limit before = some (count, after)) :
    ∃ entry more, after.world.deliveries = before.world.deliveries ++ entry :: more ∧ entry.index = j := by
  rw [processCompletions_apply _ _ balanced.up, scanCompletions_succ, outermost, if_neg Bool.false_ne_true] at run
  obtain ⟨⟨some, drained⟩, done, rest⟩ := Option.bind_eq_some_iff.mp run
  have opened := scanning_balanced balanced
  obtain ⟨entry, more, grown, index⟩ := drain_first upcalls opened pending selected done
  split at rest
  · obtain ⟨⟨count, last⟩, again, same⟩ := Option.map_eq_some_iff.mp rest
    obtain ⟨_, rfl⟩ := Prod.mk.inj same
    have closed := scanned_balanced (drain_continues upcalls opened done).1.balanced
    obtain ⟨others, onward, _⟩ := (scanCompletions_leads upcalls _ _ _ _ _ again closed).deliveries
    have first : drained.scanned.world.deliveries = before.world.deliveries ++ entry :: more := grown
    exact ⟨entry, more ++ others, by rw [onward, first, List.append_assoc, List.cons_append], index⟩
  · obtain ⟨_, rfl⟩ := Prod.mk.inj (Option.some.inj rest)
    exact ⟨entry, more, grown, index⟩

theorem interrupt_leads [Bus σ] (upcalls : ∀ called back, app.Upcall called back → Carries called back)
    (limit : Nat) : Call.Leads (interrupt app.logged limit) := by
  have bus : ∀ {α : Type} (act : StateM (TransmitBench σ) α), Bus.Keeps TransmitBench.record act →
      Call.Leads (Call.quiet (onBus act : BoardM g _ α)) :=
    fun act kept => .aside fun board => ⟨rfl, kept board.world, id⟩
  have acknowledged : ∀ status, Call.Leads (Call.quiet (onBus (Peripheral.acknowledge status) : BoardM g _ _)) :=
    fun status => bus _ (TransmitBench.record_untouched.store .channelStatus status.bits)
  have marked : ∀ flag, Call.Leads
      (Call.quiet (modifyMac fun mac => { mac with dispatching := flag } : BoardM g (TransmitBench σ) _)) :=
    fun flag => .aside fun board => ⟨rfl, rfl, id⟩
  have received : ∀ status, Call.Leads (dispatchReceive app.logged status) := by
    intro status
    unfold dispatchReceive
    split
    · exact (acknowledged _).bind fun _ =>
        Call.Leads.bind (fun _ _ _ upcall => upcalls _ _ (.event upcall)) fun _ => .pure _
    · exact .pure _
  have transmitted : ∀ status, Call.Leads (dispatchTransmit app.logged limit status) := by
    intro status
    unfold dispatchTransmit
    split
    · exact (acknowledged _).bind fun _ => processCompletions_leads upcalls limit
    · exact .pure _
  have rest : ∀ status, Call.Leads (Call.quiet (dispatchRest status : BoardM g (TransmitBench σ) _)) := by
    intro status
    refine .aside fun board => ?_
    unfold dispatchRest
    split
    · split
      · exact ⟨rfl, TransmitBench.record_untouched.store .channelStatus _ board.world, id⟩
      · exact ⟨rfl, TransmitBench.record_untouched.store .channelStatus _ board.world, id⟩
    · exact ⟨rfl, rfl, id⟩
  intro before value after run
  unfold interrupt at run
  rw [Call.get_bind_apply] at run
  split at run
  · exact ((Call.Leads.aside fun board => ⟨rfl, rfl, id⟩).bind fun _ => .pure _) _ _ _ run
  · refine ((marked true).bind fun _ => ?_) _ _ _ run
    refine (bus _ ((TransmitBench.record_untouched.load .channelStatus).bind fun _ => .pure _)).bind fun status => ?_
    refine (received status).bind fun _ => (transmitted status).bind fun _ => (rest status).bind fun _ => ?_
    exact (marked false).bind fun _ => .pure _

end Board

/-- A wait during which nothing is submitted leaves the next slot where it is. -/
theorem Continues.waited {before after : Board g (TransmitBench σ)} (balanced : Balanced before)
    (turns : Relation.ReflTransGen (fun x y => Carries x y ∧ y.world.submissions = x.world.submissions) before after) :
    Continues before after ∧ after.mac.transmitter.nextSlot = before.mac.transmitter.nextSlot := by
  obtain ⟨onward, same⟩ : Continues before after ∧ after.world.submissions = before.world.submissions := by
    induction turns with
    | refl => exact ⟨.refl balanced, rfl⟩
    | tail _ turn ih =>
      obtain ⟨carries, silent⟩ := turn
      exact ⟨ih.1.trans (carries ih.1.balanced), silent.trans ih.2⟩
  refine ⟨onward, ?_⟩
  rw [onward.balanced.ledger.nextSlot, same, balanced.ledger.nextSlot]

theorem TransmitRun.carries [Bus σ] {before after : Board g (TransmitBench σ)} (run : TransmitRun before after) :
    Carries before after := by
  induction run with
  | still => exact .refl _
  | aside _ same ih => exact ih.trans (.aside same)
  | finish _ owned released asked ih => exact ih.trans fun balanced => .finish balanced owned released asked
  | submit _ submitted ih =>
    obtain ⟨ready, rfl⟩ := Board.tryTransmit_ok submitted
    exact ih.trans fun balanced => .filled balanced ready _ _
  | transmit _ _ silent submitted ih ihIdle =>
    refine ih.trans fun balanced => ?_
    obtain ⟨middle, turns, free, rfl⟩ := Board.transmit_ok
      (R := fun x y => Carries x y ∧ y.world.submissions = x.world.submissions)
      (fun board => .single ⟨ihIdle board, silent board⟩) submitted
    obtain ⟨onward, slot⟩ := Continues.waited balanced turns
    rw [← slot] at free ⊢
    exact onward.trans (.filled onward.balanced (by rw [Transmitter.isReady, free]; rfl) _ _)
  | completions _ _ scan ih ihUpcalls => exact ih.trans (Board.processCompletions_leads ihUpcalls _ _ _ _ scan)
  | interrupt _ _ dispatch ih ihUpcalls => exact ih.trans (Board.interrupt_leads ihUpcalls _ _ _ _ dispatch)

/-- Between two calls the transmit side is balanced, and no scan is under way. -/
theorem TransmitReach.balanced [Bus σ] {board : Board g (TransmitBench σ)} (reach : TransmitReach board) :
    Balanced board ∧ board.mac.transmitter.completing = false := by
  induction reach with
  | @start config placement before ready after fresh record up run =>
    have mac := Board.init_mac up
    have kept := Board.init_world TransmitBench.record_untouched config before
    rw [up] at kept
    have started := Board.start_mac (by rw [mac]) run
    have same := Board.start_world TransmitBench.record_untouched ready
    rw [run] at same
    have empty : after.world.record = ([], [], []) := same.trans (kept.trans record)
    refine ⟨⟨?_, .init (congrArg (·.2.2) empty), ?_⟩, ?_⟩
    · rw [started, mac]
      exact .init empty
    · rw [started]
      simp
    · rw [started, mac, fresh]
      rfl
  | run _ onward ih =>
    obtain ⟨balanced, idle⟩ := ih
    have continues := onward.carries balanced
    exact ⟨continues.balanced, continues.completing.trans idle⟩

end EthernetMac

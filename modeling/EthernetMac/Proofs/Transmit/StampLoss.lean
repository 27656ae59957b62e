import EthernetMac.Proofs.Transmit.StampOrder

namespace EthernetMac

variable {g : Geometry} {σ : Type}

/-- The time that was captured for a submission was delivered the way that was asked for. -/
def TransmitBench.HasDelivered (bench : TransmitBench σ) (j : Nat) (time : Timestamp) : Prop :=
  ∃ d ∈ bench.deliveries, ∃ request, bench.submissions[j]? = some (.captureTimestamp request) ∧
    d.index = j ∧ d.callback = request.callback ∧ d.stamp = ⟨time, request.tag⟩

theorem Ledger.hasDelivered_iff {t : Transmitter g} {bench : TransmitBench σ} (ledger : Ledger t bench) {j : Nat}
    {time : Timestamp} (captured : bench.writeBacks[j]? = some (some time)) :
    bench.HasDelivered j time ↔ j ∈ bench.delivered := by
  constructor
  · rintro ⟨d, among, _, _, rfl, _⟩
    exact List.mem_map_of_mem among
  · intro delivered
    obtain ⟨d, among, rfl⟩ := List.mem_map.mp delivered
    obtain ⟨request, asked, callback, tag, written⟩ := ledger.genuine d among
    rw [captured] at written
    obtain rfl := Option.some.inj (Option.some.inj written)
    exact ⟨d, among, request, asked, rfl, callback, by rw [← tag]⟩

theorem Continues.inRing {before after : Board g (TransmitBench σ)} (continues : Continues before after) {j : Nat}
    (waits : j ∉ before.world.delivered) (delivered : j ∈ after.world.delivered) :
    before.world.submissions.length ≤ j + g.tx := by
  obtain ⟨fresh, grown, inRing⟩ := continues.deliveries
  obtain ⟨d, among, rfl⟩ := List.mem_map.mp delivered
  rw [grown] at among
  rcases List.mem_append.mp among with old | new
  · exact absurd (List.mem_map_of_mem old) waits
  · exact inRing d new

theorem Balanced.scan_delivers {board : Board g (TransmitBench σ)} {app : Application g (TransmitBench σ)}
    (balanced : Balanced board) (outermost : board.mac.transmitter.completing = false)
    (upcalls : ∀ called back, app.Upcall called back → Carries called back) {j : Nat} {time : Timestamp}
    (captured : board.world.writeBacks[j]? = some (some time)) (waits : j ∉ board.world.delivered) {limit count : Nat}
    {after : Board g (TransmitBench σ)} (run : Board.processCompletions app.logged limit board = some (count, after)) :
    (after.world.HasDelivered j time → board.world.submissions.length ≤ j + g.tx) ∧
      (after.world.submissions.length ≤ j + g.tx → after.world.HasDelivered j time) := by
  obtain ⟨continues, settled⟩ := Board.processCompletions_settles upcalls balanced outermost run
  rw [continues.balanced.ledger.hasDelivered_iff (getElem?_of_start continues.writeBacks captured)]
  exact ⟨continues.inRing waits, continues.delivered settled captured⟩

/-- A timestamp that was captured and not yet delivered is delivered by an outermost scan unless its slot has been taken
by a later frame, and it is not when that was so before the scan. If the application answers and submits nothing
meanwhile, the scan comes back, and delivers it exactly when fewer frames were submitted since than the ring has
slots. -/
theorem captured_stamp_delivered_iff [Bus σ] {board : Board g (TransmitBench σ)} (reach : TransmitReach board)
    {app : Application g (TransmitBench σ)} (upcalls : ∀ called back, app.Upcall called back → TransmitRun called back)
    {j : Nat} {time : Timestamp} (captured : board.world.writeBacks[j]? = some (some time))
    (waits : j ∉ board.world.delivered) (limit : Nat) :
    (∀ count after, Board.processCompletions app.logged limit board = some (count, after) →
      (after.world.HasDelivered j time → board.world.submissions.length ≤ j + g.tx) ∧
        (after.world.submissions.length ≤ j + g.tx → after.world.HasDelivered j time)) ∧
    (app.AnswersStamps → g.tx ≤ limit →
      (∀ called back, app.Upcall called back → back.world.submissions = called.world.submissions) →
      ∃ count after, Board.processCompletions app.logged limit board = some (count, after) ∧
        (after.world.HasDelivered j time ↔ board.world.submissions.length ≤ j + g.tx)) := by
  obtain ⟨balanced, outermost⟩ := reach.balanced
  have carries : ∀ called back, app.Upcall called back → Carries called back :=
    fun called back upcall => (upcalls called back upcall).carries
  refine ⟨fun count after => balanced.scan_delivers outermost carries captured waits, fun answers enough silent => ?_⟩
  obtain ⟨count, after, run, still⟩ :=
    Board.processCompletions_returns carries silent answers balanced outermost enough
  obtain ⟨inRing, delivers⟩ := balanced.scan_delivers outermost carries captured waits run
  rw [still] at delivers
  exact ⟨count, after, run, inRing, delivers⟩

/-- Both timestamps that wait in a ring of two slots are delivered by one scan. -/
theorem captured_stamp_delivered_both : ∃ board : Board .pair (TransmitBench RestingPeripheral),
    TransmitReach board ∧ board.world.writeBacks[0]? = some (some ⟨5, 6⟩) ∧
      board.world.writeBacks[1]? = some (some ⟨7, 8⟩) ∧ board.world.delivered = [] ∧
      ∃ count after, Board.processCompletions Application.accepting.logged 2 board = some (count, after) ∧
        after.world.HasDelivered 0 ⟨5, 6⟩ ∧ after.world.HasDelivered 1 ⟨7, 8⟩ := by
  obtain ⟨board, submissions, writeBacks, both, length, first, second⟩ := Reached.twoBehind 0
  rw [← both.written] at first second
  have none : board.world.delivered = [] := by rw [TransmitBench.delivered, both.undelivered, List.map_nil]
  have comes (j : Nat) (time : Timestamp) (captured : board.world.writeBacks[j]? = some (some time)) :=
    (captured_stamp_delivered_iff both.reach (fun _ _ => Application.accepting_runs) captured
      (by rw [none]; exact List.not_mem_nil) 2).2 Application.accepting_answersStamps (Nat.le_refl _)
      fun called back upcall => by rw [Application.accepting_upcall upcall]
  rw [both.submitted, length] at comes
  obtain ⟨count, after, run, one⟩ := comes 0 _ first
  obtain ⟨again, same, rerun, two⟩ := comes 1 _ second
  obtain ⟨rfl, rfl⟩ := Prod.mk.inj (Option.some.inj (rerun.symm.trans run))
  exact ⟨board, both.reach, first, second, none, _, _, run, one.mpr (by decide), two.mpr (by decide)⟩

/-- With a ring of one slot a frame that is sent before the scan takes the timestamp of the one before. -/
theorem captured_stamp_lost : ∃ board : Board .smallest (TransmitBench RestingPeripheral), TransmitReach board ∧
    board.world.writeBacks[0]? = some (some ⟨5, 6⟩) ∧ 0 ∉ board.world.delivered ∧
      ∃ count after, Board.processCompletions Application.accepting.logged 1 board = some (count, after) ∧
        ¬ after.world.HasDelivered 0 ⟨5, 6⟩ := by
  obtain ⟨single, sent⟩ := Reached.single
  obtain ⟨board, sent⟩ := sent.submit .none (by decide)
  have captured : board.world.writeBacks[0]? = some (some ⟨5, 6⟩) := by
    rw [sent.written]
    rfl
  have waits : 0 ∉ board.world.delivered := by
    rw [TransmitBench.delivered, sent.undelivered]
    exact List.not_mem_nil
  obtain ⟨count, after, run, _⟩ := sent.scan
  obtain ⟨balanced, outermost⟩ := sent.reach.balanced
  refine ⟨board, sent.reach, captured, waits, count, after, run, fun delivered => ?_⟩
  have recent :=
    (balanced.scan_delivers outermost (fun _ _ => Application.accepting_carries) captured waits run).1 delivered
  rw [sent.submitted] at recent
  exact absurd recent (by decide)

end EthernetMac

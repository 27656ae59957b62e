import EthernetMac.Proofs.Transmit.Progress

namespace EthernetMac

variable {g : Geometry} {σ : Type}

/-- Whatever was delivered is what was asked for and captured. Timestamps are delivered in the order of submission
exactly when counting lags kept the order at each delivery, which it does while all that wait belong to the next 32767
submissions after the last acknowledged one. -/
theorem stamps_in_order_iff [Bus σ] {board : Board g (TransmitBench σ)} (reach : TransmitReach board) :
    (∀ d ∈ board.world.deliveries, ∃ request, board.world.submissions[d.index]? = some (.captureTimestamp request) ∧
      d.callback = request.callback ∧ d.stamp.tag = request.tag ∧
      board.world.writeBacks[d.index]? = some (some d.stamp.timestamp)) ∧
    (board.world.delivered.Pairwise (· < ·) ↔ ∀ d ∈ board.world.deliveries, d.KeepsOrder board.world.delivered) ∧
    ((∀ d ∈ board.world.deliveries, d.IsNear) → board.world.delivered.Pairwise (· < ·)) := by
  obtain ⟨⟨ledger, chronicle, _⟩, _⟩ := reach.balanced
  exact ⟨ledger.genuine, chronicle.sorted_iff, chronicle.sorted_of_near⟩

/-- Two timestamps that wait in a ring of two slots are delivered in the order in which they were asked for. -/
theorem stamps_in_order_both : ∃ board : Board .pair (TransmitBench RestingPeripheral), TransmitReach board ∧
    board.world.writeBacks = [some ⟨5, 6⟩, some ⟨7, 8⟩] ∧ board.world.delivered = [0, 1] ∧
    (∀ d ∈ board.world.deliveries, ∃ request, board.world.submissions[d.index]? = some (.captureTimestamp request) ∧
      d.callback = request.callback ∧ d.stamp.tag = request.tag ∧
      board.world.writeBacks[d.index]? = some (some d.stamp.timestamp)) ∧
    (board.world.delivered.Pairwise (· < ·) ↔ ∀ d ∈ board.world.deliveries, d.KeepsOrder board.world.delivered) ∧
    ((∀ d ∈ board.world.deliveries, d.IsNear) → board.world.delivered.Pairwise (· < ·)) := by
  have up : TransmitReach (Board.start (Board.init {} (Board.unsent .pair)).2).2 :=
    .start rfl rfl (Prod.ext rfl rfl : Board.init {} (Board.unsent .pair) = (.ok (), _)) (Prod.ext rfl rfl)
  have one := up.run (.submit (.still _) (Prod.ext rfl rfl :
    Board.tryTransmit #[1] (.captureTimestamp ⟨7, none⟩) _ = (.ok 1, _)))
  have two := one.run (.submit (.still _) (Prod.ext rfl rfl :
    Board.tryTransmit #[2] (.captureTimestamp ⟨8, some 3⟩) _ = (.ok 2, _)))
  have half := two.run (.finish (.still _) (by decide +kernel) (Descriptor.sent_isOwned (some ⟨5, 6⟩))
    fun _ => ⟨_, rfl⟩)
  have both := half.run (.finish (.still _) (by decide +kernel) (Descriptor.sent_isOwned (some ⟨7, 8⟩))
    fun _ => ⟨_, rfl⟩)
  have scanned := both.scanned 2 (by decide +kernel)
  refine ⟨_, scanned, ?_, ?_, stamps_in_order_iff scanned⟩
  · decide +kernel
  · decide +kernel

/-- Half a turn of the counter after bring-up two timestamps wait, and the later one is delivered first. -/
theorem stamps_out_of_order : ∃ board : Board .pair (TransmitBench RestingPeripheral),
    TransmitReach board ∧ ¬ board.world.delivered.Pairwise (· < ·) := by
  obtain ⟨board, submissions, writeBacks, sent, length, first, second⟩ := Reached.twoBehind 32766
  have earlier := sent.pending first (Nat.le_of_eq length)
  have later := sent.pending second (Nat.le_trans (Nat.le_of_eq length) (Nat.le_succ _))
  obtain ⟨balanced, outermost⟩ := sent.reach.balanced
  obtain ⟨k, waits, selected⟩ := balanced.ledger.selects earlier
  have made := waits.inRing.made
  have recent : board.world.submissions.length ≤ k + 2 := waits.inRing.recent
  rw [sent.submitted, length] at made recent
  obtain rfl | rfl : k = 32766 ∨ k = 32767 := by omega
  · have kept := (balanced.ledger.lagsInOrder_iff waits selected later (by decide)).mpr (by decide)
    rw [TransmitBench.previous, sent.undelivered] at kept
    exact absurd kept (by unfold LagsInOrder; decide)
  · obtain ⟨count, after, run, reach, delivers⟩ := sent.scan
    obtain ⟨entry, more, taken, index⟩ := Board.processCompletions_first
      (fun _ _ => Application.accepting_carries) balanced outermost later selected run
    have behind := delivers 32766 _ first (Nat.le_of_eq length)
    refine ⟨after, reach, fun sorted => ?_⟩
    rw [TransmitBench.delivered, taken, sent.undelivered, List.nil_append, List.map_cons, index] at sorted behind
    rcases List.mem_cons.mp behind with same | among
    · cases same
    · exact absurd ((List.pairwise_cons.mp sorted).1 _ among) (by decide)

end EthernetMac

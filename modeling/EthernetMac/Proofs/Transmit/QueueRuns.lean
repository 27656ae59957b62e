import EthernetMac.Proofs.Transmit.BackPressure

namespace EthernetMac

variable {g : Geometry} {ε σ : Type}

namespace Board

/-- The hardware reads the slots that it owns one after the other, from slot 0 on and without coming to one again before
it has given it back, and gives them back in the same order with whatever words. All else that happens leaves the
transmitter as it is. -/
inductive Sends : Board g (Recorded TransmitLog σ) → Board g (Recorded TransmitLog σ) → Prop
  | aside {before after} : before.SparesTransmitter after → Sends before after
  | fetch {before} : before.world.record.readings.length < before.world.record.releases + g.tx →
      before.mac.transmitter.ring.isOwned (g.txSlot before.world.record.readings.length) = true →
      Sends before (before.recorded fun log => { log with
        readings := log.readings ++ [before.mac.transmitter.fetch (g.txSlot log.readings.length)] })
  | release {before d} : before.world.record.releases < before.world.record.readings.length → d.isOwned = false →
      Sends before ((before.sentBack (g.txSlot before.world.record.releases) d).recorded fun log => { log with
        releases := log.releases + 1 })

/-- The transmit ring is a queue of the frames that were submitted once the driver was brought up. -/
structure Queues (board : Board g (Recorded TransmitLog σ)) : Prop where
  queue : Queue board.mac.transmitter board.world.record
  buffers : board.IsUp → ∀ i, (board.mac.transmitter.ring.slot i).ext.buffer = board.mac.transmitter.pool.address i
  fresh : ¬ board.IsUp → board.world.record.submissions = []

end Board

namespace Setting

/-- The frames that are submitted are recorded. No frame is submitted while another one waits for its slot. -/
def transmitLog : Setting g (Recorded TransmitLog σ) where
  moves := Board.Sends
  waits before after := after.world.record.submissions = before.world.record.submissions
  submitted _ bytes options := Recorded.modify fun log => { log with
    submissions := log.submissions ++ [⟨bytes, options⟩] }
  delivered _ _ world := world
  stays_up moved up := by
    cases moved with
    | aside same => exact same.up.mpr up
    | fetch => exact up
    | release => exact up

theorem transmitLog_keeps :
    (transmitLog : Setting g (Recorded TransmitLog σ)).Keeps Recorded.record Board.Queues where
  aside same queues := by
    refine ⟨?_, fun up i => ?_, fun down => ?_⟩
    · rw [same.world]
      exact queues.queue.congr same.txRing same.txPool same.nextSlot
    · rw [same.txRing, same.txPool]
      exact queues.buffers (same.up.mp up) i
    · rw [same.world]
      exact queues.fresh fun up => down (same.up.mpr up)
  still same := congrArg TransmitLog.submissions same.world
  move moved queues := by
    cases moved with
    | aside same =>
      obtain ⟨queue, buffers, fresh⟩ := queues
      rw [← same.transmitter, ← same.record] at queue
      rw [← same.up, ← same.transmitter] at buffers
      rw [← same.up, ← same.record] at fresh
      exact ⟨queue, buffers, fresh⟩
    | fetch ahead owned => exact ⟨queues.queue.fetch ahead owned, queues.buffers, queues.fresh⟩
    | release done released =>
      exact ⟨queues.queue.release done released,
        fun up i => (Ring.buffer_setDescriptor _ _ _ i).trans (queues.buffers up i), queues.fresh⟩
  layOut {board} down queues := by
    refine ⟨?_, fun _ i => ?_, fun up => absurd (fun fresh => nomatch fresh) up⟩
    · have empty := queues.queue.eq_empty (queues.fresh down)
      change Queue board.laidOut.mac.transmitter board.world.record
      rw [empty]
      exact .init rfl fun i => congrArg Descriptor.isOwned (Transmitter.descriptor_clear _ i)
    · exact Transmitter.buffer_clear _ i
  fill {first board bytes options result} waits before queues up valid free := by
    have slot : first.mac.transmitter.nextSlot = g.txSlot board.world.record.submissions.length := by
      rw [before.queue.nextSlot, waited (·.world.record.submissions) id waits]
    rw [slot] at free ⊢
    have submitted : Queue _ _ := @Queue.submit _ _ _ queues.queue ⟨bytes, options⟩ valid (queues.buffers up _) free
    exact ⟨submitted, fun up i => (Transmitter.buffer_fill _ _ _ _ i).trans (queues.buffers up i),
      fun down => absurd up down⟩
  take selected queues := by
    obtain ⟨free, _⟩ := Transmitter.isStamped_eq_true.mp (Transmitter.nextStamped?_eq_some selected).1
    exact ⟨queues.queue.take free,
      fun up i => (Transmitter.buffer_takeStamp _ _ i).trans (queues.buffers up i), queues.fresh⟩
  rearm _ _ _ queues := ⟨queues.queue, queues.buffers, queues.fresh⟩

end Setting

/-- What the hardware has read, together with what it finds in the slots that it has still to read, is what was
submitted, and the hardware owns all those slots. -/
structure Board.SendsInOrder (board : Board g (Recorded TransmitLog σ)) : Prop where
  fifo : board.world.record.readings ++ board.mac.transmitter.unread board.world.record =
    board.world.record.submissions.map TxFrame.reading
  offered : ∀ j, board.world.record.readings.length ≤ j → j < board.world.record.submissions.length →
    board.mac.transmitter.ring.isOwned (g.txSlot j) = true

/-- The transmit path is a queue with an exact limit, in every state that a driver can get into. The hardware reads the
frames that were submitted, each as it was submitted and in that order; its slots end just before the next one to be
filled; and a running driver refuses or keeps back a frame if and only if all slots are the hardware's. -/
theorem transmit_queue [Bus σ] {placement : Placement} {before after : Board g (Recorded TransmitLog σ)}
    (unused : before.mac = Mac.blank g placement) (nothing : before.world.record = {})
    (run : Setting.transmitLog.Run before after) :
    after.SendsInOrder ∧
      after.mac.transmitter.ring.IsArc after.mac.transmitter.nextSlot after.mac.transmitter.available ∧
      (after.mac.lifecycle = .running →
        (after.mac.canTransmit = true ↔ 0 < after.mac.transmitter.available) ∧
        ∀ bytes options, g.lengthFault? bytes.size = none → after.PushesBack bytes options) := by
  have start : before.Queues := by
    refine ⟨?_, fun up => absurd (by rw [unused]; rfl) up, fun _ => by rw [nothing]⟩
    rw [nothing, unused]
    exact .init rfl fun i => congrArg Descriptor.isOwned (Transmitter.descriptor_blank g placement i)
  have queue := ((run.onward Recorded.untouched Setting.transmitLog_keeps).keeps start).queue
  have arc := queue.isArc
  have counted : after.mac.transmitter.available = _ := arc.countP_released
  refine ⟨⟨queue.fifo, fun j later made => queue.isOwned (Nat.le_trans queue.released later) made⟩, ?_,
    fun running => ⟨?_, fun bytes options valid => Board.pushesBack arc running options valid⟩⟩
  · rwa [counted]
  · rw [Mac.canTransmit, running]
    exact Transmitter.isReady_iff arc

/-- Both slots are taken, and the hardware has read one of them: the next frame is refused until a slot is given
back. -/
theorem transmit_queue_full : ∃ board : Board .pair (Recorded TransmitLog RestingPeripheral),
    board.world.record = {
        submissions := [⟨#[1, 2], .interruptOnCompletion⟩, ⟨#[3], .none⟩]
        readings := [⟨#[1, 2], 2, 2, true, false⟩] } ∧
      board.mac.transmitter.unread board.world.record = [⟨#[3], 1, 1, false, false⟩] ∧
      board.SendsInOrder ∧
      (Board.tryTransmit #[4] .none board).1 = .error (.dma .descriptorBusy) := by
  have started := Setting.RunWhile.started Setting.transmitLog (fun _ => True) {}
    (.untried ⟨0, 0x10000, 0x20000⟩ ⟨{}, {}⟩ : Board .pair (Recorded TransmitLog RestingPeripheral))
  have one := started.tryTransmit (rfl : Board.tryTransmit #[1, 2] .interruptOnCompletion _ = _)
  have two := one.tryTransmit (rfl : Board.tryTransmit #[3] .none _ = _)
  have fetched := two.move (.fetch (by decide +kernel) (by decide +kernel))
  obtain ⟨inOrder, _, running⟩ := transmit_queue rfl rfl fetched
  refine ⟨_, ?_, ?_, inOrder, ((running rfl).2 #[4] .none (by decide)).busy.mpr ?_⟩
  · decide +kernel
  · decide +kernel
  · decide +kernel

end EthernetMac

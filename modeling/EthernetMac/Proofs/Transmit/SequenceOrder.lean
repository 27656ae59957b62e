import EthernetMac.Proofs.Transmit.Rescan
import EthernetMac.Proofs.Transmit.StampOrder
import EthernetMac.Proofs.Transmit.Waiting

namespace EthernetMac

open Board

variable {g : Geometry} {σ : Type}

/-- Two boards between which a running scan cannot tell the difference: the application has left alone the ring, the
number that was acknowledged last, the mark of the scan and the record. -/
structure Board.SameStamps (called back : Board g (Recorded StampLog σ)) : Prop where
  ring : back.mac.transmitter.ring = called.mac.transmitter.ring
  acknowledged : back.mac.transmitter.acknowledged = called.mac.transmitter.acknowledged
  completing : back.mac.transmitter.completing = called.mac.transmitter.completing
  record : back.world.record = called.world.record

/-- While a scan is running the application always comes back from a timestamp, and does not change the ring. -/
structure Application.KeepsRing (app : Application g (Recorded StampLog σ)) : Prop where
  event : ∀ stamp called, called.mac.transmitter.completing = true →
    ∃ answer back, app.onEvent (.transmitTimestamp stamp) called = some (answer, back) ∧ SameStamps called back
  stamp : ∀ callback stamp called, called.mac.transmitter.completing = true →
    ∃ back, app.onStamp callback stamp called = some ((), back) ∧ SameStamps called back

namespace Board

variable {app : Application g (Recorded StampLog σ)} (keeps : app.KeepsRing)

include keeps

theorem deliverStamp_keeps (delivery : Option Callback × TxTimestamp) (called : Board g (Recorded StampLog σ))
    (scanning : called.mac.transmitter.completing = true) :
    ∃ back, deliverStamp app delivery called = some ((), back) ∧ SameStamps called back := by
  obtain ⟨callback, stamp⟩ := delivery
  cases callback with
  | none =>
    obtain ⟨answer, back, upcall, same⟩ := keeps.event stamp called scanning
    exact ⟨back, Call.bind_eq_some.mpr ⟨answer, back, upcall, rfl⟩, same⟩
  | some callback => exact keeps.stamp callback stamp called scanning

/-- A drain of near timestamps comes to its end and delivers them in the order in which they were sorted at its
start. -/
theorem drain_in_sequence {limit : Nat} {before : Board g (Recorded StampLog σ)}
    (near : before.mac.transmitter.IsNear) (scanning : before.mac.transmitter.completing = true)
    (enough : before.mac.transmitter.waiting.length ≤ limit) :
    ∃ after, drain (Stage.scan.tells app) limit before = some (before.mac.transmitter.waiting.length, after) ∧
      after.world.record =
        before.world.record ++ before.mac.transmitter.waiting.map before.mac.transmitter.delivery ∧
      before.mac.transmitter.Drained after.mac.transmitter ∧ after.mac.transmitter.completing = true := by
  induction limit generalizing before with
  | zero =>
    have empty := List.eq_nil_of_length_eq_zero (Nat.le_zero.mp enough)
    have done := Transmitter.waiting_eq_nil.mp empty
    exact ⟨before, by rw [drain_none _ _ done, empty]; rfl, by rw [empty]; simp, .nothing done, scanning⟩
  | succ limit ih =>
    cases selected : before.mac.transmitter.nextStamped? with
    | none =>
      have empty := Transmitter.waiting_eq_nil.mpr selected
      exact ⟨before, by rw [drain_none _ _ selected, empty]; rfl, by rw [empty]; simp, .nothing selected, scanning⟩
    | some i =>
      have sorted := near.waiting_eq_cons selected
      obtain ⟨back, upcall, same⟩ := deliverStamp_keeps keeps (before.mac.transmitter.takeStamp i).1
        (Setting.stampLog.noted (before.mac.transmitter.takeStamp i).1 (before.taken i)) scanning
      have waiting : back.mac.transmitter.waiting = (before.mac.transmitter.takeStamp i).2.waiting :=
        Transmitter.waiting_congr same.ring same.acknowledged
      rw [sorted, List.length_cons, ← waiting] at enough
      obtain ⟨after, drained, record, rest, still⟩ :=
        ih ((near.takeStamp selected).congr same.ring same.acknowledged) (same.completing.trans scanning)
          (Nat.le_of_succ_le_succ enough)
      refine ⟨after, ?_, ?_, .cons near selected (rest.congr same.ring.symm same.acknowledged.symm), still⟩
      · rw [drain_succ _ _ selected]
        change (deliverStamp (Setting.stampLog.record app) _ (before.taken i)).bind _ = _
        rw [deliverStamp_record, upcall, Option.bind_some]
        dsimp only
        rw [drained, sorted, ← waiting]
        rfl
      · rw [record, same.record, waiting, Transmitter.delivery_congr same.ring]
        change before.world.record ++ [before.mac.transmitter.delivery i] ++ _ = _
        rw [sorted, List.map_cons, List.append_assoc, List.singleton_append]
        exact congrArg (before.world.record ++ _ :: ·) before.mac.transmitter.map_delivery_takeStamp

/-- A scan that is asked for in an upcall finds nothing more to do. -/
theorem scanCompletions_in_sequence {limit : Nat} {before : Board g (Recorded StampLog σ)}
    (near : before.mac.transmitter.IsNear) (outermost : before.mac.transmitter.completing = false)
    (enough : before.mac.transmitter.waiting.length ≤ limit) :
    ∃ after, scanCompletions (Stage.scan.tells app) limit (limit + 1) before =
        some (before.mac.transmitter.waiting.length, after) ∧
      after.world.record =
        before.world.record ++ before.mac.transmitter.waiting.map before.mac.transmitter.delivery ∧
      before.mac.transmitter.Drained after.mac.transmitter := by
  have begun : before.scanning.mac.transmitter.IsNear := near.congr rfl rfl
  obtain ⟨after, drained, record, empty, _⟩ := drain_in_sequence keeps begun rfl enough
  have unstamped : after.mac.transmitter.nextStamped? = none := drain_empties drained
  have settled : after.scanned.mac.transmitter.nextStamped? = none := unstamped
  rw [scanCompletions_succ, outermost, if_neg Bool.false_ne_true, drained, Option.bind_some]
  dsimp only
  split
  · rename_i again
    cases limit with
    | zero =>
      -- no upcall was made, so that nobody has asked
      have none : before.scanning.mac.transmitter.nextStamped? = .none :=
        Transmitter.waiting_eq_nil.mp (List.eq_nil_of_length_eq_zero (Nat.le_zero.mp enough))
      rw [drain_none _ _ none] at drained
      obtain ⟨_, rfl⟩ := Prod.mk.inj (Option.some.inj drained)
      cases again
    | succ limit =>
      rw [scanCompletions_empty _ _ _ rfl settled]
      exact ⟨_, rfl, record, empty.base, empty.taken, empty.kept, empty.acknowledged, empty.unacknowledged⟩
  · exact ⟨_, rfl, record, empty.base, empty.taken, empty.kept, empty.acknowledged, empty.unacknowledged⟩

end Board

/-- One scan of near timestamps is one pass through them in the order of their sequence numbers, whatever slots they
are in and in whatever order they were captured. It comes back, has delivered each of them once and answers how many
they are; their slots are blank, the farthest one is the last acknowledged, and all else in the ring is as it was. -/
theorem delivered_in_sequence {app : Application g (Recorded StampLog σ)} (keeps : app.KeepsRing)
    {before : Board g (Recorded StampLog σ)} (near : before.mac.transmitter.IsNear)
    (outermost : before.mac.transmitter.completing = false) {limit : Nat} (enough : g.tx ≤ limit) :
    (before.mac.transmitter.waiting.Pairwise fun i j =>
      before.mac.transmitter.ahead i < before.mac.transmitter.ahead j) ∧
    (∀ i, i ∈ before.mac.transmitter.waiting ↔ before.mac.transmitter.isStamped i = true) ∧
    ∃ after, scanCompletions (Stage.scan.tells app) limit (limit + 1) before =
        some (before.mac.transmitter.waiting.length, after) ∧
      (before.IsUp → processCompletions (Stage.scan.tells app) limit before =
        some (before.mac.transmitter.waiting.length, after)) ∧
      after.world.record =
        before.world.record ++ before.mac.transmitter.waiting.map before.mac.transmitter.delivery ∧
      before.mac.transmitter.Drained after.mac.transmitter := by
  have room := Nat.le_trans before.mac.transmitter.waiting_length_le enough
  obtain ⟨after, run, record, drained⟩ := scanCompletions_in_sequence keeps near outermost room
  refine ⟨near.waiting_sorted, fun _ => Transmitter.mem_waiting, after, run, fun up => ?_, record, drained⟩
  rw [processCompletions_apply _ _ up, run]

/-- An application that asks for another scan on every timestamp. -/
def Application.rescanning : Application g (Recorded StampLog σ) where
  onEvent _ := do
    let _ ← processCompletions .accepting 1
    return .accepted
  onStamp _ _ := do
    let _ ← processCompletions .accepting 1

theorem Application.rescanning_keepsRing : (rescanning : Application g (Recorded StampLog σ)).KeepsRing := by
  have asked (called : Board g (Recorded StampLog σ)) (scanning : called.mac.transmitter.completing = true) :
      ∃ back, processCompletions .accepting 1 called = some (0, back) ∧ SameStamps called back := by
    by_cases up : called.IsUp
    · exact ⟨_, processCompletions_nested _ _ ⟨up, scanning⟩, rfl, rfl, rfl, rfl⟩
    · refine ⟨called, ?_, rfl, rfl, rfl, rfl⟩
      unfold processCompletions
      rw [Call.get_bind_apply, if_pos (Decidable.not_not.mp up)]
      rfl
  constructor
  · intro stamp called scanning
    obtain ⟨back, run, same⟩ := asked called scanning
    exact ⟨_, back, Call.bind_eq_some.mpr ⟨0, back, run, rfl⟩, same⟩
  · intro callback stamp called scanning
    obtain ⟨back, run, same⟩ := asked called scanning
    exact ⟨back, Call.bind_eq_some.mpr ⟨0, back, run, rfl⟩, same⟩

/-- Two timestamps wait, the later one in the first slot, with the wrap of the counter between them. -/
def Board.crossed : Board .pair (Recorded StampLog RestingPeripheral) :=
  let untried : Board .pair (Recorded StampLog RestingPeripheral) := .untried ⟨0, 0x10000, 0x20000⟩ ⟨[], {}⟩
  let sent (number : UInt16) (request : StampRequest) : Slot :=
    ⟨⟨5, 6, 0, Descriptor.stampCapturedBit⟩, { sequence := number, request := request }⟩
  { untried with mac := { untried.mac with
    lifecycle := .running
    transmitter := { untried.mac.transmitter with
      ring := (untried.mac.transmitter.ring.setSlot Geometry.pair.firstTx (sent 1 { tag := 3 })).setSlot
        (Ring.next Geometry.pair.firstTx) (sent 0xFFFF { tag := 1, callback := some 4 })
      acknowledged := 0xFFFD } } }

theorem delivered_in_sequence_crossed : ∃ after,
    processCompletions (Stage.scan.tells .rescanning) 2 crossed = some (2, after) ∧
      after.world.record = [(some 4, ⟨⟨6, 5⟩, 1⟩), (none, ⟨⟨6, 5⟩, 3⟩)] ∧ after.mac.transmitter.acknowledged = 1 ∧
      crossed.mac.transmitter.waiting.map crossed.mac.transmitter.delivery = after.world.record := by
  have outcome : (processCompletions (Stage.scan.tells .rescanning) 2 crossed).map
      (fun result => (result.1, result.2.world.record, result.2.mac.transmitter.acknowledged)) =
        some (2, [(some 4, ⟨⟨6, 5⟩, 1⟩), (none, ⟨⟨6, 5⟩, 3⟩)], 1) := by decide +kernel
  obtain ⟨⟨count, after⟩, run, told⟩ := Option.map_eq_some_iff.mp outcome
  obtain ⟨rfl, record, acknowledged⟩ := Prod.mk.inj told |>.imp_right Prod.mk.inj
  have near : crossed.mac.transmitter.IsNear := ⟨by decide +kernel, by decide +kernel⟩
  obtain ⟨_, _, _, _, returned, delivered, _⟩ :=
    delivered_in_sequence Application.rescanning_keepsRing near rfl (Nat.le_refl 2)
  have same := (returned (fun down => nomatch down)).symm.trans run
  obtain ⟨_, rfl⟩ := Prod.mk.inj (Option.some.inj same)
  exact ⟨_, run, record, acknowledged, delivered.symm⟩

end EthernetMac

import EthernetMac.Proofs.Transmit.Order
import EthernetMac.Proofs.Transmit.Submission

namespace EthernetMac

variable {g : Geometry} {σ : Type}

/-- The transmit side agrees with the record of what was sent and delivered, on a driver that was brought up. -/
structure Balanced (board : Board g (TransmitBench σ)) : Prop where
  ledger : Ledger board.mac.transmitter board.world
  chronicle : Chronicle g board.world
  up : board.mac.lifecycle ≠ .uninitialized

/-- How a board goes on to another: the record only grows, what is delivered is found in the ring, and every delivery
and every frame finished leaves less to look after, which only submissions make more. -/
structure Continues (before after : Board g (TransmitBench σ)) : Prop where
  balanced : Balanced after
  submissions : before.world.submissions <+: after.world.submissions
  writeBacks : before.world.writeBacks <+: after.world.writeBacks
  deliveries : ∃ fresh, after.world.deliveries = before.world.deliveries ++ fresh ∧
    ∀ d ∈ fresh, before.world.submissions.length ≤ d.index + g.tx
  completing : after.mac.transmitter.completing = before.mac.transmitter.completing
  load : after.mac.transmitter.load + after.world.deliveries.length + before.world.submissions.length ≤
    before.mac.transmitter.load + before.world.deliveries.length + after.world.submissions.length

namespace Continues

variable {before middle after : Board g (TransmitBench σ)}

/-- Where nothing was delivered there is nothing to be found in the ring. -/
theorem none_delivered (same : after.world.deliveries = before.world.deliveries) :
    ∃ fresh, after.world.deliveries = before.world.deliveries ++ fresh ∧
      ∀ d ∈ fresh, before.world.submissions.length ≤ d.index + g.tx :=
  ⟨[], same.trans (List.append_nil _).symm, fun _ absent => absurd absent List.not_mem_nil⟩

theorem refl (balanced : Balanced before) : Continues before before :=
  ⟨balanced, List.prefix_rfl, List.prefix_rfl, none_delivered rfl, rfl, Nat.le_refl _⟩

theorem trans (first : Continues before middle) (second : Continues middle after) : Continues before after := by
  refine ⟨second.balanced, first.submissions.trans second.submissions, first.writeBacks.trans second.writeBacks, ?_,
    second.completing.trans first.completing, ?_⟩
  · obtain ⟨fresh, grown, inRing⟩ := first.deliveries
    obtain ⟨more, grownMore, inRingMore⟩ := second.deliveries
    refine ⟨fresh ++ more, by rw [grownMore, grown, List.append_assoc], fun d among => ?_⟩
    rcases List.mem_append.mp among with old | new
    · exact inRing d old
    · exact Nat.le_trans first.submissions.length_le (inRingMore d new)
  · have light := first.load
    have lighter := second.load
    omega

theorem aside (balanced : Balanced before) (same : SameTransmit before after) : Continues before after := by
  have submissions : after.world.submissions = before.world.submissions := congrArg (·.1) same.record
  have writeBacks : after.world.writeBacks = before.world.writeBacks := congrArg (·.2.1) same.record
  have deliveries : after.world.deliveries = before.world.deliveries := congrArg (·.2.2) same.record
  have waiting : ∀ j, Pending g after.world j → Pending g before.world j := by
    rintro j ⟨⟨made, recent⟩, undelivered, captured⟩
    rw [submissions] at made recent
    rw [TransmitBench.delivered, deliveries] at undelivered
    rw [writeBacks] at captured
    exact ⟨⟨made, recent⟩, undelivered, captured⟩
  have ledger : Ledger after.mac.transmitter after.world := by
    rw [same.transmitter]
    exact balanced.ledger.congr rfl rfl rfl rfl same.record
  refine ⟨⟨ledger, balanced.chronicle.mono deliveries fun j pending => Or.inl (waiting j pending), same.up balanced.up⟩,
    ⟨[], (List.append_nil _).trans submissions.symm⟩, ⟨[], (List.append_nil _).trans writeBacks.symm⟩,
    none_delivered deliveries, ?_, Nat.le_of_eq ?_⟩
  · rw [same.transmitter]
  · rw [same.transmitter, submissions, deliveries]

theorem finish (balanced : Balanced before) {d : Descriptor}
    (owned : before.mac.transmitter.ring.isOwned (g.txSlot before.world.writeBacks.length) = true)
    (released : d.isOwned = false)
    (asked : d.stampCaptured = true → ∃ request,
      before.world.submissions[before.world.writeBacks.length]? = some (.captureTimestamp request)) :
    Continues before (before.finished d) := by
  have waiting : ∀ j, Pending g (before.finished d).world j →
      Pending g before.world j ∨ ∀ d ∈ before.world.deliveries, d.index < j := by
    rintro j ⟨inside, undelivered, time, written⟩
    rcases Nat.lt_or_ge j before.world.writeBacks.length with old | new
    · change (before.world.writeBacks ++ [_])[j]? = _ at written
      rw [List.getElem?_append_left old] at written
      exact Or.inl ⟨⟨inside.made, inside.recent⟩, undelivered, time, written⟩
    · exact Or.inr fun d among =>
        Nat.lt_of_lt_of_le (balanced.ledger.delivered_lt (List.mem_map_of_mem among)) new
  refine ⟨⟨balanced.ledger.finish owned released asked, balanced.chronicle.mono rfl waiting, balanced.up⟩,
    List.prefix_rfl, List.prefix_append _ _, none_delivered rfl, rfl, ?_⟩
  have lighter := Transmitter.load_setDescriptor owned d
  exact Nat.add_le_add_right (Nat.add_le_add_right lighter _) _

/-- A submission takes its slot from an older one, whose timestamp is gone if it waited. -/
theorem filled [Bus σ] (balanced : Balanced before) (ready : before.mac.transmitter.isReady = true)
    (bytes : Array UInt8) (options : TxOptions) :
    Continues before ((Board.fillSlot before.mac.transmitter.nextSlot bytes options before).2.booked options) := by
  have record := Board.fillSlot_record before.mac.transmitter.nextSlot bytes options before
  have mac := Board.fillSlot_mac before.mac.transmitter.nextSlot bytes options before
  generalize (Board.fillSlot before.mac.transmitter.nextSlot bytes options before).2 = after at record mac ⊢
  have submissions : (after.booked options).world.submissions = before.world.submissions ++ [options] :=
    congrArg (· ++ [options]) (congrArg (·.1) record)
  have writeBacks : (after.booked options).world.writeBacks = before.world.writeBacks := congrArg (·.2.1) record
  have deliveries : (after.booked options).world.deliveries = before.world.deliveries := congrArg (·.2.2) record
  have transmitter : (after.booked options).mac.transmitter =
      before.mac.transmitter.fill before.mac.transmitter.nextSlot bytes options := congrArg Mac.transmitter mac
  have length : (after.booked options).world.submissions.length = before.world.submissions.length + 1 := by
    rw [submissions, List.length_append, List.length_singleton]
  have older : ∀ j, Pending g (after.booked options).world j → Pending g before.world j := by
    rintro j ⟨⟨made, recent⟩, undelivered, time, written⟩
    rw [TransmitBench.delivered, deliveries] at undelivered
    rw [writeBacks] at written
    rw [length] at made recent
    obtain ⟨inside, _⟩ := List.getElem?_eq_some_iff.mp written
    have finished := balanced.ledger.finished
    exact ⟨⟨by omega, by omega⟩, undelivered, time, written⟩
  refine ⟨⟨?_, balanced.chronicle.mono deliveries fun j pending => Or.inl (older j pending), ?_⟩,
    ⟨[options], submissions.symm⟩, ⟨[], (List.append_nil _).trans writeBacks.symm⟩,
    none_delivered deliveries, ?_, ?_⟩
  · rw [transmitter]
    refine (balanced.ledger.submit ready bytes options).congr rfl rfl rfl rfl ?_
    rw [TransmitBench.record, submissions, writeBacks, deliveries]
    rfl
  · change after.mac.lifecycle ≠ _
    rw [mac]
    exact balanced.up
  · rw [transmitter]
    rfl
  · have heavier := before.mac.transmitter.load_fill before.mac.transmitter.nextSlot bytes options
    rw [transmitter, deliveries, length]
    omega

theorem delivers {entry : StampDelivery} (balanced : Balanced before) (delivers : Delivers before after entry) :
    Continues before after := by
  refine ⟨⟨delivers.ledger, balanced.chronicle.take delivers, ?_⟩,
    ⟨[], (List.append_nil _).trans delivers.submissions.symm⟩,
    ⟨[], (List.append_nil _).trans delivers.writeBacks.symm⟩, ⟨[entry], delivers.deliveries, ?_⟩,
    delivers.completing, ?_⟩
  · rw [delivers.lifecycle]
    exact balanced.up
  · intro d only
    rw [List.mem_singleton.mp only]
    exact delivers.waited.inRing.recent
  · have lighter := delivers.load
    have one := delivers.deliveries_length
    rw [delivers.submissions]
    omega

theorem deliveries_le (continues : Continues before after) :
    before.world.deliveries.length ≤ after.world.deliveries.length := by
  obtain ⟨fresh, grown, _⟩ := continues.deliveries
  rw [grown, List.length_append]
  exact Nat.le_add_right _ _

end Continues

end EthernetMac

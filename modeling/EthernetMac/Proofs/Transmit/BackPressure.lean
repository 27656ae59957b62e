import Mathlib.Data.List.FinRange
import EthernetMac.Proofs.Transmit.Fifo

namespace EthernetMac

namespace Ring

variable {n : Nat}

/-- A turn from any slot on meets every slot once. -/
theorem places_perm (ring : Ring n) (start : Fin n) : ring.places.Perm ((List.range n).map (advance start)) := by
  refine (List.perm_ext_iff_of_nodup (List.nodup_finRange n) (nodup_advance start (Nat.le_refl n))).mpr fun i => ?_
  refine iff_of_true (List.mem_finRange i) (List.mem_map.mpr ?_)
  obtain ⟨k, inside, place⟩ := exists_advance start i
  exact ⟨k, List.mem_range.mpr inside, place⟩

theorem IsArc.countP_released {ring : Ring n} {start : Fin n} {count : Nat} (arc : ring.IsArc start count) :
    ring.places.countP (fun i => !ring.isOwned i) = count := by
  have fits := arc.fits
  have turn : List.range n = List.range count ++ (List.range (n - count)).map (count + ·) := by
    rw [← List.range_add, Nat.add_sub_cancel' fits]
  have released : (List.range count).countP ((fun i => !ring.isOwned i) ∘ advance start) = count := by
    refine (List.countP_eq_length.mpr fun k inside => ?_).trans List.length_range
    rw [Function.comp_apply, arc.released k (List.mem_range.mp inside)]
    rfl
  have owned : ((List.range (n - count)).map (count + ·)).countP ((fun i => !ring.isOwned i) ∘ advance start) = 0 := by
    refine List.countP_eq_zero.mpr fun k among => ?_
    obtain ⟨beyond, inside, rfl⟩ := List.mem_map.mp among
    have near := List.mem_range.mp inside
    rw [Function.comp_apply, arc.owned _ (by omega) (by omega)]
    exact Bool.false_ne_true
  rw [(ring.places_perm start).countP_eq, List.countP_map, turn, List.countP_append, released, owned, Nat.add_zero]

end Ring

variable {g : Geometry} {ε : Type}

namespace Transmitter

def IsFull (t : Transmitter g) : Prop := ∀ i, t.ring.isOwned i = true

instance (t : Transmitter g) : Decidable t.IsFull := inferInstanceAs (Decidable (∀ i, t.ring.isOwned i = true))

/-- As long as the free slots begin at the next one to be filled, that one is free unless none is. -/
theorem isReady_iff {t : Transmitter g} {count : Nat} (arc : t.ring.IsArc t.nextSlot count) :
    t.isReady = true ↔ 0 < t.available := by
  have counted : t.available = count := arc.countP_released
  rw [counted, isReady, Bool.not_eq_true']
  exact arc.released_start_iff

theorem isFull_iff {t : Transmitter g} {count : Nat} (arc : t.ring.IsArc t.nextSlot count) :
    t.IsFull ↔ t.isReady = false := by
  rw [← Bool.not_eq_true, isReady_iff arc]
  constructor
  · intro full some
    obtain ⟨i, _, free⟩ := List.countP_pos_iff.mp some
    rw [full i] at free
    cases free
  · intro none i
    refine Decidable.byContradiction fun free => none (List.countP_pos_iff.mpr ⟨i, List.mem_finRange i, ?_⟩)
    rwa [Bool.not_eq_true', ← Bool.not_eq_true]

end Transmitter

namespace Board

theorem awaitSlot_free (idle : BoardM g ε Unit) (spins : Nat) {i : Fin g.tx} {board : Board g ε}
    (free : board.mac.transmitter.ring.isOwned i = false) : awaitSlot i idle spins board = some ((), board) := by
  unfold awaitSlot
  rw [Call.get_bind_apply, if_neg (Bool.eq_false_iff.mp free)]
  rfl

theorem awaitSlot_zero (idle : BoardM g ε Unit) {i : Fin g.tx} {board : Board g ε}
    (owned : board.mac.transmitter.ring.isOwned i = true) : awaitSlot i idle 0 board = none := by
  unfold awaitSlot
  rw [Call.get_bind_apply, if_pos owned]
  rfl

theorem awaitSlot_succ (idle : BoardM g ε Unit) (spins : Nat) {i : Fin g.tx} {board : Board g ε}
    (owned : board.mac.transmitter.ring.isOwned i = true) :
    awaitSlot i idle (spins + 1) board = awaitSlot i idle spins (idle board).2 := by
  rw [awaitSlot, Call.get_bind_apply, if_pos owned]
  exact Call.quiet_bind_apply idle _ board

theorem transmit_apply [Bus ε] {bytes : Array UInt8} (options : TxOptions) (idle : BoardM g ε Unit) (spins : Nat)
    {board : Board g ε} (running : board.mac.lifecycle = .running) (valid : g.lengthFault? bytes.size = none) :
    transmit bytes options idle spins board =
      (awaitSlot board.mac.transmitter.nextSlot idle spins board).map fun waited =>
        (.ok (fillSlot board.mac.transmitter.nextSlot bytes options waited.2).1,
          (fillSlot board.mac.transmitter.nextSlot bytes options waited.2).2) := by
  unfold transmit submitWaiting
  rw [Call.get_bind_apply, if_pos running, valid]
  dsimp only
  rw [Call.get_bind_apply, Call.bind_apply]
  cases awaitSlot board.mac.transmitter.nextSlot idle spins board with
  | none => rfl
  | some waited => rfl

/-- What the driver does with a frame of valid length depends on whether there is a free slot. If there is one the frame
is taken at once. Otherwise it is refused or, by the waiting call, kept back turn by turn. -/
structure PushesBack [Bus ε] (board : Board g ε) (bytes : Array UInt8) (options : TxOptions) : Prop where
  busy : (tryTransmit bytes options board).1 = .error (.dma .descriptorBusy) ↔ board.mac.transmitter.IsFull
  taken : (∃ sequence, (tryTransmit bytes options board).1 = .ok sequence) ↔ ¬ board.mac.transmitter.IsFull
  prompt : ¬ board.mac.transmitter.IsFull → ∀ idle spins,
    transmit bytes options idle spins board = some (tryTransmit bytes options board)
  stuck : board.mac.transmitter.IsFull → ∀ idle, transmit bytes options idle 0 board = none
  spins : board.mac.transmitter.IsFull → ∀ (idle : BoardM g ε Unit) spins, (idle board).2.mac.lifecycle = .running →
    (idle board).2.mac.transmitter.nextSlot = board.mac.transmitter.nextSlot →
    transmit bytes options idle (spins + 1) board = transmit bytes options idle spins (idle board).2

theorem pushesBack [Bus ε] {board : Board g ε} {count : Nat}
    (arc : board.mac.transmitter.ring.IsArc board.mac.transmitter.nextSlot count)
    (running : board.mac.lifecycle = .running) {bytes : Array UInt8} (options : TxOptions)
    (valid : g.lengthFault? bytes.size = none) : board.PushesBack bytes options := by
  have full := Transmitter.isFull_iff arc
  have tried := tryTransmit_apply bytes options board
  rw [if_pos running, valid] at tried
  dsimp only at tried
  cases ready : board.mac.transmitter.isReady with
  | true =>
    have room : ¬ board.mac.transmitter.IsFull := fun none => Bool.false_ne_true ((full.mp none).symm.trans ready)
    have free : board.mac.transmitter.ring.isOwned board.mac.transmitter.nextSlot = false := by
      rwa [Transmitter.isReady, Bool.not_eq_true'] at ready
    rw [ready, if_pos rfl] at tried
    refine ⟨iff_of_false ?_ room, iff_of_true ⟨_, congrArg Prod.fst tried⟩ room, fun _ idle spins => ?_,
      fun none => absurd none room, fun none => absurd none room⟩
    · rw [tried]
      intro refused
      cases refused
    · rw [transmit_apply options idle spins running valid, awaitSlot_free idle spins free, tried]
      rfl
  | false =>
    have isFull := full.mpr ready
    have owned := isFull board.mac.transmitter.nextSlot
    rw [ready, if_neg Bool.false_ne_true] at tried
    refine ⟨iff_of_true (congrArg Prod.fst tried) isFull, iff_of_false ?_ (not_not_intro isFull),
      fun room => absurd isFull room, fun _ idle => ?_, fun _ idle spins later same => ?_⟩
    · rintro ⟨sequence, taken⟩
      rw [tried] at taken
      cases taken
    · rw [transmit_apply options idle 0 running valid, awaitSlot_zero idle owned]
      rfl
    · rw [transmit_apply options idle _ running valid, transmit_apply options idle _ later valid, same,
        awaitSlot_succ idle spins owned]

end Board

end EthernetMac

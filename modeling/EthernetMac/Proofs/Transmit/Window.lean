import EthernetMac.Proofs.Invariance
import EthernetMac.Proofs.Transmit.Ledger
import EthernetMac.Proofs.Transmit.Waiting

namespace EthernetMac

variable {g : Geometry} {σ : Type}

/-- The slots that were filled so far are those from slot 0 on, round the ring; the counts of the transmitter tell how
many there were, and a slot keeps the number of the frame that it was last filled with. -/
structure Transmitter.Numbers (t : Transmitter g) (used : List (Fin g.tx)) : Prop where
  slots : used = (List.range used.length).map g.txSlot
  submitted : t.submitted = UInt16.ofNat used.length
  nextSlot : t.nextSlot = g.txSlot used.length
  sequence : ∀ j, j < used.length → used.length ≤ j + g.tx →
    (t.ring.slot (g.txSlot j)).ext.sequence = UInt16.ofNat (j + 1)

namespace Transmitter.Numbers

variable {t t' : Transmitter g} {used : List (Fin g.tx)}

theorem init (submitted : t.submitted = 0) (nextSlot : t.nextSlot = g.firstTx) : t.Numbers [] where
  slots := rfl
  submitted := submitted
  nextSlot := nextSlot.trans (Fin.ext (Nat.zero_mod g.tx).symm)
  sequence _ none := absurd none (Nat.not_lt_zero _)

theorem congr (numbers : t.Numbers used) (submitted : t'.submitted = t.submitted) (nextSlot : t'.nextSlot = t.nextSlot)
    (sequence : ∀ i, (t'.ring.slot i).ext.sequence = (t.ring.slot i).ext.sequence) : t'.Numbers used where
  slots := numbers.slots
  submitted := submitted.trans numbers.submitted
  nextSlot := nextSlot.trans numbers.nextSlot
  sequence j made recent := (sequence _).trans (numbers.sequence j made recent)

/-- A frame takes the slot of the oldest number and gets the next one. -/
theorem fill (numbers : t.Numbers used) (bytes : Array UInt8) (options : TxOptions) :
    (t.fill (g.txSlot used.length) bytes options).Numbers (used ++ [g.txSlot used.length]) := by
  have next : t.submitted + 1 = UInt16.ofNat (used.length + 1) := by
    rw [numbers.submitted, UInt16.ofNat_add]
    rfl
  refine ⟨?_, ?_, ?_, fun j made recent => ?_⟩
  · rw [List.length_append, List.length_singleton, List.range_succ, List.map_append, ← numbers.slots]
    rfl
  · rw [List.length_append]
    exact next
  · rw [List.length_append, List.length_singleton, Geometry.txSlot_add]
    rfl
  · rw [List.length_append, List.length_singleton] at made recent
    rw [Transmitter.fill]
    rcases Nat.lt_or_eq_of_le (Nat.le_of_lt_succ made) with old | rfl
    · have apart : g.txSlot used.length ≠ g.txSlot j := fun same =>
        Nat.ne_of_gt old (Geometry.txSlot_injective (Nat.lt_succ_self _) made (by omega) recent same)
      rw [Ring.slot_modifySlot_of_ne _ _ apart]
      exact numbers.sequence j old (by omega)
    · rw [Ring.slot_modifySlot_self]
      exact next

/-- The slot `k + 1` places in front of the next one has the number of the submission `k` before the last one. -/
theorem sequence_back (numbers : t.Numbers used) {k : Nat} (made : k < used.length) (inside : k < g.tx) :
    (t.ring.slot (Ring.advance t.nextSlot (g.tx - 1 - k))).ext.sequence = UInt16.ofNat (used.length - k) := by
  have place : Ring.advance t.nextSlot (g.tx - 1 - k) = g.txSlot (used.length - 1 - k) := by
    rw [numbers.nextSlot, ← Geometry.txSlot_add, ← Geometry.txSlot_turn g (used.length - 1 - k)]
    exact congrArg g.txSlot (by omega)
  rw [place, numbers.sequence _ (by omega) (by omega)]
  exact congrArg UInt16.ofNat (by omega)

/-- Any slot that was used is that of one of the latest submissions. -/
theorem latest (numbers : t.Numbers used) {i : Fin g.tx} (among : i ∈ used) :
    ∃ j, j < used.length ∧ used.length ≤ j + g.tx ∧ g.txSlot j = i := by
  rw [numbers.slots] at among
  obtain ⟨j, made, rfl⟩ := List.mem_map.mp among
  exact Geometry.exists_txSlot _ (Nat.lt_of_le_of_lt (Nat.mod_le j g.tx) (List.mem_range.mp made))

theorem behind (numbers : t.Numbers used) {j : Nat} (made : j < used.length) (recent : used.length ≤ j + g.tx) :
    (t.submitted - (t.ring.slot (g.txSlot j)).ext.sequence).toNat = used.length - (j + 1) := by
  have small := g.tx_le
  rw [numbers.submitted, numbers.sequence j made recent]
  exact sequence_behind made (by omega)

end Transmitter.Numbers

/-- The hardware finishes the frames that it holds in any order and with any words. All else that happens leaves the
transmitter as it is. -/
inductive Board.Completes {ρ : Type} : Board g (Recorded ρ σ) → Board g (Recorded ρ σ) → Prop
  | aside {before after} : before.SparesTransmitter after → Completes before after
  | finish {before i d} : before.mac.transmitter.ring.isOwned i = true → d.isOwned = false →
      Completes before (before.sentBack i d)

/-- The slots of the frames that were submitted are recorded as they are filled, from the bring-up on. -/
structure Board.NumbersSlots (board : Board g (Recorded (List (Fin g.tx)) σ)) : Prop where
  numbers : board.mac.transmitter.Numbers board.world.record
  fresh : ¬ board.IsUp → board.world.record = []

namespace Setting

/-- The slot of every frame that is submitted is recorded. No frame is submitted while another one waits for its
slot. -/
def usedSlots : Setting g (Recorded (List (Fin g.tx)) σ) where
  moves := Board.Completes
  waits before after := after.world.record = before.world.record
  submitted i _ _ := Recorded.modify (· ++ [i])
  delivered _ _ world := world
  stays_up moved up := by
    cases moved with
    | aside same => exact same.up.mpr up
    | finish => exact up

theorem usedSlots_keeps :
    (usedSlots : Setting g (Recorded (List (Fin g.tx)) σ)).Keeps Recorded.record Board.NumbersSlots where
  aside same kept := by
    refine ⟨?_, fun down => ?_⟩
    · rw [same.world]
      exact kept.numbers.congr same.submitted same.nextSlot fun i => by rw [same.txRing]
    · rw [same.world]
      exact kept.fresh fun up => down (same.up.mpr up)
  still same := same.world
  move moved kept := by
    cases moved with
    | aside same =>
      obtain ⟨numbers, fresh⟩ := kept
      rw [← same.transmitter, ← same.record] at numbers
      rw [← same.up, ← same.record] at fresh
      exact ⟨numbers, fresh⟩
    | @finish i d _ _ =>
      refine ⟨kept.numbers.congr rfl rfl fun j => ?_, kept.fresh⟩
      exact congrArg Extension.sequence (Ring.ext_setDescriptor _ i d j)
  layOut {board} down kept := by
    refine ⟨?_, fun up => absurd (fun fresh => nomatch fresh) up⟩
    change Transmitter.Numbers _ board.world.record
    rw [kept.fresh down]
    exact .init rfl rfl
  fill {first board bytes options result} waits before kept up _ _ := by
    have slot : first.mac.transmitter.nextSlot = g.txSlot board.world.record.length := by
      rw [before.numbers.nextSlot, waited (·.world.record) id waits]
    rw [slot]
    exact ⟨kept.numbers.fill bytes options, fun down => absurd up down⟩
  take _ kept := ⟨kept.numbers.congr rfl rfl (Transmitter.sequence_takeStamp _ _), kept.fresh⟩
  rearm _ _ _ kept := ⟨kept.numbers, kept.fresh⟩

end Setting

/-- The numbers in a transmit ring are a window on the count of submissions. After `n` of them the counter stands at `n`
and the cursor at slot `n`, each as far round as it reaches; and going back from the cursor the slots hold `n`, `n - 1`
and so on, as far as they were used. So all of these numbers differ, and each is less than a turn of the ring behind the
counter. -/
theorem sequence_window [Bus σ] {placement : Placement} {before after : Board g (Recorded (List (Fin g.tx)) σ)}
    (unused : before.mac = Mac.blank g placement) (nothing : before.world.record = [])
    (run : Setting.usedSlots.Run before after) :
    after.mac.transmitter.submitted.toNat = after.world.record.length % 65536 ∧
    after.mac.transmitter.nextSlot.val = after.world.record.length % g.tx ∧
    (∀ k, k < min after.world.record.length g.tx →
      (after.mac.transmitter.ring.slot
        (Ring.advance after.mac.transmitter.nextSlot (g.tx - 1 - k))).ext.sequence.toNat =
          (after.world.record.length - k) % 65536) ∧
    (∀ i ∈ after.world.record,
      (after.mac.transmitter.submitted - (after.mac.transmitter.ring.slot i).ext.sequence).toNat < g.tx) ∧
    (∀ i ∈ after.world.record, ∀ j ∈ after.world.record,
      (after.mac.transmitter.ring.slot i).ext.sequence = (after.mac.transmitter.ring.slot j).ext.sequence → i = j) := by
  have start : before.NumbersSlots := by
    refine ⟨?_, fun _ => nothing⟩
    rw [nothing, unused]
    exact .init rfl rfl
  have numbers := ((run.onward Recorded.untouched Setting.usedSlots_keeps).keeps start).numbers
  refine ⟨?_, ?_, fun k within => ?_, fun i among => ?_, fun i amongI j amongJ same => ?_⟩
  · rw [numbers.submitted, UInt16.toNat_ofNat']
  · rw [numbers.nextSlot]
    rfl
  · obtain ⟨made, inside⟩ := Nat.lt_min.mp within
    rw [numbers.sequence_back made inside, UInt16.toNat_ofNat']
  · obtain ⟨k, made, recent, rfl⟩ := numbers.latest among
    rw [numbers.behind made recent]
    omega
  · obtain ⟨k, madeK, recentK, rfl⟩ := numbers.latest amongI
    obtain ⟨l, madeL, recentL, rfl⟩ := numbers.latest amongJ
    have behindK := numbers.behind madeK recentK
    rw [same, numbers.behind madeL recentL] at behindK
    exact congrArg g.txSlot (by omega)

/-- Both slots are filled, and the first of them again when the hardware has given it back. -/
theorem sequence_window_turned :
    ∃ board : Board .pair (Recorded (List (Fin Geometry.pair.tx)) RestingPeripheral),
      board.world.record = [Geometry.pair.firstTx, Ring.next Geometry.pair.firstTx, Geometry.pair.firstTx] ∧
        board.mac.transmitter.submitted.toNat = 3 ∧
        board.mac.transmitter.nextSlot = Ring.next Geometry.pair.firstTx ∧
        (board.mac.transmitter.ring.slot Geometry.pair.firstTx).ext.sequence.toNat = 3 ∧
        (board.mac.transmitter.ring.slot (Ring.next Geometry.pair.firstTx)).ext.sequence.toNat = 2 := by
  have started := Setting.RunWhile.started Setting.usedSlots (fun _ => True) {}
    (.untried ⟨0, 0x10000, 0x20000⟩ ⟨[], {}⟩ : Board .pair (Recorded (List (Fin Geometry.pair.tx)) RestingPeripheral))
  have one := started.tryTransmit (rfl : Board.tryTransmit #[1] .none _ = _)
  have two := one.tryTransmit (rfl : Board.tryTransmit #[2] .none _ = _)
  have finished := two.move (@Board.Completes.finish _ _ _ _ Geometry.pair.firstTx {} rfl rfl)
  have three := finished.tryTransmit (rfl : Board.tryTransmit #[3] .none _ = _)
  obtain ⟨submitted, next, window, _⟩ := sequence_window rfl rfl three
  exact ⟨_, rfl, submitted, Fin.ext next, window 0 (by decide), window 1 (by decide)⟩

end EthernetMac

import Mathlib.Logic.Relation
import EthernetMac.Proofs.Transmit.Bench

namespace EthernetMac

variable {g : Geometry} {ε σ : Type}

namespace Board

theorem fillSlot_mac [Bus ε] (i : Fin g.tx) (bytes : Array UInt8) (options : TxOptions) (board : Board g ε) :
    (fillSlot i bytes options board).2.mac =
      { board.mac with transmitter := board.mac.transmitter.fill i bytes options } := rfl

theorem fillSlot_record [Bus σ] (i : Fin g.tx) (bytes : Array UInt8) (options : TxOptions)
    (board : Board g (TransmitBench σ)) :
    (fillSlot i bytes options board).2.world.record = board.world.record :=
  TransmitBench.record_untouched.write _ _ _

theorem tryTransmit_apply [Bus ε] (bytes : Array UInt8) (options : TxOptions) (board : Board g ε) :
    tryTransmit bytes options board =
      if board.mac.lifecycle = .running then
        match g.lengthFault? bytes.size with
        | some fault => (.error (.dma fault), board)
        | none =>
          if board.mac.transmitter.isReady then
            (.ok (fillSlot board.mac.transmitter.nextSlot bytes options board).1,
              (fillSlot board.mac.transmitter.nextSlot bytes options board).2)
          else (.error (.dma .descriptorBusy), board)
      else (.error (.bus .invalidState), board) := by
  unfold tryTransmit
  rw [BoardM.bind_apply, lifecycle_apply]
  by_cases running : board.mac.lifecycle = .running
  · rw [if_pos running, if_pos running]
    unfold submitNow
    cases g.lengthFault? bytes.size with
    | some fault => rfl
    | none =>
      dsimp only
      rw [BoardM.bind_apply, transmitter_apply]
      by_cases ready : board.mac.transmitter.isReady = true
      · rw [if_pos ready, if_pos ready]
        rfl
      · rw [if_neg ready, if_neg ready]
        rfl
  · rw [if_neg running, if_neg running]
    rfl

theorem tryTransmit_ok [Bus ε] {bytes : Array UInt8} {options : TxOptions} {before after : Board g ε}
    {sequence : UInt16} (run : tryTransmit bytes options before = (.ok sequence, after)) :
    before.mac.transmitter.isReady = true ∧
      after = (fillSlot before.mac.transmitter.nextSlot bytes options before).2 := by
  rw [tryTransmit_apply] at run
  split at run
  · split at run
    · cases run
    · split at run
      · rename_i ready
        exact ⟨ready, (Prod.mk.inj run).2.symm⟩
      · cases run
  · cases run

/-- Waiting for a slot lets the surroundings go on until the hardware has given the slot back. -/
theorem awaitSlot_ok {R : Board g ε → Board g ε → Prop} {i : Fin g.tx} {idle : BoardM g ε Unit}
    (turn : ∀ board, Relation.ReflTransGen R board (idle board).2) {spins : Nat} {before after : Board g ε}
    (run : awaitSlot i idle spins before = some ((), after)) :
    Relation.ReflTransGen R before after ∧ after.mac.transmitter.ring.isOwned i = false := by
  induction spins generalizing before with
  | zero =>
    unfold awaitSlot at run
    rw [Call.get_bind_apply] at run
    split at run
    · cases run
    · rename_i free
      obtain ⟨_, rfl⟩ := Prod.mk.inj (Option.some.inj run)
      exact ⟨.refl, Bool.eq_false_iff.mpr free⟩
  | succ spins ih =>
    unfold awaitSlot at run
    rw [Call.get_bind_apply] at run
    split at run
    · dsimp only at run
      rw [Call.quiet_bind_apply] at run
      obtain ⟨later, free⟩ := ih run
      exact ⟨(turn before).trans later, free⟩
    · rename_i free
      obtain ⟨_, rfl⟩ := Prod.mk.inj (Option.some.inj run)
      exact ⟨.refl, Bool.eq_false_iff.mpr free⟩

/-- A submission with waiting is refused at once, or the surroundings go on until the slot that was the next one when
the wait began is free, and that slot is filled. -/
theorem transmit_cases [Bus ε] {R : Board g ε → Board g ε → Prop} {bytes : Array UInt8} {options : TxOptions}
    {idle : BoardM g ε Unit} (turn : ∀ board, Relation.ReflTransGen R board (idle board).2) {spins : Nat}
    {before after : Board g ε} {result : Except Failure UInt16}
    (run : transmit bytes options idle spins before = some (result, after)) :
    (∃ failure, result = .error failure ∧ after = before) ∨
      ∃ sequence middle, result = .ok sequence ∧ before.mac.lifecycle = .running ∧
        g.lengthFault? bytes.size = none ∧ Relation.ReflTransGen R before middle ∧
        middle.mac.transmitter.ring.isOwned before.mac.transmitter.nextSlot = false ∧
        after = (fillSlot before.mac.transmitter.nextSlot bytes options middle).2 := by
  unfold transmit at run
  rw [Call.get_bind_apply] at run
  split at run
  · rename_i running
    unfold submitWaiting at run
    cases fault : g.lengthFault? bytes.size with
    | some reason =>
      rw [fault] at run
      obtain ⟨rfl, rfl⟩ := Prod.mk.inj (Option.some.inj run)
      exact Or.inl ⟨_, rfl, rfl⟩
    | none =>
      simp only [fault] at run
      rw [Call.get_bind_apply] at run
      obtain ⟨⟨⟩, middle, waited, run⟩ := Call.bind_eq_some.mp run
      obtain ⟨events, free⟩ := awaitSlot_ok turn waited
      rw [Call.quiet_bind_apply] at run
      obtain ⟨rfl, rfl⟩ := Prod.mk.inj (Option.some.inj run)
      exact Or.inr ⟨_, middle, rfl, running, rfl, events, free, rfl⟩
  · obtain ⟨rfl, rfl⟩ := Prod.mk.inj (Option.some.inj run)
    exact Or.inl ⟨_, rfl, rfl⟩

theorem transmit_ok [Bus ε] {R : Board g ε → Board g ε → Prop} {bytes : Array UInt8} {options : TxOptions}
    {idle : BoardM g ε Unit} (turn : ∀ board, Relation.ReflTransGen R board (idle board).2) {spins : Nat}
    {before after : Board g ε} {sequence : UInt16}
    (run : transmit bytes options idle spins before = some (.ok sequence, after)) :
    ∃ middle, Relation.ReflTransGen R before middle ∧
      middle.mac.transmitter.ring.isOwned before.mac.transmitter.nextSlot = false ∧
      after = (fillSlot before.mac.transmitter.nextSlot bytes options middle).2 := by
  rcases transmit_cases turn run with ⟨failure, refused, _⟩ | ⟨_, middle, _, _, _, events, free, filled⟩
  · cases refused
  · exact ⟨middle, events, free, filled⟩

end Board

end EthernetMac
